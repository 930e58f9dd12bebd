import Reconciler.Proofs.Host.Courses
import Reconciler.Proofs.Host.Epochs
import Reconciler.Proofs.Host.Halting
import Reconciler.Proofs.Watch.Transitions

/-!
# Starting and stopping

A session is all that happens to a pipeline that nobody gates, from before its first start on. It is
started and stopped at any time and in any order; its watcher has turns, its connection brings what
it brings, and the line goes on.

However that goes (`start_stop_clean`), one loop runs from the first start after a stop to the next
stop, and another start changes nothing. There is at most one connection, the one that the loop asked
for last, and none without a loop. A stop leaves nothing behind, and until the next start nothing is
asked for or scheduled. The first connection that is asked for after that is asked for from the
initial version, with an empty cache.
-/

namespace Reconciler.Host

open Watch (Awaits Event Input Leads Loop Moment initialVersion stateOf statesOf)

variable {K E Q D R : Type} {A : Q → Type} [Entity K]

/-! ## Sessions -/

omit [Entity K] in
/-- A moment of a watcher, with the watcher before and after it. -/
structure Passage (K : Type) extends Moment K where
  before : Watcher
  after : Watcher

/-- Something happens to the watcher of a pipeline. -/
def Pipeline.passage (p : Pipeline K Q A E D R) (instant draw : Nat) (input : Input K) :
    Passage K where
  instant
  draw
  input
  effects := (p.watcher.react instant draw input).2
  before := p.watcher
  after := (p.watcher.react instant draw input).1

/-- One thing that happens to a pipeline, and to its watcher by that. -/
inductive Pipeline.Goes (b : Backend K Q A E) (p : Pipeline K Q A E D R) :
    List (Passage K) → Pipeline K Q A E D R → Prop
  | started (now draw : Nat) (env : E) :
    p.Goes b [p.passage now draw .start] (p.start b now draw env).1
  | stopped (now draw : Nat) (env : E) :
    p.Goes b [p.passage now draw .stop] (p.stop b now draw env).1
  | woken (now draw : Nat) (env : E) :
    p.Goes b [p.passage now draw .wake] (p.tell b now draw env .wake).1
  | taken {q : Pipeline K Q A E D R} {input : Input K} (now draw : Nat) (env : E) :
    p.incoming? now = some (q, input) →
    p.Goes b [p.passage now draw input] (q.tell b now draw env input).1
  | lined (line : Line K Q A E D R) : p.Goes b [] { p with line }
  | resumed : p.Goes b [] p.resume
  | offered (item : Except Error (Event K)) : (∀ event, item = .ok event → event.IsNamed) →
    p.Goes b [] (p.offer item)
  | closed : p.Goes b [] p.close

/-- All that happens to a pipeline. -/
inductive Session (b : Backend K Q A E) (first : Pipeline K Q A E D R) :
    List (Passage K) → Pipeline K Q A E D R → Prop
  | nil : Session b first [] first
  | snoc {past more : List (Passage K)} {p q : Pipeline K Q A E D R} :
    Session b first past p → p.Goes b more q → Session b first (past ++ more) q

/-- Whether a loop is to run after a passage. -/
def Passage.runs (running : Bool) (m : Passage K) : Bool :=
  match m.input with
  | .start => true
  | .stop => false
  | _ => running

/-- Of the calls of start and stop, the last one is a start. -/
def isRunning (past : List (Passage K)) : Bool := past.foldl Passage.runs false

/-- All that was published. -/
def publishedIn (past : List (Passage K)) : List WatcherState := past.flatMap (statesOf ·.effects)

/-- No connection was asked for and nothing was scheduled. -/
def Passage.IsQuiet (m : Passage K) : Prop := m.requests = [] ∧ Watch.sent m.effects = []

/-- The watcher has not been started. -/
structure Pipeline.IsUnstarted (p : Pipeline K Q A E D R) : Prop where
  ungated : p.gated = false
  unled : p.follower = none
  idle : p.watcher.loop = none
  unlinked : p.link = .none
  stopped : p.watcher.state = .stopped

/-- What starts and stops come to after a session. -/
structure Clean (b : Backend K Q A E) (past : List (Passage K)) (p : Pipeline K Q A E D R) : Prop where
  /-- A loop runs since a start that no stop has followed. -/
  alive : p.watcher.loop.isSome = isRunning past
  /-- The connection is the one that the loop waits for or reads; without a loop there is none. -/
  single : p.link.Fits p.watcher.loop
  /-- No more than one connection is asked for at a time. -/
  one : ∀ m ∈ past, m.requests.length ≤ 1
  /-- Starting a loop that runs changes nothing. -/
  again : ∀ now draw env, p.watcher.loop.isSome → p.start b now draw env = (p, env)
  /-- A stop leaves neither loop nor connection, wherever it comes. -/
  ends : ∀ now draw env, (p.stop b now draw env).2 = env ∧
    (p.stop b now draw env).1.watcher.state = .stopped ∧
    (p.stop b now draw env).1.watcher.loop = none ∧ (p.stop b now draw env).1.link = .none ∧
    (p.stop b now draw env).1.line = p.line
  /-- While no loop runs nothing happens until the next start. -/
  quiet : ∀ before after, past = before ++ after → isRunning before = false →
    (∀ m ∈ after, m.input ≠ .start) →
      p.watcher.state = .stopped ∧ p.link = .none ∧ ∀ m ∈ after, m.IsQuiet
  /-- What is asked for first after that starts over. -/
  fresh : ∀ before between m after, past = before ++ (between ++ m :: after) →
    isRunning before = false → (∀ n ∈ between, n.requests = []) → m.requests ≠ [] →
      m.requests = [m.before.request initialVersion] ∧ m.after.cache.size = 0
  /-- Everything that is published is allowed after what was published before. -/
  allowed : Leads .stopped (publishedIn past) p.watcher.state

/-! ## Reactions -/

omit [Entity K] in
/-- The input is one that comes to a watcher in its pipeline. -/
def Heard (w : Watcher) (input : Input K) : Prop :=
  ∀ l, w.loop = some l → input = .stop ∨ Awaits l.phase input

section Reactions

variable {w : Watcher} {now draw : Nat} {input : Input K}

theorem requests_stop (w : Watcher) (now draw : Nat) :
    (w.react now draw (.stop : Input K)).2.filterMap Watch.Effect.request? = [] := by
  simp only [Watcher.react, Watcher.stop]
  split <;> rfl

theorem requests_idle (hidle : w.loop = none) (now draw : Nat) (input : Input K) :
    (w.react now draw input).2.filterMap Watch.Effect.request? = [] := by
  cases input with
  | stop => exact requests_stop w now draw
  | start =>
    simp only [Watcher.react, hidle]
    rfl
  | _ =>
    simp only [Watcher.react, hidle]
    rfl

theorem sent_idle (hidle : w.loop = none) (now draw : Nat) (input : Input K) :
    Watch.sent (w.react now draw input).2 = [] := by
  have hnone : w.queued? input = none := by
    rcases input with _ | _ | _ | _ | _ | event | _ | _
    case event => cases event <;> simp [Watcher.queued?, hidle]
    all_goals rfl
  rw [Watcher.sent_react, hnone]
  rfl

theorem requests_le_one (hheard : Heard w input) (now draw : Nat) :
    ((w.react now draw input).2.filterMap Watch.Effect.request?).length ≤ 1 := by
  cases hloop : w.loop with
  | none =>
    rw [requests_idle hloop]
    exact Nat.zero_le 1
  | some l =>
    obtain ⟨version, phase⟩ := l
    rcases hheard _ hloop with rfl | hawaits
    · rw [requests_stop]
      exact Nat.zero_le 1
    · cases hinput : input.event? with
      | none =>
        have hturn := Watch.turn_of_awaits now draw hloop hawaits hinput
        generalize (w.react now draw input).1 = w' at hturn
        generalize (w.react now draw input).2.filterMap Watch.Effect.request? = requests at hturn
        cases hturn <;> simp
      | some event =>
        cases input with
        | event e =>
          rw [Watch.requests_event hloop]
          split <;> simp
        | _ => cases hinput

/-- A watcher without a loop, or whose loop has not had its first turn, asks for a connection only in
that turn. -/
theorem request_fresh (now draw : Nat) (hloop : w.loop = none ∨ w.loop = some {})
    (hheard : Heard w input) :
    (w.react now draw input).2.filterMap Watch.Effect.request? = [] ∧
        ((w.react now draw input).1.loop = none ∨ (w.react now draw input).1.loop = some {}) ∨
      (w.react now draw input).2.filterMap Watch.Effect.request? = [w.request initialVersion] ∧
        (w.react now draw input).1.cache.size = 0 := by
  rcases hloop with hnone | hspawned
  · refine .inl ⟨requests_idle hnone now draw input, ?_⟩
    cases input with
    | start =>
      simp only [Watcher.react, hnone]
      exact .inr rfl
    | stop =>
      simp only [Watcher.react, Watcher.stop, hnone]
      exact .inl hnone
    | _ => simp [Watcher.react, hnone]
  · rcases hheard _ hspawned with rfl | hawaits
    · refine .inl ⟨requests_stop w now draw, .inl ?_⟩
      simp only [Watcher.react, Watcher.stop, hspawned]
    · cases hawaits with
      | started =>
        simp only [Watcher.react, hspawned]
        exact .inl ⟨rfl, .inr hspawned⟩
      | woken =>
        simp only [Watcher.react, hspawned]
        exact .inr ⟨rfl, rfl⟩

/-- Whatever comes to a watcher, a loop runs afterwards if it was started, or was running and not
stopped. -/
theorem loop_react (now draw : Nat) (hheard : Heard w input) (hnamed : input.IsNamed) :
    (w.react now draw input).1.loop.isSome = match input with
      | .start => true
      | .stop => false
      | _ => w.loop.isSome := by
  cases hloop : w.loop with
  | none => cases input <;> simp [Watcher.react, Watcher.stop, Watcher.publish, hloop]
  | some l =>
    rcases hheard l hloop with rfl | hawaits
    · simp [Watcher.react, Watcher.stop, hloop]
    · have hstop : input ≠ .stop := by
        rintro rfl
        generalize l.phase = phase at hawaits
        cases hawaits
      rw [Watcher.loop_isSome_react (by rw [hloop]; rfl) hstop hnamed]
      cases input with
      | stop => exact absurd rfl hstop
      | _ => rfl

end Reactions

/-! ## Pipelines -/

section Pipelines

variable {b : Backend K Q A E} {p q : Pipeline K Q A E D R} {more : List (Passage K)}

omit [Entity K] in
theorem performAll_gated (b : Backend K Q A E) (now : Nat) (p : Pipeline K Q A E D R) (env : E)
    (effects : List (Watch.Effect K)) : (p.performAll b now env effects).1.gated = p.gated := by
  induction effects generalizing p env with
  | nil => rfl
  | cons effect rest ih =>
    unfold Pipeline.performAll
    rw [ih]
    cases effect <;> rfl

omit [Entity K] in
theorem eq_none_of_fits (hfits : p.link.Fits p.watcher.loop)
    (hconnected : p.watcher.isConnected = false) : p.link = .none := by
  unfold Watcher.isConnected at hconnected
  generalize p.watcher.loop = loop at hfits hconnected
  generalize p.link = link at hfits
  cases hfits with
  | none => rfl
  | opening => cases hconnected
  | opened => cases hconnected

/-- A stop calls nobody. -/
theorem tell_stop_env (b : Backend K Q A E) (now draw : Nat) (p : Pipeline K Q A E D R) (env : E) :
    (p.tell b now draw env .stop).2 = env := by
  cases hloop : p.watcher.loop <;>
    simp [Pipeline.tell, Watcher.react, Watcher.stop, Watcher.publish, hloop, Pipeline.performAll,
      Pipeline.perform]

/-- Nobody but its owner starts and stops the watcher of a pipeline, its connection is its own, and
it says what it does. -/
structure Tended (p : Pipeline K Q A E D R) : Prop where
  ungated : p.gated = false
  unled : p.follower = none
  named : p.link.IsNamed
  fits : p.link.Fits p.watcher.loop
  state : p.watcher.state = stateOf p.watcher.loop

theorem Tended.start_eq (h : Tended p) (now draw : Nat) (env : E) :
    p.start b now draw env = p.tell b now draw env .start := by
  unfold Pipeline.start
  rw [h.ungated]
  rfl

theorem Tended.stop_eq (h : Tended p) (now draw : Nat) (env : E) :
    p.stop b now draw env = p.tell b now draw env .stop := by
  unfold Pipeline.stop
  rw [h.unled]
  rfl

theorem Tended.again (h : Tended p) (hrunning : p.watcher.loop.isSome) (now draw : Nat) (env : E) :
    p.start b now draw env = (p, env) := by
  have hreact : p.watcher.react now draw (.start : Input K) = (p.watcher, []) := by
    simp only [Watcher.react, hrunning, if_true]
  have hlink : (if p.watcher.isConnected then p.link else .none) = p.link := by
    split
    · rfl
    · next hunconnected => exact (eq_none_of_fits h.fits (by simpa using hunconnected)).symm
  rw [h.start_eq, Pipeline.tell, hreact]
  simp only [hlink]
  rfl

/-- What is told to the watcher of a tended pipeline leaves it tended. -/
theorem Tended.tell (hb : b.OpensNamed) {input : Input K} (hungated : p.gated = false)
    (hunled : p.follower = none) (hlink : p.link.IsNamed)
    (hstate : p.watcher.state = stateOf p.watcher.loop) (hheard : Heard p.watcher input)
    (hnamed : input.IsNamed) (now draw : Nat) (env : E)
    (hfits : (p.tell b now draw env input).1.link.Fits (p.tell b now draw env input).1.watcher.loop) :
    Tended (p.tell b now draw env input).1 where
  ungated := (performAll_gated b now _ env _).trans hungated
  unled := (tell_watcher now draw p env input b).2.trans hunled
  named := (tell_link now draw p env input hb hlink).1
  fits := hfits
  state := by
    rw [(tell_watcher now draw p env input b).1]
    exact (Watcher.react_tells hstate hheard hnamed).state

/-- Starts, stops and wakes may come at any time. -/
theorem Tended.told (h : Tended p) (hb : b.OpensNamed) (now draw : Nat) (env : E) {input : Input K}
    (hinput : input = .start ∨ input = .stop ∨ input = .wake) :
    Tended (p.tell b now draw env input).1 ∧ Heard p.watcher input ∧ input.IsNamed := by
  have hheard : Heard p.watcher input := by
    intro l hloop
    rcases hinput with rfl | rfl | rfl
    · exact .inr .started
    · exact .inl rfl
    · exact .inr .woken
  have hnamed : input.IsNamed := by
    rcases hinput with rfl | rfl | rfl <;> rintro _ ⟨⟩
  refine ⟨.tell hb h.ungated h.unled h.named h.state hheard hnamed now draw env ?_, hheard, hnamed⟩
  -- Without a loop only a start makes one, and that has no connection yet.
  cases hloop : p.watcher.loop with
  | none =>
    rcases hinput with rfl | rfl | rfl
    · exact (watches_start now draw env hloop).2.fits
    · rw [(Operator.tell_stop b now draw p env).2.1]
      exact .none
    · have hlink := tell_requests b now draw p env .wake
      rw [if_pos (requests_idle hloop now draw _)] at hlink
      rw [hlink]
      split
      · next hconnected =>
        simp [Watcher.react, hloop, Watcher.isConnected] at hconnected
      · exact .none
  | some l =>
    rcases hinput with rfl | rfl | rfl
    · exact tell_fits b now draw env hloop .started hnamed h.fits
    · rw [(Operator.tell_stop b now draw p env).2.1]
      exact .none
    · exact tell_fits b now draw env hloop .woken hnamed h.fits

/-- A step is something that comes to the watcher, or leaves it as it is. -/
theorem Tended.goes (h : Tended p) (hb : b.OpensNamed) (hgoes : p.Goes b more q) :
    Tended q ∧ (more = [] ∧ q.watcher = p.watcher ∨ ∃ now draw input,
      more = [p.passage now draw input] ∧ q.watcher = (p.watcher.react now draw input).1 ∧
        Heard p.watcher input ∧ input.IsNamed) := by
  cases hgoes with
  | started now draw env =>
    rw [h.start_eq]
    obtain ⟨htended, hheard, hnamed⟩ := h.told hb now draw env (.inl rfl)
    exact ⟨htended, .inr ⟨now, draw, _, rfl, (tell_watcher now draw p env _ b).1, hheard, hnamed⟩⟩
  | stopped now draw env =>
    rw [h.stop_eq]
    obtain ⟨htended, hheard, hnamed⟩ := h.told hb now draw env (.inr (.inl rfl))
    exact ⟨htended, .inr ⟨now, draw, _, rfl, (tell_watcher now draw p env _ b).1, hheard, hnamed⟩⟩
  | woken now draw env =>
    obtain ⟨htended, hheard, hnamed⟩ := h.told hb now draw env (.inr (.inr rfl))
    exact ⟨htended, .inr ⟨now, draw, _, rfl, (tell_watcher now draw p env _ b).1, hheard, hnamed⟩⟩
  | @taken taken input now draw env hincoming =>
    obtain ⟨l, hloop, hawaits, hwatcher, hbrought⟩ := incoming?_awaits h.fits hincoming
    obtain ⟨-, -, -, hnamed, link, hlink, rfl⟩ := incoming?_spec h.named hincoming
    have hheard : Heard p.watcher input := by
      intro l' hloop'
      obtain rfl := Option.some.inj (hloop.symm.trans hloop')
      exact .inr hawaits
    refine ⟨.tell (p := { p with link }) hb h.ungated h.unled hlink h.state hheard hnamed now draw
      env ?_, .inr ⟨now, draw, input, rfl, (tell_watcher now draw _ env input b).1, hheard, hnamed⟩⟩
    exact tell_fits b now draw env hloop hawaits hnamed hbrought
  | lined line => exact ⟨⟨h.ungated, h.unled, h.named, h.fits, h.state⟩, .inl ⟨rfl, rfl⟩⟩
  | resumed =>
    obtain ⟨link, hresume, hlink, -⟩ := resume_spec p h.named
    have hfits := fits_resume h.fits
    rw [hresume] at hfits ⊢
    exact ⟨⟨h.ungated, h.unled, hlink, hfits, h.state⟩, .inl ⟨rfl, rfl⟩⟩
  | offered item hitem =>
    obtain ⟨link, hoffer, hlink, -⟩ := offer_spec p h.named hitem
    have hfits := fits_offer h.fits item
    rw [hoffer] at hfits ⊢
    exact ⟨⟨h.ungated, h.unled, hlink, hfits, h.state⟩, .inl ⟨rfl, rfl⟩⟩
  | closed =>
    obtain ⟨link, hclose, hlink, -⟩ := close_spec p h.named
    have hfits := fits_close h.fits
    rw [hclose] at hfits ⊢
    exact ⟨⟨h.ungated, h.unled, hlink, hfits, h.state⟩, .inl ⟨rfl, rfl⟩⟩

end Pipelines

/-! ## What sessions come to -/

section Sessions

variable {b : Backend K Q A E} {first p q : Pipeline K Q A E D R} {past more : List (Passage K)}

theorem Session.trans (h : Session b first past p) (h' : Session b p more q) :
    Session b first (past ++ more) q := by
  induction h' with
  | nil => rwa [List.append_nil]
  | snoc _ hgoes ih =>
    rw [← List.append_assoc]
    exact ih.snoc hgoes

theorem goes_length (hgoes : p.Goes b more q) : more = [] ∨ ∃ m, more = [m] := by
  cases hgoes with
  | started | stopped | woken | taken => exact .inr ⟨_, rfl⟩
  | lined | resumed | offered | closed => exact .inl rfl

/-- A session taken apart at a passage. -/
theorem Session.at (h : Session b first past p) {before after : List (Passage K)} {m : Passage K}
    (hpast : past = before ++ m :: after) :
    ∃ p₀ q₀, Session b first before p₀ ∧ p₀.Goes b [m] q₀ ∧ Session b q₀ after p := by
  induction h generalizing after with
  | nil => cases before <;> cases hpast
  | snoc hsession hgoes ih =>
    rcases goes_length hgoes with rfl | ⟨last, rfl⟩
    · rw [List.append_nil] at hpast
      obtain ⟨p₀, q₀, hbefore, hstep, hafter⟩ := ih hpast
      refine ⟨p₀, q₀, hbefore, hstep, ?_⟩
      rw [← List.append_nil after]
      exact hafter.snoc hgoes
    · rcases List.eq_nil_or_concat after with rfl | ⟨rest, last', rfl⟩
      · obtain ⟨rfl, hlast⟩ := List.append_inj' hpast rfl
        obtain rfl := List.singleton_inj.mp hlast
        exact ⟨_, _, hsession, hgoes, .nil⟩
      · rw [List.concat_eq_append, ← List.cons_append, ← List.append_assoc] at hpast
        obtain ⟨hbefore, hlast⟩ := List.append_inj' hpast rfl
        obtain rfl := List.singleton_inj.mp hlast
        obtain ⟨p₀, q₀, hfirst, hstep, hafter⟩ := ih hbefore
        rw [List.concat_eq_append]
        exact ⟨p₀, q₀, hfirst, hstep, hafter.snoc hgoes⟩

theorem Session.split {before after : List (Passage K)} (h : Session b first (before ++ after) p) :
    ∃ mid, Session b first before mid ∧ Session b mid after p := by
  cases after with
  | nil =>
    rw [List.append_nil] at h
    exact ⟨p, h, .nil⟩
  | cons m after =>
    obtain ⟨p₀, q₀, hbefore, hgoes, hafter⟩ := h.at rfl
    exact ⟨p₀, hbefore, (Session.nil.snoc hgoes).trans hafter⟩

theorem Pipeline.IsUnstarted.tended (h : p.IsUnstarted) : Tended p where
  ungated := h.ungated
  unled := h.unled
  named := by
    rw [h.unlinked]
    trivial
  fits := by
    rw [h.unlinked]
    exact .none
  state := by
    rw [h.idle]
    exact h.stopped

variable (hb : b.OpensNamed)
include hb

theorem Session.tended (h : Session b first past p) (hfirst : Tended first) : Tended p := by
  induction h with
  | nil => exact hfirst
  | snoc _ hgoes ih => exact (ih.goes hb hgoes).1

theorem Session.alive (h : Session b first past p) (hfirst : Tended first) :
    p.watcher.loop.isSome = past.foldl Passage.runs first.watcher.loop.isSome := by
  induction h with
  | nil => rfl
  | snoc hsession hgoes ih =>
    rcases ((hsession.tended hb hfirst).goes hb hgoes).2 with
      ⟨rfl, hwatcher⟩ | ⟨now, draw, input, rfl, hwatcher, hheard, hnamed⟩
    · rw [hwatcher, ih, List.append_nil]
    · rw [hwatcher, List.foldl_append, ← ih, loop_react _ _ hheard hnamed]
      cases input <;> rfl

theorem Session.leads (h : Session b first past p) (hfirst : Tended first) :
    Leads first.watcher.state (publishedIn past) p.watcher.state := by
  induction h with
  | nil => exact rfl
  | snoc hsession hgoes ih =>
    have htended := hsession.tended hb hfirst
    rw [publishedIn, List.flatMap_append]
    apply Leads.append ih
    rcases (htended.goes hb hgoes).2 with
      ⟨rfl, hwatcher⟩ | ⟨now, draw, input, rfl, hwatcher, hheard, hnamed⟩
    · exact congrArg Watcher.state hwatcher
    · rw [List.flatMap_singleton, hwatcher]
      exact (Watcher.react_tells htended.state hheard hnamed).leads

theorem Session.one (h : Session b first past p) (hfirst : Tended first) :
    ∀ m ∈ past, m.requests.length ≤ 1 := by
  induction h with
  | nil => exact List.forall_mem_nil _
  | snoc hsession hgoes ih =>
    rw [List.forall_mem_append]
    refine ⟨ih, ?_⟩
    rcases ((hsession.tended hb hfirst).goes hb hgoes).2 with
      ⟨rfl, -⟩ | ⟨now, draw, input, rfl, -, hheard, -⟩
    · exact List.forall_mem_nil _
    · rw [List.forall_mem_singleton]
      exact requests_le_one hheard now draw

/-- Without a loop there is none until the next start, and nothing is done. -/
theorem Session.quiet (h : Session b first past p) (hfirst : Tended first)
    (hidle : first.watcher.loop = none) (hstart : ∀ m ∈ past, m.input ≠ .start) :
    p.watcher.loop = none ∧ ∀ m ∈ past, m.IsQuiet := by
  induction h with
  | nil => exact ⟨hidle, List.forall_mem_nil _⟩
  | snoc hsession hgoes ih =>
    obtain ⟨hold, hnew⟩ := List.forall_mem_append.mp hstart
    obtain ⟨hloop, hquiet⟩ := ih hold
    rw [List.forall_mem_append]
    rcases ((hsession.tended hb hfirst).goes hb hgoes).2 with
      ⟨rfl, hwatcher⟩ | ⟨now, draw, input, rfl, hwatcher, hheard, hnamed⟩
    · rw [hwatcher]
      exact ⟨hloop, hquiet, List.forall_mem_nil _⟩
    · have hinput : input ≠ .start := hnew _ List.mem_cons_self
      have hafter := loop_react now draw hheard hnamed
      rw [hloop] at hafter
      refine ⟨?_, hquiet, ?_⟩
      · rw [hwatcher, ← Option.isNone_iff_eq_none, ← Option.not_isSome, hafter]
        cases input with
        | start => exact absurd rfl hinput
        | _ => rfl
      · rw [List.forall_mem_singleton]
        exact ⟨requests_idle hloop now draw input, sent_idle hloop now draw input⟩

/-- As long as no connection is asked for, a loop that there is has not had its first turn. -/
theorem Session.unasked (h : Session b first past p) (hfirst : Tended first)
    (hidle : first.watcher.loop = none) (hnone : ∀ m ∈ past, m.requests = []) :
    p.watcher.loop = none ∨ p.watcher.loop = some {} := by
  induction h with
  | nil => exact .inl hidle
  | snoc hsession hgoes ih =>
    obtain ⟨hold, hnew⟩ := List.forall_mem_append.mp hnone
    rcases ((hsession.tended hb hfirst).goes hb hgoes).2 with
      ⟨rfl, hwatcher⟩ | ⟨now, draw, input, rfl, hwatcher, hheard, -⟩
    · rw [hwatcher]
      exact ih hold
    · rw [hwatcher]
      rcases request_fresh now draw (ih hold) hheard with
        ⟨-, hloop⟩ | ⟨hrequest, -⟩
      · exact hloop
      · have hnothing := List.forall_mem_singleton.mp hnew
        exact absurd (hrequest.symm.trans hnothing) (List.cons_ne_nil _ _)

/-- However a watcher is started and stopped, and whatever its connections bring: there is one loop
and one connection at most, starting twice is starting once, a stop is final until the next start,
that one starts over, and only allowed transitions are published. -/
theorem start_stop_clean (hfirst : first.IsUnstarted) (h : Session b first past p) :
    Clean b past p := by
  have htended := h.tended hb hfirst.tended
  have halive : ∀ {before : List (Passage K)} {mid : Pipeline K Q A E D R},
      Session b first before mid → isRunning before = false → mid.watcher.loop = none := by
    intro before mid hsession hrunning
    have hloop := hsession.alive hb hfirst.tended
    rw [hfirst.idle] at hloop
    rw [← Option.isNone_iff_eq_none, ← Option.not_isSome, hloop]
    exact congrArg not hrunning
  refine ⟨?_, htended.fits, h.one hb hfirst.tended, fun now draw env hrunning =>
    htended.again hrunning now draw env, fun now draw env => ?_, ?_, ?_, ?_⟩
  · rw [h.alive hb hfirst.tended, hfirst.idle]
    rfl
  · obtain ⟨hloop, hlink, -, hline⟩ := Operator.tell_stop b now draw p env
    obtain ⟨hafter, -⟩ := htended.goes hb (.stopped now draw env)
    have hstate := hafter.state
    rw [htended.stop_eq] at hstate ⊢
    rw [hloop] at hstate
    exact ⟨tell_stop_env b now draw p env, hstate, hloop, hlink, hline⟩
  · intro before after hpast hrunning hstart
    rw [hpast] at h
    obtain ⟨mid, hbefore, hafter⟩ := h.split
    obtain ⟨hloop, hquiet⟩ := hafter.quiet hb (hbefore.tended hb hfirst.tended)
      (halive hbefore hrunning) hstart
    have hstate := htended.state
    have hfits := htended.fits
    rw [hloop] at hstate hfits
    refine ⟨hstate, ?_, hquiet⟩
    cases hlink : p.link with
    | none => rfl
    | opening | opened =>
      rw [hlink] at hfits
      cases hfits
  · intro before between m after hpast hrunning hnone hasks
    rw [hpast, ← List.append_assoc] at h
    obtain ⟨p₀, q₀, hsession, hgoes, -⟩ := h.at rfl
    obtain ⟨mid, hbefore, hbetween⟩ := hsession.split
    have hloop := hbetween.unasked hb (hbefore.tended hb hfirst.tended)
      (halive hbefore hrunning) hnone
    rcases ((hsession.tended hb hfirst.tended).goes hb hgoes).2 with
      ⟨hnothing, -⟩ | ⟨now, draw, input, heq, -, hheard, -⟩
    · cases hnothing
    · obtain rfl := List.singleton_inj.mp heq
      rcases request_fresh now draw hloop hheard with ⟨hnone, -⟩ | hfresh
      · exact absurd hnone hasks
      · exact hfresh
  · have hleads := h.leads hb hfirst.tended
    rwa [hfirst.stopped] at hleads

end Sessions

section Restarted

open Dispatch (Call Verdict)
open Simulation (Widget)

/-- A pipeline before its first start. -/
def unstarted : Pipeline Widget (Call Widget) Call.Answer Unit Dispatcher (Widget × Verdict) where
  watcher := .ofSettings (.named "op" "pod") .empty

/-- A watcher is started twice, asks for its connection, is stopped while it waits for it, and
started again. -/
theorem start_stop_clean_restarted :
    ∃ past p, unstarted.IsUnstarted ∧ obliging.OpensNamed ∧ Session obliging unstarted past p ∧
      past.map (·.input) = [.start, .start, .wake, .stop, .start, .wake] ∧
      past.map (·.requests.map (·.version)) = [[], [], ["0"], [], [], ["0"]] ∧
      publishedIn past = [.starting, .stopped, .stopped, .starting] ∧ Clean obliging past p := by
  have hunstarted : unstarted.IsUnstarted := ⟨rfl, rfl, rfl, rfl, rfl⟩
  have twice : Session obliging unstarted [_, _] _ :=
    (Session.nil.snoc (.started 0 0 ())).snoc (.started 0 0 ())
  have stopped : Session obliging unstarted [_, _, _, _] _ :=
    (twice.snoc (.woken 0 0 ())).snoc (.stopped 10 0 ())
  have again : Session obliging unstarted [_, _, _, _, _, _] _ :=
    (stopped.snoc (.started 20 0 ())).snoc (.woken 20 0 ())
  exact ⟨_, _, hunstarted, obliging_opensNamed, again, rfl, rfl, rfl,
    start_stop_clean obliging_opensNamed hunstarted again⟩

end Restarted

end Reconciler.Host
