import Reconciler.Proofs.Host.Undelivered

/-!
# Gated types

A gated type is a type of entity that is watched only while this replica leads, together with the
leadership channel, its clock and everything outside. Four parts act on their own (`Act`): the
follower of the channel, the watcher, its connection, and the consumer of the queue. They do so in
any order. Between their acts anything may happen outside (`Step`): the clock moves, the connection
brings more, entities are scheduled; and leadership is published, but not before the follower has
seen what was published before.

A gated type is `Blocked` when none of its parts can act. The schedule of a real run, which lets the
follower go first and the consumer last, is made of these acts, and comes to its end exactly when
the type is blocked (`turn_act`, `blocked_of_turn`).
-/

namespace Reconciler.Host

open Leadership (Channel Follower)
open Queue (Command Entry meet)

variable {K E Q D R : Type} {A : Q → Type} [Entity K]

/-! ## Connections -/

def Connection.IsNamed (c : Connection K) : Prop :=
  ∀ event, .ok event ∈ c.items → event.IsNamed

def Opening.IsNamed (o : Opening K) : Prop :=
  ∀ connection, o.outcome = .ok connection → connection.IsNamed

/-- Every entity in what the connection brings has an identity. -/
def Link.IsNamed : Link K → Prop
  | .none => True
  | .opening o => o.IsNamed
  | .opened c => c.IsNamed

/-- Every entity in what a connection brings has an identity. -/
def Backend.OpensNamed (b : Backend K Q A E) : Prop :=
  ∀ now place request env, (b.watch now place request env).2.IsNamed

section Links

/-- What a connection brings is no order, and about named entities only. -/
theorem incoming?_spec {p q : Pipeline K Q A E D R} {now : Nat} {input : Watch.Input K}
    (hnamed : p.link.IsNamed) (hincoming : p.incoming? now = some (q, input)) :
    p.link ≠ .none ∧ input ≠ .start ∧ input ≠ .stop ∧ input.IsNamed ∧
      ∃ link : Link K, link.IsNamed ∧ q = { p with link } := by
  unfold Pipeline.incoming? at hincoming
  split at hincoming
  · cases hincoming
  · next o hlink =>
    rw [hlink] at hnamed ⊢
    split at hincoming
    · split at hincoming
      · next connection houtcome =>
        obtain ⟨rfl, rfl⟩ := Prod.mk.inj (Option.some.inj hincoming)
        exact ⟨by simp, by simp, by simp, by simp [Watch.Input.IsNamed], .opened connection,
          hnamed connection houtcome, rfl⟩
      · obtain ⟨rfl, rfl⟩ := Prod.mk.inj (Option.some.inj hincoming)
        exact ⟨by simp, by simp, by simp, by simp [Watch.Input.IsNamed], .none, trivial, rfl⟩
    · cases hincoming
  · next c hlink =>
    rw [hlink] at hnamed ⊢
    split at hincoming
    · next event items hitems =>
      obtain ⟨rfl, rfl⟩ := Prod.mk.inj (Option.some.inj hincoming)
      have hmem : ∀ other, .ok other ∈ items → other.IsNamed := fun other hother =>
        hnamed other (by rw [hitems]; exact List.mem_cons_of_mem _ hother)
      refine ⟨by simp, by simp, by simp, ?_, .opened { c with items }, hmem, rfl⟩
      intro other heq
      obtain rfl := Watch.Input.event.inj heq
      exact hnamed event (by rw [hitems]; exact List.mem_cons_self)
    · next error items hitems =>
      obtain ⟨rfl, rfl⟩ := Prod.mk.inj (Option.some.inj hincoming)
      have hmem : ∀ other, .ok other ∈ items → other.IsNamed := fun other hother =>
        hnamed other (by rw [hitems]; exact List.mem_cons_of_mem _ hother)
      exact ⟨by simp, by simp, by simp, by simp [Watch.Input.IsNamed], .opened { c with items },
        hmem, rfl⟩
    · split at hincoming
      · obtain ⟨rfl, rfl⟩ := Prod.mk.inj (Option.some.inj hincoming)
        exact ⟨by simp, by simp, by simp, by simp [Watch.Input.IsNamed], .none, trivial, rfl⟩
      · cases hincoming

/-! What else happens to a connection leaves it about named entities only, and brings none about. -/

theorem offer_spec (p : Pipeline K Q A E D R) (hnamed : p.link.IsNamed)
    {item : Except Error (Watch.Event K)} (hitem : ∀ event, item = .ok event → event.IsNamed) :
    ∃ link : Link K, p.offer item = { p with link } ∧ link.IsNamed ∧
      (p.link = .none → link = .none) := by
  unfold Pipeline.offer
  split
  · next c hlink =>
    split
    · exact ⟨p.link, rfl, hnamed, id⟩
    · refine ⟨_, rfl, ?_, fun h => by rw [hlink] at h; cases h⟩
      rw [hlink] at hnamed
      intro event hevent
      rcases List.mem_append.mp hevent with hold | hnew
      · exact hnamed event hold
      · exact hitem event (List.mem_singleton.mp hnew).symm
  · exact ⟨p.link, rfl, hnamed, id⟩

theorem close_spec (p : Pipeline K Q A E D R) (hnamed : p.link.IsNamed) :
    ∃ link : Link K, p.close = { p with link } ∧ link.IsNamed ∧
      (p.link = .none → link = .none) := by
  unfold Pipeline.close
  split
  · next c hlink =>
    rw [hlink] at hnamed
    exact ⟨.opened { c with ended := true }, rfl, hnamed, fun h => by rw [hlink] at h; cases h⟩
  · exact ⟨p.link, rfl, hnamed, id⟩

theorem resume_spec (p : Pipeline K Q A E D R) (hnamed : p.link.IsNamed) :
    ∃ link : Link K, p.resume = { p with link, line := p.line.resume } ∧ link.IsNamed ∧
      (p.link = .none → link = .none) := by
  unfold Pipeline.resume
  split
  · next o hlink =>
    rw [hlink] at hnamed
    exact ⟨.opening { o with yields := false }, rfl, hnamed, fun h => by rw [hlink] at h; cases h⟩
  · exact ⟨p.link, rfl, hnamed, id⟩

end Links

/-! ## What acts show -/

def Incident.ofEffect? (cache : Cache) : Watch.Effect K → Option (Incident K)
  | .publish _ => none
  | .connect request => some (.requested request cache)
  | .send command => some (.sent command)

/-- What a watcher shows of its reaction. -/
def Watcher.shown (w : Watcher) (now draw : Nat) (input : Watch.Input K) : List (Incident K) :=
  (w.react now draw input).2.filterMap (Incident.ofEffect? (w.react now draw input).1.cache)

/-- What shows when a watcher with its queue does as it is ordered. -/
def Watcher.obeying (now draw : Nat) : Watcher → List Follower.Order → List (Incident K)
  | _, [] => []
  | w, .startWatcher :: rest =>
    Watcher.shown w now draw (.start : Watch.Input K) ++
      obeying now draw (w.react now draw (.start : Watch.Input K)).1 rest
  | w, .stopWatcher :: rest =>
    Watcher.shown w now draw (.stop : Watch.Input K) ++
      obeying now draw (w.react now draw (.stop : Watch.Input K)).1 rest
  | w, .clearQueue :: rest => .sent .clear :: obeying now draw w rest

/-! ## What a watcher shows -/

section Shown

variable {w : Watcher} {now draw : Nat} {input : Watch.Input K}

theorem filterMap_shown :
    (Watcher.shown w now draw input).filterMap Incident.command? =
      Watch.sent (w.react now draw input).2 := by
  rw [Watcher.shown, List.filterMap_filterMap, Watch.sent]
  congr 1
  funext effect
  cases effect <;> rfl

theorem of_mem_shown {i : Incident K} (hi : i ∈ Watcher.shown w now draw input) :
    i.entry? = none ∧ i.publication? = none := by
  obtain ⟨effect, -, heffect⟩ := List.mem_filterMap.mp hi
  cases effect with
  | publish state => cases heffect
  | connect request =>
    obtain rfl := Option.some.inj heffect
    exact ⟨rfl, rfl⟩
  | send command =>
    obtain rfl := Option.some.inj heffect
    exact ⟨rfl, rfl⟩

/-- Every command of a watcher schedules an entity under its identity. -/
theorem addressed_of_sent_mem_shown {command : Command K}
    (h : .sent command ∈ Watcher.shown w now draw input) : command.IsAddressed := by
  have hsent : command ∈ (Watcher.shown w now draw input).filterMap Incident.command? :=
    List.mem_filterMap.mpr ⟨_, h, rfl⟩
  rw [filterMap_shown, Watcher.sent_react, Option.mem_toList] at hsent
  obtain ⟨⟨x, trigger⟩, -, hcommand⟩ := Option.bind_eq_some_iff.mp hsent
  exact ⟨x, 0, trigger, hcommand⟩

theorem shown_start : Watcher.shown w now draw (.start : Watch.Input K) = [] := by
  simp only [Watcher.shown, Watcher.react]
  split <;> rfl

theorem shown_stop : Watcher.shown w now draw (.stop : Watch.Input K) = [] := by
  simp only [Watcher.shown, Watcher.react, Watcher.stop]
  split <;> rfl

/-- Of what a follower orders, only the clear shows. -/
theorem obeying_orders (w : Watcher) (now draw : Nat) (state : Leadership) :
    Watcher.obeying (K := K) now draw w (Follower.orders state) =
      if state = .leader then [] else [.sent .clear] := by
  cases state <;>
    simp [Follower.orders, Leadership.isLeader, Watcher.obeying, shown_start, shown_stop]

end Shown

/-! ## What happens to a watcher, in its pipeline -/

section Pipelines

variable {b : Backend K Q A E}

omit [Entity K] in
theorem performAll_watcher (b : Backend K Q A E) (now : Nat) (p : Pipeline K Q A E D R) (env : E)
    (effects : List (Watch.Effect K)) :
    (p.performAll b now env effects).1.watcher = p.watcher ∧
      (p.performAll b now env effects).1.follower = p.follower := by
  induction effects generalizing p env with
  | nil => exact ⟨rfl, rfl⟩
  | cons effect rest ih =>
    unfold Pipeline.performAll
    rw [(ih _ _).1, (ih _ _).2]
    cases effect <;> exact ⟨rfl, rfl⟩

theorem performAll_link (hb : b.OpensNamed) (now : Nat) (p : Pipeline K Q A E D R) (env : E)
    (effects : List (Watch.Effect K)) :
    (p.performAll b now env effects).1.link = p.link ∨
      (∃ request, .connect request ∈ effects) ∧
        ∃ o : Opening K, o.IsNamed ∧ (p.performAll b now env effects).1.link = .opening o := by
  induction effects generalizing p env with
  | nil => exact .inl rfl
  | cons effect rest ih =>
    unfold Pipeline.performAll
    rcases ih (p.perform b now env effect).1 (p.perform b now env effect).2 with
      hsame | ⟨⟨request, hrequest⟩, hopening⟩
    · rw [hsame]
      cases effect with
      | publish state => exact .inl rfl
      | send command => exact .inl rfl
      | connect request =>
        exact .inr ⟨⟨request, List.mem_cons_self⟩, _, hb now p.place request env, rfl⟩
    · exact .inr ⟨⟨request, List.mem_cons_of_mem _ hrequest⟩, hopening⟩

variable (now draw : Nat) (p : Pipeline K Q A E D R) (env : E) (input : Watch.Input K)

theorem tell_watcher (b : Backend K Q A E) :
    (p.tell b now draw env input).1.watcher = (p.watcher.react now draw input).1 ∧
      (p.tell b now draw env input).1.follower = p.follower :=
  performAll_watcher b now _ env _

theorem tell_line (b : Backend K Q A E) :
    (p.tell b now draw env input).1.line =
      p.line.sendAll ((Watcher.shown p.watcher now draw input).filterMap Incident.command?) := by
  rw [filterMap_shown]
  exact performAll_line b now _ env _

/-- A connection is there only while the watcher reads it or waits for it. -/
theorem tell_link (hb : b.OpensNamed) (hnamed : p.link.IsNamed) :
    (p.tell b now draw env input).1.link.IsNamed ∧
      ((p.tell b now draw env input).1.link ≠ .none →
        (p.watcher.react now draw input).1.isConnected) := by
  unfold Pipeline.tell
  rcases performAll_link hb now
    { p with
      watcher := (p.watcher.react now draw input).1
      link := if (p.watcher.react now draw input).1.isConnected then p.link else .none }
    env (p.watcher.react now draw input).2 with hsame | ⟨⟨request, hrequest⟩, o, ho, hopening⟩
  · rw [hsame]
    split
    · next hconnected => exact ⟨hnamed, fun _ => hconnected⟩
    · exact ⟨trivial, fun hne => absurd rfl hne⟩
  · rw [hopening]
    exact ⟨ho, fun _ => Watcher.isConnected_of_connect hrequest⟩

end Pipelines

/-! ## Acts and steps -/

/-- A gated type of entity with its leadership channel, its clock, and everything outside. -/
structure Gated (K Q : Type) (A : Q → Type) (E D R : Type) where
  now : Nat
  env : E
  channel : Channel
  pipeline : Pipeline K Q A E D R

namespace Gated

def watcher (s : Gated K Q A E D R) : Watcher := s.pipeline.watcher

def line (s : Gated K Q A E D R) : Line K Q A E D R := s.pipeline.line

/-- A gated type that has just been started, with the given settings and cache, on a channel, and
whose queue is consumed. -/
def started (settings : Settings) (cache : Cache) (place now : Nat) (env : E) (channel : Channel)
    (state : D) : Gated K Q A E D R where
  now
  env
  channel
  pipeline := {
    place
    watcher := .ofSettings settings cache
    gated := true
    follower := some {}
    line := { consumer := some { queue := .startingAt now, state } } }

/-- The follower has seen what was published last. -/
def Settled (s : Gated K Q A E D R) : Prop := s.pipeline.follower.bind (·.look s.channel) = none

def publish (s : Gated K Q A E D R) (state : Leadership) : Gated K Q A E D R :=
  { s with channel := s.channel.publish state }

def after (s : Gated K Q A E D R) (r : Pipeline K Q A E D R × E) : Gated K Q A E D R :=
  { s with pipeline := r.1, env := r.2 }

def withLine (s : Gated K Q A E D R) (line : Line K Q A E D R) : Gated K Q A E D R :=
  { s with pipeline := { s.pipeline with line } }

/-- What the parts of a gated type do on their own, with what it shows. -/
inductive Act (b : Backend K Q A E) (h : Handler K Q A E D R) :
    Gated K Q A E D R → List (Incident K) → Gated K Q A E D R → Prop where
  | followed {s : Gated K Q A E D R} (draw : Nat) {follower : Option Follower}
      {orders : List Follower.Order} :
      s.pipeline.follower.bind (·.look s.channel) = some (follower, orders) →
      Act b h s (Watcher.obeying s.now draw s.watcher orders)
        (s.after (Pipeline.obey b s.now draw { s.pipeline with follower } s.env orders))
  | woken {s : Gated K Q A E D R} (draw : Nat) : s.pipeline.isRestless s.now = true →
      Act b h s (Watcher.shown s.watcher s.now draw .wake)
        (s.after (s.pipeline.tell b s.now draw s.env .wake))
  | taken {s : Gated K Q A E D R} (draw : Nat) {p : Pipeline K Q A E D R} {input : Watch.Input K} :
      s.pipeline.incoming? s.now = some (p, input) →
      Act b h s (Watcher.shown s.watcher s.now draw input)
        (s.after (p.tell b s.now draw s.env input))
  | turned {s : Gated K Q A E D R} {line : Line K Q A E D R} {env : E} :
      s.line.turn b h s.now s.channel.current.isLeader s.env = some (line, env) →
      Act b h s (s.line.shown h s.now s.channel.current.isLeader) { s.withLine line with env }
  /-- The others have had their turn. -/
  | resumed {s : Gated K Q A E D R} : s.pipeline.yields = true →
      Act b h s [] { s with pipeline := s.pipeline.resume }

/-- The parts act on their own, one after the other. -/
inductive Acts (b : Backend K Q A E) (h : Handler K Q A E D R) :
    Gated K Q A E D R → List (Incident K) → Gated K Q A E D R → Prop where
  | nil {s : Gated K Q A E D R} : Acts b h s [] s
  | cons {s s₁ s₂ : Gated K Q A E D R} {early late : List (Incident K)} :
      Act b h s early s₁ → Acts b h s₁ late s₂ → Acts b h s (early ++ late) s₂

/-- No part can act. -/
def Blocked (b : Backend K Q A E) (h : Handler K Q A E D R) (s : Gated K Q A E D R) : Prop :=
  ∀ more s', ¬Act b h s more s'

/-- What can happen to a gated type, with what it shows. -/
inductive Step (b : Backend K Q A E) (h : Handler K Q A E D R) :
    Gated K Q A E D R → List (Incident K) → Gated K Q A E D R → Prop where
  | acted {s s' : Gated K Q A E D R} {more : List (Incident K)} :
      Act b h s more s' → Step b h s more s'
  | published {s : Gated K Q A E D R} (state : Leadership) : s.Settled →
      Step b h s [.published state] (s.publish state)
  /-- The clock moves, and the outside changes. -/
  | outside {s : Gated K Q A E D R} (later : Nat) (env : E) : s.now ≤ later →
      Step b h s [] { s with now := later, env }
  | scheduled {s : Gated K Q A E D R} (command : Command K) : command.IsAddressed →
      Step b h s [.sent command] (s.withLine (s.line.send command))
  /-- The other side puts an item into the connection. -/
  | offered {s : Gated K Q A E D R} {item : Except Error (Watch.Event K)} :
      (∀ event, item = .ok event → event.IsNamed) →
      Step b h s [] { s with pipeline := s.pipeline.offer item }
  /-- The other side ends the connection. -/
  | closed {s : Gated K Q A E D R} : Step b h s [] { s with pipeline := s.pipeline.close }

inductive Run (b : Backend K Q A E) (h : Handler K Q A E D R) (start : Gated K Q A E D R) :
    List (Incident K) → Gated K Q A E D R → Prop where
  | nil : Run b h start [] start
  | snoc {trace more : List (Incident K)} {s s' : Gated K Q A E D R} :
      Run b h start trace s → Step b h s more s' → Run b h start (trace ++ more) s'

section Runs

variable {b : Backend K Q A E} {h : Handler K Q A E D R} {start s s' : Gated K Q A E D R}
  {trace more : List (Incident K)}

theorem Run.trans (hrun : Run b h start trace s) (hmore : Run b h s more s') :
    Run b h start (trace ++ more) s' := by
  induction hmore with
  | nil =>
    rw [List.append_nil]
    exact hrun
  | snoc _ hstep ih =>
    rw [← List.append_assoc]
    exact ih.snoc hstep

theorem Acts.run (hacts : Acts b h s more s') : Run b h s more s' := by
  induction hacts with
  | nil => exact .nil
  | cons hact _ ih => exact (Run.nil.snoc (.acted hact)).trans ih

end Runs

/-! ## Turns of a pipeline -/

section Turns

variable {b : Backend K Q A E} {h : Handler K Q A E D R} {s s' : Gated K Q A E D R}

/-- What the pipeline does next, if it is its turn. -/
def turn (b : Backend K Q A E) (h : Handler K Q A E D R) (draw : Nat) (s : Gated K Q A E D R) :
    Option (Pipeline K Q A E D R × E) :=
  s.pipeline.turn b h s.now draw s.channel s.channel.current.isLeader s.env

/-- Whatever the pipeline does in a turn is an act of one of its parts. -/
theorem turn_act {draw : Nat} {r : Pipeline K Q A E D R × E} (hturn : s.turn b h draw = some r) :
    ∃ more, Act b h s more (s.after r) := by
  unfold turn Pipeline.turn at hturn
  split at hturn
  · next follower orders hlook =>
    obtain rfl := Option.some.inj hturn
    exact ⟨_, .followed draw hlook⟩
  · split at hturn
    · next hrestless =>
      obtain rfl := Option.some.inj hturn
      exact ⟨_, .woken draw hrestless⟩
    · split at hturn
      · next p input hincoming =>
        obtain rfl := Option.some.inj hturn
        exact ⟨_, .taken draw hincoming⟩
      · obtain ⟨⟨line, env⟩, hline, rfl⟩ := Option.map_eq_some_iff.mp hturn
        exact ⟨_, .turned hline⟩

/-- When the pipeline has no turn and none of its parts lets others go first, no part can act. -/
theorem blocked_of_turn (hturn : ∀ draw, s.turn b h draw = none)
    (hyields : s.pipeline.yields = false) : s.Blocked b h := by
  intro more s' hact
  have hnone := hturn 0
  unfold turn Pipeline.turn at hnone
  split at hnone
  · cases hnone
  · next hlook =>
    split at hnone
    · cases hnone
    · next hrestless =>
      split at hnone
      · cases hnone
      · next hincoming =>
        cases hact with
        | followed _ h => exact absurd (hlook.symm.trans h) (by simp)
        | woken _ h => exact hrestless h
        | taken _ h => exact absurd (hincoming.symm.trans h) (by simp)
        | turned h => exact absurd ((Option.map_eq_none_iff.mp hnone).symm.trans h) (by simp)
        | resumed h => exact absurd (hyields.symm.trans h) (by simp)

theorem Blocked.settled (hblocked : s.Blocked b h) : s.Settled := by
  cases hlook : s.pipeline.follower.bind (·.look s.channel) with
  | none => exact hlook
  | some looked => exact absurd (Act.followed 0 hlook) (hblocked _ _)

end Turns

end Gated

end Reconciler.Host
