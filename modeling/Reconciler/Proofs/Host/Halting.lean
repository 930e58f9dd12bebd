import Reconciler.Proofs.Host.Shutdown

/-!
# Pipelines that come to a halt

A pipeline that is stopped is halted: no loop of its watcher runs, no follower could start one, and
there is no connection. Its line may still handle an entry. Whatever it does from then on, it stays
halted, and once its consumer has ended as well it does nothing at all (`no_act_of_still`). A line
that was cancelled stays cancelled, and takes up no entry.
-/

namespace Reconciler.Host

open Leadership (Channel Follower)
open Queue (Command Entry)

variable {K Q E D R : Type} {A : Q → Type}

/-- An entry is being handled. -/
def Line.IsHandling (l : Line K Q A E D R) : Prop :=
  ∃ c job, l.consumer = some c ∧ c.activity = .busy job

theorem Line.IsHandling.not_ended {l : Line K Q A E D R} (h : l.IsHandling) :
    l.isEnded = false := by
  obtain ⟨⟨queue, activity, state⟩, job, hconsumer, rfl⟩ := h
  simp [Line.isEnded, hconsumer]

namespace Pipeline

/-- No loop of the watcher runs, and nothing can start one. -/
structure IsHalted (p : Pipeline K Q A E D R) : Prop where
  loop : p.watcher.loop = none
  follower : p.follower = none
  link : p.link = .none

/-- A halted pipeline whose consumer has ended too. -/
structure IsStill (p : Pipeline K Q A E D R) : Prop extends p.IsHalted where
  ended : p.line.isEnded = true

/-- What a pipeline has given up it does not take up again. -/
structure Becomes (p p' : Pipeline K Q A E D R) : Prop where
  cancelled : p.line.cancelled = true → p'.line.cancelled = true
  halted : p.IsHalted → p'.IsHalted
  ended : p.line.isEnded = true → p'.line.isEnded = true

end Pipeline

namespace Operator

/-- Whether an entry of a type is being handled, after one mark more. -/
def dispatchingAfter (place : Nat) (dispatching : Bool) : Mark K Q → Bool
  | .dispatched other _ => if other = place then true else dispatching
  | .concluded other => if other = place then false else dispatching
  | _ => dispatching

/-- What changes nothing one by one changes nothing at all. -/
theorem foldl_eq_self {α β : Type} {f : β → α → β} {b : β} {l : List α}
    (h : ∀ a ∈ l, f b a = b) : l.foldl f b = b := by
  induction l with
  | nil => rfl
  | cons a rest ih =>
    rw [List.foldl_cons, h a List.mem_cons_self]
    exact ih fun a ha => h a (List.mem_cons_of_mem _ ha)

section Lines

variable {l l' : Line K Q A E D R} {b : Backend K Q A E} {h : Handler K Q A E D R}
  {c : Consumer K Q A E D R} {now : Nat} {leading : Bool} {env env' : E}

theorem proceed_cancelled (plan : Plan Q A R) :
    (l.proceed b h now c plan env).1.cancelled = l.cancelled := by
  unfold Line.proceed
  cases plan with
  | ask q next => rfl
  | done r => dsimp only [Backend.proceed]; split <;> rfl

/-- A line that goes on with a plan handles an entry unless the plan is done. -/
theorem proceed_handling (place : Nat) (plan : Plan Q A R) {dispatching : Bool}
    (hafter : dispatchingAfter place dispatching (.ofPlan (K := K) place plan) = true) :
    (l.proceed b h now c plan env).1.IsHandling := by
  cases plan with
  | ask q next => exact ⟨_, _, rfl, rfl⟩
  | done r => simp [Mark.ofPlan, dispatchingAfter] at hafter

/-- A turn of a line goes on with the entry that is handled, takes one up, or takes none. -/
theorem lineTurn_cases (place : Nat) (hturn : l.turn b h now leading env = some (l', env')) :
    ∃ c, l.consumer = some c ∧
      ((∃ job, c.activity = .busy job ∧
          lineMarks place l h now leading = [.ofPlan place job.rest] ∧
          (l.sendAll job.commands).proceed b h now c job.rest (job.finish now env) = (l', env')) ∨
        (∃ entry queue, c.activity = .waiting ∧
          lineMarks place l h now leading =
            [.dispatched place entry, .ofPlan place (h.plan c.state leading entry)] ∧
          Line.proceed { l with inbox := [] } b h now { c with queue }
            (h.plan c.state leading entry) env = (l', env')) ∨
        (c.activity = .waiting ∧ lineMarks place l h now leading = ([] : List (Mark K Q)) ∧
          l'.cancelled = l.cancelled)) := by
  unfold Line.turn at hturn
  split at hturn
  · cases hturn
  · next c hc =>
    refine ⟨c, hc, ?_⟩
    split at hturn
    · cases hturn
    · next job hjob =>
      split at hturn
      · exact .inl ⟨job, hjob, by simp only [lineMarks, hc, hjob], Option.some.inj hturn⟩
      · cases hturn
    · next hwaiting =>
      split at hturn
      · split at hturn
        · next entry queue hpoll =>
          exact .inr (.inl ⟨entry, queue, hwaiting, by simp only [lineMarks, hc, hwaiting, hpoll],
            Option.some.inj hturn⟩)
        · next hpoll =>
          obtain ⟨rfl, -⟩ := Prod.mk.inj (Option.some.inj hturn)
          exact .inr (.inr ⟨hwaiting, by simp only [lineMarks, hc, hwaiting, hpoll], rfl⟩)
        · next hpoll =>
          obtain ⟨rfl, -⟩ := Prod.mk.inj (Option.some.inj hturn)
          exact .inr (.inr ⟨hwaiting, by simp only [lineMarks, hc, hwaiting, hpoll], rfl⟩)
        · next hpoll =>
          obtain ⟨rfl, -⟩ := Prod.mk.inj (Option.some.inj hturn)
          exact .inr (.inr ⟨hwaiting, by simp only [lineMarks, hc, hwaiting, hpoll], rfl⟩)
      · cases hturn

theorem lineTurn_cancelled (hturn : l.turn b h now leading env = some (l', env')) :
    l'.cancelled = l.cancelled := by
  obtain ⟨c, -, ⟨job, -, -, hproceed⟩ | ⟨entry, queue, -, -, hproceed⟩ | ⟨-, -, hsame⟩⟩ :=
    lineTurn_cases 0 hturn
  · exact (congrArg (·.1.cancelled) hproceed).symm.trans (proceed_cancelled _)
  · exact (congrArg (·.1.cancelled) hproceed).symm.trans (proceed_cancelled _)
  · exact hsame

theorem lineTurn_not_ended (hturn : l.turn b h now leading env = some (l', env')) :
    l.isEnded = false := by
  obtain ⟨⟨queue, activity, state⟩, hc, hcases⟩ := lineTurn_cases 0 hturn
  unfold Line.isEnded
  rw [hc]
  obtain ⟨job, rfl, -⟩ | ⟨entry, queue, rfl, -⟩ | ⟨rfl, -⟩ := hcases <;> rfl

/-- Where the marks say that an entry is being handled, it is. -/
theorem lineTurn_handling (place : Nat) (hturn : l.turn b h now leading env = some (l', env'))
    {dispatching : Bool} (hbefore : dispatching = true → l.IsHandling)
    (hafter : (lineMarks place l h now leading).foldl (dispatchingAfter place) dispatching = true) :
    l'.IsHandling := by
  obtain ⟨c, hc, ⟨job, -, hmarks, hproceed⟩ | ⟨entry, queue, -, hmarks, hproceed⟩ |
    ⟨hwaiting, hmarks, -⟩⟩ := lineTurn_cases place hturn
  · rw [hmarks] at hafter
    have hhandling : ((l.sendAll job.commands).proceed b h now c job.rest
        (job.finish now env)).1.IsHandling := proceed_handling place job.rest hafter
    rwa [hproceed] at hhandling
  · rw [hmarks] at hafter
    have hhandling : (Line.proceed { l with inbox := [] } b h now { c with queue }
        (h.plan c.state leading entry) env).1.IsHandling :=
      proceed_handling place (h.plan c.state leading entry) hafter
    rwa [hproceed] at hhandling
  · rw [hmarks] at hafter
    obtain ⟨c', job, hc', hjob⟩ := hbefore hafter
    obtain rfl := Option.some.inj (hc.symm.trans hc')
    exact absurd (hwaiting.symm.trans hjob) (by simp)

/-- A line that was cancelled takes up no entry. -/
theorem not_dispatched_of_cancelled {place : Nat} (hcancelled : l.cancelled = true) {i : Nat}
    {entry : Entry K} : Mark.dispatched i entry ∉ lineMarks (Q := Q) place l h now leading := by
  intro hmem
  unfold lineMarks at hmem
  split at hmem
  · cases hmem
  · split at hmem
    · cases hmem
    · next job _ =>
      have heq := List.mem_singleton.mp hmem
      unfold Mark.ofPlan at heq
      split at heq <;> cases heq
    · simp [Queue.poll, hcancelled] at hmem

/-- What a line does is about its own type. -/
theorem of_mem_lineMarks {place : Nat} {m : Mark K Q} (hm : m ∈ lineMarks place l h now leading) :
    (∃ entry, m = .dispatched place entry) ∨ (∃ question, m = .asked place question) ∨
      m = .concluded place := by
  have hplan : ∀ plan : Plan Q A R,
      (∃ question, Mark.ofPlan (K := K) place plan = .asked place question) ∨
      Mark.ofPlan (K := K) place plan = .concluded place := by
    intro plan
    cases plan with
    | ask question next => exact .inl ⟨question, rfl⟩
    | done r => exact .inr rfl
  unfold lineMarks at hm
  split at hm
  · cases hm
  · split at hm
    · cases hm
    · obtain rfl := List.mem_singleton.mp hm
      exact .inr (hplan _)
    · split at hm
      · rcases List.mem_cons.mp hm with rfl | hm
        · exact .inl ⟨_, rfl⟩
        · obtain rfl := List.mem_singleton.mp hm
          exact .inr (hplan _)
      · cases hm

end Lines

/-! ## Pipelines -/

theorem becomes_offer (p : Pipeline K Q A E D R) (item : Except Error (Watch.Event K)) :
    p.Becomes (p.offer item) ∧ (p.offer item).line = p.line := by
  unfold Pipeline.offer
  split
  · next connection hlink =>
    split
    · exact ⟨⟨id, id, id⟩, rfl⟩
    · exact ⟨⟨id, fun h => absurd (hlink.symm.trans h.link) (by simp), id⟩, rfl⟩
  · exact ⟨⟨id, id, id⟩, rfl⟩

theorem becomes_close (p : Pipeline K Q A E D R) : p.Becomes p.close ∧ p.close.line = p.line := by
  unfold Pipeline.close
  split
  · next connection hlink =>
    exact ⟨⟨id, fun h => absurd (hlink.symm.trans h.link) (by simp), id⟩, rfl⟩
  · exact ⟨⟨id, id, id⟩, rfl⟩

theorem becomes_resume (p : Pipeline K Q A E D R) :
    p.Becomes p.resume ∧ (p.line.IsHandling → p.resume.line.IsHandling) := by
  have hline : p.resume.line = p.line.resume := rfl
  refine ⟨⟨?_, fun h => ⟨h.loop, h.follower, ?_⟩, ?_⟩, ?_⟩
  · rw [hline]
    unfold Line.resume
    split <;> exact id
  · simp [Pipeline.resume, h.link]
  · rw [hline]
    unfold Line.resume
    split
    · next hconsumer => simp [Line.isEnded, hconsumer]
    · exact id
  · rw [hline]
    unfold Line.resume
    split
    · exact fun _ => ⟨_, _, rfl, rfl⟩
    · exact id

section Pipelines

variable [Entity K] {b : Backend K Q A E} {h : Handler K Q A E D R} {now draw : Nat} {c : Channel}
  {place : Nat} {p p' : Pipeline K Q A E D R} {env env' : E} {marks : List (Mark K Q)}

/-- The orders of a follower reach the line as what is sent. -/
theorem obey_line (p : Pipeline K Q A E D R) (env : E) (orders : List Follower.Order) :
    ∃ commands, (p.obey b now draw env orders).1.line = p.line.sendAll commands := by
  have htell : ∀ (p : Pipeline K Q A E D R) (env : E) (input : Watch.Input K),
      ∃ commands, (p.tell b now draw env input).1.line = p.line.sendAll commands :=
    fun p env input => ⟨_, tell_line now draw p env input b⟩
  have htrans : ∀ {l l' l'' : Line K Q A E D R}, (∃ commands, l' = l.sendAll commands) →
      (∃ commands, l'' = l'.sendAll commands) → ∃ commands, l'' = l.sendAll commands := by
    rintro l _ _ ⟨early, rfl⟩ ⟨late, rfl⟩
    exact ⟨early ++ late, by simp only [Line.sendAll, List.append_assoc]⟩
  induction orders generalizing p env with
  | nil => exact ⟨[], by simp [Pipeline.obey, Line.sendAll]⟩
  | cons order rest ih =>
    cases order with
    | clearQueue => exact htrans ⟨[.clear], rfl⟩ (ih { p with line := p.line.send .clear } env)
    | startWatcher => exact htrans (htell p env .start) (ih _ _)
    | stopWatcher => exact htrans (htell p env .stop) (ih _ _)

omit [Entity K] in
theorem performAll_publications (b : Backend K Q A E) (now : Nat) (p : Pipeline K Q A E D R)
    (env : E) {effects : List (Watch.Effect K)}
    (heffects : ∀ effect ∈ effects, ∃ s, effect = .publish s) :
    ∃ publications, p.performAll b now env effects = ({ p with publications }, env) := by
  induction effects generalizing p with
  | nil => exact ⟨p.publications, rfl⟩
  | cons effect rest ih =>
    obtain ⟨s, rfl⟩ := heffects effect List.mem_cons_self
    obtain ⟨publications, hrest⟩ := ih { p with publications := p.publications + 1 }
      fun effect heffect => heffects effect (List.mem_cons_of_mem _ heffect)
    exact ⟨publications, hrest⟩

/-- A watcher that is told to stop has no loop, and asks for nothing. -/
theorem react_stop (w : Watcher) (now draw : Nat) :
    (w.react now draw (.stop : Watch.Input K)).1.loop = none ∧
      ∀ effect ∈ (w.react now draw (.stop : Watch.Input K)).2, ∃ s, effect = .publish s := by
  simp only [Watcher.react, Watcher.stop]
  split
  · next hloop => simp [Watcher.publish, hloop]
  · simp

theorem tell_stop (b : Backend K Q A E) (now draw : Nat) (p : Pipeline K Q A E D R) (env : E) :
    (p.tell b now draw env .stop).1.watcher.loop = none ∧
      (p.tell b now draw env .stop).1.link = .none ∧
      (p.tell b now draw env .stop).1.follower = p.follower ∧
      (p.tell b now draw env .stop).1.line = p.line := by
  obtain ⟨hloop, heffects⟩ := react_stop (K := K) p.watcher now draw
  have hdropped : (p.watcher.react now draw (.stop : Watch.Input K)).1.isConnected = false := by
    simp [Watcher.isConnected, hloop]
  obtain ⟨publications, hperformed⟩ := performAll_publications b now
    { p with
      watcher := (p.watcher.react now draw (.stop : Watch.Input K)).1
      link := .none } env heffects
  have htell : p.tell b now draw env .stop =
      ({ p with
          watcher := (p.watcher.react now draw (.stop : Watch.Input K)).1
          link := .none
          publications }, env) := by
    refine Eq.trans ?_ hperformed
    simp only [Pipeline.tell, hdropped, Bool.false_eq_true, if_false]
  rw [htell]
  exact ⟨hloop, rfl, rfl, rfl⟩

theorem stop_spec (b : Backend K Q A E) (now draw : Nat) (p : Pipeline K Q A E D R) (env : E) :
    (p.stop b now draw env).1.IsHalted ∧ (p.stop b now draw env).1.line = p.line := by
  -- Whether there is a follower or not, at last a pipeline without one is told to stop.
  obtain ⟨q, env', hstop, hfollower, hline⟩ : ∃ q env',
      p.stop b now draw env = Pipeline.tell b now draw q env' .stop ∧ q.follower = none ∧
        q.line = p.line := by
    by_cases hsome : p.follower.isSome = true
    · obtain ⟨-, -, hfollower, hline⟩ := tell_stop b now draw
        { p with follower := none } env
      refine ⟨_, (Pipeline.tell b now draw { p with follower := none } env .stop).2, ?_, hfollower,
        hline⟩
      simp only [Pipeline.stop, hsome, if_true]
    · refine ⟨p, env, ?_, by simpa using hsome, rfl⟩
      simp only [Pipeline.stop, hsome, Bool.false_eq_true, if_false]
  obtain ⟨hloop, hlink, hfollower', hline'⟩ := tell_stop b now draw q env'
  rw [hstop]
  exact ⟨⟨hloop, hfollower'.trans hfollower, hlink⟩, hline'.trans hline⟩

/-- Stopping a pipeline asks for no connection. -/
theorem stopShown_eq_nil (p : Pipeline K Q A E D R) (now draw : Nat) :
    stopShown p now draw = [] := by
  unfold stopShown
  split <;> simp [shown_stop]

/-- A halted pipeline acts only in its line. -/
theorem Act.turned_of_halted {r : Pipeline K Q A E D R × E}
    (hact : Act b h now place c p env marks r) (hhalted : p.IsHalted) :
    ∃ leading line env', r = ({ p with line }, env') ∧
      p.line.turn b h now leading env = some (line, env') := by
  cases hact with
  | followed draw hlook => simp [hhalted.follower] at hlook
  | woken draw hrestless =>
    simp [Pipeline.isRestless, Watcher.alarm?, hhalted.loop] at hrestless
  | taken draw hincoming => simp [Pipeline.incoming?, hhalted.link] at hincoming
  | turned leading hturn => exact ⟨leading, _, _, rfl, hturn⟩

/-- A pipeline that is still does nothing. -/
theorem no_act_of_still {r : Pipeline K Q A E D R × E} (hstill : p.IsStill) :
    ¬Act b h now place c p env marks r := by
  intro hact
  obtain ⟨leading, line, env', -, hturn⟩ := hact.turned_of_halted hstill.toIsHalted
  exact absurd (hstill.ended.symm.trans (lineTurn_not_ended hturn)) (by decide)

/-- What an act of a pipeline does to its line. -/
theorem Act.line_cases {r : Pipeline K Q A E D R × E} (hact : Act b h now place c p env marks r) :
    ((∀ m ∈ marks, ∃ request, m = .watched place request) ∧
      ∃ commands, r.1.line = p.line.sendAll commands) ∨
    ∃ leading env', marks = lineMarks place p.line h now leading ∧
      p.line.turn b h now leading env = some (r.1.line, env') := by
  have hwatched : ∀ shown : List (Incident K), ∀ m ∈ shown.filterMap (Mark.ofIncident? place),
      ∃ request, m = (.watched place request : Mark K Q) := by
    intro shown m hm
    obtain ⟨incident, -, hincident⟩ := List.mem_filterMap.mp hm
    cases incident with
    | requested request cache => exact ⟨request, (Option.some.inj hincident).symm⟩
    | _ => cases hincident
  cases hact with
  | followed draw hlook =>
    exact .inl ⟨hwatched _, obey_line _ env _⟩
  | woken draw hrestless => exact .inl ⟨hwatched _, _, tell_line ..⟩
  | @taken draw q input hincoming =>
    obtain ⟨link, rfl⟩ := incoming?_link hincoming
    exact .inl ⟨hwatched _, _, tell_line ..⟩
  | turned leading hturn => exact .inr ⟨leading, _, rfl, hturn⟩

/-- What a pipeline does is about its own type, and a line that was cancelled takes up no entry. -/
theorem Act.of_mem {r : Pipeline K Q A E D R × E} (hact : Act b h now place c p env marks r)
    {m : Mark K Q} (hm : m ∈ marks) :
    (∃ request, m = .watched place request) ∨
      (∃ entry, m = .dispatched place entry ∧ p.line.cancelled = false) ∨
      (∃ question, m = .asked place question) ∨ m = .concluded place := by
  obtain ⟨hwatched, -⟩ | ⟨leading, env', rfl, -⟩ := hact.line_cases
  · exact .inl (hwatched m hm)
  · right
    rcases of_mem_lineMarks hm with ⟨entry, rfl⟩ | hrest
    · refine .inl ⟨entry, rfl, ?_⟩
      cases hcancelled : p.line.cancelled with
      | false => rfl
      | true => exact absurd hm (not_dispatched_of_cancelled hcancelled)
    · exact .inr hrest

/-- What one type does leaves open what another handles. -/
theorem Act.foldl_of_ne {r : Pipeline K Q A E D R × E} (hact : Act b h now place c p env marks r)
    {other : Nat} (hne : other ≠ place) (dispatching : Bool) :
    marks.foldl (dispatchingAfter other) dispatching = dispatching := by
  refine foldl_eq_self fun m hm => ?_
  obtain ⟨request, rfl⟩ | ⟨entry, rfl, -⟩ | ⟨question, rfl⟩ | rfl := hact.of_mem hm
  · rfl
  · exact if_neg fun heq => hne heq.symm
  · rfl
  · exact if_neg fun heq => hne heq.symm

theorem Act.becomes {r : Pipeline K Q A E D R × E} (hact : Act b h now place c p env marks r) :
    p.Becomes r.1 where
  cancelled hcancelled := by
    obtain ⟨-, commands, hline⟩ | ⟨leading, env', -, hturn⟩ := hact.line_cases
    · rw [hline]
      exact hcancelled
    · exact (lineTurn_cancelled hturn).trans hcancelled
  halted hhalted := by
    obtain ⟨leading, line, env', rfl, -⟩ := hact.turned_of_halted hhalted
    exact ⟨hhalted.loop, hhalted.follower, hhalted.link⟩
  ended hended := by
    obtain ⟨-, commands, hline⟩ | ⟨leading, env', -, hturn⟩ := hact.line_cases
    · rw [hline]
      exact hended
    · exact absurd (hended.symm.trans (lineTurn_not_ended hturn)) (by decide)

theorem Act.handling {r : Pipeline K Q A E D R × E} (hact : Act b h now place c p env marks r)
    {dispatching : Bool} (hbefore : dispatching = true → p.line.IsHandling)
    (hafter : marks.foldl (dispatchingAfter place) dispatching = true) : r.1.line.IsHandling := by
  obtain ⟨hwatched, commands, hline⟩ | ⟨leading, env', rfl, hturn⟩ := hact.line_cases
  · have hsame : marks.foldl (dispatchingAfter place) dispatching = dispatching := by
      refine foldl_eq_self fun m hm => ?_
      obtain ⟨request, rfl⟩ := hwatched m hm
      rfl
    rw [hline]
    exact hbefore (hsame.symm.trans hafter)
  · exact lineTurn_handling place hturn hbefore hafter

end Pipelines

end Operator

end Reconciler.Host
