import Reconciler.Proofs.Host.Halting
import Reconciler.Proofs.Mirror.Waits
import Reconciler.Proofs.Queue.Horizon

/-!
# What a dispatcher survives

A dispatcher takes entries until it is cancelled, and nothing that happens to one entity should keep
it from the others. Two things do: a verdict about an entity without a name, and a look into the
queue that overreaches, that is, meets a schedule which comes due beyond the horizon of the timers.
There is nothing else (`Desk.Kept`), whatever answers there are and in whatever order things happen.

No look overreaches while all delays are brief, counted from the age of the queue (`Desk.Near`). The
delays that mirrors ask for are the intervals in their specs, as they are, so it is up to whoever
hands out mirrors how far they reach. From 68719477 seconds on, one mirror is enough.
-/

namespace Reconciler.Host

open Dispatch (Admits Grants Verdict)
open Queue (Command Entry Stream Timers)

variable {K Q E : Type} {A : Q → Type} [Entity K]

/-! ## Desks -/

/-- A queue with a dispatcher as its consumer, its clock, and everything outside. -/
structure Desk (K Q : Type) (A : Q → Type) (E : Type) where
  now : Nat
  env : E
  line : Line K Q A E Dispatcher (K × Verdict)

/-- A queue that is consumed from an instant on. -/
def Desk.opened (start : Nat) (env : E) (d : Dispatcher) : Desk K Q A E where
  now := start
  env
  line := { consumer := some { queue := .startingAt start, state := d } }

/-- What can be seen of a desk. -/
inductive Sight (K : Type) where
  /-- Someone else than the dispatcher sent a command. -/
  | sent (command : Command K)
  /-- The dispatcher looked into the queue. -/
  | looked (stream : Stream K)
  /-- It was done with an entry. -/
  | concluded (entity : K) (verdict : Verdict)

/-- Nothing follows: the dispatcher was cancelled, the look overreached, or the verdict is about an
entity that has no identity. -/
def Sight.IsLast : Sight K → Prop
  | .sent _ => False
  | .looked stream => stream.cancelled = true ∨ stream.Overreaches stream.now
  | .concluded x verdict => Entity.key? x = none ∧ verdict ≠ .skipped

/-- The queue as the dispatcher sees it. -/
def Line.stream (l : Line K Q A E Dispatcher (K × Verdict))
    (c : Consumer K Q A E Dispatcher (K × Verdict)) (now : Nat) : Stream K where
  now
  queue := c.queue
  inbox := l.inbox
  closed := l.closed
  cancelled := l.cancelled

/-- What is seen if a plan has come to its result. -/
def verdictOf : Plan Q A (K × Verdict) → List (Sight K)
  | .done r => [.concluded r.1 r.2]
  | .ask _ _ => []

/-- What is seen in a turn of the line. -/
def Line.sights (l : Line K Q A E Dispatcher (K × Verdict))
    (h : Handler K Q A E Dispatcher (K × Verdict)) (now : Nat) (leading : Bool) : List (Sight K) :=
  match l.consumer with
  | none => []
  | some c =>
    match c.activity with
    | .ended => []
    | .busy job => job.commands.map .sent ++ verdictOf job.rest
    | .waiting => .looked (l.stream c now) ::
      match (l.stream c now).poll now with
      | .delivered entry _ => verdictOf (h.plan c.state leading entry)
      | _ => []

/-- What can happen to a desk. The random part of a wait is drawn anew in every turn. The dispatcher
itself sends to its queue, so there is always someone who could send. -/
inductive Desk.Step (b : Backend K Q A E) (h : Nat → Handler K Q A E Dispatcher (K × Verdict)) :
    Desk K Q A E → List (Sight K) → Desk K Q A E → Prop where
  /-- The clock moves, and the outside changes. -/
  | outside {s : Desk K Q A E} {later : Nat} {env : E} : s.now ≤ later →
    Step b h s [] { s with now := later, env }
  | sent {s : Desk K Q A E} (command : Command K) :
    Step b h s [.sent command] { s with line := s.line.send command }
  | cancelled {s : Desk K Q A E} : Step b h s [] { s with line := { s.line with cancelled := true } }
  | resumed {s : Desk K Q A E} : Step b h s [] { s with line := s.line.resume }
  | turned {s : Desk K Q A E} {draw : Nat} {leading : Bool}
    {line : Line K Q A E Dispatcher (K × Verdict)} {env : E} :
    s.line.turn b (h draw) s.now leading s.env = some (line, env) →
    Step b h s (s.line.sights (h draw) s.now leading) { s with line, env }

inductive Desk.Run (b : Backend K Q A E) (h : Nat → Handler K Q A E Dispatcher (K × Verdict))
    (first : Desk K Q A E) : List (Sight K) → Desk K Q A E → Prop where
  | nil : Run b h first [] first
  | snoc {past more : List (Sight K)} {s s' : Desk K Q A E} :
    Run b h first past s → Step b h s more s' → Run b h first (past ++ more) s'

section Schedules

variable {b : Backend K Q A E} {h : Nat → Handler K Q A E Dispatcher (K × Verdict)}

omit [Entity K] in
theorem sendAll_run (now : Nat) (env : E) (l : Line K Q A E Dispatcher (K × Verdict))
    (commands : List (Command K)) :
    Desk.Run b h ⟨now, env, l⟩ (commands.map .sent) ⟨now, env, l.sendAll commands⟩ := by
  induction commands using List.reverseRecOn with
  | nil =>
    rw [Line.sendAll, List.append_nil]
    exact .nil
  | append_singleton commands command ih =>
    rw [List.map_append, show l.sendAll (commands ++ [command]) =
      (l.sendAll commands).send command by simp only [Line.send, Line.sendAll, List.append_assoc]]
    exact ih.snoc (.sent command)

/-- Whatever a pipeline does in a turn is a run of its desk. -/
theorem pipelineTurn_run {p p' : Pipeline K Q A E Dispatcher (K × Verdict)} {now draw pause : Nat}
    {c : Leadership.Channel} {leading : Bool} {env env' : E}
    (hturn : p.turn b (h draw) now pause c leading env = some (p', env')) :
    ∃ past, Desk.Run b h ⟨now, env, p.line⟩ past ⟨now, env', p'.line⟩ := by
  obtain ⟨marks, hact⟩ := Operator.pipelineTurn_act p.place hturn
  obtain ⟨-, commands, hline⟩ | ⟨leading', mid, -, hline⟩ := hact.line_cases
  · have hsent := sendAll_run (b := b) (h := h) now env p.line commands
    rw [← hline] at hsent
    exact ⟨_, hsent.snoc (.outside (Nat.le_refl now))⟩
  · have hturned : Desk.Run b h ⟨now, env, p.line⟩ _ ⟨now, mid, p'.line⟩ := .snoc .nil (.turned hline)
    exact ⟨_, hturned.snoc (.outside (Nat.le_refl now))⟩

end Schedules

/-! ## Turns -/

section Turns

variable {b : Backend K Q A E} {draw now : Nat} {leading : Bool} {env : E}
  {settle : (call : Dispatch.Call K) → Plan Q A call.Answer}
  {l : Line K Q A E Dispatcher (K × Verdict)} {c : Consumer K Q A E Dispatcher (K × Verdict)}
  {r : Line K Q A E Dispatcher (K × Verdict) × E}

/-- How a line goes on with a plan. -/
inductive Proceeds (b : Backend K Q A E) (draw now : Nat)
    (l : Line K Q A E Dispatcher (K × Verdict)) (c : Consumer K Q A E Dispatcher (K × Verdict)) :
    Plan Q A (K × Verdict) → Line K Q A E Dispatcher (K × Verdict) → Prop where
  | asked {q : Q} {next : A q → Plan Q A (K × Verdict)} {env : E} {job : Job K Q A E (K × Verdict)} :
    job.rest = next (b.call now q env).2.value →
    Proceeds b draw now l c (.ask q next) { l with consumer := some { c with activity := .busy job } }
  | concluded {x : K} {verdict : Verdict} {d : Dispatcher} {commands : List (Command K)} :
    c.state.conclude draw x verdict = some (d, commands) →
    Proceeds b draw now l c (.done (x, verdict))
      { l.sendAll commands with consumer := some { c with state := d, activity := .waiting } }
  | nameless {x : K} {verdict : Verdict} : c.state.conclude draw x verdict = none →
    Proceeds b draw now l c (.done (x, verdict))
      { l with consumer := some { c with activity := .ended } }

theorem proceeds (b : Backend K Q A E) (draw now : Nat)
    (settle : (call : Dispatch.Call K) → Plan Q A call.Answer)
    (l : Line K Q A E Dispatcher (K × Verdict)) (c : Consumer K Q A E Dispatcher (K × Verdict))
    (plan : Plan Q A (K × Verdict)) (env : E) :
    Proceeds b draw now l c plan (l.proceed b (.ofDispatcher draw settle) now c plan env).1 := by
  cases plan with
  | ask q next => exact .asked rfl
  | done r =>
    obtain ⟨x, verdict⟩ := r
    simp only [Line.proceed, Backend.proceed, Handler.ofDispatcher]
    cases hconclude : c.state.conclude draw x verdict with
    | none => exact .nameless hconclude
    | some next => exact .concluded hconclude

/-- All that a turn can be: the answer to a question is looked at, or the queue is. -/
inductive Turns (b : Backend K Q A E) (draw now : Nat) (leading : Bool)
    (settle : (call : Dispatch.Call K) → Plan Q A call.Answer)
    (l : Line K Q A E Dispatcher (K × Verdict)) (c : Consumer K Q A E Dispatcher (K × Verdict)) :
    Line K Q A E Dispatcher (K × Verdict) → List (Sight K) → Prop where
  | answered {job : Job K Q A E (K × Verdict)} {l' : Line K Q A E Dispatcher (K × Verdict)} :
    c.activity = .busy job → Proceeds b draw now (l.sendAll job.commands) c job.rest l' →
    Turns b draw now leading settle l c l' (job.commands.map .sent ++ verdictOf job.rest)
  | delivered {entry : Entry K} {queue : Queue K} {l' : Line K Q A E Dispatcher (K × Verdict)} :
    c.activity = .waiting → (l.stream c now).poll now = .delivered entry queue →
    Proceeds b draw now { l with inbox := [] } { c with queue }
      ((Dispatch.handle c.state.policy leading entry).interpret settle) l' →
    Turns b draw now leading settle l c l' (.looked (l.stream c now) ::
      verdictOf ((Dispatch.handle c.state.policy leading entry).interpret settle))
  | idle {queue : Queue K} : c.activity = .waiting → (l.stream c now).poll now = .idle queue →
    Turns b draw now leading settle l c { l with inbox := [], consumer := some { c with queue } }
      [.looked (l.stream c now)]
  | ended : c.activity = .waiting →
    ((l.stream c now).poll now = .ended ∨ ∃ fault, (l.stream c now).poll now = .failed fault) →
    Turns b draw now leading settle l c { l with consumer := some { c with activity := .ended } }
      [.looked (l.stream c now)]

theorem turns (hconsumer : l.consumer = some c)
    (hturn : l.turn b (.ofDispatcher draw settle) now leading env = some r) :
    Turns b draw now leading settle l c r.1 (l.sights (.ofDispatcher draw settle) now leading) := by
  obtain ⟨inbox, closed, cancelled, consumer⟩ := l
  obtain ⟨queue, activity, state⟩ := c
  obtain rfl : consumer = some ⟨queue, activity, state⟩ := hconsumer
  cases activity with
  | ended => cases hturn
  | busy job =>
    simp only [Line.turn] at hturn
    split at hturn
    · obtain rfl := Option.some.inj hturn
      exact .answered rfl (proceeds b draw now settle _ _ job.rest _)
    · cases hturn
  | waiting =>
    simp only [Line.turn] at hturn
    split at hturn
    · cases hpoll : queue.poll now cancelled closed inbox with
      | delivered entry left =>
        simp only [Line.sights, Line.stream, Stream.poll, hpoll] at hturn ⊢
        obtain rfl := Option.some.inj hturn
        exact .delivered rfl hpoll (proceeds b draw now settle _ _ _ env)
      | idle left =>
        simp only [Line.sights, Line.stream, Stream.poll, hpoll] at hturn ⊢
        obtain rfl := Option.some.inj hturn
        exact .idle rfl hpoll
      | ended =>
        simp only [Line.sights, Line.stream, Stream.poll, hpoll] at hturn ⊢
        obtain rfl := Option.some.inj hturn
        exact .ended rfl (.inl hpoll)
      | failed fault =>
        simp only [Line.sights, Line.stream, Stream.poll, hpoll] at hturn ⊢
        obtain rfl := Option.some.inj hturn
        exact .ended rfl (.inr ⟨fault, hpoll⟩)
    · cases hturn

end Turns

/-! ## The end of a dispatcher -/

theorem conclude_eq_none {d : Dispatcher} {draw : Nat} {x : K} {verdict : Verdict} :
    d.conclude draw x verdict = none ↔ Entity.key? x = none ∧ verdict ≠ .skipped := by
  cases verdict <;> simp [Dispatcher.conclude]

/-- What follows from a verdict: the backoff stays what it is, and a requeue waits for what was asked
for or for what the backoff prescribes. -/
theorem conclude_eq_some {d d' : Dispatcher} {draw : Nat} {x : K} {verdict : Verdict}
    {commands : List (Command K)} (h : d.conclude draw x verdict = some (d', commands)) :
    d'.backoff = d.backoff ∧ ∀ command ∈ commands, ∃ key delay,
      command = Dispatcher.requeue key x delay ∧
        ((∃ action, verdict = .succeeded action ∧ action.requeueAfter = some delay) ∨
          ∃ retries, delay = d.backoff.delay draw retries) := by
  cases verdict with
  | skipped =>
    obtain ⟨rfl, rfl⟩ := Prod.mk.inj (Option.some.inj h)
    exact ⟨rfl, fun command hm => nomatch hm⟩
  | forgotten =>
    obtain ⟨key, -, heq⟩ := Option.map_eq_some_iff.mp h
    obtain ⟨rfl, rfl⟩ := Prod.mk.inj heq
    exact ⟨rfl, fun command hm => nomatch hm⟩
  | succeeded action =>
    obtain ⟨key, -, heq⟩ := Option.map_eq_some_iff.mp h
    obtain ⟨rfl, rfl⟩ := Prod.mk.inj heq
    refine ⟨rfl, fun command hm => ?_⟩
    obtain ⟨delay, hdelay, rfl⟩ := Option.map_eq_some_iff.mp (Option.mem_toList.mp hm)
    exact ⟨key, delay, rfl, .inl ⟨action, rfl, hdelay⟩⟩
  | failed error =>
    obtain ⟨key, -, heq⟩ := Option.map_eq_some_iff.mp h
    obtain ⟨rfl, rfl⟩ := Prod.mk.inj heq
    refine ⟨rfl, fun command hm => ?_⟩
    exact ⟨key, _, List.mem_singleton.mp hm, .inr ⟨_, rfl⟩⟩

/-- The dispatcher and its queue, while it works and after its end. -/
structure Desk.Kept (past : List (Sight K)) (s : Desk K Q A E)
    (c : Consumer K Q A E Dispatcher (K × Verdict)) : Prop where
  consumer : s.line.consumer = some c
  producing : s.line.closed = false
  timely : c.queue.Timely s.now
  looked : ∀ stream, .looked stream ∈ past → stream.queue.Timely stream.now
  ended : c.activity = .ended ↔ ∃ sight ∈ past, sight.IsLast

section Ends

variable {b : Backend K Q A E} {draw now : Nat} {leading : Bool} {env : E}
  {settle : (call : Dispatch.Call K) → Plan Q A call.Answer}
  {l l' : Line K Q A E Dispatcher (K × Verdict)}
  {c : Consumer K Q A E Dispatcher (K × Verdict)}
  {past more : List (Sight K)} {s s' : Desk K Q A E}

/-- Going on with a plan is the end exactly if the verdict is about an entity without a name. -/
theorem Proceeds.ended_iff {plan : Plan Q A (K × Verdict)} (h : Proceeds b draw now l c plan l') :
    ∃ c', l'.consumer = some c' ∧ l'.closed = l.closed ∧ c'.queue = c.queue ∧
      (c'.activity = .ended ↔ ∃ sight ∈ (verdictOf plan : List (Sight K)), sight.IsLast) := by
  cases h with
  | asked => exact ⟨_, rfl, rfl, rfl, by simp [verdictOf]⟩
  | concluded hconclude =>
    refine ⟨_, rfl, rfl, rfl, ?_⟩
    have hsome := mt conclude_eq_none.mpr (by rw [hconclude]; exact Option.some_ne_none _)
    simp [verdictOf, Sight.IsLast, hsome]
  | nameless hconclude =>
    refine ⟨_, rfl, rfl, rfl, ?_⟩
    have hnone := conclude_eq_none.mp hconclude
    simp [verdictOf, Sight.IsLast, hnone]

omit [Entity K] in
theorem looked_of_mem_verdictOf {plan : Plan Q A (K × Verdict)} {stream : Stream K}
    (h : Sight.looked stream ∈ verdictOf plan) : False := by
  cases plan with
  | done r => cases List.mem_singleton.mp h
  | ask q next => cases h

theorem Turns.working (h : Turns b draw now leading settle l c l' more) : c.activity ≠ .ended := by
  cases h with
  | answered hbusy => rw [hbusy]; exact nofun
  | delivered hwaiting | idle hwaiting | ended hwaiting => rw [hwaiting]; exact nofun

/-- A turn looks into the queue as it was before. -/
theorem Turns.looked (h : Turns b draw now leading settle l c l' more) {stream : Stream K}
    (hm : .looked stream ∈ more) : stream = l.stream c now := by
  cases h with
  | answered =>
    rcases List.mem_append.mp hm with hm | hm
    · obtain ⟨command, -, heq⟩ := List.mem_map.mp hm
      cases heq
    · exact (looked_of_mem_verdictOf hm).elim
  | delivered =>
    rcases List.mem_cons.mp hm with heq | hm
    · exact Sight.looked.inj heq
    · exact (looked_of_mem_verdictOf hm).elim
  | idle | ended => exact Sight.looked.inj (List.mem_singleton.mp hm)

/-- A turn is the last one exactly if what is seen of it says so. -/
theorem Turns.ended_iff (h : Turns b draw now leading settle l c l' more) (hclosed : l.closed = false)
    (htimely : c.queue.Timely now) :
    ∃ c', l'.consumer = some c' ∧ l'.closed = false ∧ c'.queue.Timely now ∧
      (c'.activity = .ended ↔ ∃ sight ∈ more, sight.IsLast) := by
  have hpolled : ∀ outcome, (l.stream c now).poll now = outcome →
      (l.stream c now).Polled now outcome := fun outcome hpoll =>
    (l.stream c now).polled htimely (Nat.le_refl now) hpoll
  have hgoes (hcancelled : l.cancelled = false) (hreach : ¬(l.stream c now).Overreaches now) :
      ¬(Sight.looked (l.stream c now)).IsLast := by
    rintro (hyes | hyes)
    · exact absurd (hcancelled.symm.trans hyes) Bool.false_ne_true
    · exact hreach hyes
  cases h with
  | answered hbusy hproceeds =>
    obtain ⟨c', hc', hclosed', hqueue, hover⟩ := hproceeds.ended_iff
    refine ⟨c', hc', hclosed'.trans hclosed, hqueue ▸ htimely, ?_⟩
    rw [hover]
    simp [or_and_right, exists_or, Sight.IsLast]
  | delivered hwaiting hpoll hproceeds =>
    obtain ⟨c', hc', hclosed', hqueue, hover⟩ := hproceeds.ended_iff
    cases hpolled _ hpoll with
    | delivered hcancelled hreach _ _ _ hleft =>
      refine ⟨c', hc', hclosed'.trans hclosed, hqueue ▸ hleft, ?_⟩
      rw [hover]
      simp [hgoes hcancelled hreach]
  | idle hwaiting hpoll =>
    cases hpolled _ hpoll with
    | idle hcancelled hreach _ hleft =>
      refine ⟨_, rfl, hclosed, hleft, ?_⟩
      simp [hgoes hcancelled hreach, hwaiting]
  | ended hwaiting hpoll =>
    refine ⟨_, rfl, hclosed, htimely, ?_⟩
    have hlast : (Sight.looked (l.stream c now)).IsLast := by
      rcases hpoll with hpoll | ⟨fault, hpoll⟩
      · cases hpolled _ hpoll with
        | cancelled hcancelled => exact .inl hcancelled
        | drained _ _ hyes => exact absurd (hclosed.symm.trans hyes) Bool.false_ne_true
      · cases hpolled _ hpoll with
        | failed _ hover => exact .inr hover
    simp [hlast]

theorem Desk.Kept.step (h : s.Kept past c)
    (step : Desk.Step b (.ofDispatcher · settle) s more s') : ∃ c', s'.Kept (past ++ more) c' := by
  cases step with
  | outside hlater =>
    rw [List.append_nil]
    exact ⟨c, { h with timely := h.timely.mono hlater }⟩
  | sent command =>
    refine ⟨c, { h with looked := fun stream hm => ?_, ended := ?_ }⟩
    · exact h.looked stream (by simpa using hm)
    · rw [h.ended]
      simp [or_and_right, exists_or, Sight.IsLast]
  | cancelled =>
    rw [List.append_nil]
    exact ⟨c, { h with }⟩
  | resumed =>
    rw [List.append_nil]
    obtain ⟨now, env, inbox, closed, cancelled, consumer⟩ := s
    obtain ⟨queue, activity, state⟩ := c
    obtain rfl : consumer = some ⟨queue, activity, state⟩ := h.consumer
    cases activity with
    | waiting => exact ⟨_, { h with }⟩
    | ended => exact ⟨_, { h with }⟩
    | busy job =>
      refine ⟨⟨queue, .busy job.resume, state⟩, { h with consumer := rfl, ended := ?_ }⟩
      rw [← h.ended]
      exact ⟨nofun, nofun⟩
  | @turned draw leading line env hturn =>
    have hturns := turns h.consumer hturn
    obtain ⟨c', hc', hclosed, htimely, hover⟩ := hturns.ended_iff h.producing h.timely
    refine ⟨c', hc', hclosed, htimely, fun stream hm => ?_, ?_⟩
    · rcases List.mem_append.mp hm with hm | hm
      · exact h.looked stream hm
      · rw [hturns.looked hm]
        exact h.timely
    · -- There is no turn after the last sight, so the turn alone decides.
      have hbefore : ¬∃ sight ∈ past, sight.IsLast := fun hlast =>
        hturns.working (h.ended.mpr hlast)
      rw [hover]
      simp only [List.mem_append, or_and_right, exists_or, hbefore, false_or]

theorem Desk.Kept.opened (start : Nat) (env : E) (d : Dispatcher) :
    (Desk.opened start env d : Desk K Q A E).Kept []
      { queue := .startingAt start, state := d } where
  consumer := rfl
  producing := rfl
  timely := .startingAt start
  looked _ hm := nomatch hm
  ended := by simp

theorem Desk.Run.kept {start : Nat} {d : Dispatcher}
    (run : Desk.Run b (.ofDispatcher · settle) (.opened start env d) past s) :
    ∃ c, s.Kept past c := by
  induction run with
  | nil => exact ⟨_, .opened start env d⟩
  | snoc _ step ih =>
    obtain ⟨c, h⟩ := ih
    exact h.step step

theorem Desk.Kept.isEnded_iff (h : s.Kept past c) :
    s.line.isEnded = true ↔ c.activity = .ended := by
  unfold Line.isEnded
  rw [h.consumer]
  obtain ⟨queue, activity, state⟩ := c
  cases activity <;> simp

omit [Entity K] in
/-- Nothing happens after the end. -/
theorem turn_of_isEnded (h : l.isEnded = true)
    (b : Backend K Q A E) (handler : Handler K Q A E Dispatcher (K × Verdict)) (now : Nat)
    (leading : Bool) (env : E) : l.turn b handler now leading env = none := by
  obtain ⟨inbox, closed, cancelled, consumer⟩ := l
  rcases consumer with _ | ⟨queue, activity, state⟩
  · rfl
  · cases activity with
    | ended => rfl
    | waiting => cases h
    | busy job => cases h

end Ends

/-! ## Brief delays -/

/-- What is known of the answers that a dispatcher gets: the entities that the client hands out are
admitted, and all delays that they and the backoff ask for are brief. -/
structure Terms (b : Backend K Q A E) (settle : (call : Dispatch.Call K) → Plan Q A call.Answer)
    (backoff : BackoffConfig) (fit : (q : Q) → A q → Prop) (admitted : K → Prop)
    (granted : Action → Prop) (brief : Nat → Prop) : Prop where
  answers : ∀ now q env, fit q (b.call now q env).2.value
  admits : ∀ call, (settle call).Ends fit (fun _ answer => Admits admitted granted call answer) []
  awaits : granted .awaitChange
  asked : ∀ action delay, granted action → action.requeueAfter = some delay →
    brief delay.millisUp
  failed : ∀ draw retries, brief (backoff.delay draw retries).millisUp

/-- A desk at which everything is brief. -/
structure Desk.Near (fit : (q : Q) → A q → Prop) (admitted : K → Prop) (granted : Action → Prop)
    (brief : Nat → Prop) (backoff : BackoffConfig) (start : Nat) (s : Desk K Q A E)
    (c : Consumer K Q A E Dispatcher (K × Verdict)) : Prop where
  consumer : s.line.consumer = some c
  near : (s.line.stream c s.now).Near admitted brief start
  busy : ∀ job, c.activity = .busy job →
    job.rest.Ends fit (fun _ r => Grants admitted granted r) []
  backoff : c.state.backoff = backoff

section Brief

variable {b : Backend K Q A E} {draw now start : Nat} {leading : Bool} {env : E}
  {settle : (call : Dispatch.Call K) → Plan Q A call.Answer} {backoff : BackoffConfig}
  {fit : (q : Q) → A q → Prop} {admitted : K → Prop} {granted : Action → Prop}
  {brief : Nat → Prop} {l l' : Line K Q A E Dispatcher (K × Verdict)}
  {c : Consumer K Q A E Dispatcher (K × Verdict)} {past more : List (Sight K)}
  {s s' : Desk K Q A E} (terms : Terms b settle backoff fit admitted granted brief)

include terms in
theorem Proceeds.near {plan : Plan Q A (K × Verdict)} (h : Proceeds b draw now l c plan l')
    (hnear : (l.stream c now).Near admitted brief start) (hbackoff : c.state.backoff = backoff)
    (hplan : plan.Ends fit (fun _ r => Grants admitted granted r) []) :
    (∃ c', Desk.Near fit admitted granted brief backoff start ⟨now, env, l'⟩ c') ∧
      ∀ x verdict, Sight.concluded x verdict ∈ (verdictOf plan : List (Sight K)) →
        Grants admitted granted (x, verdict) := by
  cases h with
  | asked hrest =>
    refine ⟨⟨_, rfl, hnear, fun job hjob => ?_, hbackoff⟩, fun _ _ hm => nomatch hm⟩
    obtain rfl := Activity.busy.inj hjob
    rw [hrest]
    exact (hplan _ (terms.answers _ _ _)).any_past []
  | @concluded x verdict d commands hconclude =>
    obtain ⟨hsame, hcommands⟩ := conclude_eq_some hconclude
    refine ⟨⟨_, rfl, hnear.sendAll fun command hm => ?_, nofun,
      hsame.trans hbackoff⟩, fun y other hm => ?_⟩
    · obtain ⟨key, delay, rfl, hdelay⟩ := hcommands command hm
      refine ⟨hplan.1, ?_⟩
      rcases hdelay with ⟨action, haction, hdelay⟩ | ⟨retries, rfl⟩
      · exact terms.asked action delay (hplan.2 action haction) hdelay
      · rw [hbackoff]
        exact terms.failed draw retries
    · obtain ⟨rfl, rfl⟩ := Sight.concluded.inj (List.mem_singleton.mp hm)
      exact hplan
  | @nameless x verdict hconclude =>
    refine ⟨⟨_, rfl, hnear, nofun, hbackoff⟩, fun y other hm => ?_⟩
    obtain ⟨rfl, rfl⟩ := Sight.concluded.inj (List.mem_singleton.mp hm)
    exact hplan

include terms in
theorem Turns.near {env' : E} (h : Turns b draw now leading settle l c l' more)
    (hnear : Desk.Near fit admitted granted brief backoff start ⟨now, env, l⟩ c)
    (hsent : ∀ command, .sent command ∈ more → command.Within admitted brief) :
    (∃ c', Desk.Near fit admitted granted brief backoff start ⟨now, env', l'⟩ c') ∧
      ∀ x verdict, .concluded x verdict ∈ more → Grants admitted granted (x, verdict) := by
  have hstream : (l.stream c now).Near admitted brief start := hnear.near
  cases h with
  | @answered job _ hbusy hproceeds =>
    have hcommands : ∀ command ∈ job.commands, command.Within admitted brief := fun command hm =>
      hsent command (List.mem_append_left _ (List.mem_map_of_mem hm))
    obtain ⟨hleft, hverdict⟩ := hproceeds.near terms (hstream.sendAll hcommands) hnear.backoff
      (hnear.busy job hbusy)
    refine ⟨hleft, fun x verdict hm => ?_⟩
    rcases List.mem_append.mp hm with hm | hm
    · obtain ⟨command, -, heq⟩ := List.mem_map.mp hm
      cases heq
    · exact hverdict x verdict hm
  | @delivered entry queue _ hwaiting hpoll hproceeds =>
    obtain ⟨hadmitted, hrest⟩ := hstream.delivered (Nat.le_refl now) hpoll
    obtain ⟨hleft, hverdict⟩ := hproceeds.near terms hrest hnear.backoff
      ((Dispatch.handle_grants terms.awaits _ leading hadmitted).interpret terms.admits [])
    refine ⟨hleft, fun x verdict hm => ?_⟩
    rcases List.mem_cons.mp hm with heq | hm
    · cases heq
    · exact hverdict x verdict hm
  | idle hwaiting hpoll =>
    refine ⟨⟨_, rfl, hstream.idle (Nat.le_refl now) hpoll, fun job hjob => ?_, hnear.backoff⟩, ?_⟩
    · exact hnear.busy job hjob
    · exact fun x verdict hm => nomatch List.mem_singleton.mp hm
  | ended hwaiting hpoll =>
    refine ⟨⟨_, rfl, hstream, nofun, hnear.backoff⟩, ?_⟩
    exact fun x verdict hm => nomatch List.mem_singleton.mp hm

include terms in
theorem Desk.Near.step (h : Desk.Near fit admitted granted brief backoff start s c)
    (step : Desk.Step b (.ofDispatcher · settle) s more s')
    (hsent : ∀ command, .sent command ∈ more → command.Within admitted brief) :
    s.now ≤ s'.now ∧ (∃ c', Desk.Near fit admitted granted brief backoff start s' c') ∧
      (∀ x verdict, .concluded x verdict ∈ more → Grants admitted granted (x, verdict)) ∧
      ∀ stream, .looked stream ∈ more → stream = s.line.stream c s.now := by
  cases step with
  | outside hlater =>
    exact ⟨hlater, ⟨c, { h with near := h.near.mono hlater }⟩, nofun, nofun⟩
  | sent command =>
    refine ⟨Nat.le_refl _, ⟨c, { h with near := h.near.sendAll ?_ }⟩, ?_, ?_⟩
    · intro other hm
      rw [List.mem_singleton.mp hm]
      exact hsent command List.mem_cons_self
    · exact fun _ _ hm => nomatch List.mem_singleton.mp hm
    · exact fun _ hm => nomatch List.mem_singleton.mp hm
  | cancelled =>
    exact ⟨Nat.le_refl _, ⟨c, { h with near := { h.near with } }⟩, nofun, nofun⟩
  | resumed =>
    refine ⟨Nat.le_refl _, ?_, nofun, nofun⟩
    obtain ⟨now, env, inbox, closed, cancelled, consumer⟩ := s
    obtain ⟨queue, activity, state⟩ := c
    obtain rfl : consumer = some ⟨queue, activity, state⟩ := h.consumer
    cases activity with
    | waiting => exact ⟨_, h⟩
    | ended => exact ⟨_, h⟩
    | busy job =>
      refine ⟨⟨queue, .busy job.resume, state⟩, { h with consumer := rfl, busy := ?_ }⟩
      intro other hother
      obtain rfl := Activity.busy.inj hother
      exact h.busy job rfl
  | turned hturn =>
    have hturns := turns h.consumer hturn
    obtain ⟨hleft, hverdict⟩ := hturns.near terms h hsent
    exact ⟨Nat.le_refl _, hleft, hverdict, fun _ hm => hturns.looked hm⟩

include terms in
theorem Desk.Run.near {d : Dispatcher} (hbackoff : d.backoff = backoff)
    (run : Desk.Run b (.ofDispatcher · settle) (.opened start env d) past s)
    (hsent : ∀ command, .sent command ∈ past → command.Within admitted brief) :
    (∃ c, Desk.Near fit admitted granted brief backoff start s c) ∧
      (∀ x verdict, .concluded x verdict ∈ past → Grants admitted granted (x, verdict)) ∧
      ∀ stream, .looked stream ∈ past → stream.Near admitted brief start ∧ stream.now ≤ s.now := by
  induction run with
  | nil =>
    exact ⟨⟨_, rfl, .consumedAt admitted brief start, nofun, hbackoff⟩, nofun, nofun⟩
  | @snoc past more s s' run step ih =>
    obtain ⟨⟨c, hnear⟩, hverdicts, hlooks⟩ :=
      ih fun command hm => hsent command (List.mem_append_left _ hm)
    obtain ⟨hlater, hnear', hverdicts', hlooks'⟩ :=
      hnear.step terms step fun command hm => hsent command (List.mem_append_right _ hm)
    refine ⟨hnear', fun x verdict hm => ?_, fun stream hm => ?_⟩
    · rcases List.mem_append.mp hm with hm | hm
      · exact hverdicts x verdict hm
      · exact hverdicts' x verdict hm
    · rcases List.mem_append.mp hm with hm | hm
      · obtain ⟨hstream, hle⟩ := hlooks stream hm
        exact ⟨hstream, Nat.le_trans hle hlater⟩
      · rw [hlooks' stream hm]
        exact ⟨hnear.near, hlater⟩

end Brief

/-! ## Mirrors -/

section Mirrors

open Http (HandsOut)
open Mirror (Asks ConfigMirror)

/-- So many milliseconds are enough for all that mirrors and the backoff ask for. -/
structure Suffices (most : Nat) (admitted : ConfigMirror → Prop) (backoff : BackoffConfig) : Prop
    where
  again : Mirror.missingSourceRetrySecs * 1000 ≤ most
  resync : ∀ m, admitted m → m.spec.resyncSeconds * 1000 ≤ most
  failed : (backoff.maxDelay.add backoff.jitter).millisUp ≤ most

variable {b : Backend ConfigMirror Http.Question Http.Question.Answer E} {draw start : Nat} {env : E}
  {client : Http.EntityClient} {d : Dispatcher} {past : List (Sight ConfigMirror)}
  {s : Desk ConfigMirror Http.Question Http.Question.Answer E}

/-- Mirrors that are handed out lead to no other actions, and to no other delays. -/
theorem terms_of_handsOut (client : Http.EntityClient) (d : Dispatcher)
    {admitted : ConfigMirror → Prop} {brief : Nat → Prop}
    (hanswers : ∀ now q env, HandsOut admitted q (b.call now q env).2.value)
    (hagain : brief (Mirror.missingSourceRetrySecs * 1000))
    (hresync : ∀ m, admitted m → brief (m.spec.resyncSeconds * 1000))
    (hfailed : ∀ draw retries, brief (d.backoff.delay draw retries).millisUp) :
    Terms b (Http.MirrorClient.dispatch client) d.backoff (HandsOut admitted) admitted
      (Asks admitted) brief where
  answers := hanswers
  admits := Http.MirrorClient.dispatch_admits client
  awaits := .nothing
  failed := hfailed
  asked action delay hasks hdelay := by
    cases hasks with
    | nothing => cases hdelay
    | again =>
      obtain rfl := Option.some.inj hdelay
      rw [Duration.millisUp_ofSecs]
      exact hagain
    | @resync m hm =>
      obtain rfl := Option.some.inj hdelay
      rw [Duration.millisUp_ofSecs]
      exact hresync m hm

/-- The dispatcher of mirrors comes to its end exactly by a look that finds it cancelled, by one that
overreaches, and by a verdict about a mirror without a name; nothing is done for any mirror from then
on. A requeue beyond the horizon, which 68719477 seconds are, makes the look that meets it overreach,
unless a deletion is pending for its mirror. A reconcile asks for the interval that is in a mirror's
spec, as the server hands it out, or for the one of a missing source. And if the greatest of these
intervals, of the waits of the backoff and of the delays sent by others, and the age of the queue
together stay within the horizon, then no look overreaches. -/
theorem survives_iff
    (run : Desk.Run b (.ofDispatcher · (Http.MirrorClient.dispatch client)) (.opened start env d)
      past s) :
    (s.line.isEnded = true ↔ ∃ sight ∈ past, sight.IsLast) ∧
    (s.line.isEnded = true → ∀ draw now leading env, s.line.turn b
      (.ofDispatcher draw (Http.MirrorClient.dispatch client)) now leading env = none) ∧
    (∀ stream, .looked stream ∈ past → ∀ sent rest key m delay,
      stream.inbox = sent ++ Dispatcher.requeue key m delay :: rest →
      (∀ pending, stream.queue.upcoming? sent key = some pending → pending.trigger ≠ .deleted) →
      Timers.horizon < delay.millisUp → stream.Overreaches stream.now) ∧
    ∀ admitted, (∀ now q env, HandsOut admitted q (b.call now q env).2.value) →
      (∀ command, .sent command ∈ past → command.Within admitted fun _ => True) →
      (∀ m action, .concluded m (.succeeded action) ∈ past → Asks admitted action) ∧
      ∀ most, Suffices most admitted d.backoff →
        (∀ command, .sent command ∈ past → command.Within admitted (· ≤ most)) →
        s.now + most ≤ start + Timers.horizon →
        ∀ stream, .looked stream ∈ past → ¬stream.Overreaches stream.now := by
  obtain ⟨c, hkept⟩ := run.kept
  refine ⟨hkept.isEnded_iff.trans hkept.ended, fun hended draw =>
    turn_of_isEnded hended b _, ?_, ?_⟩
  · intro stream hlooked sent rest key m delay hinbox hpending hfar
    refine Stream.overreaches_of_far (hkept.looked stream hlooked) (Nat.le_refl _) hinbox ?_ hfar
    intro pending deadline hmeet
    have hupcoming : stream.queue.upcoming? sent key = some pending := by
      rw [Queue.upcoming?, ← Queue.foldl_meetAt_fst key stream.now, hmeet]
      rfl
    have htrigger := hpending pending hupcoming
    generalize pending.trigger = trigger at htrigger
    cases trigger with
    | deleted => exact absurd rfl htrigger
    | _ => rfl
  · intro admitted hanswers hadmitted
    constructor
    · -- As far as actions go, every delay will do.
      have terms : Terms b (Http.MirrorClient.dispatch client) d.backoff (HandsOut admitted) admitted
          (Asks admitted) fun _ => True :=
        terms_of_handsOut client d hanswers trivial (fun _ _ => trivial) fun _ _ => trivial
      intro m action hconcluded
      exact ((run.near terms rfl hadmitted).2.1 m _ hconcluded).2 action rfl
    · intro most hmost hsent hage stream hlooked
      have terms : Terms b (Http.MirrorClient.dispatch client) d.backoff (HandsOut admitted) admitted
          (Asks admitted) (· ≤ most) :=
        terms_of_handsOut client d hanswers hmost.again hmost.resync fun draw retries =>
          Nat.le_trans (Duration.millisUp_mono (d.backoff.delay_le draw retries)) hmost.failed
      obtain ⟨hnear, hnow⟩ := (run.near terms rfl hsent).2.2 stream hlooked
      refine hnear.not_overreaches (Nat.le_refl _) fun delay hdelay => ?_
      have : delay ≤ most := hdelay
      omega

/-! A server that answers every request with an empty object: all sources are there, and no mirrors. -/

def emptyServer : Backend ConfigMirror Http.Question Http.Question.Answer Unit where
  call now q _ := ((), {
    ready := some now
    value := match q with
      | .send _ => .answered 200 ⟨"\x7b\x7d", .closed⟩
      | .clock => ⟨0, 0⟩ })
  watch _ _ _ _ := ((), { ready := none, outcome := .ok {} })

/-- The consumer of the mirror's operator, whatever is drawn. -/
def mirroring (draw : Nat) : Handler ConfigMirror Http.Question Http.Question.Answer E Dispatcher
    (ConfigMirror × Verdict) :=
  .ofDispatcher draw (Http.MirrorClient.dispatch (Http.MirrorClient.mirrors "op"))

def mirrorDispatcher : Dispatcher := .ofSettings (.named "op" "pod") [Mirror.cleanupFinalizer]

/-- A mirror that is in order, with an interval in seconds. -/
def mirrorInOrder (name : String) (secs : Nat) : ConfigMirror where
  metadata := { name := some name, ns := some "n", finalizers := some [Mirror.cleanupFinalizer] }
  spec := { source := "s", resyncSeconds := secs }
  status := some { phase := .ready }

/-- The command by which a watch reports it. -/
def reportOf (name : String) (secs : Nat) : Command ConfigMirror :=
  .schedule ⟨some "n", name⟩ ⟨mirrorInOrder name secs, .reconcile⟩ 0

abbrev MirrorDesk : Type := Desk ConfigMirror Http.Question Http.Question.Answer Unit

def idleDesk : MirrorDesk := .opened 0 () mirrorDispatcher

/-- The first mirror is reported. -/
def reportedDesk (secs : Nat) : MirrorDesk :=
  { idleDesk with line := idleDesk.line.send (reportOf "a" secs) }

/-- The source has been read, which is all that there is to do. -/
def readDesk (secs : Nat) : MirrorDesk :=
  { idleDesk with line := { consumer := some {
      queue := { timers := { nextId := 1, wakeAt := some 0 } }
      activity := .busy {
        ready := some 0
        yields := false
        finish := fun _ env => env
        commands := []
        rest := .done (mirrorInOrder "a" secs, .succeeded (.requeue (.ofSecs secs))) }
      state := mirrorDispatcher } } }

/-- The mirror is to be looked at again. -/
def requeuedDesk (secs : Nat) : MirrorDesk :=
  { idleDesk with line := {
      inbox := [Dispatcher.requeue ⟨some "n", "a"⟩ (mirrorInOrder "a" secs) (.ofSecs secs)]
      consumer := some {
        queue := { timers := { nextId := 1, wakeAt := some 0 } }
        state := mirrorDispatcher } } }

def firstLook (secs : Nat) : Stream ConfigMirror :=
  { (Stream.consumedAt 0 : Stream ConfigMirror) with inbox := [reportOf "a" secs] }

/-- The look that meets the requeue. -/
def secondLook (secs : Nat) : Stream ConfigMirror where
  now := 0
  queue := { timers := { nextId := 1, wakeAt := some 0 } }
  inbox := [Dispatcher.requeue ⟨some "n", "a"⟩ (mirrorInOrder "a" secs) (.ofSecs secs)]

theorem run_requeued (secs : Nat)
    (hturn : (reportedDesk secs).line.turn emptyServer (mirroring 0) 0 true () =
      some ((readDesk secs).line, ()))
    (hsights : (reportedDesk secs).line.sights (E := Unit) (mirroring 0) 0 true =
      [.looked (firstLook secs)]) :
    Desk.Run emptyServer mirroring idleDesk
      [.sent (reportOf "a" secs), .looked (firstLook secs),
        .concluded (mirrorInOrder "a" secs) (.succeeded (.requeue (.ofSecs secs)))]
      (requeuedDesk secs) := by
  have reported : Desk.Run emptyServer mirroring idleDesk [.sent (reportOf "a" secs)]
      (reportedDesk secs) := .snoc .nil (.sent _)
  have read := reported.snoc (.turned hturn)
  rw [show (reportedDesk secs).now = 0 from rfl, hsights] at read
  have hconclude : (readDesk secs).line.turn emptyServer (mirroring 0) 0 true () =
      some ((requeuedDesk secs).line, ()) := rfl
  exact read.snoc (.turned hconclude)

theorem handsOut_emptyServer (admitted : ConfigMirror → Prop) (now : Nat) (q : Http.Question)
    (env : Unit) : HandsOut admitted q (emptyServer.call now q env).2.value := by
  cases q with
  | clock => trivial
  | send request =>
    intro m hm
    have hnone : Http.Api.readAs ConfigMirror.reader (.answered 200 ⟨"\x7b\x7d", .closed⟩) =
        .error .undecodable := by rfl
    cases hnone.symm.trans hm

/-- A mirror with the usual interval is in order again and again, and the dispatcher goes on. -/
theorem survives_iff_resynced : ∃ past s, Desk.Run emptyServer mirroring idleDesk past s ∧
    .looked (secondLook 300) ∈ past ∧ s.line.isEnded = false := by
  obtain ⟨⟨line, env⟩, hturn⟩ := Option.isSome_iff_exists.mp
    (show ((requeuedDesk 300).line.turn emptyServer (mirroring 0) 0 true ()).isSome = true by rfl)
  have run := (run_requeued 300 (by rfl) (by rfl)).snoc (.turned hturn)
  rw [show (requeuedDesk 300).line.sights (mirroring 0) (requeuedDesk 300).now true =
    [.looked (secondLook 300)] by rfl] at run
  refine ⟨_, _, run, by simp, ?_⟩
  obtain ⟨hended, -, -, hbrief⟩ := survives_iff run
  have hsent : ∀ command, .sent command ∈ [Sight.sent (reportOf "a" 300),
      .looked (firstLook 300),
      .concluded (mirrorInOrder "a" 300) (.succeeded (.requeue (.ofSecs 300))),
      .looked (secondLook 300)] → command = reportOf "a" 300 := by
    simp
  have hreach := (hbrief (·.spec.resyncSeconds ≤ 300) (handsOut_emptyServer _)
    (fun command hm => hsent command hm ▸ ⟨Nat.le_refl 300, trivial⟩)).2 300_000
    ⟨by decide, fun m hm => by omega, by decide⟩
    (fun command hm => hsent command hm ▸ ⟨Nat.le_refl 300, Nat.zero_le _⟩)
    (show 0 + 300_000 ≤ 0 + Timers.horizon by decide)
  rw [← Bool.not_eq_true, hended]
  rintro ⟨sight, hm, hlast⟩
  simp only [List.cons_append, List.nil_append, List.mem_cons, List.not_mem_nil, or_false] at hm
  rcases hm with rfl | rfl | rfl | rfl
  · exact hlast
  · exact hreach (firstLook 300) (by simp) (hlast.resolve_left nofun)
  · cases hlast.1
  · exact hreach (secondLook 300) (by simp) (hlast.resolve_left nofun)

/-- A mirror that asks for an interval of 68719477 seconds, which is one that the server can hand out,
is in order, and the look that meets its requeue is the last one. Another mirror is reported, and
nothing is ever done for it. -/
theorem ended_by_far_resync : ∃ past s, Desk.Run emptyServer mirroring idleDesk past s ∧
    ConfigMirror.reader.ofTree? (mirrorInOrder "a" 68_719_477).toJson =
      some (mirrorInOrder "a" 68_719_477) ∧
    (∀ command, .sent command ∈ past → command = reportOf "a" 68_719_477 ∨
      command = reportOf "b" 300) ∧
    (∀ stream, .looked stream ∈ past → stream.cancelled = false) ∧
    (∃ stream, .looked stream ∈ past ∧ stream.Overreaches stream.now) ∧
    (∀ m action, .concluded m (.succeeded action) ∈ past →
      m = mirrorInOrder "a" 68_719_477 ∧ action = .requeue (.ofSecs m.spec.resyncSeconds)) ∧
    s.line.isEnded = true ∧ reportOf "b" 300 ∈ s.line.inbox ∧
    ∀ draw now leading env, s.line.turn emptyServer (mirroring draw) now leading env = none := by
  let last : MirrorDesk := { requeuedDesk 68_719_477 with line := {
    (requeuedDesk 68_719_477).line with consumer := some {
      queue := { timers := { nextId := 1, wakeAt := some 0 } }
      activity := .ended
      state := mirrorDispatcher } } }
  have hturn : (requeuedDesk 68_719_477).line.turn emptyServer (mirroring 0) 0 true () =
      some (last.line, ()) := by rfl
  have run := ((run_requeued 68_719_477 (by rfl) (by rfl)).snoc (.turned hturn)).snoc
    (.sent (reportOf "b" 300))
  rw [show (requeuedDesk 68_719_477).line.sights (mirroring 0) (requeuedDesk 68_719_477).now true =
    [.looked (secondLook 68_719_477)] by rfl] at run
  have hended : (last.line.send (reportOf "b" 300)).isEnded = true := rfl
  have hover : (secondLook 68_719_477).Overreaches 0 :=
    ⟨_, List.prefix_rfl, ⟨some "n", "a"⟩, _, _, rfl, by decide⟩
  refine ⟨_, _, run, by rfl, ?_, ?_, ⟨_, by simp, hover⟩, ?_, hended, ?_,
    fun draw => turn_of_isEnded hended _ _⟩
  · intro command hm
    simpa using hm
  · intro stream hm
    have hlook : stream = firstLook 68_719_477 ∨ stream = secondLook 68_719_477 := by
      simpa using hm
    rcases hlook with rfl | rfl <;> rfl
  · intro m action hm
    obtain ⟨rfl, rfl⟩ : m = mirrorInOrder "a" 68_719_477 ∧
        action = .requeue (.ofSecs 68_719_477) := by simpa using hm
    exact ⟨rfl, rfl⟩
  · exact List.mem_append_right _ List.mem_cons_self

end Mirrors

end Reconciler.Host
