import Reconciler.Proofs.Host.Site

/-!
# Who acts while leading

A replica is a dispatcher with its queue, the leadership channel that it is bound to, its clock, and
everything outside. What is published on the channel comes between any two things that the dispatcher
does, also while a call is under way. The gated types of an operator run like this
(`Pipeline.turn_replica`).

The dispatcher looks at the channel when an entry surfaces, and never again before it is done with
the entry. So no call is made for an entry that surfaced while this replica did not lead, but
handling an entry goes on after a step-down, with every call that is still to come for it. Which of
the calls begin while this replica leads is decided by the publications since the entry surfaced.
-/

namespace Reconciler.Host

open Dispatch (Asked Call Policy Steps Verdict)
open Queue (Command Entry)
open Simulation (Widget)

variable {K E : Type} [Entity K]

/-! ## Traces -/

inductive Occurrence (K : Type) where
  | published (state : Leadership)
  | did (deed : Deed K)

namespace Occurrence

def publication? : Occurrence K → Option Leadership
  | .published state => some state
  | .did _ => none

/-- The dispatcher is at the same entry as before. -/
def Continues : Occurrence K → Prop
  | .did (.delivered _) => False
  | .did (.concluded _ _) => False
  | _ => True

end Occurrence

/-- What was published last, if anything was. -/
def lastPublished? (trace : List (Occurrence K)) : Option Leadership :=
  (trace.filterMap Occurrence.publication?).getLast?

/-- What a channel holds after a trace. -/
def held (first : Leadership) (trace : List (Occurrence K)) : Leadership :=
  (lastPublished? trace).getD first

/-- The dispatcher is at an entry that surfaced while the channel held leader, and this is what has
occurred since. -/
def SurfacedLeading (first : Leadership) (trace since : List (Occurrence K)) : Prop :=
  ∃ earlier entry, trace = earlier ++ .did (.delivered entry) :: since ∧
    (∀ o ∈ since, o.Continues) ∧ held first earlier = .leader

def Called (trace : List (Occurrence K)) : Prop := ∃ asked, .did (.called asked) ∈ trace

/-- The dispatcher is at an entry that surfaced while the channel held leader, and may call: either
at once, or after another call. -/
def MayCall (first : Leadership) (trace : List (Occurrence K)) : Prop :=
  ∃ since, SurfacedLeading first trace since ∧ (since = [] ∨ Called since)

/-- The dispatcher is at an entry that surfaced while the channel held leader, and has made a call
for it. -/
def AtCall (first : Leadership) (trace : List (Occurrence K)) : Prop :=
  ∃ since, SurfacedLeading first trace since ∧ Called since

/-- Every call was made where it may be. -/
def CallsSurfaced (first : Leadership) (trace : List (Occurrence K)) : Prop :=
  ∀ before asked after, trace = before ++ .did (.called asked) :: after → MayCall first before

section Traces

variable {first : Leadership} {trace : List (Occurrence K)}

omit [Entity K] in
theorem held_append (first : Leadership) (trace more : List (Occurrence K)) :
    held first (trace ++ more) = held (held first trace) more := by
  unfold held lastPublished?
  rw [List.filterMap_append, List.getLast?_append]
  cases (more.filterMap Occurrence.publication?).getLast? with
  | none => rfl
  | some state => rfl

omit [Entity K] in
theorem held_did (first : Leadership) (deeds : List (Deed K)) :
    held first (deeds.map Occurrence.did) = first := by
  have hnone : (deeds.map Occurrence.did).filterMap Occurrence.publication? = [] := by
    rw [List.filterMap_map]
    exact List.filterMap_eq_nil_iff.mpr fun _ _ => rfl
  rw [held, lastPublished?, hnone]
  rfl

omit [Entity K] in
theorem SurfacedLeading.snoc {since : List (Occurrence K)} (h : SurfacedLeading first trace since)
    {o : Occurrence K} (ho : o.Continues) :
    SurfacedLeading first (trace ++ [o]) (since ++ [o]) := by
  obtain ⟨earlier, entry, rfl, hsince, hheld⟩ := h
  refine ⟨earlier, entry, by simp, ?_, hheld⟩
  intro other hother
  rcases List.mem_append.mp hother with hother | hother
  · exact hsince other hother
  · rw [List.mem_singleton.mp hother]
    exact ho

omit [Entity K] in
theorem AtCall.mayCall (h : AtCall first trace) : MayCall first trace := by
  obtain ⟨since, hsurfaced, hcalled⟩ := h
  exact ⟨since, hsurfaced, .inr hcalled⟩

omit [Entity K] in
theorem AtCall.published (h : AtCall first trace) (state : Leadership) :
    AtCall first (trace ++ [.published state]) := by
  obtain ⟨since, hsurfaced, asked, hasked⟩ := h
  exact ⟨_, hsurfaced.snoc trivial, asked, List.mem_append_left _ hasked⟩

omit [Entity K] in
theorem MayCall.called (h : MayCall first trace) (asked : Asked K) :
    AtCall first (trace ++ [.did (.called asked)]) := by
  obtain ⟨since, hsurfaced, -⟩ := h
  exact ⟨_, hsurfaced.snoc trivial, asked, List.mem_append_right _ (List.mem_singleton_self _)⟩

omit [Entity K] in
theorem CallsSurfaced.snoc (h : CallsSurfaced first trace) {o : Occurrence K}
    (ho : ∀ asked, o = .did (.called asked) → MayCall first trace) :
    CallsSurfaced first (trace ++ [o]) := by
  intro before asked after heq
  rcases List.eq_nil_or_concat after with rfl | ⟨earlier, last, rfl⟩
  · obtain ⟨rfl, hone⟩ := List.append_inj' heq rfl
    exact ho asked (List.singleton_inj.mp hone)
  · have hsplit : trace ++ [o] = (before ++ .did (.called asked) :: earlier) ++ [last] := by
      simpa using heq
    obtain ⟨htrace, -⟩ := List.append_inj' hsplit rfl
    exact h before asked earlier htrace

end Traces

/-! ## Runs -/

/-- A dispatcher with its queue, its leadership channel, its clock, and everything outside. -/
structure Replica (K E : Type) where
  now : Nat
  env : E
  channel : Leadership.Channel
  line : DispatchLine K E

/-- The consumer is at an entry, and waits for the answer to a call. -/
def Line.IsBusy (l : DispatchLine K E) : Prop :=
  ∃ c job, l.consumer = some c ∧ c.activity = .busy job

namespace Replica

/-- What can happen to a replica, with what it shows. -/
inductive Step (b : CallBackend K E) :
    Replica K E → List (Occurrence K) → Replica K E → Prop where
  /-- The clock moves, and the outside changes. -/
  | outside {s : Replica K E} {later : Nat} {env : E} : s.now ≤ later →
      Step b s [] { s with now := later, env }
  | published {s : Replica K E} (state : Leadership) :
      Step b s [.published state] { s with channel := s.channel.publish state }
  | abandoned {s : Replica K E} :
      Step b s [] { s with channel := { s.channel with closed := true } }
  /-- Anything is sent to the queue, or the queue is closed or cancelled. -/
  | reached {s : Replica K E} {line : DispatchLine K E} : line.consumer = s.line.consumer →
      Step b s [] { s with line }
  | turned {s : Replica K E} {draw : Nat} {line : DispatchLine K E} {env : E} :
      s.line.turn b (dispatching draw) s.now s.channel.current.isLeader s.env = some (line, env) →
      Step b s ((s.line.deeds b s.now s.channel.current.isLeader s.env).map .did)
        { s with line, env }
  /-- The others have had their turn before an answer is looked at. -/
  | resumed {s : Replica K E} : Step b s [] { s with line := s.line.resume }

inductive Run (b : CallBackend K E) (start : Replica K E) :
    List (Occurrence K) → Replica K E → Prop where
  | nil : Run b start [] start
  | snoc {trace more : List (Occurrence K)} {s s' : Replica K E} :
      Run b start trace s → Step b s more s' → Run b start (trace ++ more) s'

end Replica

/-! ## The invariant -/

section Invariant

variable {b : CallBackend K E} {first : Leadership} {trace : List (Occurrence K)}

/-- While the dispatcher goes on with the plan of an entry that surfaced leading, what it does is for
that entry. -/
theorem proceed_surfaced {draw now : Nat} {l : DispatchLine K E} {c : DispatchConsumer K E}
    {plan : Steps K (K × Verdict)} {env : E} (hcalls : CallsSurfaced first trace)
    (hplan : ∀ call next, plan = .ask call next → MayCall first trace) :
    CallsSurfaced first (trace ++ (b.deeds now env plan).map .did) ∧
      ((l.proceed b (dispatching draw) now c plan env).1.IsBusy →
        AtCall first (trace ++ (b.deeds now env plan).map .did)) := by
  cases plan with
  | ask call next =>
    have hmay := hplan call next rfl
    exact ⟨hcalls.snoc fun _ _ => hmay, fun _ => hmay.called _⟩
  | done r =>
    refine ⟨hcalls.snoc (fun asked heq => by cases heq), ?_⟩
    rintro ⟨c', job, hc', hbusy⟩
    simp only [Line.proceed, Backend.proceed] at hc'
    split at hc'
    · cases hc'
      cases hbusy
    · cases hc'
      cases hbusy

/-- A replica after a trace: the channel holds what was published last, every call is for an entry
that surfaced leading, and so is the entry that the dispatcher is at. -/
structure Replica.Guarded (first : Leadership) (trace : List (Occurrence K))
    (s : Replica K E) : Prop where
  held : held first trace = s.channel.current
  calls : CallsSurfaced first trace
  busy : s.line.IsBusy → AtCall first trace

namespace Replica

theorem turn_guarded {s : Replica K E} (h : s.Guarded first trace) {draw : Nat}
    {r : DispatchLine K E × E} {deeds : List (Deed K)}
    (htook : Took b draw s.now s.channel.current.isLeader s.env s.line r deeds) :
    CallsSurfaced first (trace ++ deeds.map .did) ∧
      (r.1.IsBusy → AtCall first (trace ++ deeds.map .did)) := by
  cases htook with
  | answered hc hbusy =>
    exact proceed_surfaced h.calls fun _ _ _ => (h.busy ⟨_, _, hc, hbusy⟩).mayCall
  | @delivered c entry queue hc hwaiting hdelivered =>
    rw [List.map_cons, ← List.singleton_append, ← List.append_assoc]
    refine proceed_surfaced (h.calls.snoc fun asked heq => by cases heq) ?_
    -- An entry is dropped without any call unless the channel holds leader.
    intro call next hask
    cases hleading : s.channel.current.isLeader with
    | false =>
      rw [hleading] at hask
      cases hask
    | true =>
      have hcurrent : s.channel.current = .leader := by simpa [Leadership.isLeader] using hleading
      exact ⟨[], ⟨trace, entry, rfl, by simp, h.held.trans hcurrent⟩, .inl rfl⟩
  | @idle c queue hc hwaiting hidle =>
    refine ⟨by simpa using h.calls, ?_⟩
    rintro ⟨c', job, hc', hbusy⟩
    obtain rfl := Option.some.inj hc'
    rw [hwaiting] at hbusy
    cases hbusy
  | ended hc hwaiting hidle hdelivered =>
    refine ⟨by simpa using h.calls, ?_⟩
    rintro ⟨c', job, hc', hbusy⟩
    obtain rfl := Option.some.inj hc'
    cases hbusy

omit [Entity K] in
theorem resume_isBusy {l : DispatchLine K E} (h : l.resume.IsBusy) : l.IsBusy := by
  obtain ⟨inbox, closed, cancelled, consumer⟩ := l
  rcases consumer with _ | ⟨queue, activity, state⟩
  · exact h
  · cases activity with
    | busy job => exact ⟨_, job, rfl, rfl⟩
    | waiting => exact h
    | ended => exact h

theorem Step.guarded {s s' : Replica K E} {more : List (Occurrence K)} (h : s.Guarded first trace)
    (hstep : Step b s more s') : s'.Guarded first (trace ++ more) := by
  cases hstep with
  | outside _ =>
    rw [List.append_nil]
    exact ⟨h.held, h.calls, h.busy⟩
  | abandoned =>
    rw [List.append_nil]
    exact ⟨h.held, h.calls, h.busy⟩
  | published state =>
    refine ⟨by rw [held_append]; rfl, h.calls.snoc (fun asked heq => by cases heq), ?_⟩
    intro hbusy
    exact (h.busy hbusy).published state
  | reached hconsumer =>
    rw [List.append_nil]
    refine ⟨h.held, h.calls, ?_⟩
    rintro ⟨c, job, hc, hbusy⟩
    exact h.busy ⟨c, job, hconsumer.symm.trans hc, hbusy⟩
  | turned hturn =>
    obtain ⟨hcalls, hbusy⟩ := turn_guarded h (Line.turn_cases hturn)
    refine ⟨?_, hcalls, hbusy⟩
    rw [held_append, held_did]
    exact h.held
  | resumed =>
    rw [List.append_nil]
    exact ⟨h.held, h.calls, fun hbusy => h.busy (resume_isBusy hbusy)⟩

theorem Run.guarded {start s : Replica K E} (hidle : ¬start.line.IsBusy)
    (hrun : Run b start trace s) : s.Guarded start.channel.current trace := by
  induction hrun with
  | nil =>
    refine ⟨rfl, ?_, fun hbusy => absurd hbusy hidle⟩
    intro before asked after heq
    simp at heq
  | snoc _ hstep ih => exact hstep.guarded ih

/-- Every call of a replica whose dispatcher is at no entry to begin with is made for an entry that
surfaced while the channel held leader, and nothing comes between if it is the first call for that
entry. It begins while the channel holds leader exactly if the last publication since the entry
surfaced, if there was any, is leader. -/
theorem Run.begins_leading_iff {start s : Replica K E} (hidle : ¬start.line.IsBusy)
    (hrun : Run b start trace s) {before after : List (Occurrence K)} {asked : Asked K}
    (htrace : trace = before ++ .did (.called asked) :: after) :
    ∃ earlier entry since, before = earlier ++ .did (.delivered entry) :: since ∧
      (∀ o ∈ since, o.Continues) ∧ (since = [] ∨ Called since) ∧
      held start.channel.current earlier = .leader ∧
      (held start.channel.current before = .leader ↔
        ∀ state, lastPublished? since = some state → state = .leader) := by
  obtain ⟨since, ⟨earlier, entry, rfl, hsince, hleading⟩, hfirst⟩ :=
    (hrun.guarded hidle).calls before asked after htrace
  refine ⟨earlier, entry, since, rfl, hsince, hfirst, hleading, ?_⟩
  have hheld : held start.channel.current (earlier ++ .did (.delivered entry) :: since) =
      (lastPublished? since).getD .leader := by
    rw [held_append, hleading]
    rfl
  rw [hheld]
  cases lastPublished? since with
  | none => simp
  | some state => simp

end Replica

end Invariant

/-! ## A step-down while a finalizer runs -/

section StepDown

/-- The calls by which a dispatcher acts; the other one only reads. -/
def IsActing {K : Type} : Call K → Prop
  | .get _ _ => False
  | _ => True

/-- An entity that is marked for deletion and has two finalizers. -/
def marked : Widget where
  metadata := { name := some "a", deletionTimestamp := some ⟨0, 0⟩,
                finalizers := some ["f1", "f2"] }
  fields := []

/-- The backend that takes ten seconds for every call, each of which succeeds. -/
def patient : CallBackend Widget Unit where
  call now call env := ((), { (obliging.call now call env).2 with ready := some (now + 10000) })
  watch := obliging.watch

/-- A leader whose queue holds an entity that is marked for deletion. -/
def leader : Replica Widget Unit where
  now := 0
  env := ()
  channel := { current := .leader, publications := 1 }
  line := {
    inbox := [.schedule ⟨none, "a"⟩ ⟨marked, .reconcile⟩ 0]
    consumer := some { state := { policy := { finalizers := ["f1", "f2"] } } } }

/-- The entity surfaces, and the leader steps down while the first finalizer runs. -/
def steppedDown : List (Occurrence Widget) :=
  [.did (.delivered ⟨marked, .reconcile⟩),
   .did (.called ⟨.finalize 0 "f1" marked, Except.ok ()⟩),
   .published .candidate]

def detached : Asked Widget :=
  ⟨.update (Dispatch.detach marked "f1"), Except.ok (Dispatch.detach marked "f1")⟩

theorem leader_idle : ¬leader.line.IsBusy := by
  rintro ⟨c, job, hc, hbusy⟩
  obtain rfl := Option.some.inj hc
  cases hbusy

theorem run_steppedDown :
    ∃ s, Replica.Run patient leader (steppedDown ++ [.did (.called detached)]) s := by
  obtain ⟨line, line', hturn, hturn', hdeeds⟩ : ∃ line line',
      leader.line.turn patient (dispatching 0) 0 true () = some (line, ()) ∧
      line.turn patient (dispatching 0) 10000 false () = some (line', ()) ∧
      line.deeds patient 10000 false () = [.called detached] := ⟨_, _, rfl, rfl, rfl⟩
  let candidate := leader.channel.publish .candidate
  have surfaced : Replica.Run patient leader _ ⟨0, (), leader.channel, line⟩ :=
    .snoc .nil (.turned hturn)
  have down : Replica.Run patient leader _ ⟨0, (), candidate, line⟩ :=
    surfaced.snoc (.published .candidate)
  have later : Replica.Run patient leader _ ⟨10000, (), candidate, line⟩ :=
    down.snoc (.outside (Nat.zero_le _))
  have acted : Replica.Run patient leader _ ⟨10000, (), candidate, line'⟩ :=
    later.snoc (.turned hturn')
  rw [show (line.deeds patient 10000 candidate.current.isLeader ()).map Occurrence.did =
    [.did (.called detached)] from congrArg _ hdeeds] at acted
  exact ⟨_, acted⟩

/-- The entity surfaced while this replica led, and the finalizer is taken off it while it does
not. -/
theorem begins_leading_iff_steppedDown :
    ¬leader.line.IsBusy ∧
      (∃ s, Replica.Run patient leader (steppedDown ++ [.did (.called detached)]) s) ∧
      ∃ earlier entry since, steppedDown = earlier ++ .did (.delivered entry) :: since ∧
        (∀ o ∈ since, o.Continues) ∧ (since = [] ∨ Called since) ∧
        held leader.channel.current earlier = .leader ∧
        (held leader.channel.current steppedDown = .leader ↔
          ∀ state, lastPublished? since = some state → state = .leader) := by
  obtain ⟨s, hrun⟩ := run_steppedDown
  exact ⟨leader_idle, ⟨s, hrun⟩, hrun.begins_leading_iff leader_idle rfl⟩

/-- Not every call by which a dispatcher acts begins while the channel holds leader. -/
theorem detached_while_candidate :
    ¬∀ (s : Replica Widget Unit) (before after : List (Occurrence Widget)) (asked : Asked Widget),
      Replica.Run patient leader (before ++ .did (.called asked) :: after) s →
      IsActing asked.1 → held leader.channel.current before = .leader := by
  intro hall
  obtain ⟨s, hrun⟩ := run_steppedDown
  have hheld := hall s steppedDown [] detached hrun trivial
  have hcandidate : held leader.channel.current steppedDown = .candidate := rfl
  rw [hcandidate] at hheld
  cases hheld

end StepDown

/-! ## Gated types -/

omit [Entity K] in
theorem performAll_consumer (b : CallBackend K E) (now : Nat) (p : DispatchPipeline K E) (env : E)
    (effects : List (Watch.Effect K)) :
    (p.performAll b now env effects).1.line.consumer = p.line.consumer := by
  rw [performAll_line]
  rfl

theorem tell_consumer (b : CallBackend K E) (now draw : Nat) (p : DispatchPipeline K E) (env : E)
    (input : Watch.Input K) : (p.tell b now draw env input).1.line.consumer = p.line.consumer :=
  performAll_consumer ..

theorem obey_consumer (b : CallBackend K E) (now draw : Nat) (p : DispatchPipeline K E) (env : E)
    (orders : List Leadership.Follower.Order) :
    (p.obey b now draw env orders).1.line.consumer = p.line.consumer := by
  induction orders generalizing p env with
  | nil => rfl
  | cons order rest ih =>
    unfold Pipeline.obey
    rw [ih]
    cases order with
    | startWatcher => exact tell_consumer ..
    | stopWatcher => exact tell_consumer ..
    | clearQueue => rfl

/-- Whatever a gated pipeline does in a turn is a run of a replica with its line. -/
theorem Pipeline.turn_replica {b : CallBackend K E} {p p' : DispatchPipeline K E} {now draw : Nat}
    {env env' : E} {channel : Leadership.Channel}
    (h : p.turn b (dispatching draw) now draw channel channel.current.isLeader env =
      some (p', env')) :
    ∃ trace, Replica.Run b ⟨now, env, channel, p.line⟩ trace ⟨now, env', channel, p'.line⟩ := by
  -- Anything but a turn of the line reaches the line from outside.
  have hreached : p'.line.consumer = p.line.consumer →
      ∃ trace, Replica.Run b ⟨now, env, channel, p.line⟩ trace ⟨now, env', channel, p'.line⟩ := by
    intro hconsumer
    have hsent : Replica.Run b ⟨now, env, channel, p.line⟩ _ ⟨now, env, channel, p'.line⟩ :=
      .snoc .nil (.reached hconsumer)
    exact ⟨_, hsent.snoc (.outside (Nat.le_refl now))⟩
  unfold Pipeline.turn at h
  split at h
  · next follower orders hlook =>
    have hobey := obey_consumer b now draw { p with follower } env orders
    rw [Option.some.inj h] at hobey
    exact hreached hobey
  · split at h
    · have htell := tell_consumer b now draw p env .wake
      rw [Option.some.inj h] at htell
      exact hreached htell
    · split at h
      · next q input hincoming =>
        obtain ⟨link, rfl⟩ := incoming?_link hincoming
        have htell := tell_consumer b now draw { p with link } env input
        rw [Option.some.inj h] at htell
        exact hreached htell
      · obtain ⟨⟨line, env₁⟩, hturn, heq⟩ := Option.map_eq_some_iff.mp h
        obtain ⟨rfl, rfl⟩ := Prod.mk.inj heq
        exact ⟨_, .snoc .nil (.turned (s := ⟨now, env, channel, p.line⟩) hturn)⟩

end Reconciler.Host
