import Reconciler.Proofs.Dispatch.Reconciling

/-!
# Failures in a row and retries

A run of a dispatcher is the list of its dispatches, the last one first (`Dispatched`): what was
handled, how the calls for it were answered, and what was queued. How a dispatch ended is read off its
calls (`Dispatched.ending`), and the failures in a row of an entity off the list (`failuresSince`). The
counts that the dispatcher keeps and the requeues that it makes are those.

A dispatch is about one entity (`Dispatched.subject`). That is the one that was read again where one
was, and has the identity of the queued one if the client reads what it is asked for (`Fit`).
-/

namespace Reconciler

namespace Dispatcher

variable (d : Dispatcher) (key other : EntityKey)

theorem failures_forget :
    (d.forget key).failures other = if other = key then 0 else d.failures other := by
  simp only [failures, forget, List.find?_filter]
  split
  · rename_i heq
    rw [List.find?_eq_none.mpr (by simp [heq])]
    rfl
  · rename_i hne
    congr 3
    funext item
    by_cases hitem : item.1 = other <;> simp [hitem, hne]

theorem failures_fail : (d.fail key).failures other =
    if other = key then Nat.min (d.failures key + 1) most else d.failures other := by
  split
  · rename_i heq
    simp [failures, fail, heq]
  · rename_i hne
    have hforget := failures_forget d key other
    rw [if_neg hne] at hforget
    rw [← hforget]
    simp [failures, fail, forget, Ne.symm hne]

end Dispatcher

namespace Dispatch

variable {K : Type} [Entity K]

/-! ## Ends of a dispatch -/

inductive Ending where
  | dropped
  /-- The controller has heard of a deletion, whatever it said. -/
  | told
  | failed
  | skipped
  /-- A requeued entity is not there any more. -/
  | gone
  | succeeded (action : Action)

def Asked.action? : Asked K → Option Action
  | ⟨.reconcile _, .ok action⟩ => some action
  | _ => none

/-- How a dispatch ended, by the answers to its calls. -/
def endingOf (leading : Bool) (entry : Queue.Entry K) (calls : List (Asked K)) : Ending :=
  if leading = false then .dropped
  else if entry.trigger = .deleted then .told
  else if calls.any (·.error?.isSome) then .failed
  else if entry.trigger = .statusModified ∨
      entry.trigger = .finalizersModified ∧ Entity.isDeleting entry.entity = false then .skipped
  else if subject? entry calls = none then .gone
  else .succeeded ((calls.findSome? Asked.action?).getD .awaitChange)

/-- The verdict that a dispatch with an end is about. -/
def Ending.Gives : Ending → Verdict → Prop
  | .dropped, verdict | .told, verdict | .gone, verdict => verdict = .forgotten
  | .skipped, verdict => verdict = .skipped
  | .failed, verdict => ∃ error, verdict = .failed error
  | .succeeded action, verdict => verdict = .succeeded action

section Endings

variable {p : Policy} {entry : Queue.Entry K} {calls before own : List (Asked K)} {x : K}
  {leading : Bool} {r : K × Verdict}

/-- What calls show of their outcome. -/
def Shows (calls : List (Asked K)) : Except Error Action → Prop
  | .error _ => calls.any (·.error?.isSome) = true
  | .ok action => calls.any (·.error?.isSome) = false ∧
    (calls.findSome? Asked.action?).getD .awaitChange = action

omit [Entity K] in
theorem Asked.action?_eq_none {call : Asked K} (h : call.reconciled? = none) :
    call.action? = none := by
  obtain ⟨call, answer⟩ := call
  cases call with
  | reconcile => cases h
  | _ => rfl

omit [Entity K] in
/-- Calls without an error that reconcile nothing show nothing. -/
theorem Shows.append {outcome : Except Error Action}
    (hbefore : ∀ call ∈ before, call.error? = none ∧ call.reconciled? = none)
    (h : Shows own outcome) : Shows (before ++ own) outcome := by
  have herror : before.any (·.error?.isSome) = false := by
    rw [List.any_eq_false]
    intro call hmem
    simp [(hbefore call hmem).1]
  have haction : before.findSome? Asked.action? = none :=
    List.findSome?_eq_none_iff.mpr fun call hmem => Asked.action?_eq_none (hbefore call hmem).2
  cases outcome <;> simpa [Shows, List.findSome?_append, herror, haction] using h

theorem Tried.shows {outcome : Except Error Action} (h : Tried p x own outcome) :
    Shows own outcome := by
  cases h with
  | plain =>
    cases outcome with
    | error error => rfl
    | ok action => exact ⟨rfl, rfl⟩
  | unattached => rfl
  | attached =>
    cases outcome with
    | error error => rfl
    | ok action => exact ⟨rfl, rfl⟩

theorem Rounds.shows {place : Nat} {ids : List String} {rounds : List (Round K)}
    (h : Rounds p place ids x rounds) : Shows (rounds.flatMap Round.calls) (outcomeOf rounds) := by
  induction h with
  | done => exact ⟨rfl, rfl⟩
  | absent _ _ ih => exact ih
  | @failed _ _ _ _ round _ _ hfailure =>
    obtain ⟨place, id, entity, answer, update⟩ := round
    rcases answer with error | ⟨⟩
    · simp [outcomeOf, Round.failure?, Shows, Round.calls, Asked.error?]
    · rcases update with _ | (error | stored)
      · exact absurd rfl hfailure
      · simp [outcomeOf, Round.failure?, Shows, Round.calls, Asked.error?]
      · exact absurd rfl hfailure
  | @passed _ _ _ _ round rounds _ _ hfailure _ ih =>
    rw [List.flatMap_cons, outcomeOf_cons hfailure]
    refine ih.append fun call hmem => ⟨Round.error?_eq_none hfailure call hmem, ?_⟩
    exact (Round.no_kind [round] call (by simpa using hmem)).1

theorem Seen.gives (hseen : Seen entry before x)
    (hdue : entry.trigger ≠ .finalizersModified ∨ Entity.isDeleting x = true)
    {outcome : Except Error Action} (hshows : Shows own outcome) :
    (endingOf true entry (before ++ own)).Gives (.ofOutcome outcome) := by
  obtain ⟨hreconciled, -, -, hkinds⟩ := hseen.no_kind
  have hall : Shows (before ++ own) outcome := hshows.append fun call hmem =>
    ⟨(hkinds call hmem).2.2, List.filterMap_eq_nil_iff.mp hreconciled call hmem⟩
  have hdeleted : entry.trigger ≠ .deleted := by
    cases hseen with
    | given htrigger => rcases htrigger with htrigger | htrigger <;> simp [htrigger]
    | reread _ htrigger => simp [htrigger]
  have hlooked : ¬ (entry.trigger = .statusModified ∨
      entry.trigger = .finalizersModified ∧ Entity.isDeleting entry.entity = false) := by
    cases hseen with
    | given htrigger =>
      rcases htrigger with htrigger | htrigger
      · simp [htrigger]
      · simpa [htrigger] using hdue
    | reread _ htrigger => simp [htrigger]
  simp only [endingOf, Bool.true_eq_false, if_false, if_neg hdeleted, if_neg hlooked,
    hseen.subject?_eq own, reduceCtorEq]
  cases outcome with
  | error error =>
    have herror : (before ++ own).any (·.error?.isSome) = true := hall
    rw [if_pos herror]
    exact ⟨error, rfl⟩
  | ok action =>
    rw [if_neg (by simp [hall.1]), hall.2]
    rfl

/-- A dispatch is about its subject, and its verdict is that of its end. -/
theorem Dealt.gives (h : Dealt p entry leading calls r) :
    r.1 = (subject? entry calls).getD entry.entity ∧ (endingOf leading entry calls).Gives r.2 := by
  have hsubject : subject? entry [] = none ∨ subject? entry [] = some entry.entity := by
    unfold subject?
    split <;> simp
  cases h with
  | dropped => exact ⟨by rcases hsubject with h | h <;> rw [h] <;> rfl, rfl⟩
  | skipped hskipped =>
    have hdeleted : entry.trigger ≠ .deleted := by
      rcases hskipped with hstatus | ⟨hfinalizers, -⟩
      · simp [hstatus]
      · simp [hfinalizers]
    refine ⟨by rcases hsubject with h | h <;> rw [h] <;> rfl, ?_⟩
    simp [endingOf, hdeleted, hskipped, Ending.Gives]
  | told answer hdeleted =>
    exact ⟨by simp [subject?, hdeleted], by simp [endingOf, hdeleted, Ending.Gives]⟩
  | nameless hrequeue =>
    exact ⟨by simp [subject?, hrequeue], by simp [endingOf, hrequeue, subject?, Ending.Gives]⟩
  | gone hrequeue =>
    exact ⟨by simp [subject?, hrequeue, Asked.read?],
      by simp [endingOf, hrequeue, subject?, Asked.read?, Asked.error?, Ending.Gives]⟩
  | unread error hrequeue =>
    exact ⟨by simp [subject?, hrequeue, Asked.read?],
      by simp [endingOf, hrequeue, Asked.error?, Ending.Gives]⟩
  | passed hseen hdeleting hrounds =>
    rw [hseen.subject?_eq]
    exact ⟨rfl, hseen.gives (.inr hdeleting) hrounds.shows⟩
  | tried hseen hother _ htried =>
    rw [hseen.subject?_eq]
    exact ⟨rfl, hseen.gives (.inl hother) htried.shows⟩

end Endings

/-! ## Runs -/

/-- One dispatch of a run: what was handled, with which draw for the backoff, how the calls were
answered, and what was queued. -/
structure Dispatched (K : Type) where
  leading : Bool
  entry : Queue.Entry K
  draw : Nat
  calls : List (Asked K)
  commands : List (Queue.Command K)

namespace Dispatched

variable (t : Dispatched K) (key : EntityKey)

def subject : K := (subject? t.entry t.calls).getD t.entry.entity

def ending : Ending := endingOf t.leading t.entry t.calls

def fails : Bool := Entity.key? t.subject == some key && match t.ending with
  | .failed => true
  | _ => false

/-- An end after which the failures of an entity before do not count. -/
def resets : Bool := Entity.key? t.subject == some key && match t.ending with
  | .failed | .skipped => false
  | _ => true

/-- What is queued after a dispatch, with the failures in a row then. -/
def due (backoff : BackoffConfig) (failures : EntityKey → Nat) : List (Queue.Command K) :=
  match Entity.key? t.subject, t.ending with
  | some key, .failed => [Dispatcher.requeue key t.subject (backoff.delay t.draw (failures key))]
  | some key, .succeeded action =>
    (action.requeueAfter.map (Dispatcher.requeue key t.subject)).toList
  | _, _ => []

end Dispatched

/-- The failures of an entity since the last end that made those before it not count. -/
def failuresSince (key : EntityKey) (past : List (Dispatched K)) : Nat :=
  (past.takeWhile fun t => !t.resets key).countP fun t => t.fails key

/-- The dispatches of a new dispatcher, the last one first, whatever the client, the controller and
the finalizers answer. -/
inductive Dispatches (s : Settings) (finalizers : List String) :
    List (Dispatched K) → Dispatcher → Prop
  | new : Dispatches s finalizers [] (.ofSettings s finalizers)
  | next {past : List (Dispatched K)} {d d' : Dispatcher} {t : Dispatched K} {r : K × Verdict} :
      Dispatches s finalizers past d →
      (handle d.policy t.leading t.entry).Comes (fun _ _ => True) t.calls r →
      d.conclude t.draw r.1 r.2 = some (d', t.commands) → Dispatches s finalizers (t :: past) d'

section Steps

variable {t : Dispatched K} {key : EntityKey} {past : List (Dispatched K)} {d d' : Dispatcher}

theorem failuresSince_cons (t : Dispatched K) (past : List (Dispatched K)) (key : EntityKey) :
    failuresSince key (t :: past) = if t.resets key then 0
      else failuresSince key past + if t.fails key then 1 else 0 := by
  unfold failuresSince
  cases hresets : t.resets key <;> simp [hresets, List.countP_cons]

structure Concludes (t : Dispatched K) (d d' : Dispatcher) : Prop where
  policy : d'.policy = d.policy
  backoff : d'.backoff = d.backoff
  failures : ∀ key, d'.failures key = if t.resets key then 0
    else if t.fails key then Nat.min (d.failures key + 1) Dispatcher.most else d.failures key
  commands : t.commands = t.due d.backoff d'.failures
  named : t.ending = .skipped ∨ ∃ key, Entity.key? t.subject = some key

/-- An end other than a failure and a skip forgets the failures of the entity. -/
theorem failures_forget_eq (hkey : Entity.key? t.subject = some key) (hfailed : t.ending ≠ .failed)
    (hskipped : t.ending ≠ .skipped) (other : EntityKey) :
    (d.forget key).failures other = if t.resets other then 0
      else if t.fails other then Nat.min (d.failures other + 1) Dispatcher.most
      else d.failures other := by
  have hfails : t.fails other = false := by
    unfold Dispatched.fails
    split <;> simp_all
  have hresets : t.resets other = (some key == some other) := by
    unfold Dispatched.resets
    split <;> simp_all
  rw [Dispatcher.failures_forget, hresets, hfails]
  by_cases hother : other = key
  · simp [hother]
  · simp [hother, Ne.symm hother]

theorem concludes_of_forgotten
    (hending : t.ending = .dropped ∨ t.ending = .told ∨ t.ending = .gone)
    (h : d.conclude t.draw t.subject .forgotten = some (d', t.commands)) : Concludes t d d' := by
  obtain ⟨key, hkey, heq⟩ := Option.map_eq_some_iff.mp h
  obtain ⟨rfl, hcommands⟩ := Prod.mk.inj heq
  refine ⟨rfl, rfl, failures_forget_eq hkey ?_ ?_, hcommands.symm.trans ?_, .inr ⟨key, hkey⟩⟩
  all_goals rcases hending with hending | hending | hending <;> simp [Dispatched.due, hending]

theorem concludes_of_gives {verdict : Verdict} (hgives : t.ending.Gives verdict)
    (h : d.conclude t.draw t.subject verdict = some (d', t.commands)) : Concludes t d d' := by
  cases hending : t.ending with
  | dropped =>
    rw [hending] at hgives
    obtain rfl : verdict = .forgotten := hgives
    exact concludes_of_forgotten (.inl hending) h
  | told =>
    rw [hending] at hgives
    obtain rfl : verdict = .forgotten := hgives
    exact concludes_of_forgotten (.inr (.inl hending)) h
  | gone =>
    rw [hending] at hgives
    obtain rfl : verdict = .forgotten := hgives
    exact concludes_of_forgotten (.inr (.inr hending)) h
  | skipped =>
    rw [hending] at hgives
    obtain rfl : verdict = .skipped := hgives
    obtain ⟨rfl, hcommands⟩ := Prod.mk.inj (Option.some.inj h)
    refine ⟨rfl, rfl, fun other => ?_, hcommands.symm.trans ?_, .inl hending⟩
    · simp [Dispatched.resets, Dispatched.fails, hending]
    · simp [Dispatched.due, hending]
  | failed =>
    rw [hending] at hgives
    obtain ⟨error, rfl⟩ : ∃ error, verdict = .failed error := hgives
    obtain ⟨key, hkey, heq⟩ := Option.map_eq_some_iff.mp h
    obtain ⟨rfl, hcommands⟩ := Prod.mk.inj heq
    refine ⟨rfl, rfl, fun other => ?_, hcommands.symm.trans ?_, .inr ⟨key, hkey⟩⟩
    · rw [Dispatcher.failures_fail]
      by_cases hother : other = key
      · simp [Dispatched.resets, Dispatched.fails, hending, hkey, hother]
      · simp [Dispatched.resets, Dispatched.fails, hending, hkey, hother, Ne.symm hother]
    · simp only [Dispatched.due, hkey, hending]
      rfl
  | succeeded action =>
    rw [hending] at hgives
    obtain rfl : verdict = .succeeded action := hgives
    obtain ⟨key, hkey, heq⟩ := Option.map_eq_some_iff.mp h
    obtain ⟨rfl, hcommands⟩ := Prod.mk.inj heq
    refine ⟨rfl, rfl, failures_forget_eq hkey ?_ ?_, hcommands.symm.trans ?_, .inr ⟨key, hkey⟩⟩
    · simp [hending]
    · simp [hending]
    · simp only [Dispatched.due, hkey, hending]

theorem exists_conclude {x : K} (hkey : Entity.key? x = some key) (d : Dispatcher) (draw : Nat)
    (verdict : Verdict) : ∃ d' commands, d.conclude draw x verdict = some (d', commands) := by
  cases verdict <;> simp [Dispatcher.conclude, hkey]

end Steps

section Runs

variable {s : Settings} {finalizers : List String} {past : List (Dispatched K)} {d : Dispatcher}

theorem Dispatches.concluded {t : Dispatched K} (h : Dispatches s finalizers (t :: past) d) :
    ∃ before, Dispatches s finalizers past before ∧ Concludes t before d := by
  cases h with
  | next hbefore hcomes hconclude =>
    obtain ⟨hsubject, hgives⟩ := (dealt_of_comes hcomes).gives
    rw [hsubject] at hconclude
    exact ⟨_, hbefore, concludes_of_gives hgives hconclude⟩

theorem Dispatches.backoff_eq (h : Dispatches s finalizers past d) :
    d.backoff = s.reconcileBackoff := by
  induction past generalizing d with
  | nil => cases h; rfl
  | cons t past ih =>
    obtain ⟨before, hbefore, hconcludes⟩ := h.concluded
    rw [hconcludes.backoff, ih hbefore]

theorem Dispatches.failures_eq (h : Dispatches s finalizers past d) (key : EntityKey) :
    d.failures key = min (failuresSince key past) Dispatcher.most := by
  induction past generalizing d with
  | nil => cases h; rfl
  | cons t past ih =>
    obtain ⟨before, hbefore, hconcludes⟩ := h.concluded
    rw [hconcludes.failures, failuresSince_cons, ih hbefore]
    cases t.resets key with
    | true => rfl
    | false =>
      cases t.fails key with
      | true =>
        -- A count that is held at the greatest stays there.
        have : ∀ n most : Nat, Nat.min (min n most + 1) most = min (n + 1) most :=
          fun n most => by change min _ _ = _; omega
        simpa using this _ _
      | false => rfl

theorem Dealt.key?_eq {p : Policy} {entry : Queue.Entry K} {leading : Bool} {calls : List (Asked K)}
    {r : K × Verdict} (h : Dealt p entry leading calls r)
    (hfit : ∀ call ∈ calls, Fit call.1 call.2) :
    Entity.key? r.1 = Entity.key? entry.entity := by
  cases h with
  | passed hseen =>
    exact (hseen.found fun call hmem => hfit call (List.mem_append_left _ hmem)).key?_eq
  | tried hseen =>
    exact (hseen.found fun call hmem => hfit call (List.mem_append_left _ hmem)).key?_eq
  | _ => rfl

/-- What holds after every dispatch of a run. -/
structure Tallied (s : Settings) (finalizers : List String) (past : List (Dispatched K))
    (d : Dispatcher) : Prop where
  counted : ∀ key, d.failures key = min (failuresSince key past) Dispatcher.most
  queued : ∀ t earlier, past = t :: earlier → t.commands = t.due s.reconcileBackoff d.failures
  /-- All but skipped dispatches are of an entity with a name. -/
  named : ∀ t ∈ past, t.ending = .skipped ∨ ∃ key, Entity.key? t.subject = some key
  identity : ∀ t ∈ past, (∀ call ∈ t.calls, Fit call.1 call.2) →
    Entity.key? t.subject = Entity.key? t.entry.entity
  /-- Skipped dispatches and those of others leave a count as it was. -/
  unchanged : ∀ t earlier before, past = t :: earlier → Dispatches s finalizers earlier before →
    ∀ key, t.ending = .skipped ∨ Entity.key? t.subject ≠ some key →
      d.failures key = before.failures key
  /-- Any further dispatch of an entity with a name goes on with the run. -/
  goes_on : ∀ leading entry draw calls r key,
    (handle d.policy leading entry).Comes (fun _ _ => True) calls r → Entity.key? r.1 = some key →
      ∃ commands d', Dispatches s finalizers (⟨leading, entry, draw, calls, commands⟩ :: past) d'

theorem failuresSince_cons_of_other {t : Dispatched K} {key : EntityKey}
    (h : t.ending = .skipped ∨ Entity.key? t.subject ≠ some key) (past : List (Dispatched K)) :
    failuresSince key (t :: past) = failuresSince key past := by
  have hneither : t.resets key = false ∧ t.fails key = false := by
    rcases h with hskipped | hother
    · simp [Dispatched.resets, Dispatched.fails, hskipped]
    · simp [Dispatched.resets, Dispatched.fails, hother]
  rw [failuresSince_cons, hneither.1, hneither.2]
  rfl

theorem Dispatches.of_mem (h : Dispatches s finalizers past d) {t : Dispatched K} (hmem : t ∈ past) :
    (t.ending = .skipped ∨ ∃ key, Entity.key? t.subject = some key) ∧
      ((∀ call ∈ t.calls, Fit call.1 call.2) →
        Entity.key? t.subject = Entity.key? t.entry.entity) := by
  induction past generalizing d with
  | nil => cases hmem
  | cons last past ih =>
    obtain ⟨before, hbefore, hconcludes⟩ := h.concluded
    rcases List.mem_cons.mp hmem with rfl | hmem
    · refine ⟨hconcludes.named, fun hfit => ?_⟩
      cases h with
      | next _ hcomes _ =>
        have hdealt := dealt_of_comes hcomes
        rw [Dispatched.subject, ← hdealt.gives.1]
        exact hdealt.key?_eq hfit
    · exact ih hbefore hmem

/-- After every dispatch of a run, the failures that are counted for an entity are those since its
last success or end, and what was queued is the one retry of a failure or what a success asked for. -/
theorem failures_drive_retries (h : Dispatches s finalizers past d) :
    Tallied s finalizers past d := by
  constructor
  case counted => exact h.failures_eq
  case queued =>
    rintro t earlier rfl
    obtain ⟨before, hbefore, hconcludes⟩ := h.concluded
    rw [hconcludes.commands, hbefore.backoff_eq]
  case named => exact fun t hmem => (h.of_mem hmem).1
  case identity => exact fun t hmem => (h.of_mem hmem).2
  case unchanged =>
    rintro t earlier before rfl hbefore key hother
    rw [h.failures_eq, hbefore.failures_eq, failuresSince_cons_of_other hother]
  case goes_on =>
    intro leading entry draw calls r key hcomes hkey
    obtain ⟨d', commands, hconclude⟩ := exists_conclude hkey d draw r.2
    exact ⟨commands, d', h.next hcomes hconclude⟩

end Runs

section Stumbling

open Simulation (Widget)

def stumble (version : String) (retry : Duration) : Dispatched Widget where
  leading := true
  entry := ⟨widget version .null, .reconcile⟩
  draw := 7
  calls := [⟨.reconcile (widget version .null), Except.error (.internal "disk" "full")⟩]
  commands := [Dispatcher.requeue ⟨none, "a"⟩ (widget version .null) retry]

def skip (version : String) : Dispatched Widget where
  leading := true
  entry := ⟨widget version .null, .statusModified⟩
  draw := 0
  calls := []
  commands := []

/-- Two failures with a change of the status between them. -/
def stumbles : List (Dispatched Widget) :=
  [stumble "3" (.ofMillis 4007), skip "2", stumble "1" (.ofMillis 2007)]

theorem stumbles_run : ∃ d, d.failures ⟨none, "a"⟩ = 2 ∧
    Dispatches (Settings.named "operator" "me") [] stumbles d := by
  have first : Dispatches (Settings.named "operator" "me") [] ([] : List (Dispatched Widget)) _ :=
    .new
  have second := first.next (t := stumble "1" (.ofMillis 2007)) (.ask trivial (.done _)) rfl
  have third := second.next (t := skip "2") (.done _) rfl
  have last := third.next (t := stumble "3" (.ofMillis 4007)) (.ask trivial (.done _)) rfl
  exact ⟨_, rfl, last⟩

theorem failures_drive_retries_stumbles : ∃ d, d.failures ⟨none, "a"⟩ = 2 ∧
    Tallied (Settings.named "operator" "me") [] stumbles d := by
  obtain ⟨d, hfailures, hrun⟩ := stumbles_run
  exact ⟨d, hfailures, failures_drive_retries hrun⟩

end Stumbling

end Dispatch

end Reconciler
