import Reconciler.Proofs.Dispatch.Settling

/-!
# Finalizers come off after their cleanup

A pass over the finalizers of an entity that is marked for deletion, in rounds (`Round`). Which of the
registered finalizers run is said in terms of what the client has stored when their turn comes
(`storedAfter`), and what is left on the entity in the end in terms of the rounds that took one off
(`detachedIn`), whether the pass was cut short or not.

The places in the order of registration tell two finalizers of one name apart.
-/

namespace Reconciler.Dispatch

variable {K : Type} [Entity K]

/-! ## Rounds in order -/

section Order

variable {p : Policy} {place : Nat} {ids : List String} {x : K} {rounds : List (Round K)}

theorem Rounds.registered (h : Rounds p place ids x rounds) :
    ∀ round ∈ rounds, ∃ i, round.place = place + i ∧ ids[i]? = some round.id := by
  -- One more finalizer in front moves every round by a place.
  have hlater : ∀ {n : Nat} {id : String} {rest : List String} {round : Round K},
      (∃ i, round.place = n + 1 + i ∧ rest[i]? = some round.id) →
      ∃ i, round.place = n + i ∧ (id :: rest)[i]? = some round.id := by
    rintro n id rest round ⟨i, hi, hid⟩
    exact ⟨i + 1, by omega, hid⟩
  induction h with
  | done => exact List.forall_mem_nil _
  | absent _ _ ih => exact fun round hmem => hlater (ih round hmem)
  | failed _ hturn => exact List.forall_mem_singleton.mpr ⟨0, hturn.place_eq, hturn.id_eq ▸ rfl⟩
  | passed _ hturn _ _ ih =>
    refine List.forall_mem_cons.mpr ⟨⟨0, hturn.place_eq, hturn.id_eq ▸ rfl⟩, ?_⟩
    exact fun round hmem => hlater (ih round hmem)

theorem Rounds.le_place (h : Rounds p place ids x rounds) {round : Round K} (hmem : round ∈ rounds) :
    place ≤ round.place := by
  obtain ⟨i, hi, -⟩ := h.registered round hmem
  omega

theorem Rounds.filter_place (h : Rounds p place ids x rounds) {n : Nat} (hn : n ≤ place) :
    rounds.filter (·.place < n) = [] := by
  refine List.filter_eq_nil_iff.mpr fun round hmem => ?_
  have := h.le_place hmem
  simp only [decide_eq_true_eq]
  omega

theorem Rounds.ordered (h : Rounds p place ids x rounds) :
    rounds.Pairwise fun first second => first.place < second.place := by
  induction h with
  | done => exact .nil
  | absent _ _ ih => exact ih
  | failed => exact List.pairwise_singleton _ _
  | passed _ hturn _ hrest ih =>
    refine .cons ?_ ih
    intro later hmem
    have := hrest.le_place hmem
    have := hturn.place_eq
    omega

structure Turn (p : Policy) (x : K) (before : List (Round K)) (round : Round K)
    (after : List (Round K)) : Prop where
  passed : ∀ earlier ∈ before, earlier.failure? = none
  current : round.entity = storedAfter x before
  present : round.id ∈ remaining round.entity
  updated_iff : round.update.isSome ↔ p.autoDetach = true ∧ round.answer = .ok ()
  ends : round.failure? ≠ none → after = []

theorem Rounds.turn (h : Rounds p place ids x rounds) {before after : List (Round K)}
    {round : Round K} (heq : rounds = before ++ round :: after) : Turn p x before round after := by
  induction h generalizing before with
  | done => cases before <;> cases heq
  | absent _ _ ih => exact ih heq
  | failed hid hturn hfailure =>
    obtain ⟨rfl, rfl, rfl⟩ : before = [] ∧ _ = round ∧ after = [] := by
      cases before with
      | nil => exact ⟨rfl, (List.cons.inj heq).1, (List.cons.inj heq).2.symm⟩
      | cons _ before => cases before <;> cases heq
    obtain ⟨-, rfl, rfl, hupdate⟩ := hturn
    exact ⟨List.forall_mem_nil _, rfl, hid, hupdate, fun _ => rfl⟩
  | passed hid hturn hfailure _ ih =>
    cases before with
    | nil =>
      obtain ⟨rfl, rfl⟩ := List.cons.inj heq
      obtain ⟨-, rfl, rfl, hupdate⟩ := hturn
      exact ⟨List.forall_mem_nil _, rfl, hid, hupdate, fun hfailed => absurd hfailure hfailed⟩
    | cons first before =>
      obtain ⟨rfl, hrest⟩ := List.cons.inj heq
      have hlater := ih hrest
      exact { hlater with passed := List.forall_mem_cons.mpr ⟨hfailure, hlater.passed⟩ }

/-- Until a round fails, a finalizer runs if and only if it is on what is stored at its turn. -/
theorem Rounds.runs_iff (h : Rounds p place ids x rounds) {i : Nat} {id : String}
    (hi : ids[i]? = some id)
    (hpassed : ∀ round ∈ rounds, round.place < place + i → round.failure? = none) :
    (∃ round ∈ rounds, round.place = place + i) ↔
      id ∈ remaining (storedAfter x (rounds.filter (·.place < place + i))) := by
  induction h generalizing i with
  | done => simp at hi
  | absent hid hrest ih =>
    cases i with
    | zero =>
      rw [hrest.filter_place (by omega)]
      obtain rfl := Option.some.inj hi
      refine ⟨?_, fun hmem => absurd hmem hid⟩
      rintro ⟨round, hmem, hplace⟩
      have := hrest.le_place hmem
      omega
    | succ i =>
      rw [show ∀ n, n + (i + 1) = n + 1 + i from fun n => by omega] at hpassed ⊢
      exact ih hi hpassed
  | failed hid hturn hfailure =>
    have hplace := hturn.place_eq
    cases i with
    | zero =>
      obtain rfl := Option.some.inj hi
      rw [List.filter_cons_of_neg (by simp [hplace])]
      exact ⟨fun _ => hid, fun _ => ⟨_, List.mem_singleton_self _, hplace⟩⟩
    | succ i => exact absurd (hpassed _ (List.mem_singleton_self _) (by omega)) hfailure
  | passed hid hturn hfailure hrest ih =>
    have hplace := hturn.place_eq
    cases i with
    | zero =>
      obtain rfl := Option.some.inj hi
      rw [List.filter_cons_of_neg (by simp [hplace]), hrest.filter_place (by omega)]
      exact ⟨fun _ => hid, fun _ => ⟨_, List.mem_cons_self, hplace⟩⟩
    | succ i =>
      rw [show ∀ n, n + (i + 1) = n + 1 + i from fun n => by omega] at hpassed ⊢
      rw [List.filter_cons_of_pos (by simp [hplace]; omega)]
      refine Iff.trans ⟨?_, ?_⟩ (ih hi fun round hmem => hpassed round (List.mem_cons_of_mem _ hmem))
      · rintro ⟨round, hmem, hround⟩
        rcases List.mem_cons.mp hmem with rfl | hmem
        · omega
        · exact ⟨round, hmem, hround⟩
      · rintro ⟨round, hmem, hround⟩
        exact ⟨round, List.mem_cons_of_mem _ hmem, hround⟩

end Order

/-! ## What is left -/

section Left

variable {x : K} {rounds : List (Round K)}

theorem detach_of_mem {e : K} {id : String} (h : id ∈ remaining e) :
    detach e id = Entity.withFinalizers e (some ((remaining e).filter (· != id))) := by
  rw [remaining] at h
  rw [detach, remaining]
  cases hfinalizers : (Entity.metadata e).finalizers with
  | none => rw [hfinalizers] at h; cases h
  | some ids => rfl

/-- The client has kept the finalizers of every update as they were sent. -/
def Kept (rounds : List (Round K)) : Prop :=
  ∀ round ∈ rounds, ∀ stored, round.update = some (.ok stored) →
    remaining stored = remaining (detach round.entity round.id)

theorem kept_of_retains (h : ∀ call ∈ rounds.flatMap Round.calls, Retains call.1 call.2) :
    Kept rounds := by
  intro round hround stored hstored
  have hcall : (⟨.update (detach round.entity round.id), Except.ok stored⟩ : Asked K) ∈
      rounds.flatMap Round.calls :=
    List.mem_flatMap.mpr ⟨round, hround, by simp [Round.calls, hstored]⟩
  rw [remaining, (h _ hcall stored rfl).1, remaining]

variable [LawfulEntity K]

theorem remaining_detach_of_mem {e : K} {id : String} (h : id ∈ remaining e) :
    remaining (detach e id) = (remaining e).filter (· != id) := by
  rw [detach_of_mem h, remaining_withFinalizers, Option.getD_some]

theorem remaining_next {round : Round K} (hid : round.id ∈ remaining round.entity)
    (hkept : Kept [round]) :
    remaining round.next = (remaining round.entity).filter (· ∉ detachedIn [round]) := by
  unfold Round.next detachedIn
  cases hupdate : round.update with
  | none => simp [hupdate]
  | some answer =>
    cases answer with
    | error error => simp [hupdate]
    | ok stored =>
      simp only
      rw [hkept round (List.mem_singleton_self _) stored hupdate, remaining_detach_of_mem hid]
      simp [hupdate, bne, beq_eq_decide]

theorem remaining_storedAfter (hkept : Kept rounds)
    (hturn : ∀ before round after, rounds = before ++ round :: after →
      round.entity = storedAfter x before ∧ round.id ∈ remaining round.entity) :
    remaining (storedAfter x rounds) = (remaining x).filter (· ∉ detachedIn rounds) := by
  induction rounds using List.reverseRecOn with
  | nil => exact (List.filter_eq_self.mpr (by simp [detachedIn])).symm
  | append_singleton rounds round ih =>
    obtain ⟨hentity, hid⟩ := hturn rounds round [] rfl
    have hbefore := ih (fun earlier hmem => hkept earlier (List.mem_append_left _ hmem))
      fun before earlier after heq =>
        hturn before earlier (after ++ [round]) (by rw [heq]; simp)
    have hlast : storedAfter x (rounds ++ [round]) = round.next := by simp [storedAfter]
    have hdetached : detachedIn (rounds ++ [round]) = detachedIn rounds ++ detachedIn [round] := by
      simp [detachedIn]
    rw [hlast, remaining_next hid fun last hmem => hkept last (List.mem_append_right _ hmem),
      hentity, hbefore, hdetached, List.filter_filter]
    refine List.filter_congr fun id _ => ?_
    simp [Bool.and_comm]

end Left

/-! ## Passes -/

/-- A pass over the finalizers of an entity and its verdict. -/
structure Pass (p : Policy) (x : K) (rounds : List (Round K)) (verdict : Verdict) : Prop where
  ordered : rounds.Pairwise fun first second => first.place < second.place
  registered : ∀ round ∈ rounds, p.finalizers[round.place]? = some round.id
  /-- Every finalizer runs on what is stored when its turn comes. -/
  current : ∀ before round after, rounds = before ++ round :: after →
    round.entity = storedAfter x before
  /-- As long as nothing has failed, a finalizer runs that is on the entity at its turn, and no other
  does. -/
  runs_iff : ∀ place id, p.finalizers[place]? = some id →
    (∀ round ∈ rounds, round.place < place → round.failure? = none) →
    ((∃ round ∈ rounds, round.place = place) ↔
      id ∈ remaining (storedAfter x (rounds.filter (·.place < place))))
  updated_iff : ∀ round ∈ rounds,
    (round.update.isSome ↔ p.autoDetach = true ∧ round.answer = .ok ())
  /-- An update leaves out the one identifier. -/
  taken : ∀ round ∈ rounds, detach round.entity round.id =
    Entity.withFinalizers round.entity (some ((remaining round.entity).filter (· != round.id)))
  ends : ∀ before round after, rounds = before ++ round :: after → round.failure? ≠ none → after = []
  left : remaining (storedAfter x rounds) = (remaining x).filter (· ∉ detachedIn rounds)
  /-- An identifier that is missing from an update is that of a finalizer that has run. -/
  cleaned : ∀ before round after, rounds = before ++ round :: after → round.update.isSome →
    ∀ id ∈ remaining x, id ∉ remaining (detach round.entity round.id) →
      ∃ done ∈ before ++ [round], done.id = id ∧ done.answer = .ok ()
  failed_run : ∀ round ∈ rounds, ∀ error, round.answer = .error error →
    verdict = .failed (.finalizer round.id (Entity.ref round.entity) error.message)
  failed_update : ∀ round ∈ rounds, ∀ error, round.update = some (.error error) →
    verdict = .failed error
  succeeded : (∀ round ∈ rounds, round.failure? = none) → verdict = .succeeded .awaitChange

section Pass

variable {p : Policy} {entry : Queue.Entry K} {calls : List (Asked K)} {x : K}
  {rounds : List (Round K)}

omit [Entity K] in
theorem mem_detachedIn {id : String} : id ∈ detachedIn rounds ↔
    ∃ round ∈ rounds, round.id = id ∧ ∃ stored, round.update = some (.ok stored) := by
  simp only [detachedIn, List.mem_filterMap]
  refine exists_congr fun round => and_congr_right fun _ => ?_
  split
  · rename_i stored hupdate
    simp [hupdate]
  · rename_i hupdate
    simp only [reduceCtorEq, false_iff, not_and, not_exists]
    exact fun _ stored hstored => hupdate stored hstored

theorem outcomeOf_of_passed (h : ∀ round ∈ rounds, round.failure? = none) :
    outcomeOf rounds = .ok .awaitChange := by
  unfold outcomeOf
  cases hlast : rounds.getLast? with
  | none => rfl
  | some round => simp [h round (List.mem_of_getLast? hlast)]

section InOrder

variable {place : Nat} {ids : List String} (h : Rounds p place ids x rounds)

include h in
theorem Rounds.exists_turn {round : Round K} (hmem : round ∈ rounds) :
    ∃ before after, rounds = before ++ round :: after ∧ Turn p x before round after := by
  obtain ⟨before, after, heq⟩ := List.append_of_mem hmem
  exact ⟨before, after, heq, h.turn heq⟩

include h in
theorem Rounds.outcome_of_failure {round : Round K} (hmem : round ∈ rounds) {error : Error}
    (herror : round.failure? = some error) : outcomeOf rounds = .error error := by
  obtain ⟨before, after, rfl, hround⟩ := h.exists_turn hmem
  obtain rfl := hround.ends (by simp [herror])
  simp [outcomeOf, herror]

variable [LawfulEntity K] (hkept : Kept rounds)

include h hkept

theorem Rounds.left {front back : List (Round K)} (heq : rounds = front ++ back) :
    remaining (storedAfter x front) = (remaining x).filter (· ∉ detachedIn front) := by
  refine remaining_storedAfter (fun round hmem => hkept round (heq ▸ List.mem_append_left _ hmem))
    fun before round after hfront => ?_
  have hround := h.turn (heq.trans (by rw [hfront, List.append_assoc]; rfl))
  exact ⟨hround.current, hround.present⟩

theorem Rounds.cleaned {before after : List (Round K)} {round : Round K}
    (heq : rounds = before ++ round :: after) (hupdate : round.update.isSome) {id : String}
    (hid : id ∈ remaining x) (hgone : id ∉ remaining (detach round.entity round.id)) :
    ∃ done ∈ before ++ [round], done.id = id ∧ done.answer = .ok () := by
  have hround := h.turn heq
  by_cases hthere : id ∈ remaining round.entity
  · -- It was there at the turn of the round, so it is the one that the round took off.
    rw [remaining_detach_of_mem hround.present, List.mem_filter, bne_iff_ne] at hgone
    have hsame : id = round.id := by_contra fun hne => hgone ⟨hthere, hne⟩
    exact ⟨round, by simp, hsame.symm, (hround.updated_iff.mp hupdate).2⟩
  · -- It was taken off in a round before.
    rw [hround.current, h.left hkept heq, List.mem_filter] at hthere
    obtain ⟨done, hdone, hsame, stored, hstored⟩ := mem_detachedIn.mp (by simpa [hid] using hthere)
    obtain ⟨_, _, -, hearlier⟩ := h.exists_turn (heq ▸ List.mem_append_left _ hdone)
    refine ⟨done, List.mem_append_left _ hdone, hsame, ?_⟩
    exact (hearlier.updated_iff.mp (by simp [hstored])).2

end InOrder

theorem Rounds.pass [LawfulEntity K] (h : Rounds p 0 p.finalizers x rounds) (hkept : Kept rounds) :
    Pass p x rounds (.ofOutcome (outcomeOf rounds)) := by
  constructor
  case ordered => exact h.ordered
  case registered =>
    intro round hmem
    obtain ⟨i, hi, hid⟩ := h.registered round hmem
    rw [hi, Nat.zero_add, hid]
  case current => exact fun before round after heq => (h.turn heq).current
  case runs_iff =>
    intro place id hplace hpassed
    simpa using h.runs_iff hplace (by simpa using hpassed)
  case updated_iff =>
    intro round hmem
    obtain ⟨before, after, -, hround⟩ := h.exists_turn hmem
    exact hround.updated_iff
  case taken =>
    intro round hmem
    obtain ⟨before, after, -, hround⟩ := h.exists_turn hmem
    exact detach_of_mem hround.present
  case ends => exact fun before round after heq => (h.turn heq).ends
  case left => exact h.left hkept (List.append_nil rounds).symm
  case cleaned =>
    intro before round after heq hupdate id hid hgone
    exact h.cleaned hkept heq hupdate hid hgone
  case failed_run =>
    intro round hmem error herror
    have hfailure : round.failure? =
        some (.finalizer round.id (Entity.ref round.entity) error.message) := by
      simp only [Round.failure?, herror]
    rw [h.outcome_of_failure hmem hfailure]
    rfl
  case failed_update =>
    intro round hmem error herror
    obtain ⟨before, after, -, hround⟩ := h.exists_turn hmem
    have hanswer := (hround.updated_iff.mp (by simp [herror])).2
    have hfailure : round.failure? = some error := by
      simp only [Round.failure?, hanswer, herror]
    rw [h.outcome_of_failure hmem hfailure]
    rfl
  case succeeded =>
    intro hpassed
    rw [outcomeOf_of_passed hpassed]
    rfl

end Pass

/-- What is done for an entity that is marked for deletion is a pass over its finalizers, and an
identifier only leaves it after a finalizer of that name has run. -/
theorem cleanup_precedes_detach [LawfulEntity K] {p : Policy} {entry : Queue.Entry K}
    {calls : List (Asked K)} {r : K × Verdict} {x : K}
    (h : (handle p true entry).Comes Retains calls r)
    (htrigger : entry.trigger = .reconcile ∨ entry.trigger = .requeue ∨
      entry.trigger = .finalizersModified)
    (hsubject : subject? entry calls = some x) (hdeleting : Entity.isDeleting x = true) :
    ∃ rounds verdict, afterReading entry calls = rounds.flatMap Round.calls ∧ r = (x, verdict) ∧
      Pass p x rounds verdict := by
  have hfit := h.all_fit
  cases dealt_of_comes h with
  | skipped hskipped =>
    rcases hskipped with hstatus | ⟨hfinalizers, hlive⟩
    · simp [hstatus] at htrigger
    · simp only [subject?, hfinalizers, reduceCtorEq, if_false, Option.some.injEq] at hsubject
      rw [hsubject, hdeleting] at hlive
      cases hlive
  | told answer hdeleted => simp [hdeleted] at htrigger
  | nameless hrequeue => simp [subject?, hrequeue] at hsubject
  | gone hrequeue => simp [subject?, hrequeue, Asked.read?] at hsubject
  | unread error hrequeue => simp [subject?, hrequeue, Asked.read?] at hsubject
  | passed hseen _ hrounds =>
    obtain rfl := Option.some.inj ((hseen.subject?_eq _).symm.trans hsubject)
    refine ⟨_, _, hseen.afterReading_eq _, rfl, hrounds.pass (kept_of_retains ?_)⟩
    exact fun call hmem => hfit call (List.mem_append_right _ hmem)
  | tried hseen _ hlive =>
    obtain rfl := Option.some.inj ((hseen.subject?_eq _).symm.trans hsubject)
    rw [hdeleting] at hlive
    cases hlive

section CutShort

open Simulation (Widget)

def dying (version : String) (finalizers : List String) : Widget :=
  widget version .null (some finalizers) (some ⟨0, 0⟩)

/-- A pass that takes one finalizer off and fails at the next. -/
def cutShort : List (Asked Widget) :=
  [⟨.get "a" none, Except.ok (some (dying "1" ["f", "other", "g"]))⟩,
    ⟨.finalize 0 "f" (dying "1" ["f", "other", "g"]), Except.ok ()⟩,
    ⟨.update (detach (dying "1" ["f", "other", "g"]) "f"), Except.ok (dying "2" ["other", "g"])⟩,
    ⟨.finalize 1 "g" (dying "2" ["other", "g"]), Except.error (.internal "disk" "full")⟩]

theorem cutShort_comes : (handle { finalizers := ["f", "g", "f"] } true
    ⟨widget "0" .null, .requeue⟩).Comes Retains cutShort
      (dying "1" ["f", "other", "g"],
        .failed (.finalizer "g" "a" "internal error in disk: full")) := by
  refine Plan.Comes.ask trivial ?_
  refine Plan.Comes.ask trivial ?_
  refine Plan.Comes.ask ?_ ?_
  · rintro stored ⟨⟩
    exact ⟨rfl, rfl⟩
  refine Plan.Comes.ask trivial ?_
  exact Plan.Comes.done _

theorem cleanup_precedes_detach_cutShort :
    subject? ⟨widget "0" .null, .requeue⟩ cutShort = some (dying "1" ["f", "other", "g"]) ∧
      Entity.isDeleting (dying "1" ["f", "other", "g"]) = true ∧
      ∃ rounds verdict,
        afterReading ⟨widget "0" .null, .requeue⟩ cutShort = rounds.flatMap Round.calls ∧
        (dying "1" ["f", "other", "g"],
          Verdict.failed (.finalizer "g" "a" "internal error in disk: full")) =
            (dying "1" ["f", "other", "g"], verdict) ∧
        Pass { finalizers := ["f", "g", "f"] } (dying "1" ["f", "other", "g"]) rounds verdict :=
  ⟨rfl, rfl, cleanup_precedes_detach cutShort_comes (.inr (.inl rfl)) rfl rfl⟩

end CutShort

end Reconciler.Dispatch
