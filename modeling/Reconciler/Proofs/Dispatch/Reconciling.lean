import Reconciler.Proofs.Dispatch.Settling

/-!
# What the controller gets to reconcile

An entity reaches the controller alive, as it was read or as it was stored last, and with every
registered finalizer on it where finalizers are attached. Whatever is answered with an error ends the
handling, so neither a failed read nor a failed update comes before a reconcile.

The three lists that are looked at are read off the calls: what the controller was given
(`Asked.reconciled?`), what was sent to be stored (`Asked.sent?`) and what was stored
(`Asked.stored?`).
-/

namespace Reconciler.Dispatch

section Calls

variable {K : Type}

def Asked.reconciled? : Asked K → Option K
  | ⟨.reconcile e, _⟩ => some e
  | _ => none

def Asked.sent? : Asked K → Option K
  | ⟨.update sent, _⟩ => some sent
  | _ => none

def Asked.stored? : Asked K → Option K
  | ⟨.update _, .ok stored⟩ => some stored
  | _ => none

/-- The call belongs to the end of an entity. -/
def Asked.cleansUp : Asked K → Bool
  | ⟨.deleted _, _⟩ => true
  | ⟨.finalize _ _ _, _⟩ => true
  | _ => false

/-- The entity was not there when it was read. -/
def Asked.misses : Asked K → Bool
  | ⟨.get _ _, .ok none⟩ => true
  | _ => false

end Calls

variable {K : Type} [Entity K]

/-- The entity with the missing finalizers after its own. -/
def protect (p : Policy) (e : K) : K :=
  Entity.withFinalizers e (some (remaining e ++ p.finalizers.filter (· ∉ remaining e)))

section Attaching

variable {p : Policy} {x stored : K}

theorem missingFinalizers_eq (p : Policy) (x : K) :
    missingFinalizers p x = p.finalizers.filter (· ∉ remaining x) := by
  refine List.filter_congr fun id _ => ?_
  rw [Bool.eq_iff_iff, Bool.not_eq_true', Bool.eq_false_iff, Ne, hasFinalizer_iff,
    decide_eq_true_eq]

theorem attach_missing (p : Policy) (x : K) : attach x (missingFinalizers p x) = protect p x := by
  rw [attach, missingFinalizers_eq]
  rfl

theorem missingFinalizers_eq_nil :
    missingFinalizers p x = [] ↔ ∀ id ∈ p.finalizers, id ∈ remaining x := by
  rw [missingFinalizers_eq, List.filter_eq_nil_iff]
  simp

variable [LawfulEntity K]

theorem isDeleting_protect (p : Policy) (x : K) :
    Entity.isDeleting (protect p x) = Entity.isDeleting x := by
  simp [protect, Entity.isDeleting, Entity.withFinalizers, Metadata.isDeleting]

theorem mem_remaining_protect {id : String} (hid : id ∈ p.finalizers) :
    id ∈ remaining (protect p x) := by
  rw [protect, remaining_withFinalizers, Option.getD_some, List.mem_append]
  by_cases hthere : id ∈ remaining x
  · exact .inl hthere
  · exact .inr (List.mem_filter.mpr ⟨hid, by simpa using hthere⟩)

/-- What is stored of a protected entity is as alive as the entity was, and protected. -/
theorem Retains.of_protect
    (h : Retains (.update (protect p x)) (Except.ok stored : Except Error K)) :
    Entity.isDeleting stored = Entity.isDeleting x ∧ ∀ id ∈ p.finalizers, id ∈ remaining stored := by
  obtain ⟨hfinalizers, hdeletion⟩ := h stored rfl
  constructor
  · rw [← isDeleting_protect p x, Entity.isDeleting, Entity.isDeleting, Metadata.isDeleting,
      Metadata.isDeleting, hdeletion]
  · intro id hid
    rw [remaining, hfinalizers]
    exact mem_remaining_protect hid

end Attaching

/-! ## Kinds of calls -/

section Kinds

variable {p : Policy} {entry : Queue.Entry K} {before own calls : List (Asked K)} {x : K}

theorem Seen.no_kind (h : Seen entry before x) :
    before.filterMap Asked.reconciled? = [] ∧ before.filterMap Asked.sent? = [] ∧
      before.filterMap Asked.stored? = [] ∧ ∀ call ∈ before,
        call.cleansUp = false ∧ call.misses = false ∧ call.error? = none := by
  cases h <;> simp [Asked.reconciled?, Asked.sent?, Asked.stored?, Asked.cleansUp, Asked.misses,
    Asked.error?]

/-- The read of a requeued entity counts for nothing. -/
theorem Seen.kinds_append (h : Seen entry before x) (own : List (Asked K)) :
    (before ++ own).filterMap Asked.reconciled? = own.filterMap Asked.reconciled? ∧
      (before ++ own).filterMap Asked.sent? = own.filterMap Asked.sent? ∧
      (before ++ own).filterMap Asked.stored? = own.filterMap Asked.stored? := by
  obtain ⟨hreconciled, hsent, hstored, -⟩ := h.no_kind
  simp only [List.filterMap_append, hreconciled, hsent, hstored, List.nil_append, and_self]

theorem Round.no_kind (rounds : List (Round K)) : ∀ call ∈ rounds.flatMap Round.calls,
    call.reconciled? = none ∧ call.misses = false := by
  intro call hmem
  obtain ⟨round, -, hcall⟩ := List.mem_flatMap.mp hmem
  obtain ⟨place, id, entity, answer, update⟩ := round
  rcases List.mem_cons.mp hcall with rfl | hcall
  · exact ⟨rfl, rfl⟩
  · cases update with
    | none => cases hcall
    | some answer' =>
      obtain rfl := List.mem_singleton.mp hcall
      exact ⟨rfl, rfl⟩

theorem Round.error?_eq_none {round : Round K} (h : round.failure? = none) :
    ∀ call ∈ round.calls, call.error? = none := by
  obtain ⟨place, id, entity, answer, update⟩ := round
  rcases answer with error | ⟨⟩
  · cases h
  · rcases update with _ | (error | stored)
    · simp [Round.calls, Asked.error?]
    · cases h
    · simp [Round.calls, Asked.error?]

theorem Rounds.error_last {place : Nat} {ids : List String} {rounds : List (Round K)}
    (h : Rounds p place ids x rounds) :
    ∀ call ∈ (rounds.flatMap Round.calls).dropLast, call.error? = none := by
  induction h with
  | done => exact List.forall_mem_nil _
  | absent _ _ ih => exact ih
  | @failed _ _ _ _ round _ hturn _ =>
    obtain ⟨place, id, entity, answer, update⟩ := round
    have hupdate := hturn.updated_iff
    cases update with
    | none => simp [Round.calls]
    | some answer' =>
      obtain rfl : answer = .ok () := (hupdate.mp rfl).2
      simp [Round.calls, Asked.error?]
  | passed _ _ hfailure _ ih =>
    intro call hmem
    rw [List.flatMap_cons, List.dropLast_append] at hmem
    split at hmem
    · exact Round.error?_eq_none hfailure call (List.dropLast_subset _ hmem)
    · rcases List.mem_append.mp hmem with hmem | hmem
      · exact Round.error?_eq_none hfailure call hmem
      · exact ih call hmem

theorem Tried.no_kind {outcome : Except Error Action} (h : Tried p x own outcome) :
    ∀ call ∈ own, call.cleansUp = false ∧ call.misses = false := by
  cases h <;> simp [Asked.cleansUp, Asked.misses]

theorem Tried.last {outcome : Except Error Action} (h : Tried p x own outcome) :
    ∀ call ∈ own.dropLast, call.error? = none ∧ call.reconciled? = none := by
  cases h <;> simp [Asked.error?, Asked.reconciled?]

end Kinds

/-! ## Dispatches -/

/-- The controller is kept from anything but live, current and protected entities. -/
structure Guarded (p : Policy) (leading : Bool) (entry : Queue.Entry K) (calls : List (Asked K)) :
    Prop where
  once : (calls.filterMap Asked.reconciled?).length ≤ 1
  alone : calls.filterMap Asked.reconciled? ≠ [] → ∀ call ∈ calls, call.cleansUp = false
  /-- What is reconciled lives, is what was stored last, or else the entity of the entry, read again
  if that was asked for, and is protected. -/
  sound : ∀ y ∈ calls.filterMap Asked.reconciled?, leading = true ∧ Entity.isDeleting y = false ∧
    (p.autoAttach = true → ∀ id ∈ p.finalizers, id ∈ remaining y) ∧
    ∃ x, subject? entry calls = some x ∧ Entity.isDeleting x = false ∧
      y = (calls.filterMap Asked.stored?).getLastD x
  sent : leading = true → entry.trigger = .reconcile ∨ entry.trigger = .requeue →
    ∀ x, subject? entry calls = some x → Entity.isDeleting x = false →
      calls.filterMap Asked.sent? =
        if p.autoAttach = true ∧ ∃ id ∈ p.finalizers, id ∉ remaining x then [protect p x] else []
  /-- Nothing but a failed update keeps a live entity from the controller. -/
  reached : leading = true → entry.trigger = .reconcile ∨ entry.trigger = .requeue →
    ∀ x, subject? entry calls = some x → Entity.isDeleting x = false →
      calls.filterMap Asked.reconciled? ≠ [] ∨
        (calls.filterMap Asked.sent? ≠ [] ∧ calls.filterMap Asked.stored? = [])
  /-- Nothing is called after an error, nor after a reconcile. -/
  last : ∀ call ∈ calls.dropLast, call.error? = none ∧ call.reconciled? = none
  /-- Nothing is called for an entity that is not there any more. -/
  gone : ∀ call ∈ calls, call.misses = true → calls = [call]
  /-- Changes of the status alone, and of the finalizers of a live entity alone, call for nothing. -/
  silent : entry.trigger = .statusModified ∨
    entry.trigger = .finalizersModified ∧ Entity.isDeleting entry.entity = false → calls = []

section Guarding

variable {p : Policy} {leading : Bool} {entry : Queue.Entry K} {calls before own : List (Asked K)}
  {r : K × Verdict} {x : K}

/-- Of what an entry can come to, only a try reconciles, and it is a try if there is a live entity to
look at. -/
theorem Dealt.reconciled (h : Dealt p entry leading calls r) :
    (∃ before own x outcome, leading = true ∧ calls = before ++ own ∧ Seen entry before x ∧
      Entity.isDeleting x = false ∧ Tried p x own outcome) ∨
    calls.filterMap Asked.reconciled? = [] ∧
      (leading = true → entry.trigger = .reconcile ∨ entry.trigger = .requeue →
        ∀ x, subject? entry calls = some x → Entity.isDeleting x = true) := by
  cases h with
  | dropped => exact .inr ⟨rfl, by simp⟩
  | skipped hskipped =>
    refine .inr ⟨rfl, fun _ htrigger => ?_⟩
    rcases hskipped with hstatus | ⟨hfinalizers, -⟩
    · simp [hstatus] at htrigger
    · simp [hfinalizers] at htrigger
  | told answer hdeleted => exact .inr ⟨rfl, fun _ htrigger => by simp [hdeleted] at htrigger⟩
  | nameless hrequeue => exact .inr ⟨rfl, fun _ _ x hx => by simp [subject?, hrequeue] at hx⟩
  | gone hrequeue =>
    exact .inr ⟨rfl, fun _ _ x hx => by simp [subject?, hrequeue, Asked.read?] at hx⟩
  | unread error hrequeue =>
    exact .inr ⟨rfl, fun _ _ x hx => by simp [subject?, hrequeue, Asked.read?] at hx⟩
  | passed hseen hdeleting hrounds =>
    refine .inr ⟨?_, fun _ _ x hx => ?_⟩
    · rw [(hseen.kinds_append _).1, List.filterMap_eq_nil_iff]
      exact fun call hmem => (Round.no_kind _ call hmem).1
    · obtain rfl := Option.some.inj ((hseen.subject?_eq _).symm.trans hx)
      exact hdeleting
  | tried hseen _ hlive htried =>
    exact .inl ⟨_, _, _, _, rfl, rfl, hseen, hlive, htried⟩

theorem Dealt.last (h : Dealt p entry leading calls r) :
    ∀ call ∈ calls.dropLast, call.error? = none ∧ call.reconciled? = none := by
  -- The read of a requeued entity comes before the other calls.
  have hsplit : ∀ {before own : List (Asked K)} {x : K}, Seen entry before x →
      (∀ call ∈ own.dropLast, call.error? = none ∧ call.reconciled? = none) →
      ∀ call ∈ (before ++ own).dropLast, call.error? = none ∧ call.reconciled? = none := by
    intro before own x hseen hown call hmem
    obtain ⟨hreconciled, -, -, hkinds⟩ := hseen.no_kind
    have hbefore : call ∈ before → call.error? = none ∧ call.reconciled? = none :=
      fun hmem => ⟨(hkinds call hmem).2.2, List.filterMap_eq_nil_iff.mp hreconciled call hmem⟩
    rw [List.dropLast_append] at hmem
    split at hmem
    · exact hbefore (List.dropLast_subset _ hmem)
    · exact (List.mem_append.mp hmem).elim hbefore (hown call)
  cases h with
  | passed hseen _ hrounds =>
    refine hsplit hseen fun call hmem => ⟨hrounds.error_last call hmem, ?_⟩
    exact (Round.no_kind _ call (List.dropLast_subset _ hmem)).1
  | tried hseen _ _ htried => exact hsplit hseen htried.last
  | _ => exact List.forall_mem_nil _

theorem Dealt.only_miss (h : Dealt p entry leading calls r) {call : Asked K} (hmem : call ∈ calls)
    (hmisses : call.misses = true) : calls = [call] := by
  cases h with
  | dropped => cases hmem
  | skipped => cases hmem
  | nameless => cases hmem
  | told => rw [List.mem_singleton.mp hmem]
  | gone => rw [List.mem_singleton.mp hmem]
  | unread => rw [List.mem_singleton.mp hmem]
  | passed hseen _ _ =>
    have hnot : call.misses = false := (List.mem_append.mp hmem).elim
      (fun hmem => (hseen.no_kind.2.2.2 call hmem).2.1) fun hmem => (Round.no_kind _ call hmem).2
    rw [hmisses] at hnot
    cases hnot
  | tried hseen _ _ htried =>
    have hnot : call.misses = false := (List.mem_append.mp hmem).elim
      (fun hmem => (hseen.no_kind.2.2.2 call hmem).2.1) fun hmem => (htried.no_kind call hmem).2
    rw [hmisses] at hnot
    cases hnot

theorem Dealt.silent (h : Dealt p entry leading calls r)
    (htrigger : entry.trigger = .statusModified ∨
      entry.trigger = .finalizersModified ∧ Entity.isDeleting entry.entity = false) :
    calls = [] := by
  -- The triggers of what is left are others, or the entity is marked for deletion.
  cases h with
  | dropped => rfl
  | skipped => rfl
  | nameless => rfl
  | told _ hdeleted => simp [hdeleted] at htrigger
  | gone hrequeue => simp [hrequeue] at htrigger
  | unread _ hrequeue => simp [hrequeue] at htrigger
  | passed hseen hdeleting =>
    cases hseen with
    | given hgiven =>
      rcases hgiven with hgiven | hgiven
      · simp [hgiven] at htrigger
      · simp [hgiven, hdeleting] at htrigger
    | reread x hrequeue => simp [hrequeue] at htrigger
  | tried hseen hother hlive =>
    cases hseen with
    | given hgiven =>
      rcases hgiven with hgiven | hgiven
      · simp [hgiven] at htrigger
      · exact absurd hgiven hother
    | reread x hrequeue => simp [hrequeue] at htrigger

theorem Tried.sent_eq {outcome : Except Error Action} (h : Tried p x own outcome) :
    own.filterMap Asked.sent? =
      if p.autoAttach = true ∧ ∃ id ∈ p.finalizers, id ∉ remaining x then [protect p x] else [] := by
  have hmissing : missingFinalizers p x ≠ [] ↔ ∃ id ∈ p.finalizers, id ∉ remaining x := by
    simp [missingFinalizers_eq_nil]
  cases h with
  | plain _ hplain =>
    refine (if_neg ?_).symm
    rintro ⟨hattach, hsome⟩
    rcases hplain with hplain | hplain
    · simp [hattach] at hplain
    · exact hmissing.mpr hsome hplain
  | unattached _ hattach hne =>
    rw [if_pos ⟨hattach, hmissing.mp hne⟩, ← attach_missing]
    rfl
  | attached _ _ hattach hne =>
    rw [if_pos ⟨hattach, hmissing.mp hne⟩, ← attach_missing]
    rfl

/-- A try gives the controller what was stored last, unless it was not stored. -/
theorem Tried.reconciled_eq {outcome : Except Error Action} (h : Tried p x own outcome) :
    own.filterMap Asked.reconciled? = [(own.filterMap Asked.stored?).getLastD x] ∨
      own.filterMap Asked.reconciled? = [] ∧ own.filterMap Asked.sent? ≠ [] ∧
        own.filterMap Asked.stored? = [] := by
  cases h with
  | plain => exact .inl rfl
  | unattached => exact .inr ⟨rfl, by simp [Asked.sent?], rfl⟩
  | attached => exact .inl rfl

variable [LawfulEntity K]

theorem Tried.lives {outcome : Except Error Action} (h : Tried p x own outcome)
    (hfit : ∀ call ∈ own, Retains call.1 call.2) {y : K}
    (hy : y ∈ own.filterMap Asked.reconciled?) : Entity.isDeleting y = Entity.isDeleting x ∧
      (p.autoAttach = true → ∀ id ∈ p.finalizers, id ∈ remaining y) := by
  cases h with
  | plain _ hplain =>
    obtain rfl : y = x := by simpa [Asked.reconciled?] using hy
    refine ⟨rfl, fun hattach => missingFinalizers_eq_nil.mp (hplain.resolve_left ?_)⟩
    simp [hattach]
  | unattached => simp [Asked.reconciled?] at hy
  | attached stored _ _ _ =>
    obtain rfl : stored = y := by simpa [Asked.reconciled?, eq_comm] using hy
    have hstored := hfit _ List.mem_cons_self
    rw [attach_missing] at hstored
    exact ⟨(Retains.of_protect hstored).1, fun _ => (Retains.of_protect hstored).2⟩

theorem Dealt.guarded_of_tried (h : Dealt p entry true (before ++ own) r)
    (hseen : Seen entry before x) (hlive : Entity.isDeleting x = false)
    {outcome : Except Error Action} (htried : Tried p x own outcome)
    (hfit : ∀ call ∈ own, Retains call.1 call.2) : Guarded p true entry (before ++ own) := by
  obtain ⟨hreconciled, hsent, hstored⟩ := hseen.kinds_append own
  constructor
  case once =>
    rw [hreconciled]
    rcases htried.reconciled_eq with heq | ⟨heq, -⟩ <;> rw [heq] <;> simp
  case alone =>
    intro _ call hmem
    rcases List.mem_append.mp hmem with hmem | hmem
    · exact (hseen.no_kind.2.2.2 call hmem).1
    · exact (htried.no_kind call hmem).1
  case sound =>
    intro y hy
    rw [hreconciled] at hy
    obtain ⟨hdeleting, hprotected⟩ := htried.lives hfit hy
    refine ⟨rfl, hdeleting.trans hlive, hprotected, x, hseen.subject?_eq own, hlive, ?_⟩
    rw [hstored]
    rcases htried.reconciled_eq with heq | ⟨heq, -⟩
    · exact List.mem_singleton.mp (heq ▸ hy)
    · rw [heq] at hy
      cases hy
  case sent =>
    intro _ _ y hy _
    obtain rfl := Option.some.inj ((hseen.subject?_eq own).symm.trans hy)
    rw [hsent, htried.sent_eq]
  case reached =>
    intro _ _ y hy _
    rw [hreconciled, hsent, hstored]
    refine htried.reconciled_eq.imp ?_ And.right
    intro heq
    simp [heq]
  case last => exact h.last
  case gone => exact fun _ => h.only_miss
  case silent => exact h.silent

omit [LawfulEntity K] in
/-- Where there is no live entity to look at, nothing has to be said of a reconcile. -/
theorem Dealt.guarded_of_dead (h : Dealt p entry leading calls r)
    (hnone : calls.filterMap Asked.reconciled? = [])
    (hdying : leading = true → entry.trigger = .reconcile ∨ entry.trigger = .requeue →
      ∀ x, subject? entry calls = some x → Entity.isDeleting x = true) :
    Guarded p leading entry calls := by
  have hdead : leading = true → entry.trigger = .reconcile ∨ entry.trigger = .requeue →
      ∀ x, subject? entry calls = some x → ¬ Entity.isDeleting x = false := by
    intro hleading htrigger x hx
    rw [hdying hleading htrigger x hx]
    exact Bool.noConfusion
  constructor
  case once => simp [hnone]
  case alone => exact fun hsome => absurd hnone hsome
  case sound => simp [hnone]
  case sent => exact fun hleading htrigger x hx hlive => absurd hlive (hdead hleading htrigger x hx)
  case reached =>
    exact fun hleading htrigger x hx hlive => absurd hlive (hdead hleading htrigger x hx)
  case last => exact h.last
  case gone => exact fun _ => h.only_miss
  case silent => exact h.silent

/-- Whatever an entry comes to, the controller is guarded. -/
theorem reconciles_only_protected (h : (handle p leading entry).Comes Retains calls r) :
    Guarded p leading entry calls := by
  have hdealt := dealt_of_comes h
  rcases hdealt.reconciled with
      ⟨before, own, x, outcome, rfl, rfl, hseen, hlive, htried⟩ | ⟨hnone, hdying⟩
  · refine hdealt.guarded_of_tried hseen hlive htried fun call hmem => ?_
    exact h.all_fit call (List.mem_append_right _ hmem)
  · exact hdealt.guarded_of_dead hnone hdying

end Guarding

section Attached

open Simulation (Widget)

/-- A requeued entity that lacks one of two finalizers. -/
def attached : List (Asked Widget) :=
  [⟨.get "a" none, Except.ok (some (widget "1" .null (some ["g"])))⟩,
    ⟨.update (attach (widget "1" .null (some ["g"])) ["f"]),
      Except.ok (widget "2" .null (some ["g", "f"]))⟩,
    ⟨.reconcile (widget "2" .null (some ["g", "f"])), Except.ok .awaitChange⟩]

theorem attached_comes : (handle { finalizers := ["f", "g"] } true
    ⟨widget "0" .null, .requeue⟩).Comes Retains attached
      (widget "1" .null (some ["g"]), .succeeded .awaitChange) := by
  refine Plan.Comes.ask trivial ?_
  refine Plan.Comes.ask ?_ ?_
  · rintro stored ⟨⟩
    exact ⟨rfl, rfl⟩
  refine Plan.Comes.ask trivial ?_
  exact Plan.Comes.done _

theorem reconciles_only_protected_attached :
    attached.filterMap Asked.reconciled? = [widget "2" .null (some ["g", "f"])] ∧
      Guarded { finalizers := ["f", "g"] } true ⟨widget "0" .null, .requeue⟩ attached :=
  ⟨rfl, reconciles_only_protected attached_comes⟩

end Attached

end Reconciler.Dispatch
