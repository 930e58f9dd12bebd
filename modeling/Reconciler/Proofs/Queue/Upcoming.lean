import Reconciler.Proofs.Queue.Pending

/-!
# What is on its way

Commands sent to a queue count before they are applied: `Queue.upcoming?` is the entry that an
identity would have pending if the consumer applied now what was sent. It is what a look goes by, so
whatever is upcoming stays so until it is delivered, or until a command more changes it.

Of the five triggers, three are pressing: an entry with one of these leads to a call whatever its
entity is like. A pressing entry stays pressing under every schedule that merges with it.
-/

namespace Reconciler

/-- An entry with this trigger leads to a call, whatever its entity is like. -/
def Trigger.IsPressing (t : Trigger) : Prop := t = .reconcile ∨ t = .requeue ∨ t = .deleted

namespace Queue

variable {K : Type}

/-! ## Schedules in a row -/

/-- What a schedule makes of the entry that is pending for its entity. -/
def Entry.onto (new : Entry K) : Option (Entry K) → Entry K
  | none => new
  | some pending =>
    match new.merge pending with
    | .replace entry => entry
    | .keep entry => entry

/-- What a command makes of the entry that is pending for an identity. -/
def meet (key : EntityKey) (pending : Option (Entry K)) : Command K → Option (Entry K)
  | .clear => none
  | .schedule other entry _ => if other = key then some (entry.onto pending) else pending

/-- The entry that is pending for an identity once the commands that were sent are applied. -/
def upcoming? (q : Queue K) (inbox : List (Command K)) (key : EntityKey) : Option (Entry K) :=
  inbox.foldl (meet key) ((q.pendingOf key).head?.map (·.1))

section Onto

variable {new pending : Entry K} {pending? : Option (Entry K)}

theorem upon_fst (new : Entry K) (due : Nat) (pending : Option (Entry K × Nat)) :
    (new.upon due pending).1 = new.onto (pending.map (·.1)) := by
  rcases pending with _ | ⟨pending, deadline⟩
  · rfl
  · simp only [Entry.upon, Entry.onto, Option.map_some]
    cases new.merge pending <;> rfl

theorem onto_of_supersedes (h : new.trigger.supersedes pending.trigger = true) :
    new.onto (some pending) = new := by
  simp [Entry.onto, Entry.merge, h]

theorem onto_of_not_supersedes (h : new.trigger.supersedes pending.trigger = false) :
    new.onto (some pending) =
      ⟨if pending.trigger = .deleted then pending.entity else new.entity, pending.trigger⟩ := by
  simp [Entry.onto, Entry.merge, h]

/-- A reconcile takes the place of anything. -/
theorem reconcile_onto (h : new.trigger = .reconcile) : new.onto pending? = new := by
  rcases pending? with _ | pending
  · rfl
  · refine onto_of_supersedes ?_
    rw [h]
    cases pending.trigger <;> rfl

/-- A reconcile is only ever pending with the entity of the last schedule. -/
theorem onto_reconcile (h : (new.onto pending?).trigger = .reconcile) :
    (new.onto pending?).entity = new.entity ∧ new.trigger ≠ .requeue ∧ new.trigger ≠ .deleted := by
  rcases pending? with _ | pending
  · have htrigger : new.trigger = .reconcile := h
    exact ⟨rfl, by simp [htrigger], by simp [htrigger]⟩
  · by_cases hsup : new.trigger.supersedes pending.trigger = true
    · rw [onto_of_supersedes hsup] at h ⊢
      exact ⟨rfl, by simp [h], by simp [h]⟩
    · rw [Bool.not_eq_true] at hsup
      rw [onto_of_not_supersedes hsup] at h ⊢
      have htrigger : pending.trigger = .reconcile := h
      rw [htrigger] at hsup ⊢
      refine ⟨rfl, ?_, ?_⟩ <;>
        · intro hnew
          rw [hnew] at hsup
          exact absurd hsup (by decide)

theorem IsPressing.onto (h : pending.trigger.IsPressing) :
    (new.onto (some pending)).trigger.IsPressing := by
  by_cases hsup : new.trigger.supersedes pending.trigger = true
  · rw [onto_of_supersedes hsup]
    rcases h with hp | hp | hp <;> rw [hp] at hsup <;>
      cases hnew : new.trigger <;> rw [hnew] at hsup <;>
      first | exact absurd hsup (by decide) | simp [Trigger.IsPressing]
  · rw [Bool.not_eq_true] at hsup
    rw [onto_of_not_supersedes hsup]
    exact h

theorem requeue_onto (h : new.trigger = .requeue) :
    (new.onto pending?).trigger.IsPressing := by
  rcases pending? with _ | pending
  · exact .inr (.inl h)
  · by_cases hsup : new.trigger.supersedes pending.trigger = true
    · rw [onto_of_supersedes hsup]
      exact .inr (.inl h)
    · rw [Bool.not_eq_true] at hsup
      rw [onto_of_not_supersedes hsup]
      rw [h] at hsup
      cases hp : pending.trigger <;> rw [hp] at hsup <;>
        first | exact absurd hsup (by decide) | simp [Trigger.IsPressing]

/-- A merged entry has the entity of one of the two. -/
theorem onto_entity (new : Entry K) (pending? : Option (Entry K)) :
    (new.onto pending?).entity = new.entity ∨
      ∃ pending, pending? = some pending ∧ (new.onto pending?).entity = pending.entity := by
  rcases pending? with _ | pending
  · exact .inl rfl
  · by_cases hsup : new.trigger.supersedes pending.trigger = true
    · exact .inl (by rw [onto_of_supersedes hsup])
    · rw [Bool.not_eq_true] at hsup
      rw [onto_of_not_supersedes hsup]
      by_cases hdeleted : pending.trigger = .deleted
      · exact .inr ⟨pending, rfl, if_pos hdeleted⟩
      · exact .inl (if_neg hdeleted)

end Onto

theorem upcoming?_append (q : Queue K) (inbox commands : List (Command K)) (key : EntityKey) :
    q.upcoming? (inbox ++ commands) key = commands.foldl (meet key) (q.upcoming? inbox key) :=
  List.foldl_append

theorem upcoming?_nil (q : Queue K) (key : EntityKey) :
    q.upcoming? [] key = (q.pendingOf key).head?.map (·.1) := rfl

/-! ## Applying what was sent -/

section Apply

variable {q q' : Queue K} {start now : Nat} {inbox : List (Command K)}

theorem apply_upcoming (h : q.Sound start) (hle : start ≤ now) {command : Command K}
    (happly : q.apply now command = .ok q') :
    q'.Sound now ∧ ∀ key, q'.upcoming? [] key = q.upcoming? [command] key := by
  cases command with
  | clear =>
    obtain ⟨hsound, hnone⟩ := apply_clear h hle happly
    refine ⟨hsound, fun key => ?_⟩
    rw [upcoming?_nil, hnone key]
    rfl
  | schedule other entry delay =>
    obtain ⟨hsound, hself, hothers⟩ := apply_schedule h hle happly
    refine ⟨hsound, fun key => ?_⟩
    rw [upcoming?_nil]
    by_cases hkey : other = key
    · subst hkey
      rw [hself, List.head?_cons, Option.map_some, upon_fst]
      simp [upcoming?, meet]
    · rw [hothers key (Ne.symm hkey)]
      simp [upcoming?, meet, hkey]

/-- Applying commands makes pending what was upcoming. -/
theorem applyAll_upcoming (h : q.Sound start) (hle : start ≤ now)
    (happly : q.applyAll now inbox = .ok q') :
    q'.Sound now ∧ ∀ key, q'.upcoming? [] key = q.upcoming? inbox key := by
  induction inbox generalizing q start with
  | nil =>
    obtain rfl := Except.ok.inj happly
    exact ⟨h.mono hle, fun _ => rfl⟩
  | cons command rest ih =>
    unfold applyAll at happly
    split at happly
    · next q₁ hfirst =>
      obtain ⟨hsound, hsame⟩ := apply_upcoming h hle hfirst
      obtain ⟨hsound', hsame'⟩ := ih hsound (Nat.le_refl now) happly
      refine ⟨hsound', fun key => ?_⟩
      rw [hsame' key]
      exact congrArg (rest.foldl (meet key)) (hsame key)
    · cases happly

/-- Commands are only ever refused for a deadline beyond the horizon. -/
theorem applyAll_error (h : q.Sound start) (hle : start ≤ now) {fault : Fault}
    (happly : q.applyAll now inbox = .error fault) : fault = .beyondHorizon := by
  induction inbox generalizing q start with
  | nil => cases happly
  | cons command rest ih =>
    unfold applyAll at happly
    split at happly
    · next q₁ hfirst => exact ih (apply_upcoming h hle hfirst).1 (Nat.le_refl now) happly
    · next fault' hfirst =>
      obtain rfl := Except.error.inj happly
      exact apply_error h hfirst

theorem poll_eq (happly : q.applyAll now inbox = .ok q') :
    q.poll now false false inbox =
      match (q'.expire now).1 with
      | some entry => .delivered entry (q'.expire now).2
      | none => .idle (q'.expire now).2 := by
  simp only [poll, happly, Bool.false_eq_true, if_false, Bool.false_and]
  rcases q'.expire now with ⟨_ | entry, q₂⟩ <;> rfl

/-- A look into an open queue, as long as all that was sent comes due within the horizon, finds
nothing due and leaves what is upcoming as it is, or it delivers what was upcoming for an identity
and leaves the rest as it is. -/
theorem poll_spec (h : q.Sound start) (hle : start ≤ now)
    (hrange : q.applyAll now inbox ≠ .error .beyondHorizon) :
    (∃ q', q.poll now false false inbox = .idle q' ∧ q'.Sound now ∧
      ∀ key, q'.upcoming? [] key = q.upcoming? inbox key) ∨
    (∃ key entry q', q.poll now false false inbox = .delivered entry q' ∧ q'.Sound now ∧
      q.upcoming? inbox key = some entry ∧ q'.upcoming? [] key = none ∧
      ∀ other, other ≠ key → q'.upcoming? [] other = q.upcoming? inbox other) := by
  cases happly : q.applyAll now inbox with
  | error fault => exact absurd (applyAll_error h hle happly ▸ happly) hrange
  | ok q₁ =>
    obtain ⟨hsound, hsame⟩ := applyAll_upcoming h hle happly
    rw [poll_eq happly]
    cases hexpired : q₁.expired? now with
    | none =>
      obtain ⟨hnone, hsound', hkeep⟩ := expire_none hsound (Nat.le_refl now) hexpired
      left
      refine ⟨_, by rw [hnone], hsound', fun key => ?_⟩
      rw [upcoming?_nil, hkeep, ← hsame key, upcoming?_nil]
    | some key =>
      obtain ⟨entry, deadline, hsome, hpending, hsound', hgone, hothers⟩ :=
        expire_some hsound (Nat.le_refl now) hexpired
      right
      refine ⟨key, entry, _, by rw [hsome], hsound', ?_, ?_, fun other hne => ?_⟩
      · rw [← hsame key, upcoming?_nil, hpending]
        rfl
      · rw [upcoming?_nil, hgone]
        rfl
      · rw [upcoming?_nil, hothers other hne, ← hsame other, upcoming?_nil]

end Apply

end Queue

end Reconciler
