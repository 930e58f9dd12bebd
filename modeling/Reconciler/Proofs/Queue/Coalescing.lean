import Mathlib.Data.List.DropRight
import Reconciler.Proofs.Queue.Pending

/-!
# How schedules for one entity add up

A consumer applies schedules one after the other, and each merges with what the ones before it have
left. `closedForm?` says what comes of a whole sequence without going through it: a deletion that no
reconcile follows stands as it is, and otherwise the last one of the heaviest triggers since the
last deletion decides on trigger and deadline, while the entity is the newest. This is what every
run of a consumer has pending.

`supersedes` is no order, since a reconcile takes the place of a deletion, a deletion that of a
requeue, and a requeue that of a reconcile. So the closed form looks for the last deletion first,
and weighs only what came after it.
-/

namespace Reconciler.Queue

variable {K : Type}

/-- A schedule for one identity, and the instant at which it was applied. -/
structure Scheduled (K : Type) where
  entry : Entry K
  appliedAt : Nat
  delay : Nat
  deriving Repr

namespace Scheduled

/-- Why the entity is scheduled. -/
def trigger (s : Scheduled K) : Trigger := s.entry.trigger

/-- The instant at which the schedule comes due, counted from when it was applied. -/
def due (s : Scheduled K) : Nat := s.appliedAt + s.delay

end Scheduled

/-! ## The closed form -/

/-- The last deletion of a sequence. -/
def lastDeletion? (cs : List (Scheduled K)) : Option (Scheduled K) :=
  cs.reverse.find? (·.trigger == .deleted)

/-- What comes after the last deletion; everything if there is none. -/
def sinceDeletion (cs : List (Scheduled K)) : List (Scheduled K) :=
  cs.rtakeWhile (·.trigger != .deleted)

/-- The last one of the greatest weight. -/
def lastHeaviest? (cs : List (Scheduled K)) : Option (Scheduled K) :=
  cs.reverse.find? fun s => cs.all (·.trigger.weight ≤ s.trigger.weight)

/-- Trigger and deadline of the last one of the greatest weight since the last deletion, and the
entity of the last one of all. -/
def heaviestForm? (cs : List (Scheduled K)) : Option (Entry K × Nat) :=
  (lastHeaviest? (sinceDeletion cs)).bind fun lead =>
    cs.getLast?.map fun last => (⟨last.entry.entity, lead.trigger⟩, lead.due)

/-- What is pending for an identity after a sequence of schedules for it. -/
def closedForm? (cs : List (Scheduled K)) : Option (Entry K × Nat) :=
  match lastDeletion? cs with
  | some deletion =>
    if (sinceDeletion cs).all (·.trigger != .reconcile) then some (deletion.entry, deletion.due)
    else heaviestForm? cs
  | none => heaviestForm? cs

/-! ## One schedule more -/

section Append

variable (cs : List (Scheduled K)) (c : Scheduled K)

theorem lastDeletion?_append_deleted (hc : c.trigger = .deleted) :
    lastDeletion? (cs ++ [c]) = some c := by
  simp [lastDeletion?, hc]

theorem lastDeletion?_append (hc : c.trigger ≠ .deleted) :
    lastDeletion? (cs ++ [c]) = lastDeletion? cs := by
  simp [lastDeletion?, hc]

theorem sinceDeletion_append_deleted (hc : c.trigger = .deleted) :
    sinceDeletion (cs ++ [c]) = [] :=
  List.rtakeWhile_concat_neg _ _ _ (by simp [hc])

theorem sinceDeletion_append (hc : c.trigger ≠ .deleted) :
    sinceDeletion (cs ++ [c]) = sinceDeletion cs ++ [c] :=
  List.rtakeWhile_concat_pos _ _ _ (by simp [hc])

theorem trigger_ne_of_mem_sinceDeletion {s : Scheduled K} (hs : s ∈ sinceDeletion cs) :
    s.trigger ≠ .deleted := by
  simpa using List.mem_rtakeWhile_imp hs

theorem sinceDeletion_of_lastDeletion?_eq_none (h : lastDeletion? cs = none) :
    sinceDeletion cs = cs :=
  List.rtakeWhile_eq_self_iff.mpr fun s hs => by
    simpa using List.find?_eq_none.mp h s (List.mem_reverse.mpr hs)

theorem trigger_of_lastDeletion? {d : Scheduled K} (h : lastDeletion? cs = some d) :
    d.trigger = .deleted := by
  simpa using List.find?_some h

/-- A schedule that is as heavy as all before it is the last heaviest one, and any other leaves the
last heaviest one what it was. -/
theorem lastHeaviest?_append :
    lastHeaviest? (cs ++ [c]) =
      if cs.all (·.trigger.weight ≤ c.trigger.weight) then some c else lastHeaviest? cs := by
  by_cases hall : cs.all (·.trigger.weight ≤ c.trigger.weight) = true
  · simp [lastHeaviest?, hall]
  · obtain ⟨heavier, hmem, hlt⟩ : ∃ s ∈ cs, c.trigger.weight < s.trigger.weight := by
      simpa using hall
    have hsame : ∀ s : Scheduled K,
        ((cs ++ [c]).all fun x => decide (x.trigger.weight ≤ s.trigger.weight)) =
          cs.all fun x => decide (x.trigger.weight ≤ s.trigger.weight) := by
      intro s
      by_cases hs : cs.all (fun x => x.trigger.weight ≤ s.trigger.weight) = true
      · have := List.all_eq_true.mp hs heavier hmem
        simp only [decide_eq_true_eq] at this
        simp only [List.all_append, hs, List.all_cons, List.all_nil, Bool.true_and, Bool.and_true,
          decide_eq_true_eq]
        omega
      · simp [Bool.eq_false_iff.mpr hs]
    simp only [lastHeaviest?, hsame, List.reverse_append, List.reverse_cons, List.reverse_nil,
      List.nil_append, List.singleton_append, List.find?_cons, Bool.eq_false_iff.mpr hall,
      Bool.false_eq_true, ↓reduceIte]

theorem exists_lastHeaviest? (h : cs ≠ []) :
    ∃ lead ∈ cs, lastHeaviest? cs = some lead ∧
      ∀ s ∈ cs, s.trigger.weight ≤ lead.trigger.weight := by
  have hsome : (lastHeaviest? cs).isSome := by
    induction cs using List.reverseRecOn with
    | nil => exact absurd rfl h
    | append_singleton cs c ih =>
      rw [lastHeaviest?_append]
      split
      · rfl
      · next hall =>
        refine ih fun hnil => hall ?_
        simp [hnil]
  obtain ⟨lead, hlead⟩ := Option.isSome_iff_exists.mp hsome
  have hmem := List.mem_reverse.mp (List.mem_of_find?_eq_some hlead)
  have hmax := List.find?_some hlead
  exact ⟨lead, hmem, hlead, by simpa using hmax⟩

end Append

/-- Weights and `supersedes` tell the same, but where a reconcile meets a deletion. -/
theorem supersedes_iff {new pending : Trigger} (h : pending ≠ .deleted) :
    new.supersedes pending = true ↔ pending.weight ≤ new.weight := by
  cases pending <;> simp_all [Trigger.supersedes]

theorem weight_le_of_ne_deleted {trigger : Trigger} (h : trigger ≠ .deleted) :
    trigger.weight ≤ Trigger.reconcile.weight := by
  cases trigger <;> simp_all [Trigger.weight]

theorem upon_of_supersedes {new : Entry K} {entity : K} {trigger : Trigger} {due deadline : Nat}
    (h : new.trigger.supersedes trigger = true) :
    new.upon due (some (⟨entity, trigger⟩, deadline)) = (new, due) := by
  simp [Entry.upon, Entry.merge, h]

theorem upon_of_not_supersedes {new : Entry K} {entity : K} {trigger : Trigger}
    {due deadline : Nat} (h : new.trigger.supersedes trigger = false) :
    new.upon due (some (⟨entity, trigger⟩, deadline)) =
      (⟨if trigger = .deleted then entity else new.entity, trigger⟩, deadline) := by
  simp [Entry.upon, Entry.merge, h]

/-- A lighter schedule leaves trigger and deadline as they are, and a pending deletion altogether. -/
theorem upon_deleted {new pending : Entry K} {due deadline : Nat} (hp : pending.trigger = .deleted)
    (hr : new.trigger ≠ .reconcile) (hd : new.trigger ≠ .deleted) :
    new.upon due (some (pending, deadline)) = (pending, deadline) := by
  obtain ⟨entity, trigger⟩ := pending
  obtain rfl : trigger = .deleted := hp
  have : new.trigger.supersedes .deleted = false := by
    cases htrigger : new.trigger <;> simp_all [Trigger.supersedes, Trigger.weight]
  rw [upon_of_not_supersedes this, if_pos rfl]

/-- A schedule that is as heavy as all since the last deletion decides on everything. -/
theorem heaviestForm?_append_heaviest (cs : List (Scheduled K)) (c : Scheduled K)
    (hc : c.trigger ≠ .deleted)
    (hall : ∀ s ∈ sinceDeletion cs, s.trigger.weight ≤ c.trigger.weight) :
    heaviestForm? (cs ++ [c]) = some (c.entry, c.due) := by
  have hall : (sinceDeletion cs).all (·.trigger.weight ≤ c.trigger.weight) = true :=
    List.all_eq_true.mpr fun s hs => by simpa using hall s hs
  simp only [heaviestForm?, sinceDeletion_append cs c hc, lastHeaviest?_append, hall, ↓reduceIte,
    Option.bind_some, List.getLast?_append, List.getLast?_singleton, Option.some_or,
    Option.map_some]
  rfl

/-- The heaviest form while trigger and deadline are still open to the next schedule. -/
theorem heaviestForm?_append (cs : List (Scheduled K)) (c : Scheduled K)
    (hc : c.trigger ≠ .deleted) (hopen : sinceDeletion cs ≠ []) :
    heaviestForm? (cs ++ [c]) = some (c.entry.upon c.due (heaviestForm? cs)) := by
  obtain ⟨lead, hmem, hlead, hmax⟩ := exists_lastHeaviest? (sinceDeletion cs) hopen
  have hne : lead.trigger ≠ .deleted := trigger_ne_of_mem_sinceDeletion cs hmem
  obtain ⟨last, hlast⟩ : ∃ last, cs.getLast? = some last := by
    rw [← Option.isSome_iff_exists, List.getLast?_isSome]
    rintro rfl
    exact hopen rfl
  have hbefore : heaviestForm? cs = some (⟨last.entry.entity, lead.trigger⟩, lead.due) := by
    simp [heaviestForm?, hlead, hlast]
  rw [hbefore]
  by_cases hweight : lead.trigger.weight ≤ c.trigger.weight
  · rw [upon_of_supersedes ((supersedes_iff hne).mpr hweight)]
    exact heaviestForm?_append_heaviest cs c hc fun s hs => Nat.le_trans (hmax s hs) hweight
  · have hall : (sinceDeletion cs).all (·.trigger.weight ≤ c.trigger.weight) = false :=
      List.all_eq_false.mpr ⟨lead, hmem, by simpa using hweight⟩
    have hkeep : c.entry.trigger.supersedes lead.trigger = false :=
      Bool.eq_false_iff.mpr fun h => hweight ((supersedes_iff hne).mp h)
    rw [upon_of_not_supersedes hkeep, if_neg hne]
    simp [heaviestForm?, sinceDeletion_append cs c hc, lastHeaviest?_append, hall, hlead]

/-- The closed form takes a schedule more the way a queue does. -/
theorem closedForm?_append (cs : List (Scheduled K)) (c : Scheduled K) :
    closedForm? (cs ++ [c]) = some (c.entry.upon c.due (closedForm? cs)) := by
  by_cases hc : c.trigger = .deleted
  · -- A deletion takes the place of anything.
    have hupon : c.entry.upon c.due (closedForm? cs) = (c.entry, c.due) := by
      cases closedForm? cs with
      | none => rfl
      | some pending =>
        obtain ⟨pending, deadline⟩ := pending
        refine upon_of_supersedes ?_
        rw [show c.entry.trigger = .deleted from hc]
        cases pending.trigger <;> rfl
    rw [hupon]
    simp [closedForm?, lastDeletion?_append_deleted cs c hc, sinceDeletion_append_deleted cs c hc]
  · simp only [closedForm?, lastDeletion?_append cs c hc, sinceDeletion_append cs c hc]
    cases hlast : lastDeletion? cs with
    | none =>
      have hall := sinceDeletion_of_lastDeletion?_eq_none cs hlast
      cases cs with
      | nil => exact heaviestForm?_append_heaviest [] c hc (by simp [hall])
      | cons first rest => exact heaviestForm?_append _ c hc (by simp [hall])
    | some d =>
      have hd := trigger_of_lastDeletion? cs hlast
      by_cases hstands : (sinceDeletion cs).all (·.trigger != .reconcile) = true
      · by_cases hr : c.trigger = .reconcile
        · -- The reconcile cancels the deletion, and nothing since then is heavier.
          have hform : heaviestForm? (cs ++ [c]) = some (c.entry, c.due) :=
            heaviestForm?_append_heaviest cs c hc fun s hs => by
              rw [hr]
              exact weight_le_of_ne_deleted (trigger_ne_of_mem_sinceDeletion cs hs)
          have hsup : c.entry.trigger.supersedes d.entry.trigger = true := by
            rw [show c.entry.trigger = .reconcile from hr, show d.entry.trigger = .deleted from hd]
            rfl
          have hcancelled : (sinceDeletion cs ++ [c]).all (·.trigger != .reconcile) = false := by
            simp [hr]
          simp only [hstands, hcancelled, hform, Bool.false_eq_true, ↓reduceIte]
          rw [upon_of_supersedes hsup]
        · have hkept : (sinceDeletion cs ++ [c]).all (·.trigger != .reconcile) = true := by
            simp only [List.all_append, hstands, Bool.true_and]
            simp [hr]
          simp only [hstands, hkept, ↓reduceIte]
          rw [upon_deleted hd hr hc]
      · have hcancelled : (sinceDeletion cs ++ [c]).all (·.trigger != .reconcile) = false := by
          simp [List.all_append, Bool.eq_false_iff.mpr hstands]
        simp only [hstands, hcancelled, Bool.false_eq_true, ↓reduceIte]
        refine heaviestForm?_append cs c hc ?_
        rintro hnil
        exact hstands (by simp [hnil])

/-! ## Runs of a consumer -/

/-- What a consumer does with its queue at an instant. -/
inductive Happening (K : Type) where
  | applied (instant : Nat) (command : Command K)
  /-- It looked for an entry that is due, and one of an identity was delivered, or none. -/
  | looked (instant : Nat) (delivered : Option EntityKey)
  deriving Repr

/-- The runs of a consumer that begins with an empty queue at an instant: what happened, the instant
it has come to, and the queue then. Commands and looks come in any order and at any pace. -/
inductive History (start : Nat) : List (Happening K) → Nat → Queue K → Prop where
  | start : History start [] start (startingAt start)
  | apply {past : List (Happening K)} {before now : Nat} {q q' : Queue K} {command : Command K} :
      History start past before q → before ≤ now → q.apply now command = .ok q' →
      History start (past ++ [.applied now command]) now q'
  | look {past : List (Happening K)} {before now : Nat} {q : Queue K} :
      History start past before q → before ≤ now →
      History start (past ++ [.looked now (q.expired? now)]) now (q.expire now).2

/-- The schedules for an identity that are still to be delivered, after one happening more. -/
def note (key : EntityKey) (cs : List (Scheduled K)) : Happening K → List (Scheduled K)
  | .applied instant (.schedule other entry delay) =>
    if other = key then cs ++ [⟨entry, instant, delay⟩] else cs
  | .applied _ .clear => []
  | .looked _ (some other) => if other = key then [] else cs
  | .looked _ none => cs

/-- The schedules for an identity since it was last delivered or the queue was cleared. -/
def outstanding (key : EntityKey) (past : List (Happening K)) : List (Scheduled K) :=
  past.foldl (note key) []

theorem outstanding_append (key : EntityKey) (past : List (Happening K)) (h : Happening K) :
    outstanding key (past ++ [h]) = note key (outstanding key past) h := by
  simp [outstanding]

theorem closedForm?_eq_none {cs : List (Scheduled K)} : closedForm? cs = none ↔ cs = [] := by
  cases cs using List.reverseRecOn with
  | nil => exact iff_of_true rfl rfl
  | append_singleton cs c => simp [closedForm?_append]

namespace History

variable {start now : Nat} {past : List (Happening K)} {q : Queue K}

/-- Index and timers agree throughout, and every identity has pending what the closed form says. -/
theorem sound_and_pending (h : History start past now q) :
    q.Sound now ∧ ∀ key, q.pendingOf key = (closedForm? (outstanding key past)).toList := by
  induction h with
  | start => exact ⟨.startingAt start, fun key => rfl⟩
  | @apply past before now q q' command _ hle happly ih =>
    obtain ⟨hsound, hpending⟩ := ih
    cases command with
    | clear =>
      obtain ⟨hsound', hnone⟩ := apply_clear hsound hle happly
      refine ⟨hsound', fun key => ?_⟩
      rw [hnone key, outstanding_append]
      rfl
    | schedule other entry delay =>
      obtain ⟨hsound', hself, hothers⟩ := apply_schedule hsound hle happly
      refine ⟨hsound', fun key => ?_⟩
      rw [outstanding_append]
      by_cases hkey : other = key
      · subst hkey
        rw [hself, hpending, note, if_pos rfl, closedForm?_append, Option.head?_toList]
        rfl
      · rw [hothers key (Ne.symm hkey), hpending, note, if_neg hkey]
  | @look past before now q _ hle ih =>
    obtain ⟨hsound, hpending⟩ := ih
    cases hfound : q.expired? now with
    | none =>
      obtain ⟨-, hsound', hsame⟩ := expire_none hsound hle hfound
      refine ⟨hsound', fun key => ?_⟩
      rw [hsame, hpending, outstanding_append]
      rfl
    | some other =>
      obtain ⟨entry, deadline, -, -, hsound', hself, hothers⟩ := expire_some hsound hle hfound
      refine ⟨hsound', fun key => ?_⟩
      rw [outstanding_append]
      by_cases hkey : other = key
      · subst hkey
        rw [hself, note, if_pos rfl]
        rfl
      · rw [hothers key (Ne.symm hkey), hpending, note, if_neg hkey]

/-- Commands that are applied in a row at one instant. -/
theorem applyAll {later : Nat} {inbox : List (Command K)} {q' : Queue K}
    (h : History start past now q) (hle : now ≤ later) (happly : q.applyAll later inbox = .ok q') :
    ∃ reached ≤ later, History start (past ++ inbox.map (.applied later)) reached q' := by
  induction inbox generalizing past now q with
  | nil =>
    obtain rfl := Except.ok.inj happly
    exact ⟨now, hle, by simpa using h⟩
  | cons command rest ih =>
    unfold Queue.applyAll at happly
    split at happly
    · next q₁ hfirst =>
      obtain ⟨reached, hreached, hrun⟩ := ih (h.apply hle hfirst) (Nat.le_refl later) happly
      exact ⟨reached, hreached, by simpa using hrun⟩
    · cases happly

/-- A look into the queue by its consumer, as long as the queue has not come to its end, applies
what was sent and then delivers at most one entry. -/
theorem poll {later : Nat} {inbox : List (Command K)} {cancelled closed : Bool} {q' : Queue K}
    (h : History start past now q) (hle : now ≤ later)
    (hpoll : (∃ entry, q.poll later cancelled closed inbox = .delivered entry q') ∨
      q.poll later cancelled closed inbox = .idle q') :
    ∃ delivered, History start (past ++ inbox.map (.applied later) ++ [.looked later delivered])
      later q' := by
  unfold Queue.poll at hpoll
  cases cancelled with
  | true => simp at hpoll
  | false =>
    simp only [Bool.false_eq_true, ↓reduceIte] at hpoll
    cases happly : q.applyAll later inbox with
    | error fault => simp [happly] at hpoll
    | ok q₁ =>
      obtain ⟨reached, hreached, hrun⟩ := h.applyAll hle happly
      have hq' : q' = (q₁.expire later).2 := by
        simp only [happly] at hpoll
        cases hexpire : q₁.expire later with
        | mk found q₂ =>
          simp only [hexpire] at hpoll
          cases found with
          | some entry => exact (by simpa using hpoll : q₂ = q').symm
          | none =>
            simp only at hpoll
            split at hpoll <;> simp_all
      exact ⟨_, hq' ▸ hrun.look hreached⟩

end History

/-- Coalescing in closed form. In every run of a consumer, as soon as a schedule for an identity was
applied since that identity was last delivered or the queue cleared, exactly one entry is pending
for it, with trigger, deadline and entity as `closedForm?` says. Hence the next schedule, if it is
lighter, changes neither trigger nor deadline, but for a reconcile that cancels a deletion; and a
pending deletion stays altogether as it is under all but a reconcile and another deletion. -/
theorem coalescing {start now : Nat} {past : List (Happening K)} {q : Queue K}
    (h : History start past now q) (key : EntityKey) (hsome : outstanding key past ≠ []) :
    ∃ entry deadline,
      closedForm? (outstanding key past) = some (entry, deadline) ∧
      q.pendingOf key = [(entry, deadline)] ∧
      ∀ later new delay q', now ≤ later → q.apply later (.schedule key new delay) = .ok q' →
        (new.trigger.weight < entry.trigger.weight →
          ¬(new.trigger = .reconcile ∧ entry.trigger = .deleted) →
          ∃ entity, q'.pendingOf key = [(⟨entity, entry.trigger⟩, deadline)]) ∧
        (entry.trigger = .deleted → new.trigger ≠ .reconcile → new.trigger ≠ .deleted →
          q'.pendingOf key = [(entry, deadline)]) := by
  obtain ⟨hsound, hpending⟩ := h.sound_and_pending
  obtain ⟨⟨entry, deadline⟩, hform⟩ :=
    Option.ne_none_iff_exists'.mp (mt closedForm?_eq_none.mp hsome)
  have honly : q.pendingOf key = [(entry, deadline)] := by rw [hpending, hform]; rfl
  refine ⟨entry, deadline, hform, honly, fun later new delay q' hle happly => ?_⟩
  obtain ⟨-, hnext, -⟩ := apply_schedule hsound hle happly
  rw [honly, List.head?_cons] at hnext
  constructor
  · intro hlighter hcancel
    have hkeep : new.trigger.supersedes entry.trigger = false := by
      cases hnew : new.trigger <;> cases hold : entry.trigger <;>
        simp_all [Trigger.supersedes, Trigger.weight]
    exact ⟨_, by rw [hnext, upon_of_not_supersedes hkeep]⟩
  · intro hdeleted hr hd
    rw [hnext, upon_deleted hdeleted hr hd]

/-- A reconcile cancels a deletion that a requeue could not, and a status modification after it lends
no more than its entity. -/
theorem coalescing_reconcile_cancels_deletion :
    ∃ (past : List (Happening Nat)) (q : Queue Nat), History 0 past 4 q ∧
      outstanding ⟨none, "a"⟩ past =
        [⟨⟨1, .deleted⟩, 0, 0⟩, ⟨⟨2, .requeue⟩, 1, 5⟩, ⟨⟨3, .reconcile⟩, 3, 4⟩,
          ⟨⟨4, .statusModified⟩, 4, 0⟩] ∧
      q.pendingOf ⟨none, "a"⟩ = [(⟨4, .reconcile⟩, 7)] := by
  have run₁ : History 0 _ 0 _ := .apply (K := Nat) .start (Nat.le_refl 0)
    (show Queue.apply _ 0 (.schedule ⟨none, "a"⟩ ⟨1, .deleted⟩ 0) = .ok _ from rfl)
  have run₂ : History 0 _ 1 _ := run₁.apply (by decide)
    (show Queue.apply _ 1 (.schedule ⟨none, "a"⟩ ⟨2, .requeue⟩ 5) = .ok _ from rfl)
  have run₃ : History 0 _ 2 _ := run₂.apply (by decide)
    (show Queue.apply _ 2 (.schedule ⟨none, "b"⟩ ⟨9, .reconcile⟩ 0) = .ok _ from rfl)
  have run₄ : History 0 _ 3 _ := run₃.apply (by decide)
    (show Queue.apply _ 3 (.schedule ⟨none, "a"⟩ ⟨3, .reconcile⟩ 4) = .ok _ from rfl)
  -- The look delivers `b`, which is due, and leaves `a` to wait for its deadline.
  have run₅ : History 0 _ 3 _ := run₄.look (Nat.le_refl 3)
  have run₆ : History 0 _ 4 _ := run₅.apply (by decide)
    (show Queue.apply _ 4 (.schedule ⟨none, "a"⟩ ⟨4, .statusModified⟩ 0) = .ok _ from rfl)
  obtain ⟨entry, deadline, hform, hpending, -⟩ := coalescing run₆ ⟨none, "a"⟩ (by decide)
  obtain ⟨rfl, rfl⟩ : entry = ⟨4, .reconcile⟩ ∧ deadline = 7 := by
    have hsame : some (entry, deadline) = some (⟨4, .reconcile⟩, 7) := hform.symm.trans rfl
    simpa using hsame
  exact ⟨_, _, run₆, rfl, hpending⟩

end Reconciler.Queue
