import Reconciler.Proofs.Queue.Timers
import Reconciler.Queue.Basic

/-!
# What is pending

The consumer's index and its timers say the same: an identity has a timer exactly if the index names
it, and at most one. Under this invariant (`Queue.Sound`) a queue is a partial map from identities
to entries with deadlines, read off by `Queue.pendingOf`, and every operation is described by what
it does to that map. In particular a command is only ever refused for a deadline beyond the horizon:
a timer that the index names is never missing.
-/

namespace Reconciler.Queue

open Timers (Looked)

variable {K : Type}

/-- The entries pending for an identity, each with its deadline. -/
def pendingOf (q : Queue K) (key : EntityKey) : List (Entry K × Nat) :=
  (q.timers.all.filter (·.value.1 == key)).map fun timer => (timer.value.2, timer.deadline)

/-- The index and the timers agree. -/
structure Sound (q : Queue K) (now : Nat) : Prop where
  timers : q.timers.Sound now
  mem_index : ∀ key id, (key, id) ∈ q.index ↔
    ∃ timer ∈ q.timers.all, timer.value.1 = key ∧ timer.id = id
  keys : (q.index.map (·.1)).Nodup

/-- A schedule that comes due at an instant, upon what is pending for its entity. -/
def Entry.upon (new : Entry K) (due : Nat) : Option (Entry K × Nat) → Entry K × Nat
  | none => (new, due)
  | some (pending, deadline) =>
    match new.merge pending with
    | .replace entry => (entry, due)
    | .keep entry => (entry, deadline)

/-! ## Identities and their timers -/

theorem filter_eq_singleton {α : Type} {l : List α} {p : α → Bool} {a : α} (hl : l.Nodup)
    (ha : a ∈ l) (hp : ∀ b ∈ l, p b = true ↔ b = a) : l.filter p = [a] := by
  obtain ⟨before, after, rfl⟩ := List.append_of_mem ha
  have hbefore : before.filter p = [] := List.filter_eq_nil_iff.mpr fun b hb hpb => by
    obtain rfl := (hp b (by simp [hb])).mp hpb
    exact (List.nodup_append.mp hl).2.2 b hb b (by simp) rfl
  have hafter : after.filter p = [] := List.filter_eq_nil_iff.mpr fun b hb hpb => by
    obtain rfl := (hp b (by simp [hb])).mp hpb
    exact (List.nodup_cons.mp (List.nodup_append.mp hl).2.1).1 hb
  rw [List.filter_append, List.filter_cons_of_pos ((hp a ha).mpr rfl), hbefore, hafter]
  rfl

theorem pendingOf_eq_nil {q : Queue K} {key : EntityKey} :
    q.pendingOf key = [] ↔ ∀ timer ∈ q.timers.all, timer.value.1 ≠ key := by
  simp [pendingOf]

theorem timer?_eq_some {q : Queue K} {key : EntityKey} {id : Nat} (h : q.timer? key = some id) :
    (key, id) ∈ q.index := by
  obtain ⟨⟨found, id'⟩, hfind, hid⟩ := Option.map_eq_some_iff.mp h
  obtain rfl : id' = id := hid
  have hkey : found = key := by simpa using List.find?_some hfind
  exact hkey ▸ List.mem_of_find?_eq_some hfind

theorem timer?_eq_none {q : Queue K} {key : EntityKey} (h : q.timer? key = none) (id : Nat) :
    (key, id) ∉ q.index := by
  intro hm
  have := List.find?_eq_none.mp (Option.map_eq_none_iff.mp h) _ hm
  simp at this

namespace Sound

variable {q : Queue K} {now : Nat}

theorem mono (h : q.Sound now) {later : Nat} (hle : now ≤ later) : q.Sound later :=
  { h with timers := h.timers.mono hle }

theorem startingAt (now : Nat) : (Queue.startingAt now : Queue K).Sound now where
  timers := .startingAt now
  mem_index := by simp [Queue.startingAt, Timers.startingAt, Timers.all]
  keys := List.nodup_nil

/-- An identity has one timer at most. -/
theorem eq_of_key (h : q.Sound now) {a b : Timer (EntityKey × Entry K)} (ha : a ∈ q.timers.all)
    (hb : b ∈ q.timers.all) (hkey : a.value.1 = b.value.1) : a = b := by
  have hia := (h.mem_index _ _).mpr ⟨a, ha, rfl, rfl⟩
  have hib := (h.mem_index _ _).mpr ⟨b, hb, hkey.symm, rfl⟩
  have := List.inj_on_of_nodup_map h.keys hia hib rfl
  exact h.timers.eq_of_id ha hb (Prod.mk.inj this).2

theorem nodup (h : q.Sound now) : q.timers.all.Nodup := List.Nodup.of_map _ h.timers.ids

theorem filter_key (h : q.Sound now) {timer : Timer (EntityKey × Entry K)}
    (hm : timer ∈ q.timers.all) : q.timers.all.filter (·.value.1 == timer.value.1) = [timer] :=
  filter_eq_singleton h.nodup hm fun b hb =>
    ⟨fun hkey => h.eq_of_key hb hm (by simpa using hkey), fun heq => by simp [heq]⟩

theorem pendingOf_timer (h : q.Sound now) {timer : Timer (EntityKey × Entry K)}
    (hm : timer ∈ q.timers.all) :
    q.pendingOf timer.value.1 = [(timer.value.2, timer.deadline)] := by
  simp [pendingOf, h.filter_key hm]

end Sound

theorem mem_forget {q : Queue K} {key : EntityKey} {item : EntityKey × Nat} :
    item ∈ q.forget key ↔ item ∈ q.index ∧ item.1 ≠ key := by
  simp [forget]

/-! ## Taking a timer off, and setting one -/

/-- Taking the timer of an identity off leaves nothing pending for it, and all else. -/
theorem remove_spec {q : Queue K} {now : Nat} (h : q.Sound now)
    {timer : Timer (EntityKey × Entry K)} (hm : timer ∈ q.timers.all)
    {timers : Timers (EntityKey × Entry K)} (hsound : timers.Sound now)
    (hall : timers.all = q.timers.all.filter (·.id != timer.id)) :
    let rest : Queue K := { timers, index := q.forget timer.value.1 }
    rest.Sound now ∧ rest.pendingOf timer.value.1 = [] ∧
      ∀ other, other ≠ timer.value.1 → rest.pendingOf other = q.pendingOf other := by
  have hmem : ∀ a, a ∈ timers.all ↔ a ∈ q.timers.all ∧ a.value.1 ≠ timer.value.1 := by
    intro a
    rw [hall, List.mem_filter]
    refine and_congr_right fun ha => ?_
    have : a.id = timer.id ↔ a.value.1 = timer.value.1 :=
      ⟨fun hid => by rw [h.timers.eq_of_id ha hm hid], fun hkey => by rw [h.eq_of_key ha hm hkey]⟩
    simp [this]
  refine ⟨⟨hsound, ?_, ?_⟩, ?_, ?_⟩
  · intro key id
    rw [mem_forget, h.mem_index]
    constructor
    · rintro ⟨⟨a, ha, rfl, rfl⟩, hne⟩
      exact ⟨a, (hmem a).mpr ⟨ha, hne⟩, rfl, rfl⟩
    · rintro ⟨a, ha, rfl, rfl⟩
      obtain ⟨ha, hne⟩ := (hmem a).mp ha
      exact ⟨⟨a, ha, rfl, rfl⟩, hne⟩
  · exact (List.filter_sublist.map _).nodup h.keys
  · exact pendingOf_eq_nil.mpr fun a ha => ((hmem a).mp ha).2
  · intro other hne
    simp only [pendingOf, hall, List.filter_filter]
    congr 1
    refine List.filter_congr fun a ha => ?_
    by_cases hkey : a.value.1 = other
    · have : a.id ≠ timer.id := fun hid =>
        hne (hkey ▸ congrArg (·.value.1) (h.timers.eq_of_id ha hm hid))
      simp [hkey, this]
    · simp [hkey]

/-- An entry that is made pending for an identity that has none keeps its deadline, unless the wheel
is past it. -/
theorem insert_spec {q q' : Queue K} {now deadline : Nat} (h : q.Sound now) {key : EntityKey}
    {entry : Entry K} (hnone : q.pendingOf key = []) (horigin : q.timers.origin ≤ deadline)
    (hins : q.insert key entry deadline = .ok q') :
    q'.Sound now ∧ q'.pendingOf key = [(entry, max deadline q.timers.reached)] ∧
      ∀ other, other ≠ key → q'.pendingOf other = q.pendingOf other := by
  unfold insert at hins
  split at hins
  · next id timers htimers =>
    obtain rfl := Except.ok.inj hins
    obtain ⟨rfl, -, -, -, before, after, hall, hall'⟩ := Timers.insertAt?_eq_some htimers
    rw [pendingOf_eq_nil] at hnone
    have hfree : (q.forget key) = q.index := List.filter_eq_self.mpr fun item hm => by
      obtain ⟨a, ha, hkey, -⟩ := (h.mem_index item.1 item.2).mp hm
      simpa [← hkey] using hnone a ha
    refine ⟨⟨h.timers.insertAt? horigin htimers, ?_, ?_⟩, ?_, ?_⟩
    · intro key' id'
      simp only [hfree, List.mem_cons, Prod.mk.injEq, h.mem_index, hall, hall', List.mem_append]
      constructor
      · rintro (⟨rfl, rfl⟩ | ⟨a, ha, rfl, rfl⟩)
        · exact ⟨_, Or.inr (Or.inl rfl), rfl, rfl⟩
        · exact ⟨a, by tauto, rfl, rfl⟩
      · rintro ⟨a, ha | rfl | ha, rfl, rfl⟩
        · exact Or.inr ⟨a, Or.inl ha, rfl, rfl⟩
        · exact Or.inl ⟨rfl, rfl⟩
        · exact Or.inr ⟨a, Or.inr ha, rfl, rfl⟩
    · simp only [hfree, List.map_cons, List.nodup_cons]
      refine ⟨?_, h.keys⟩
      rintro hm
      obtain ⟨item, hitem, rfl⟩ := List.mem_map.mp hm
      obtain ⟨a, ha, hkey, -⟩ := (h.mem_index item.1 item.2).mp hitem
      exact hnone a ha hkey
    · have hold : ∀ part : List (Timer (EntityKey × Entry K)), (∀ a ∈ part, a ∈ q.timers.all) →
          part.filter (·.value.1 == key) = [] := fun part hpart =>
        List.filter_eq_nil_iff.mpr fun a ha => by simpa using hnone a (hpart a ha)
      have hbefore := hold before fun a ha => by simp [hall, ha]
      have hafter := hold after fun a ha => by simp [hall, ha]
      simp [pendingOf, hall', hbefore, hafter]
    · intro other hne
      simp [pendingOf, hall, hall', Ne.symm hne]
  · cases hins

theorem insert_error {q : Queue K} {deadline : Nat} {key : EntityKey} {entry : Entry K}
    {fault : Fault} (h : q.insert key entry deadline = .error fault) : fault = .beyondHorizon := by
  unfold insert at h
  split at h
  · cases h
  · exact (Except.error.inj h).symm

/-! ## Commands -/

/-- A timer that the index names is there, with what is pending for its identity. -/
theorem take_spec {q : Queue K} {now : Nat} (h : q.Sound now) {key : EntityKey} {id : Nat}
    (hid : q.timer? key = some id) :
    ∃ timer timers, q.timers.take? id = some (timer, timers) ∧ timer.value.1 = key ∧
      timer ∈ q.timers.all ∧ timers.Sound now ∧ timers.origin = q.timers.origin ∧
      timers.reached = q.timers.reached ∧
      timers.all = q.timers.all.filter (·.id != timer.id) := by
  obtain ⟨named, hnamed, hkey, hnid⟩ := (h.mem_index key id).mp (timer?_eq_some hid)
  cases htake : q.timers.take? id with
  | none => exact absurd hnid (Timers.take?_eq_none htake named hnamed)
  | some taken =>
    obtain ⟨timer, timers⟩ := taken
    obtain ⟨hm, htid, hall, -, horigin, hreached⟩ := Timers.take?_eq_some htake
    have heq : timer = named := h.timers.eq_of_id hm hnamed (htid.trans hnid.symm)
    exact ⟨timer, timers, rfl, heq ▸ hkey, hm, h.timers.take? htake, horigin, hreached,
      htid ▸ hall⟩

/-- A schedule merges with what is pending for its entity, and touches nothing else. -/
theorem apply_schedule {q q' : Queue K} {start now : Nat} (h : q.Sound start) (hle : start ≤ now)
    {key : EntityKey} {entry : Entry K} {delay : Nat}
    (happly : q.apply now (.schedule key entry delay) = .ok q') :
    q'.Sound now ∧
      q'.pendingOf key = [entry.upon (now + delay) (q.pendingOf key).head?] ∧
      ∀ other, other ≠ key → q'.pendingOf other = q.pendingOf other := by
  have hnow := h.mono hle
  have hdue : max (now + delay) q.timers.reached = now + delay :=
    Nat.max_eq_left (Nat.le_trans hnow.timers.reached_le (Nat.le_add_right _ _))
  have horigin : q.timers.origin ≤ now + delay :=
    Nat.le_trans hnow.timers.origin_le (Nat.le_add_right _ _)
  unfold apply at happly
  simp only at happly
  split at happly
  · next hid =>
    have hnone : q.pendingOf key = [] := pendingOf_eq_nil.mpr fun a ha hkey =>
      timer?_eq_none hid a.id ((h.mem_index _ _).mpr ⟨a, ha, hkey, rfl⟩)
    obtain ⟨hsound, hpending, hother⟩ := insert_spec hnow hnone horigin happly
    exact ⟨hsound, by rw [hpending, hnone, hdue]; rfl, hother⟩
  · next id hid =>
    obtain ⟨timer, timers, htake, rfl, hm, htimers, ho, hr, hall⟩ := take_spec hnow hid
    rw [htake] at happly
    simp only at happly
    obtain ⟨hrest, hnone, hothers⟩ := remove_spec hnow hm htimers hall
    have hpending := hnow.pendingOf_timer hm
    have hkeep : max timer.deadline q.timers.reached = timer.deadline :=
      Nat.max_eq_left (hnow.timers.reached_le_deadline timer hm)
    split at happly
    · next new hmerge =>
      obtain ⟨hsound, hnew, hother⟩ := insert_spec hrest hnone (ho ▸ horigin) happly
      refine ⟨hsound, ?_, fun other hne => (hother other hne).trans (hothers other hne)⟩
      simp [hnew, hpending, Entry.upon, hmerge, hr, hdue]
    · next new hmerge =>
      obtain ⟨hsound, hnew, hother⟩ := insert_spec hrest hnone
        (ho ▸ hnow.timers.origin_le_deadline timer hm) happly
      refine ⟨hsound, ?_, fun other hne => (hother other hne).trans (hothers other hne)⟩
      simp [hnew, hpending, Entry.upon, hmerge, hr, hkeep]

theorem apply_clear {q q' : Queue K} {start now : Nat} (h : q.Sound start) (hle : start ≤ now)
    (happly : q.apply now .clear = .ok q') : q'.Sound now ∧ ∀ key, q'.pendingOf key = [] := by
  obtain rfl := Except.ok.inj happly
  refine ⟨⟨(h.mono hle).timers.clear, ?_, List.nodup_nil⟩, ?_⟩
  · simp [Timers.clear, Timers.all]
  · simp [pendingOf, Timers.clear, Timers.all]

theorem apply_error {q : Queue K} {now : Nat} (h : q.Sound now) {command : Command K} {instant : Nat}
    {fault : Fault} (happly : q.apply instant command = .error fault) : fault = .beyondHorizon := by
  cases command with
  | clear => cases happly
  | schedule key entry delay =>
    unfold apply at happly
    simp only at happly
    split at happly
    · exact insert_error happly
    · next id hid =>
      obtain ⟨timer, timers, htake, -⟩ := take_spec h hid
      rw [htake] at happly
      simp only at happly
      split at happly <;> exact insert_error happly

/-! ## Looks -/

/-- The identity whose entry a look delivers. -/
def expired? (q : Queue K) (now : Nat) : Option EntityKey :=
  (q.timers.expire now).1.map (·.value.1)

/-- A look that finds nothing due leaves everything pending. -/
theorem expire_none {q : Queue K} {start now : Nat} (h : q.Sound start) (hle : start ≤ now)
    (hnone : q.expired? now = none) :
    (q.expire now).1 = none ∧ (q.expire now).2.Sound now ∧
      ∀ key, (q.expire now).2.pendingOf key = q.pendingOf key := by
  obtain ⟨hlooked, hsound⟩ := Timers.expire_spec (h.mono hle).timers
  unfold expired? at hnone
  unfold expire
  cases hexpire : q.timers.expire now with
  | mk found timers =>
    simp only [hexpire, Option.map_eq_none_iff] at hlooked hsound hnone ⊢
    subst hnone
    cases hlooked with
    | nothing hall =>
      refine ⟨rfl, ⟨hsound, ?_, h.keys⟩, fun key => by simp [pendingOf, hall]⟩
      simpa [hall] using h.mem_index

/-- A look that delivers takes the delivered entry off, and leaves everything else. -/
theorem expire_some {q : Queue K} {start now : Nat} (h : q.Sound start) (hle : start ≤ now)
    {key : EntityKey} (hsome : q.expired? now = some key) :
    ∃ entry deadline, (q.expire now).1 = some entry ∧ q.pendingOf key = [(entry, deadline)] ∧
      (q.expire now).2.Sound now ∧ (q.expire now).2.pendingOf key = [] ∧
      ∀ other, other ≠ key → (q.expire now).2.pendingOf other = q.pendingOf other := by
  have hnow := h.mono hle
  obtain ⟨hlooked, hsound⟩ := Timers.expire_spec hnow.timers
  unfold expired? at hsome
  unfold expire
  cases hexpire : q.timers.expire now with
  | mk found timers =>
    simp only [hexpire, Option.map_eq_some_iff] at hlooked hsound hsome ⊢
    obtain ⟨timer, rfl, rfl⟩ := hsome
    cases hlooked with
    | found hm hall =>
      obtain ⟨hrest, hnone, hothers⟩ := remove_spec hnow hm hsound hall
      exact ⟨timer.value.2, timer.deadline, rfl, hnow.pendingOf_timer hm, hrest, hnone, hothers⟩

end Reconciler.Queue
