import Mathlib.Data.List.Nodup
import Mathlib.Tactic.Tauto
import Reconciler.Queue.Timers

/-!
# Timers: what every operation keeps

The wheel lags behind the clock and never overtakes a timer that stands on it. That is all that is
needed of its levels and slots: a deadline that was set once stays what it is when its timer is
taken back and set again, and looking at the wheel either takes one timer off or leaves all of them.
The invariant `Timers.Sound` says so, together with the numbering, and deliberately says nothing
about when a timer is found due.
-/

namespace Reconciler.Queue.Timers

variable {α : Type}

/-- The wheel is behind the clock and behind every timer, and the numbers tell timers apart. -/
structure Sound (t : Timers α) (now : Nat) : Prop where
  origin_le : t.origin ≤ now
  reached_le : t.reached ≤ now
  origin_le_deadline : ∀ timer ∈ t.all, t.origin ≤ timer.deadline
  reached_le_deadline : ∀ timer ∈ t.all, t.reached ≤ timer.deadline
  id_lt : ∀ timer ∈ t.all, timer.id < t.nextId
  ids : (t.all.map (·.id)).Nodup

namespace Sound

theorem mono {t : Timers α} {now later : Nat} (h : t.Sound now) (hle : now ≤ later) :
    t.Sound later :=
  { h with
    origin_le := Nat.le_trans h.origin_le hle
    reached_le := Nat.le_trans h.reached_le hle }

theorem startingAt (now : Nat) : (Timers.startingAt now : Timers α).Sound now := by
  constructor <;> simp [Timers.startingAt, Timers.all]

/-- Turning the wheel up to a point that no timer lies before. -/
theorem turnTo {t : Timers α} {now limit : Nat} (h : t.Sound now) (hlimit : limit ≤ now)
    (hahead : ∀ timer ∈ t.all, limit ≤ timer.deadline) :
    ({ t with reached := limit } : Timers α).Sound now :=
  { h with reached_le := hlimit, reached_le_deadline := hahead }

/-- Fewer timers on the same wheel. -/
theorem of_sublist {t t' : Timers α} {now : Nat} (h : t.Sound now)
    (hall : t'.all.Sublist t.all) (horigin : t'.origin = t.origin) (hreached : t'.reached = t.reached)
    (hid : t'.nextId = t.nextId) : t'.Sound now where
  origin_le := horigin ▸ h.origin_le
  reached_le := hreached ▸ h.reached_le
  origin_le_deadline timer hm := horigin ▸ h.origin_le_deadline timer (hall.subset hm)
  reached_le_deadline timer hm := hreached ▸ h.reached_le_deadline timer (hall.subset hm)
  id_lt timer hm := hid ▸ h.id_lt timer (hall.subset hm)
  ids := (hall.map _).nodup h.ids

/-- Two timers of one number are one. -/
theorem eq_of_id {t : Timers α} {now : Nat} (h : t.Sound now) {a b : Timer α} (ha : a ∈ t.all)
    (hb : b ∈ t.all) (hid : a.id = b.id) : a = b :=
  List.inj_on_of_nodup_map h.ids ha hb hid

end Sound

/-! ## The timer that is due first -/

theorem foldl_earlier_spec (rest : List (Timer α)) (timer : Timer α) :
    rest.foldl earlier timer ∈ timer :: rest ∧
      ∀ other ∈ timer :: rest, (rest.foldl earlier timer).deadline ≤ other.deadline := by
  induction rest generalizing timer with
  | nil => simp
  | cons next rest ih =>
    obtain ⟨hmem, hle⟩ := ih (earlier timer next)
    have hpick : earlier timer next = timer ∨ earlier timer next = next := by
      unfold earlier; split
      · exact Or.inr rfl
      · exact Or.inl rfl
    have hmin : (earlier timer next).deadline ≤ timer.deadline ∧
        (earlier timer next).deadline ≤ next.deadline := by
      unfold earlier; split <;> omega
    have hfirst := hle (earlier timer next) List.mem_cons_self
    simp only [List.foldl_cons]
    refine ⟨?_, ?_⟩
    · rcases List.mem_cons.mp hmem with heq | hrest
      · rw [heq]
        rcases hpick with h | h <;> simp [h]
      · exact List.mem_cons_of_mem _ (List.mem_cons_of_mem _ hrest)
    · intro other hother
      rcases List.mem_cons.mp hother with rfl | hother
      · exact Nat.le_trans hfirst hmin.1
      · rcases List.mem_cons.mp hother with rfl | hother
        · exact Nat.le_trans hfirst hmin.2
        · exact hle other (List.mem_cons_of_mem _ hother)

theorem earliest?_eq_none {t : Timers α} (h : t.earliest? = none) : t.active = [] := by
  unfold earliest? at h
  split at h
  · assumption
  · cases h

theorem earliest?_eq_some {t : Timers α} {timer : Timer α} (h : t.earliest? = some timer) :
    timer ∈ t.active ∧ ∀ other ∈ t.active, timer.deadline ≤ other.deadline := by
  unfold earliest? at h
  split at h
  · cases h
  · next first rest hactive =>
    obtain rfl := Option.some.inj h
    rw [hactive]
    exact foldl_earlier_spec rest first

/-- The slot of a deadline begins no later than the deadline. -/
theorem stop_le {t : Timers α} {deadline : Nat} (h : t.origin ≤ deadline) :
    t.stop deadline ≤ deadline := by
  have hslot := Nat.div_mul_le_self (deadline - t.origin) (slotWidth (t.level deadline))
  show t.origin + (deadline - t.origin) / slotWidth (t.level deadline) *
    slotWidth (t.level deadline) ≤ deadline
  omega

/-! ## Looking -/

/-- What a look leaves: the timer that it found is taken off, and otherwise all timers stay. -/
inductive Looked (t t' : Timers α) : Option (Timer α) → Prop
  | nothing : t'.all = t.all → Looked t t' none
  | found {timer : Timer α} : timer ∈ t.all → t'.all = t.all.filter (·.id != timer.id) →
      Looked t t' (some timer)

theorem Looked.congr {t s t' s' : Timers α} {found : Option (Timer α)} (h : Looked s s' found)
    (hs : s.all = t.all) (hs' : s'.all = t'.all) : Looked t t' found := by
  cases h with
  | nothing hall => exact .nothing (by rw [← hs', hall, hs])
  | found hm hall => exact .found (hs ▸ hm) (by rw [← hs', hall, hs])

/-- The wheel alone, while nothing is overdue. -/
theorem drop_all {t : Timers α} (hover : t.overdue = []) (id : Nat) :
    (t.drop id).all = t.all.filter (·.id != id) := by
  simp [drop, all, hover]

theorem turnUntil_spec {now limit : Nat} (hlimit : limit ≤ now) (stops : Nat) {t : Timers α}
    (h : t.Sound now) (hover : t.overdue = []) :
    Looked t (t.turnUntil limit stops).2 (t.turnUntil limit stops).1 ∧
      (t.turnUntil limit stops).2.Sound now ∧ (t.turnUntil limit stops).2.overdue = [] := by
  induction stops generalizing t with
  | zero => exact ⟨.nothing rfl, h, hover⟩
  | succ stops ih =>
    unfold turnUntil
    cases hfirst : t.earliest? with
    | none =>
      have hall : t.all = [] := by simp [all, hover, earliest?_eq_none hfirst]
      exact ⟨.nothing rfl, h.turnTo hlimit (by simp [hall]), hover⟩
    | some timer =>
      obtain ⟨hmem, hmin⟩ := earliest?_eq_some hfirst
      have hall : t.all = t.active := by simp [all, hover]
      have hstop : ∀ other ∈ t.all, t.stop timer.deadline ≤ other.deadline := fun other hm =>
        Nat.le_trans (stop_le (h.origin_le_deadline timer (hall ▸ hmem))) (hmin other (hall ▸ hm))
      simp only
      split
      · next hbefore =>
        exact ⟨.nothing rfl, h.turnTo hlimit fun other hm =>
          Nat.le_trans (Nat.le_of_lt hbefore) (hstop other hm), hover⟩
      · next hreach =>
        split
        · exact ⟨.found (hall ▸ hmem) (drop_all hover _),
            h.of_sublist (by simp [drop_all hover]) rfl rfl rfl, hover⟩
        · obtain ⟨hlooked, hsound, hover'⟩ := ih (h.turnTo (by omega) hstop) hover
          exact ⟨hlooked.congr rfl rfl, hsound, hover'⟩

theorem look_spec {now : Nat} (looks : Nat) {t : Timers α} (h : t.Sound now)
    (hover : t.overdue = []) :
    Looked t (t.look now looks).2 (t.look now looks).1 ∧ (t.look now looks).2.Sound now := by
  induction looks generalizing t with
  | zero => exact ⟨.nothing rfl, h⟩
  | succ looks ih =>
    unfold look
    cases hwake : t.wakeAt.filter (· ≤ now) with
    | none => exact ⟨.nothing rfl, h⟩
    | some limit =>
      have hlimit : limit ≤ now := by simpa using (Option.filter_eq_some_iff.mp hwake).2
      obtain ⟨hlooked, hsound, hover'⟩ := turnUntil_spec hlimit (topLevel + 1) h hover
      simp only
      cases hturn : t.turnUntil limit (topLevel + 1) with
      | mk found t' =>
        simp only [hturn] at hlooked hsound hover' ⊢
        have hsound' : ({ t' with wakeAt := t'.nextStop? } : Timers α).Sound now :=
          { hsound with }
        cases hlooked with
        | found hm hall => exact ⟨.found hm hall, hsound'⟩
        | nothing hall =>
          obtain ⟨hlooked', hsound''⟩ := ih hsound' hover'
          exact ⟨hlooked'.congr hall rfl, hsound''⟩

/-! ## The operations -/

theorem expire_spec {t : Timers α} {now : Nat} (h : t.Sound now) :
    Looked t (t.expire now).2 (t.expire now).1 ∧ (t.expire now).2.Sound now := by
  unfold expire
  split
  · next timer rest hover =>
    have hall : t.all = timer :: (rest ++ t.active) := by simp [all, hover]
    have hids : timer.id ∉ (rest ++ t.active).map (·.id) := by
      have := h.ids
      rw [hall, List.map_cons, List.nodup_cons] at this
      exact this.1
    have hrest : ({ t with overdue := rest } : Timers α).all =
        t.all.filter (·.id != timer.id) := by
      rw [hall, List.filter_cons_of_neg (by simp)]
      refine (List.filter_eq_self.mpr fun other hm => ?_).symm
      have : other.id ≠ timer.id := fun heq => hids (heq ▸ List.mem_map_of_mem hm)
      simpa using this
    exact ⟨.found (by simp [hall]) hrest, h.of_sublist (by simp [hrest]) rfl rfl rfl⟩
  · next hover =>
    split
    · exact ⟨.nothing rfl, h⟩
    · exact look_spec _ h hover

/-- A timer that is set stands among the others, at its deadline or where the wheel is. -/
theorem insertAt?_eq_some {t t' : Timers α} {deadline id : Nat} {value : α}
    (h : t.insertAt? deadline value = some (id, t')) :
    id = t.nextId ∧ t'.nextId = t.nextId + 1 ∧ t'.origin = t.origin ∧ t'.reached = t.reached ∧
      ∃ before after, t.all = before ++ after ∧
        t'.all = before ++ ⟨t.nextId, max deadline t.reached, value⟩ :: after := by
  unfold insertAt? at h
  simp only at h
  split at h
  · obtain ⟨rfl, rfl⟩ := by simpa using h
    exact ⟨rfl, rfl, rfl, rfl, [], t.all, rfl, rfl⟩
  · split at h
    · cases h
    · obtain ⟨rfl, rfl⟩ := by simpa using h
      exact ⟨rfl, rfl, rfl, rfl, t.all, [], by simp, by simp [all]⟩

theorem Sound.insertAt? {t t' : Timers α} {now deadline id : Nat} {value : α} (h : t.Sound now)
    (horigin : t.origin ≤ deadline) (hins : t.insertAt? deadline value = some (id, t')) :
    t'.Sound now := by
  obtain ⟨-, hnext, ho, hr, before, after, hall, hall'⟩ := insertAt?_eq_some hins
  have hold : ∀ timer, timer ∈ before ++ after → timer ∈ t.all := fun timer hm => hall ▸ hm
  have hmem : ∀ timer ∈ t'.all,
      timer = ⟨t.nextId, max deadline t.reached, value⟩ ∨ timer ∈ t.all := by
    intro timer hm
    rw [hall'] at hm
    rw [hall]
    simp only [List.mem_append, List.mem_cons] at hm ⊢
    tauto
  constructor
  · exact ho ▸ h.origin_le
  · exact hr ▸ h.reached_le
  · intro timer hm
    rcases hmem timer hm with rfl | hm
    · rw [ho]; exact Nat.le_trans horigin (Nat.le_max_left _ _)
    · exact ho ▸ h.origin_le_deadline timer hm
  · intro timer hm
    rcases hmem timer hm with rfl | hm
    · rw [hr]; exact Nat.le_max_right _ _
    · exact hr ▸ h.reached_le_deadline timer hm
  · intro timer hm
    rcases hmem timer hm with rfl | hm
    · rw [hnext]; exact Nat.lt_succ_self _
    · rw [hnext]; exact Nat.lt_succ_of_lt (h.id_lt timer hm)
  · have hfresh : t.nextId ∉ (before ++ after).map (·.id) := by
      rintro hin
      obtain ⟨timer, hm, hid⟩ := List.mem_map.mp hin
      exact Nat.lt_irrefl _ (hid ▸ h.id_lt timer (hold timer hm))
    have hids := h.ids
    rw [hall] at hids
    rw [hall', (List.perm_middle.map _).nodup_iff, List.map_cons, List.nodup_cons]
    exact ⟨hfresh, hids⟩

theorem take?_eq_none {t : Timers α} {id : Nat} (h : t.take? id = none) :
    ∀ timer ∈ t.all, timer.id ≠ id := by
  simpa [take?] using h

/-- A timer that is taken back leaves the others as they are. -/
theorem take?_eq_some {t t' : Timers α} {id : Nat} {timer : Timer α}
    (h : t.take? id = some (timer, t')) :
    timer ∈ t.all ∧ timer.id = id ∧ t'.all = t.all.filter (·.id != id) ∧
      t'.nextId = t.nextId ∧ t'.origin = t.origin ∧ t'.reached = t.reached := by
  unfold take? at h
  obtain ⟨found, hfind, heq⟩ := Option.map_eq_some_iff.mp h
  obtain ⟨rfl, rfl⟩ := by simpa using heq
  refine ⟨List.mem_of_find?_eq_some hfind, by simpa using List.find?_some hfind, ?_, rfl, rfl, rfl⟩
  simp [all, drop]

theorem Sound.take? {t t' : Timers α} {now id : Nat} {timer : Timer α} (h : t.Sound now)
    (htake : t.take? id = some (timer, t')) : t'.Sound now := by
  obtain ⟨-, -, hall, hid, horigin, hreached⟩ := take?_eq_some htake
  exact h.of_sublist (by simp [hall]) horigin hreached hid

theorem Sound.clear {t : Timers α} {now : Nat} (h : t.Sound now) : t.clear.Sound now := by
  constructor <;> simp [Timers.clear, Timers.all, h.origin_le]

end Reconciler.Queue.Timers
