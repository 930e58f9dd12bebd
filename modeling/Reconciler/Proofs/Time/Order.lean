import Reconciler.Object.Lease

/-!
# The order of instants

A clock that does not go back and shows no leap second. What a lease says about it is rounded down to
the microsecond, and a lease that has outlived its last renewal at one instant has done so at every
later one, and so has every earlier renewal that was good for as long.
-/

namespace Reconciler

namespace Timestamp

/-! ## Earlier and later -/

instance : LE Timestamp := ⟨fun a b => ¬b < a⟩

theorem lt_iff {a b : Timestamp} :
    a < b ↔ a.secs < b.secs ∨ (a.secs = b.secs ∧ a.nanos < b.nanos) := Iff.rfl

theorem le_iff {a b : Timestamp} :
    a ≤ b ↔ a.secs < b.secs ∨ (a.secs = b.secs ∧ a.nanos ≤ b.nanos) := by
  have h : a ≤ b ↔ ¬b < a := Iff.rfl
  rw [h, lt_iff]
  omega

instance (a b : Timestamp) : Decidable (a ≤ b) := inferInstanceAs (Decidable ¬b < a)

theorem le_refl (a : Timestamp) : a ≤ a := by
  rw [le_iff]
  omega

theorem le_trans {a b c : Timestamp} (hab : a ≤ b) (hbc : b ≤ c) : a ≤ c := by
  rw [le_iff] at *
  omega

theorem lt_of_le_of_lt {a b c : Timestamp} (hab : a ≤ b) (hbc : b < c) : a < c := by
  rw [le_iff] at hab
  rw [lt_iff] at *
  omega

theorem lt_of_lt_of_le {a b c : Timestamp} (hab : a < b) (hbc : b ≤ c) : a < c := by
  rw [le_iff] at hbc
  rw [lt_iff] at *
  omega

/-! ## Readings of a clock -/

/-- The instant is one that a clock shows: after the epoch, and within no leap second. -/
def IsReading (t : Timestamp) : Prop := 0 ≤ t.secs ∧ t.nanos < perSecond

/-- Whole milliseconds since the epoch. -/
def millis (t : Timestamp) : Nat := t.secs.toNat * 1000 + t.nanos / 1_000_000

/-- The instant as a lease gives it: to the microsecond, the rest dropped. -/
def truncated (t : Timestamp) : Timestamp := { t with nanos := t.nanos / 1000 * 1000 }

theorem IsReading.truncated {t : Timestamp} (h : t.IsReading) : t.truncated.IsReading := by
  obtain ⟨hsecs, hnanos⟩ := h
  have hless : t.nanos / 1000 * 1000 ≤ t.nanos := Nat.div_mul_le_self ..
  exact ⟨hsecs, Nat.lt_of_le_of_lt hless hnanos⟩

@[simp] theorem truncated_truncated (t : Timestamp) : t.truncated.truncated = t.truncated := by
  simp [truncated]

theorem truncated_mono {a b : Timestamp} (h : a ≤ b) : a.truncated ≤ b.truncated := by
  rw [le_iff] at *
  rcases h with hsecs | ⟨hsecs, hnanos⟩
  · exact .inl hsecs
  · have hmicros : a.nanos / 1000 ≤ b.nanos / 1000 := Nat.div_le_div_right hnanos
    exact .inr ⟨hsecs, Nat.mul_le_mul_right 1000 hmicros⟩

/-- Outside leap seconds, adding seconds leaves the rest of the instant as it is. -/
theorem addSecs?_of_nanos {t : Timestamp} (h : t.nanos < perSecond) (n : Int) :
    t.addSecs? n =
      if (⟨t.secs + n, t.nanos⟩ : Timestamp).isOnCalendar then some ⟨t.secs + n, t.nanos⟩
      else none := by
  have hleap : t.isLeapSecond = false := by
    simp only [isLeapSecond, decide_eq_false_iff_not]
    omega
  simp [addSecs?, hleap]

theorem addSecs?_eq {t : Timestamp} (h : t.IsReading) (n : Int) :
    t.addSecs? n =
      if (⟨t.secs + n, t.nanos⟩ : Timestamp).isOnCalendar then some ⟨t.secs + n, t.nanos⟩
      else none := addSecs?_of_nanos h.2 n

theorem addSecs?_eq_some_iff {t e : Timestamp} (h : t.nanos < perSecond) {n : Int} :
    t.addSecs? n = some e ↔ e = ⟨t.secs + n, t.nanos⟩ ∧ e.isOnCalendar = true := by
  rw [addSecs?_of_nanos h, Option.ite_none_right_eq_some]
  constructor
  · rintro ⟨hon, heq⟩
    obtain rfl := Option.some.inj heq
    exact ⟨rfl, hon⟩
  · rintro ⟨rfl, hon⟩
    exact ⟨hon, rfl⟩

theorem isOnCalendar_iff {t : Timestamp} :
    t.isOnCalendar = true ↔ earliestSecs ≤ t.secs ∧ t.secs ≤ latestSecs := by
  simp only [isOnCalendar, Bool.and_eq_true, decide_eq_true_eq]

/-- Of two readings, the earlier one reaches the calendar's instants too, and earlier. -/
theorem addSecs?_mono {a b e : Timestamp} {n : Int} (ha : a.IsReading) (hb : b.IsReading)
    (hn : earliestSecs ≤ n) (hab : a ≤ b) (h : b.addSecs? n = some e) :
    ∃ d, a.addSecs? n = some d ∧ d ≤ e := by
  rw [addSecs?_eq hb] at h
  split at h
  · next hcalendar =>
    obtain rfl := Option.some.inj h
    rw [le_iff] at hab
    have hearlier : (⟨a.secs + n, a.nanos⟩ : Timestamp).isOnCalendar = true := by
      have hsecs := ha.1
      simp only [isOnCalendar, Bool.and_eq_true, decide_eq_true_eq] at hcalendar ⊢
      omega
    refine ⟨⟨a.secs + n, a.nanos⟩, ?_, ?_⟩
    · rw [addSecs?_eq ha, if_pos hearlier]
    · rw [le_iff]
      simp only
      omega
  · cases h

end Timestamp

namespace LeaseSpec

theorem isExpired?_iff {s : LeaseSpec} {renewed now : Timestamp} {secs : Int}
    (hrenewed : s.renewTime = some renewed) (hsecs : s.leaseDurationSeconds = some secs) :
    isExpired? (some s) now = some true ↔ ∃ expiry, renewed.addSecs? secs = some expiry ∧
      expiry < now := by
  simp [isExpired?, hrenewed, hsecs]

/-- A lease that has run out stays so, and of two renewals that are good for as long, the earlier one
has run out if the later one has. -/
theorem isExpired?_mono {s later : LeaseSpec} {renewed renewed' now now' : Timestamp} {secs : Int}
    (hrenewed : s.renewTime = some renewed) (hrenewed' : later.renewTime = some renewed')
    (hsecs : s.leaseDurationSeconds = some secs) (hsecs' : later.leaseDurationSeconds = some secs)
    (hreading : renewed.IsReading) (hreading' : renewed'.IsReading)
    (hbound : Timestamp.earliestSecs ≤ secs) (hle : renewed ≤ renewed') (hnow : now ≤ now')
    (h : isExpired? (some later) now = some true) : isExpired? (some s) now' = some true := by
  obtain ⟨expiry, hexpiry, hpast⟩ := (isExpired?_iff hrenewed' hsecs').mp h
  obtain ⟨earlier, hearlier, hless⟩ := Timestamp.addSecs?_mono hreading hreading' hbound hle hexpiry
  have hbefore : earlier < now := Timestamp.lt_of_le_of_lt hless hpast
  exact (isExpired?_iff hrenewed hsecs).mpr
    ⟨earlier, hearlier, Timestamp.lt_of_lt_of_le hbefore hnow⟩

end LeaseSpec

end Reconciler
