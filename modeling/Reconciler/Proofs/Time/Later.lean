import Reconciler.Proofs.Time.Order
import Reconciler.Time.Duration

/-!
# What comes after a length of time

An instant and a length of time give a later instant, on a calendar that does not end. A leap second
is counted only by what ends within it: whatever goes on beyond it continues from the same part of
the second before. So of two lengths of time the longer one ends later, also if both begin within a
leap second, and whole seconds end where `addSecs?` says.

The other way round, the time between two instants is a number of nanoseconds (`nanosUntil`), and an
instant that seconds were added to is past exactly if more than these have gone by.
-/

namespace Reconciler.Timestamp

/-- The instant is one that a clock shows, be it within a leap second. -/
def IsInstant (t : Timestamp) : Prop := t.nanos < 2 * perSecond

instance (t : Timestamp) : Decidable t.IsInstant :=
  inferInstanceAs (Decidable (t.nanos < 2 * perSecond))

/-- The instant after a length of time. -/
def later (t : Timestamp) (d : Duration) : Timestamp :=
  if t.isLeapSecond ∧ t.nanos + d.nanos < 2 * perSecond then ⟨t.secs, t.nanos + d.nanos⟩
  else
    let nanos := t.nanos % perSecond + d.subsecNanos
    ⟨t.secs + d.secs + (nanos / perSecond : Nat), nanos % perSecond⟩

variable {t e now : Timestamp}

theorem isLeapSecond_iff : t.isLeapSecond = true ↔ perSecond ≤ t.nanos := decide_eq_true_iff

theorem later_isInstant (t : Timestamp) (d : Duration) : (t.later d).IsInstant := by
  unfold later IsInstant
  split
  · next h => exact h.2
  · simp only [perSecond]
    omega

/-- A longer length of time ends later. -/
theorem later_lt_later (ht : t.IsInstant) {a b : Duration} (h : a < b) : t.later a < t.later b := by
  have hnanos : a.nanos < b.nanos := h
  rw [lt_iff]
  unfold IsInstant at ht
  unfold later
  simp only [isLeapSecond_iff, Duration.secs, Duration.subsecNanos, perSecond] at *
  -- Of the two, only the shorter one may still be within the leap second.
  split <;> split <;> dsimp only <;> omega

theorem later_le_later_iff (ht : t.IsInstant) {a b : Duration} :
    t.later a ≤ t.later b ↔ a ≤ b := by
  constructor
  · intro h
    apply Nat.le_of_not_lt
    intro hlt
    exact h (later_lt_later ht hlt)
  · intro h
    rcases Nat.lt_or_eq_of_le h with hlt | heq
    · intro hback
      have hpast := later_lt_later ht hlt
      rw [lt_iff] at *
      omega
    · have hsame : a = b := by
        cases a
        cases b
        cases heq
        rfl
      rw [hsame]
      exact le_refl _

/-- Where whole seconds end, outside a leap second or by no seconds at all, ahead of a leap second,
and back from one, which counts then. -/
theorem addSecs?_cases {n : Int} (h : t.addSecs? n = some e) :
    (t.nanos < perSecond ∨ n = 0) ∧ e = ⟨t.secs + n, t.nanos⟩ ∨
    perSecond ≤ t.nanos ∧ 0 < n ∧ e = ⟨t.secs + n, t.nanos - perSecond⟩ ∨
    perSecond ≤ t.nanos ∧ n < 0 ∧ e = ⟨t.secs + 1 + n, t.nanos - perSecond⟩ := by
  unfold addSecs? at h
  obtain ⟨-, hmoved⟩ := Option.ite_none_right_eq_some.mp h
  obtain rfl := Option.some.inj hmoved
  by_cases hleap : perSecond ≤ t.nanos
  · have htrue : t.isLeapSecond = true := isLeapSecond_iff.mpr hleap
    simp only [htrue, Bool.not_true, Bool.false_or, decide_eq_true_eq]
    rcases Int.lt_trichotomy n 0 with hneg | rfl | hpos
    · rw [if_neg (Int.ne_of_lt hneg), if_neg (Int.not_lt.mpr (Int.le_of_lt hneg))]
      exact .inr (.inr ⟨hleap, hneg, rfl⟩)
    · exact .inl ⟨.inr rfl, rfl⟩
    · rw [if_neg (Int.ne_of_gt hpos), if_pos hpos]
      exact .inr (.inl ⟨hleap, hpos, rfl⟩)
  · have hfalse : t.isLeapSecond = false := by
      rw [Bool.eq_false_iff, ne_eq, isLeapSecond_iff]
      exact hleap
    have houtside : (!t.isLeapSecond || decide (n = 0)) = true := by
      rw [hfalse]
      rfl
    rw [if_pos houtside]
    exact .inl ⟨.inl (Nat.lt_of_not_le hleap), rfl⟩

/-- Going on by whole seconds and by a length of time of as many seconds ends at one instant. -/
theorem later_ofSecs (ht : t.IsInstant) {n : Nat} (h : t.addSecs? n = some e) :
    t.later (.ofSecs n) = e := by
  unfold IsInstant at ht
  unfold later
  have hends := addSecs?_cases h
  simp only [isLeapSecond_iff, Duration.ofSecs, Duration.secs, Duration.subsecNanos,
    perSecond] at *
  rcases hends with ⟨hout, rfl⟩ | ⟨hin, hpos, rfl⟩ | ⟨hin, hneg, rfl⟩
  · split <;> rw [mk.injEq] <;> omega
  · rw [if_neg (by omega), mk.injEq]
    omega
  · omega

/-- Going back ends before every later instant. -/
theorem addSecs?_lt_later (ht : t.IsInstant) {n : Int} (hn : n < 0) (h : t.addSecs? n = some e)
    (d : Duration) : e < t.later d := by
  rw [lt_iff]
  unfold IsInstant at ht
  unfold later
  have hends := addSecs?_cases h
  simp only [isLeapSecond_iff, Duration.secs, Duration.subsecNanos, perSecond] at *
  rcases hends with ⟨hout, rfl⟩ | ⟨hin, hpos, rfl⟩ | ⟨hin, hneg, rfl⟩
  · rw [if_neg (by omega)]
    simp only
    omega
  · omega
  · split <;> simp only <;> omega

/-- Whole seconds reach as far as a length of time exactly if they are as long. -/
theorem later_le_iff (ht : t.IsInstant) {n : Int} (h : t.addSecs? n = some e) (d : Duration) :
    t.later d ≤ e ↔ (d.nanos : Int) ≤ n * perSecond := by
  rcases Int.lt_or_le n 0 with hneg | hpos
  · have hbefore := addSecs?_lt_later ht hneg h d
    constructor
    · intro hle
      exact absurd hbefore hle
    · intro hle
      simp only [perSecond] at hle
      omega
  · obtain ⟨k, rfl⟩ := Int.eq_ofNat_of_zero_le hpos
    rw [← later_ofSecs ht h, later_le_later_iff ht]
    show d.nanos ≤ k * 1000000000 ↔ _
    simp only [perSecond]
    omega

/-- Whole seconds that are no longer than a length of time do not reach beyond it. -/
theorem le_later (ht : t.IsInstant) {n : Int} (h : t.addSecs? n = some e) {d : Duration}
    (hn : n * perSecond ≤ d.nanos) : e ≤ t.later d := by
  rcases Int.lt_or_le n 0 with hneg | hpos
  · have hbefore := addSecs?_lt_later ht hneg h d
    rw [lt_iff] at hbefore
    rw [le_iff]
    omega
  · obtain ⟨k, rfl⟩ := Int.eq_ofNat_of_zero_le hpos
    rw [← later_ofSecs ht h, later_le_later_iff ht]
    show k * 1000000000 ≤ d.nanos
    simp only [perSecond] at hn
    omega

/-! ## How long ago an instant was -/

/-- The nanoseconds from one instant to another, or their negative. -/
def nanosUntil (a b : Timestamp) : Int :=
  (b.secs - a.secs) * perSecond + b.nanos - a.nanos +
    if a.isLeapSecond ∧ a.secs < b.secs then perSecond else 0

/-- Outside a leap second, the end of some seconds is past exactly if more time has gone by. -/
theorem addSecs?_lt_iff (ht : t.IsInstant) (hnow : now.nanos < perSecond) {n : Int}
    (h : t.addSecs? n = some e) : e < now ↔ n * perSecond < t.nanosUntil now := by
  have hends := addSecs?_cases h
  rw [lt_iff]
  unfold IsInstant at ht
  unfold nanosUntil
  simp only [isLeapSecond_iff, perSecond] at *
  rcases hends with ⟨hout, rfl⟩ | ⟨hin, hpos, rfl⟩ | ⟨hin, hneg, rfl⟩
  · split <;> simp only <;> omega
  · split <;> simp only <;> omega
  · split <;> simp only <;> omega

/-- Seconds that end well within the calendar can be added. -/
theorem isSome_addSecs? {n : Int} (hearliest : earliestSecs ≤ t.secs + n)
    (hlatest : t.secs + n < latestSecs) : (t.addSecs? n).isSome = true := by
  have hon : ∀ moved : Timestamp, (moved.secs = t.secs + n ∨ moved.secs = t.secs + 1 + n) →
      moved.isOnCalendar = true := by
    intro moved hmoved
    simp only [isOnCalendar, Bool.and_eq_true, decide_eq_true_eq]
    omega
  unfold addSecs?
  simp only [Option.isSome_ite]
  apply hon
  split
  · exact .inl rfl
  · split
    · exact .inl rfl
    · exact .inr rfl

end Reconciler.Timestamp
