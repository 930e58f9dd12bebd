import Mathlib.Data.List.TakeWhile
import Reconciler.Proofs.Time.Later

/-!
# Instants that are read off a text

RFC 3339 begins with a year of four digits. Whatever is read off a text that begins with a digit
has such a year, decimals of one second, and a zone less than a day away. So it stands in the middle
of the calendar, and no number of seconds that fits 32 bits leads from there beyond it.
-/

namespace Reconciler.Timestamp

variable {t : Timestamp} {cs rest : List Char} {n bound most : Nat} {ahead : Int}

/-! ## Digits -/

theorem digit_le {c : Char} (h : c.isDigit = true) : c.toNat - 48 ≤ 9 := by
  simp only [Char.isDigit, Bool.and_eq_true, decide_eq_true_eq] at h
  have hle : c.toNat ≤ 57 := h.2
  omega

/-- Digits say less than the next power of ten. -/
theorem natOfDigits_lt {ds : List Char} (h : ∀ c ∈ ds, c.isDigit = true) :
    natOfDigits ds < Nat.pow 10 ds.length := by
  suffices hfold : ∀ n, ds.foldl (fun n c => 10 * n + (c.toNat - 48)) n <
      (n + 1) * Nat.pow 10 ds.length by
    have hless := hfold 0
    rwa [Nat.zero_add, Nat.one_mul] at hless
  induction ds with
  | nil =>
    intro n
    exact Nat.lt_of_lt_of_eq (Nat.lt_succ_self n) (Nat.mul_one _).symm
  | cons c ds ih =>
    intro n
    obtain ⟨hc, hds⟩ := List.forall_mem_cons.mp h
    have hdigit := digit_le hc
    calc ds.foldl _ (10 * n + (c.toNat - 48))
        < (10 * n + (c.toNat - 48) + 1) * Nat.pow 10 ds.length := ih hds _
      _ ≤ ((n + 1) * 10) * Nat.pow 10 ds.length := Nat.mul_le_mul_right _ (by omega)
      _ = (n + 1) * Nat.pow 10 (c :: ds).length := by
        rw [Nat.mul_assoc, List.length_cons, Nat.mul_comm 10]
        rfl

theorem number?_lt (h : number? (some most) cs = some (n, rest)) : n < Nat.pow 10 most := by
  unfold number? at h
  obtain ⟨-, h⟩ := Option.ite_none_left_eq_some.mp h
  obtain ⟨rfl, -⟩ := Prod.mk.inj (Option.some.inj h)
  have hdigits : ∀ c ∈ (cs.take most).takeWhile Char.isDigit, c.isDigit = true :=
    fun c hmem => List.mem_takeWhile_imp hmem
  have hlength : ((cs.take most).takeWhile Char.isDigit).length ≤ most := by
    have htaken := (List.takeWhile_sublist Char.isDigit (l := cs.take most)).length_le
    have hmost := List.length_take_le most cs
    omega
  exact Nat.lt_of_lt_of_le (natOfDigits_lt hdigits) (Nat.pow_le_pow_right (by decide) hlength)

/-! ## The parts of a text -/

theorem fraction?_lt (h : fraction? cs = some (n, rest)) : n < perSecond := by
  unfold fraction? at h
  split at h
  · next rest' =>
    obtain ⟨-, h⟩ := Option.ite_none_left_eq_some.mp h
    obtain ⟨rfl, -⟩ := Prod.mk.inj (Option.some.inj h)
    generalize hkept : (rest'.takeWhile Char.isDigit).take 9 = kept
    have hdigits : ∀ c ∈ kept, c.isDigit = true := by
      intro c hmem
      rw [← hkept] at hmem
      exact List.mem_takeWhile_imp (List.mem_of_mem_take hmem)
    have hlength : kept.length ≤ 9 := hkept ▸ List.length_take_le 9 _
    calc natOfDigits kept * Nat.pow 10 (9 - kept.length)
        < Nat.pow 10 kept.length * Nat.pow 10 (9 - kept.length) :=
          Nat.mul_lt_mul_of_pos_right (natOfDigits_lt hdigits) (Nat.pow_pos (by decide))
      _ = Nat.pow 10 9 := by
        rw [show Nat.pow 10 kept.length * Nat.pow 10 (9 - kept.length) =
          Nat.pow 10 (kept.length + (9 - kept.length)) from (Nat.pow_add ..).symm]
        congr 1
        omega
      _ = perSecond := rfl
  · obtain ⟨rfl, -⟩ := Prod.mk.inj (Option.some.inj h)
    decide

theorem twoDigits?_lt (h : twoDigits? bound cs = some (n, rest)) : n < bound := by
  unfold twoDigits? at h
  split at h
  · obtain ⟨⟨-, -, hless⟩, h⟩ := Option.ite_none_right_eq_some.mp h
    obtain ⟨rfl, -⟩ := Prod.mk.inj (Option.some.inj h)
    exact hless
  · cases h

/-- No zone is a day away. -/
def IsZone (ahead : Int) : Prop := -86400 < ahead ∧ ahead < 86400

theorem hoursAndMinutes?_isZone {sign : Int} (hsign : sign = 1 ∨ sign = -1)
    (h : hoursAndMinutes? sign cs = some (ahead, rest)) : IsZone ahead := by
  unfold hoursAndMinutes? at h
  obtain ⟨⟨hours, rest'⟩, hhours, h⟩ := Option.bind_eq_some_iff.mp h
  obtain ⟨⟨minutes, rest''⟩, hminutes, h⟩ := Option.bind_eq_some_iff.mp h
  obtain ⟨rfl, -⟩ := Prod.mk.inj (Option.some.inj h)
  have hhours := twoDigits?_lt hhours
  have hminutes := twoDigits?_lt hminutes
  unfold IsZone
  rcases hsign with rfl | rfl <;> omega

theorem offset?_isZone (h : offset? cs = some (ahead, rest)) : IsZone ahead := by
  have hnone : IsZone 0 := ⟨by decide, by decide⟩
  unfold offset? at h
  split at h
  · exact (Prod.mk.inj (Option.some.inj h)).1 ▸ hnone
  · exact (Prod.mk.inj (Option.some.inj h)).1 ▸ hnone
  · exact hoursAndMinutes?_isZone (.inl rfl) h
  · exact hoursAndMinutes?_isZone (.inr rfl) h
  · exact hoursAndMinutes?_isZone (.inr rfl) h
  · obtain ⟨-, h⟩ := Option.ite_none_right_eq_some.mp h
    exact (Prod.mk.inj (Option.some.inj h)).1 ▸ hnone
  · cases h

theorem year?_of_digit {first : Char} {year : Int} (hdigit : first.isDigit = true)
    (h : year? (first :: cs) = some (year, rest)) : 0 ≤ year ∧ year ≤ 9999 := by
  have hblank : Text.isBlank first = false := by
    simp only [Char.isDigit, Bool.and_eq_true, decide_eq_true_eq] at hdigit
    have hlow : 48 ≤ first.toNat := hdigit.1
    have hhigh : first.toNat ≤ 57 := hdigit.2
    simp only [Text.isBlank, Bool.or_eq_false_iff, Bool.and_eq_false_iff, decide_eq_false_iff_not,
      beq_eq_false_iff_ne]
    omega
  unfold year? at h
  rw [Text.trimStart, List.dropWhile_cons_of_neg (by simp [hblank])] at h
  split at h
  · next heq =>
    obtain ⟨rfl, -⟩ := List.cons.inj heq
    exact absurd hdigit (by decide)
  · next heq =>
    obtain ⟨rfl, -⟩ := List.cons.inj heq
    exact absurd hdigit (by decide)
  · obtain ⟨⟨n, rest'⟩, hnumber, heq⟩ := Option.map_eq_some_iff.mp h
    obtain ⟨rfl, -⟩ := Prod.mk.inj heq
    have hless : n < 10000 := number?_lt hnumber
    omega

/-! ## Whole texts -/

/-- An instant as RFC 3339 has it, which begins with the digits of a year. -/
def IsRfc3339 (t : Timestamp) : Prop :=
  ∃ (text : String) (first : Char) (rest : List Char),
    text.toList = first :: rest ∧ first.isDigit = true ∧ parse? text = some t

theorem daysInMonth_le (year : Int) (month : Nat) : daysInMonth year month ≤ 31 := by
  unfold daysInMonth
  split
  · split <;> decide
  · split <;> decide

theorem daysFromCivil_bounds {year : Int} (month : Nat) {day : Nat} (hfirst : 0 ≤ year)
    (hlast : year ≤ 9999) (hday : day ≤ 31) : -800_000 ≤ daysFromCivil year month day ∧
      daysFromCivil year month day ≤ 3_000_000 := by
  unfold daysFromCivil
  simp only [Int.fdiv_eq_ediv_of_nonneg _ (show (0 : Int) ≤ 400 by decide)]
  split <;> omega

/-- Within a century or so of the years 0 to 9999, the reader's calendar is far from its ends. -/
theorem ofParts?_bounds {year : Int} {month day hour minute second nanos : Nat}
    (hfirst : 0 ≤ year) (hlast : year ≤ 9999) (hnanos : nanos < perSecond) (hzone : IsZone ahead)
    (h : ofParts? year month day hour minute second nanos ahead = some t) :
    t.IsInstant ∧ -100_000_000_000 ≤ t.secs ∧ t.secs ≤ 300_000_000_000 := by
  unfold ofParts? at h
  obtain ⟨⟨-, -, -, hday, hhour, hminute, hsecond⟩, h⟩ := Option.ite_none_right_eq_some.mp h
  have hdays := daysFromCivil_bounds month hfirst hlast
    (Nat.le_trans hday (daysInMonth_le year month))
  generalize daysFromCivil year month day = days at hdays h
  unfold IsZone at hzone
  unfold IsInstant
  by_cases hleap : second = 60
  · rw [if_pos hleap] at h
    obtain ⟨-, h⟩ := Option.ite_none_right_eq_some.mp h
    obtain rfl := Option.some.inj h
    simp only [perSecond] at *
    omega
  · rw [if_neg hleap] at h
    obtain ⟨-, h⟩ := Option.ite_none_right_eq_some.mp h
    obtain rfl := Option.some.inj h
    simp only [perSecond] at *
    omega

theorem IsRfc3339.bounds (h : t.IsRfc3339) :
    t.IsInstant ∧ -100_000_000_000 ≤ t.secs ∧ t.secs ≤ 300_000_000_000 := by
  obtain ⟨text, first, rest, htext, hdigit, h⟩ := h
  unfold parse? at h
  rw [htext] at h
  obtain ⟨⟨year, cs⟩, hyear, h⟩ := Option.bind_eq_some_iff.mp h
  obtain ⟨cs, -, h⟩ := Option.bind_eq_some_iff.mp h
  obtain ⟨⟨month, cs⟩, -, h⟩ := Option.bind_eq_some_iff.mp h
  obtain ⟨cs, -, h⟩ := Option.bind_eq_some_iff.mp h
  obtain ⟨⟨day, cs⟩, -, h⟩ := Option.bind_eq_some_iff.mp h
  obtain ⟨cs, -, h⟩ := Option.bind_eq_some_iff.mp h
  obtain ⟨⟨hour, cs⟩, -, h⟩ := Option.bind_eq_some_iff.mp h
  obtain ⟨cs, -, h⟩ := Option.bind_eq_some_iff.mp h
  obtain ⟨⟨minute, cs⟩, -, h⟩ := Option.bind_eq_some_iff.mp h
  obtain ⟨cs, -, h⟩ := Option.bind_eq_some_iff.mp h
  obtain ⟨⟨second, cs⟩, -, h⟩ := Option.bind_eq_some_iff.mp h
  obtain ⟨⟨nanos, cs⟩, hnanos, h⟩ := Option.bind_eq_some_iff.mp h
  obtain ⟨⟨ahead, cs⟩, hzone, h⟩ := Option.bind_eq_some_iff.mp h
  obtain ⟨-, h⟩ := Option.ite_none_right_eq_some.mp h
  obtain ⟨hfirst, hlast⟩ := year?_of_digit hdigit hyear
  exact ofParts?_bounds hfirst hlast (fraction?_lt hnanos) (offset?_isZone hzone) h

end Reconciler.Timestamp
