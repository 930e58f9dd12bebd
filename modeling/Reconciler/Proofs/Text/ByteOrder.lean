import Mathlib.Data.String.Basic

/-!
# Texts in the order of their bytes

Texts are compared character by character. In UTF-8 a character of a lower code point has the lesser
bytes: the first byte tells how many there are, and the others are digits to the base 64. So the
order of texts is that of their bytes (`bytes_lt_iff`).
-/

namespace Reconciler.Text

/-- The bytes of a text in UTF-8. -/
def bytes (s : String) : List Nat := s.toUTF8.data.toList.map UInt8.toNat

theorem bytes_eq (s : String) :
    bytes s = s.toList.flatMap fun c => (String.utf8EncodeChar c).map UInt8.toNat := by
  have hbytes : s.toUTF8 = s.toList.utf8Encode := by
    conv_lhs => rw [← String.ofList_toList (s := s)]
    rfl
  rw [bytes, hbytes]
  simp [List.utf8Encode, List.map_flatMap]

/-! ## Characters -/

/-- The bytes of the character with code point `x`. -/
inductive Encoded (x : Nat) : List Nat → Prop where
  | one : x < 128 → Encoded x [x]
  | two : 128 ≤ x → x < 2048 → Encoded x [x / 64 + 192, x % 64 + 128]
  | three : 2048 ≤ x → x < 65536 → Encoded x [x / 4096 + 224, x / 64 % 64 + 128, x % 64 + 128]
  | four : 65536 ≤ x → x < 1114112 →
    Encoded x [x / 262144 + 240, x / 4096 % 64 + 128, x / 64 % 64 + 128, x % 64 + 128]

theorem encoded_utf8EncodeChar (c : Char) :
    Encoded c.toNat ((String.utf8EncodeChar c).map UInt8.toNat) := by
  have hmost : c.toNat < 1114112 := by
    rcases c.valid with hlow | ⟨-, hhigh⟩
    · exact Nat.lt_trans hlow (by decide)
    · exact hhigh
  have hval : c.val.toNat = c.toNat := rfl
  simp only [String.utf8EncodeChar, hval]
  generalize c.toNat = x at hmost
  split
  · simp (disch := omega) only [List.map_cons, List.map_nil, UInt8.toNat_ofNat', Nat.mod_eq_of_lt]
    apply Encoded.one
    omega
  split
  · simp (disch := omega) only [List.map_cons, List.map_nil, UInt8.toNat_ofNat', Nat.mod_eq_of_lt]
    apply Encoded.two <;> omega
  split
  · simp (disch := omega) only [List.map_cons, List.map_nil, UInt8.toNat_ofNat', Nat.mod_eq_of_lt]
    apply Encoded.three <;> omega
  · simp (disch := omega) only [List.map_cons, List.map_nil, UInt8.toNat_ofNat', Nat.mod_eq_of_lt]
    apply Encoded.four <;> omega

theorem lt_of_div {x y : Nat} (h : x < y) :
    x / 64 < y / 64 ∨ x / 64 = y / 64 ∧ x % 64 < y % 64 := by
  omega

/-- Of two numbers written to the base 64, the lesser one has the lesser digit where they first
differ. -/
theorem digits_lt {x y : Nat} (h : x < y) :
    x / 262144 < y / 262144 ∨ x / 262144 = y / 262144 ∧
      (x / 4096 % 64 < y / 4096 % 64 ∨ x / 4096 % 64 = y / 4096 % 64 ∧
        (x / 64 % 64 < y / 64 % 64 ∨ x / 64 % 64 = y / 64 % 64 ∧ x % 64 < y % 64)) := by
  have hx : x / 4096 = x / 64 / 64 ∧ x / 262144 = x / 64 / 64 / 64 := by omega
  have hy : y / 4096 = y / 64 / 64 ∧ y / 262144 = y / 64 / 64 / 64 := by omega
  rw [hx.1, hx.2, hy.1, hy.2]
  rcases lt_of_div h with hlt | ⟨heq, hlast⟩
  · rcases lt_of_div hlt with hlt | ⟨heq, hthird⟩
    · rcases lt_of_div hlt with hlt | ⟨heq, hsecond⟩
      · exact .inl hlt
      · exact .inr ⟨heq, .inl hsecond⟩
    · rw [heq]
      exact .inr ⟨rfl, .inr ⟨rfl, .inl hthird⟩⟩
  · rw [heq]
    exact .inr ⟨rfl, .inr ⟨rfl, .inr ⟨rfl, hlast⟩⟩⟩

theorem Encoded.lt {x y : Nat} {digits digits' : List Nat} (hx : Encoded x digits)
    (hy : Encoded y digits') (h : x < y) (more more' : List Nat) :
    digits ++ more < digits' ++ more' := by
  have hdigits := digits_lt h
  -- The first bytes tell characters of different lengths apart.
  cases hx <;> cases hy <;>
    simp only [List.cons_append, List.nil_append, List.cons_lt_cons_iff] <;> omega

/-! ## Texts -/

theorem flatMap_lt {cs ds : List Char} (h : cs < ds) :
    (cs.flatMap fun c => (String.utf8EncodeChar c).map UInt8.toNat) <
      ds.flatMap fun c => (String.utf8EncodeChar c).map UInt8.toNat := by
  have hlex : List.Lex (· < ·) cs ds := h
  induction hlex with
  | @nil d ds =>
    obtain ⟨byte, more, hbytes⟩ := List.exists_cons_of_ne_nil (String.utf8EncodeChar_ne_nil (c := d))
    rw [List.flatMap_nil, List.flatMap_cons, hbytes]
    exact List.nil_lt_cons _ _
  | rel hlt =>
    rw [List.flatMap_cons, List.flatMap_cons]
    exact (encoded_utf8EncodeChar _).lt (encoded_utf8EncodeChar _) hlt _ _
  | cons hlex ih =>
    rw [List.flatMap_cons, List.flatMap_cons]
    exact List.Lex.append_left _ (ih hlex) _

/-- Texts are in the order of their bytes. -/
theorem bytes_lt_iff {s t : String} : bytes s < bytes t ↔ s < t := by
  have hmono : ∀ {s t : String}, s < t → bytes s < bytes t := by
    intro s t h
    rw [bytes_eq, bytes_eq]
    exact flatMap_lt h
  refine ⟨fun h => ?_, hmono⟩
  rcases lt_trichotomy s t with hlt | rfl | hgt
  · exact hlt
  · exact absurd h (lt_irrefl _)
  · exact absurd (hmono hgt) (lt_asymm h)

end Reconciler.Text
