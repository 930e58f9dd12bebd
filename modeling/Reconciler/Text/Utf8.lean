/-!
# Text of any bytes

Bytes that are meant to be UTF-8 and may not be. Every longest run of bytes that begins a character
and does not end one reads as one replacement character, and so does every byte that begins none.
-/

namespace Reconciler.Text.Utf8

/-- What stands for bytes that are no character. -/
def replacement : Char := '\ufffd'

/-- A character under way: the value of the bytes so far, and the ranges of those to come. -/
structure Pending where
  value : Nat
  ranges : List (Nat × Nat)
  deriving DecidableEq, Repr

/-- The range of a byte that continues a character. -/
def tail : Nat × Nat := (0x80, 0xBF)

/-- A character of several bytes, by the first of them. The ranges of the second byte leave out what
could be written shorter, surrogates, and what is beyond the last code point. -/
def lead? (b : Nat) : Option Pending :=
  if 0xC2 ≤ b ∧ b ≤ 0xDF then some ⟨b - 0xC0, [tail]⟩
  else if b = 0xE0 then some ⟨0, [(0xA0, 0xBF), tail]⟩
  else if b = 0xED then some ⟨0xD, [(0x80, 0x9F), tail]⟩
  else if 0xE1 ≤ b ∧ b ≤ 0xEF then some ⟨b - 0xE0, [tail, tail]⟩
  else if b = 0xF0 then some ⟨0, [(0x90, 0xBF), tail, tail]⟩
  else if 0xF1 ≤ b ∧ b ≤ 0xF3 then some ⟨b - 0xF0, [tail, tail, tail]⟩
  else if b = 0xF4 then some ⟨4, [(0x80, 0x8F), tail, tail]⟩
  else none

/-- A byte between characters. -/
def first (b : Nat) : List Char × Option Pending :=
  if b < 0x80 then ([Char.ofNat b], none)
  else
    match lead? b with
    | some p => ([], some p)
    | none => ([replacement], none)

/-- One byte: the characters that are certain with it, and the one under way after it. -/
def step (pending : Option Pending) (b : Nat) : List Char × Option Pending :=
  match pending with
  | none => first b
  | some ⟨_, []⟩ => first b
  | some ⟨value, (low, high) :: ranges⟩ =>
    if low ≤ b ∧ b ≤ high then
      let value := value * 64 + (b - 0x80)
      if ranges.isEmpty then ([Char.ofNat value], none) else ([], some ⟨value, ranges⟩)
    else
      let (cs, next) := first b
      (replacement :: cs, next)

/-- The characters of bytes, after a character under way. -/
def charsAfter : Option Pending → List UInt8 → List Char
  | none, [] => []
  | some _, [] => [replacement]
  | pending, b :: rest =>
    let (cs, next) := step pending b.toNat
    cs ++ charsAfter next rest

/-- The text of any bytes. -/
def decode (bytes : List UInt8) : String := String.ofList (charsAfter none bytes)

end Reconciler.Text.Utf8
