import Reconciler.Text.Unprintable

/-!
# Quoted text in messages

Error messages show a text they quote so that every character of it can be told: between double
quotes, with a backslash before quotes and backslashes, short escapes for the common control
characters, and every other character that does not show by itself as its number in braces.
-/

namespace Reconciler.Text

/-- The digits of a number in base sixteen. -/
def hexDigits (n : Nat) : List Char := Nat.toDigits 16 n

/-- A character written by its number. -/
def byNumber (c : Char) : List Char := ['\\', 'u', '\x7b'] ++ hexDigits c.toNat ++ ['\x7d']

/-- A character inside quotes. -/
def quoteChar (c : Char) : List Char :=
  if c = '"' then ['\\', '"']
  else if c = '\\' then ['\\', '\\']
  else if c = '\n' then ['\\', 'n']
  else if c = '\r' then ['\\', 'r']
  else if c = '\t' then ['\\', 't']
  else if c = '\x00' then ['\\', '0']
  else if c.toNat < 0x20 ∨ c.toNat = 0x7f then byNumber c
  else if 0x80 ≤ c.toNat ∧ isUnprintable c = true then byNumber c
  else [c]

/-- A text in double quotes. -/
def quoted (s : String) : String :=
  String.ofList ('"' :: s.toList.flatMap quoteChar ++ ['"'])

end Reconciler.Text
