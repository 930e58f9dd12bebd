import Reconciler.Json.Basic

/-!
# Writing JSON text

Compact text: no blanks, fields in the order of the tree, and only those characters escaped that a
string may not hold as they are.
-/

namespace Reconciler

namespace Json

namespace Printer

/-- A hexadecimal digit, lower case. -/
def hexDigit (n : Nat) : Char := Char.ofNat (if n < 10 then 48 + n else 87 + n)

/-- A character inside quotes. -/
def escape (c : Char) : List Char :=
  if c = '"' then ['\\', '"']
  else if c = '\\' then ['\\', '\\']
  else if c = '\x08' then ['\\', 'b']
  else if c = '\x0c' then ['\\', 'f']
  else if c = '\n' then ['\\', 'n']
  else if c = '\r' then ['\\', 'r']
  else if c = '\t' then ['\\', 't']
  else if c.toNat < 0x20 then
    ['\\', 'u', '0', '0', hexDigit (c.toNat / 16), hexDigit (c.toNat % 16)]
  else [c]

/-- Text in quotes. -/
def quote (s : String) : List Char := '"' :: s.toList.flatMap escape ++ ['"']

mutual

/-- The characters of a value. -/
def chars : Json → List Char
  | .null => ['n', 'u', 'l', 'l']
  | .bool true => ['t', 'r', 'u', 'e']
  | .bool false => ['f', 'a', 'l', 's', 'e']
  | .int n => (toString n).toList
  | .float x => x.text.toList
  | .str s => quote s
  | .arr items => '[' :: charsItems items ++ [']']
  | .obj fields => '\x7b' :: charsFields fields ++ ['\x7d']

/-- Values with commas between them. -/
def charsItems : List Json → List Char
  | [] => []
  | [v] => chars v
  | v :: w :: rest => chars v ++ ',' :: charsItems (w :: rest)

/-- Fields with commas between them. -/
def charsFields : List (String × Json) → List Char
  | [] => []
  | [(k, v)] => quote k ++ ':' :: chars v
  | (k, v) :: w :: rest => quote k ++ ':' :: chars v ++ ',' :: charsFields (w :: rest)

end

end Printer

/-- The compact text of a value. -/
def render (j : Json) : String := String.ofList (Printer.chars j)

end Json

end Reconciler
