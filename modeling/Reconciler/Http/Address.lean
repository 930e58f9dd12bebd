import Reconciler.Text.Utf8

/-!
# Addresses

The target of a request: a path, and a query of named values. Names of objects are put into the path
as they are. Most characters may stand there; a blank, a control character or a bracket makes the
text no address, and a name with a question mark or a hash brings a query or ends the address. The
whole text, with the values as they are written in it, is of a limited length.
-/

namespace Reconciler.Http

/-- The target of a request. -/
structure Address where
  path : String
  /-- The named values, ordered by name and then by value. -/
  query : List (String × String) := []
  deriving DecidableEq, Repr, Inhabited

namespace Address

/-- The character is neither a blank or control character of ASCII nor an angle bracket. -/
def isPlain (c : Char) : Bool := 0x20 < c.toNat && c.toNat != 0x7F && c != '<' && c != '>'

/-- The character may stand in a path. -/
def isPathChar (c : Char) : Bool := isPlain c && c.toNat != 0x60

/-- The character may stand in a query. -/
def isQueryChar (c : Char) : Bool := isPlain c && c != '"'

/-! ## Queries inside a name -/

/-- The value of a hexadecimal digit. -/
def hexDigit? (c : Char) : Option Nat :=
  if c.isDigit then some (c.toNat - 48)
  else if 'a' ≤ c ∧ c ≤ 'f' then some (c.toNat - 87)
  else if 'A' ≤ c ∧ c ≤ 'F' then some (c.toNat - 55)
  else none

/-- The bytes of a query's text: `+` is a blank, and `%` with two digits a byte. -/
def decodedBytes : List Char → List UInt8
  | [] => []
  | '+' :: rest => 0x20 :: decodedBytes rest
  | '%' :: a :: b :: rest =>
    match hexDigit? a, hexDigit? b with
    | some h, some l => UInt8.ofNat (h * 16 + l) :: decodedBytes rest
    | _, _ => '%'.toUInt8 :: decodedBytes (a :: b :: rest)
  | c :: rest => (String.singleton c).toUTF8.toList ++ decodedBytes rest

/-- The text of a query's text. -/
def decoded (cs : List Char) : String := Text.Utf8.decode (decodedBytes cs)

/-- A name and its value, in the text of a query. -/
def pairOfText (cs : List Char) : String × String :=
  (decoded (cs.takeWhile (· != '=')), decoded ((cs.dropWhile (· != '=')).drop 1))

/-- The parts of a text between marks. -/
def splitAt (mark : Char) (cs : List Char) : List (List Char) :=
  cs.foldr (fun c parts => if c = mark then [] :: parts else
    match parts with
    | part :: rest => (c :: part) :: rest
    | [] => [[c]]) [[]]

/-- The named values of a query's text; nothing between two marks is none. -/
def pairsOfText (cs : List Char) : List (String × String) :=
  ((splitAt '&' cs).filter (!·.isEmpty)).map pairOfText

/-! ## Length -/

/-- The greatest number of bytes in an address. -/
def longest : Nat := 65_534

/-- The number of characters that a byte takes in the text of a query: one for letters, digits, a
few marks and the blank, else three. -/
def writtenSize (b : UInt8) : Nat :=
  let c := Char.ofNat b.toNat
  if c.isAlphanum || [' ', '*', '-', '.', '_'].contains c then 1 else 3

/-- The number of bytes that a text takes in a query. -/
def writtenLength (s : String) : Nat := s.toUTF8.toList.foldl (fun n b => n + writtenSize b) 0

/-- The number of bytes that named values take in an address, each with the marks before it. -/
def querySize (given : List (String × String)) : Nat :=
  given.foldl (fun n (name, value) => n + (2 + writtenLength name + writtenLength value)) 0

/-! ## Reading -/

/-- The order of named values. -/
def pairLe (a b : String × String) : Bool := ((compare a.1 b.1).then (compare a.2 b.2)).isLE

/-- The address of a text with the given values after it, if it is one. The values are lost if the
text has ended the address. -/
def ofText? (text : String) (given : List (String × String) := []) : Option Address :=
  let cs := text.toList
  let path := cs.takeWhile fun c => c != '?' && c != '#'
  let rest := cs.drop path.length
  let query := (rest.takeWhile (· != '#')).drop 1
  let isEnded := rest.contains '#'
  if text.utf8ByteSize + querySize given ≤ longest && path.all isPathChar &&
      query.all isQueryChar then
    let pairs := pairsOfText query ++ if isEnded then [] else given
    some ⟨String.ofList path, pairs.mergeSort pairLe⟩
  else none

end Address

end Reconciler.Http
