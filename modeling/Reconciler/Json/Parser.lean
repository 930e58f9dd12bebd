import Reconciler.Json.Document

/-!
# From JSON text to its structure

A descent over the characters that hands back what is left, or nothing once the text has gone wrong
in a way that no reader passes over.

Every call consumes at least one character before the next, so the length of the text bounds the
descent; `Document.ofText` supplies it.
-/

namespace Reconciler

namespace Json

namespace Parser

/-- The characters JSON allows between tokens. -/
def isBlank (c : Char) : Bool := c = ' ' || c = '\n' || c = '\t' || c = '\r'

/-- The text without leading blanks. -/
def skipBlank (cs : List Char) : List Char := cs.dropWhile isBlank

/-- What stands at the front of a text, and the text after it unless that is lost. -/
abbrev Scan (α : Type) : Type := α × Option (List Char)

/-! ## Literals -/

/-- The text after the rest of a literal whose first character has been read. -/
def afterLiteral : List Char → List Char → Except ParseFault (List Char)
  | [], cs => .ok cs
  | _ :: _, [] => .error .incomplete
  | e :: es, c :: cs => if e = c then afterLiteral es cs else .error .malformed

/-- A literal whose first character has been read. -/
def literal (value : Json) (expected cs : List Char) : Scan Document :=
  match afterLiteral expected cs with
  | .ok rest => (.atom (.sound value), some rest)
  | .error fault => (.atom (.damaged fault), none)

/-! ## Numbers -/

/-- A number as it is written: decimal digits before and after the point, and an exponent. -/
structure Numeral where
  negative : Bool
  whole : List Char
  fraction : Option (List Char)
  exponent : Option Int
  deriving DecidableEq, Repr

/-- The value of a decimal digit. -/
def digitValue (c : Char) : Nat := c.toNat - 48

/-- The natural number written by decimal digits. -/
def natOfDigits (ds : List Char) : Nat := ds.foldl (fun n c => 10 * n + digitValue c) 0

/-- The greatest significand: 64 bits. -/
def greatestSignificand : Nat := 18_446_744_073_709_551_615

/-- Continue a significand with digits as far as it stays within 64 bits; the digits that are
left. -/
def significand : Nat → List Char → Nat × List Char
  | n, [] => (n, [])
  | n, d :: ds =>
    if 10 * n + digitValue d ≤ greatestSignificand then significand (10 * n + digitValue d) ds
    else (n, d :: ds)

/-- A whole number that fits into a significand: an integer within 64 bits, else a float; so is
minus zero. -/
def wholeNumber (negative : Bool) (n : Nat) : Option Json :=
  if !negative then some (.int n)
  else if n ≠ 0 ∧ n ≤ 9_223_372_036_854_775_808 then some (.int (-n))
  else (Binary64.ofDecimal? true n 0).map .float

/-- The number that is written, if it is not too great. A number without point and exponent whose
digits fit into a significand is whole. Any other is a float of as many digits as fit: digits before
the point that do not fit count as zeros, those after it not at all. -/
def Numeral.value? (n : Numeral) : Option Json :=
  let (s, surplus) := significand 0 n.whole
  match surplus, n.fraction, n.exponent with
  | [], none, none => wholeNumber n.negative s
  | _, _, _ =>
    let fraction := n.fraction.getD []
    let (s, dropped) := significand s fraction
    let shift : Int := surplus.length - (fraction.length - dropped.length)
    (Binary64.ofDecimal? n.negative s (shift + n.exponent.getD 0)).map .float

/-- One or more digits. -/
def digits (cs : List Char) : Except ParseFault (List Char × List Char) :=
  match cs.span Char.isDigit with
  | ([], []) => .error .incomplete
  | ([], _ :: _) => .error .malformed
  | (ds, rest) => .ok (ds, rest)

/-- Digits without a superfluous leading zero. -/
def wholeDigits (cs : List Char) : Except ParseFault (List Char × List Char) := do
  let (ds, rest) ← digits cs
  match ds with
  | '0' :: _ :: _ => .error .malformed
  | _ => .ok (ds, rest)

/-- An optional fraction. -/
def fraction : List Char → Except ParseFault (Option (List Char) × List Char)
  | '.' :: cs => do
    let (ds, rest) ← digits cs
    .ok (some ds, rest)
  | cs => .ok (none, cs)

/-- An exponent after its mark. -/
def exponentDigits : List Char → Except ParseFault (Int × List Char)
  | '-' :: cs => do
    let (ds, rest) ← digits cs
    .ok (-(natOfDigits ds : Int), rest)
  | '+' :: cs => do
    let (ds, rest) ← digits cs
    .ok ((natOfDigits ds : Int), rest)
  | cs => do
    let (ds, rest) ← digits cs
    .ok ((natOfDigits ds : Int), rest)

/-- An optional exponent. -/
def exponent : List Char → Except ParseFault (Option Int × List Char)
  | [] => .ok (none, [])
  | c :: cs =>
    if c = 'e' ∨ c = 'E' then do
      let (n, rest) ← exponentDigits cs
      .ok (some n, rest)
    else .ok (none, c :: cs)

/-- A number after its sign. -/
def numeral (negative : Bool) (cs : List Char) : Except ParseFault (Numeral × List Char) := do
  let (whole, rest) ← wholeDigits cs
  let (fraction, rest) ← fraction rest
  let (exponent, rest) ← exponent rest
  .ok ({ negative, whole, fraction, exponent }, rest)

/-- A number after its sign. One that is cut off where a digit must follow is incomplete to those
who ask for it, and malformed to those who pass it over. -/
def number (negative : Bool) (cs : List Char) : Scan Document :=
  match numeral negative cs with
  | .error fault => (.atom ⟨.error fault, .error .malformed⟩, none)
  | .ok (n, rest) =>
    match n.value? with
    | some v => (.atom (.sound v), some rest)
    | none => (.atom ⟨.error .malformed, .ok ()⟩, some rest)

/-! ## Strings -/

/-- A part of a string: a character, or a unit of UTF-16 written as four digits. -/
inductive Piece where
  | char (c : Char)
  | unit (n : Nat)
  deriving DecidableEq, Repr

/-- The value of a hexadecimal digit. -/
def hexValue? (c : Char) : Option Nat :=
  if '0' ≤ c ∧ c ≤ '9' then some (c.toNat - 48)
  else if 'a' ≤ c ∧ c ≤ 'f' then some (c.toNat - 87)
  else if 'A' ≤ c ∧ c ≤ 'F' then some (c.toNat - 55)
  else none

/-- The value of four hexadecimal digits. -/
def unit? (a b c d : Char) : Option Nat := do
  some ((((← hexValue? a) * 16 + (← hexValue? b)) * 16 + (← hexValue? c)) * 16 + (← hexValue? d))

/-- The character that a letter after a backslash stands for. -/
def escaped? : Char → Option Char
  | '"' => some '"'
  | '\\' => some '\\'
  | '/' => some '/'
  | 'b' => some '\x08'
  | 'f' => some '\x0c'
  | 'n' => some '\n'
  | 'r' => some '\r'
  | 't' => some '\t'
  | _ => none

/-- The text is too short for four digits, counted in bytes. -/
def lacksUnit (cs : List Char) : Bool := (String.ofList cs).utf8ByteSize < 4

/-- The pieces up to the closing quote, and the text after it or what is wrong with the next
piece. -/
def pieces : List Char → List Piece × Except ParseFault (List Char)
  | [] => ([], .error .incomplete)
  | ['\\'] => ([], .error .incomplete)
  | '\\' :: 'u' :: a :: b :: c :: d :: rest =>
    match unit? a b c d with
    | some n =>
      let (ps, after) := pieces rest
      (.unit n :: ps, after)
    | none => ([], .error .malformed)
  | '\\' :: 'u' :: rest =>
    ([], .error (if lacksUnit rest then .incomplete else .malformed))
  | '\\' :: e :: rest =>
    match escaped? e with
    | some c =>
      let (ps, after) := pieces rest
      (.char c :: ps, after)
    | none => ([], .error .malformed)
  | c :: rest =>
    if c = '"' then ([], .ok rest)
    else if c.toNat < 0x20 then ([], .error .malformed)
    else
      let (ps, after) := pieces rest
      (.char c :: ps, after)

/-- The first half of a surrogate pair. -/
def isHigh (n : Nat) : Bool := 0xD800 ≤ n && n < 0xDC00

/-- The second half. -/
def isLow (n : Nat) : Bool := 0xDC00 ≤ n && n < 0xE000

/-- The character of a surrogate pair. -/
def pairChar (high low : Nat) : Char :=
  Char.ofNat (0x10000 + (high - 0xD800) * 0x400 + (low - 0xDC00))

/-- The characters that pieces stand for, after the first half of a pair or not, and with what is
wrong after them. Half a pair is no character. -/
def spell (after : Except ParseFault Unit) :
    Option Nat → List Piece → Except ParseFault (List Char)
  | none, [] => after.map fun _ => []
  | none, .char c :: ps => (spell after none ps).map (c :: ·)
  | none, .unit n :: ps =>
    if isLow n then .error .malformed
    else if isHigh n then spell after (some n) ps
    else (spell after none ps).map (Char.ofNat n :: ·)
  | some _, [] => after.bind fun _ => .error .malformed
  | some _, .char _ :: _ => .error .malformed
  | some high, .unit low :: ps =>
    if isLow low then (spell after none ps).map (pairChar high low :: ·) else .error .malformed

/-- A string after its opening quote. -/
def string (cs : List Char) : Scan (Leaf String) :=
  let (ps, after) := pieces cs
  let passed := after.map fun _ => ()
  (⟨(spell passed none ps).map String.ofList, passed⟩, after.toOption)

/-! ## Values -/

/-- Damage where a value was to be. -/
def noValue : Scan Document := (.atom (.damaged .malformed), none)

mutual

/-- A value, after any blanks. -/
def value : Nat → List Char → Scan Document
  | 0, _ => (.absent, none)
  | fuel + 1, cs =>
    match skipBlank cs with
    | [] => (.absent, none)
    | 'n' :: cs => literal .null ['u', 'l', 'l'] cs
    | 't' :: cs => literal (.bool true) ['r', 'u', 'e'] cs
    | 'f' :: cs => literal (.bool false) ['a', 'l', 's', 'e'] cs
    | '"' :: cs =>
      let (leaf, rest) := string cs
      (.text leaf, rest)
    | '-' :: cs => number true cs
    | '[' :: cs =>
      let (items, after) := items fuel cs
      (.array items (after.map fun _ => ()), after.toOption)
    | '\x7b' :: cs =>
      let (fields, after) := fields fuel cs
      (.object fields (after.map fun _ => ()), after.toOption)
    | c :: cs => if c.isDigit then number false (c :: cs) else noValue

/-- The items of an array after its opening bracket. -/
def items : Nat → List Char → List Document × Except ParseFault (List Char)
  | 0, _ => ([], .error .incomplete)
  | fuel + 1, cs =>
    match skipBlank cs with
    | [] => ([], .error .incomplete)
    | ']' :: rest => ([], .ok rest)
    | c :: cs => someItems fuel (c :: cs)

/-- One or more values with commas between them, up to the closing bracket. -/
def someItems : Nat → List Char → List Document × Except ParseFault (List Char)
  | 0, _ => ([], .error .incomplete)
  | fuel + 1, cs =>
    let (v, rest) := value fuel cs
    match rest.map skipBlank with
    | some (']' :: rest) => ([v], .ok rest)
    | some (',' :: rest) =>
      let (vs, after) := someItems fuel rest
      (v :: vs, after)
    | some [] => ([v], .error .incomplete)
    | _ => ([v], .error .malformed)

/-- The fields of an object after its opening brace. -/
def fields : Nat → List Char → List (Leaf String × Document) × Except ParseFault (List Char)
  | 0, _ => ([], .error .incomplete)
  | fuel + 1, cs =>
    match skipBlank cs with
    | '\x7d' :: rest => ([], .ok rest)
    | cs => someFields fuel cs

/-- One or more fields with commas between them, up to the closing brace. -/
def someFields : Nat → List Char → List (Leaf String × Document) × Except ParseFault (List Char)
  | 0, _ => ([], .error .incomplete)
  | fuel + 1, cs =>
    match skipBlank cs with
    | '"' :: cs =>
      let (key, rest) := string cs
      match rest.map skipBlank with
      | some (':' :: rest) =>
        let (v, rest) := value fuel rest
        match rest.map skipBlank with
        | some ('\x7d' :: rest) => ([(key, v)], .ok rest)
        | some (',' :: rest) =>
          let (kvs, after) := someFields fuel rest
          ((key, v) :: kvs, after)
        | some [] => ([(key, v)], .error .incomplete)
        | _ => ([(key, v)], .error .malformed)
      | some [] => ([(key, .absent)], .error .incomplete)
      | _ => ([(key, noValue.1)], .error .malformed)
    | [] => ([(.damaged .incomplete, .absent)], .error .incomplete)
    | _ :: _ => ([(.damaged .malformed, .absent)], .error .malformed)

end

end Parser

/-- The structure of a text, and the text after its value unless that is lost. -/
def Document.ofText (text : String) : Document × Option (List Char) :=
  Parser.value (3 * text.length + 3) text.toList

end Json

end Reconciler
