/-!
# Patterns

What the value of a field is matched with is a number or a pattern of the usual kind: alternatives,
groups, sets of characters, repetition. Nothing is matched here; what counts is whether a text is a
pattern at all, since a filter with one that is not is refused as a whole.

A pattern stands between braces and among commas and equals signs, so it has no brace that closes.
Hence an opening brace, which would begin a count or a name, makes it none. Boundaries of words need
more than the next character to be recognised and are refused too.
-/

namespace Reconciler.Logging.Pattern

/-- What a backslash and the characters after it stand for. -/
inductive Escape where
  /-- One character. -/
  | literal (code : Nat)
  /-- A set of characters. -/
  | charSet
  /-- A place. -/
  | place
  deriving DecidableEq, Repr

/-- The value of a hexadecimal digit. -/
def hexValue? (c : Char) : Option Nat :=
  if c.isDigit then some (c.toNat - 48)
  else if 'a' ≤ c ∧ c ≤ 'f' then some (c.toNat - 87)
  else if 'A' ≤ c ∧ c ≤ 'F' then some (c.toNat - 55)
  else none

/-- A character by its number in so many hexadecimal digits. -/
def hexEscape? (width : Nat) (cs : List Char) : Option (Escape × List Char) := do
  let values ← (cs.take width).mapM hexValue?
  let code := values.foldl (fun n v => 16 * n + v) 0
  if values.length = width ∧ code.isValidChar then some (.literal code, cs.drop width) else none

/-- The general categories of characters, by their first letters. -/
def categories : List Char := ['l', 'm', 'n', 'p', 's', 'z', 'c']

/-- What follows a backslash. -/
def escape? : List Char → Option (Escape × List Char)
  | [] => none
  | 'x' :: rest => hexEscape? 2 rest
  | 'u' :: rest => hexEscape? 4 rest
  | 'U' :: rest => hexEscape? 8 rest
  | c :: rest =>
    if c = 'p' ∨ c = 'P' then
      match rest with
      | letter :: rest =>
        if categories.contains letter.toLower then some (.charSet, rest) else none
      | [] => none
    else if ['d', 'D', 's', 'S', 'w', 'W'].contains c then some (.charSet, rest)
    else if c = 'A' ∨ c = 'z' then some (.place, rest)
    else
      match [('a', 7), ('f', 12), ('t', 9), ('n', 10), ('r', 13), ('v', 11)].lookup c with
      | some code => some (.literal code, rest)
      | none =>
        if c.toNat < 0x80 ∧ !c.isAlphanum ∧ c ≠ '<' ∧ c ≠ '>' then some (.literal c.toNat, rest)
        else none

/-! ## Sets of characters -/

/-- The names of sets in brackets and colons. -/
def setNames : List String :=
  ["alnum", "alpha", "ascii", "blank", "cntrl", "digit", "graph", "lower", "print", "punct",
    "space", "upper", "word", "xdigit"]

/-- What follows a named set, if one stands here after its bracket. -/
def namedSet? : List Char → Option (List Char)
  | ':' :: rest =>
    let rest := match rest with
      | '^' :: rest => rest
      | rest => rest
    let name := rest.takeWhile Char.isAlpha
    match rest.drop name.length with
    | ':' :: ']' :: rest => if setNames.contains (String.ofList name) then some rest else none
    | _ => none
  | _ => none

/-- One member of a set, with its code if it is a single character. -/
def member? : List Char → Option (Option Nat × List Char)
  | [] => none
  | '\\' :: rest =>
    match escape? rest with
    | some (.literal code, rest) => some (some code, rest)
    | some (.charSet, rest) => some (none, rest)
    | _ => none
  | c :: rest => some (some c.toNat, rest)

/-- A member of a set or a range of members. -/
def range? (cs : List Char) : Option (List Char) := do
  let (low, rest) ← member? cs
  match rest with
  | '-' :: ']' :: _ => some rest
  | '-' :: '-' :: _ => some rest
  | '-' :: rest =>
    let (high, rest) ← member? rest
    if (← low) ≤ (← high) then some rest else none
  | _ => some rest

/-- What follows the beginning of a set after its bracket, where another bracket or minus signs
stand for themselves. -/
def setStart (cs : List Char) : List Char :=
  let cs := match cs with
    | '^' :: rest => rest
    | cs => cs
  match cs with
  | ']' :: rest => rest
  | cs => cs.dropWhile (· == '-')

/-- What follows a set, after the beginning of it. Sets may stand in sets, and between the operators
on sets. -/
def setRest? : Nat → List Char → Option (List Char)
  | 0, _ => none
  | _ + 1, [] => none
  | _ + 1, ']' :: rest => some rest
  | fuel + 1, '[' :: rest =>
    match namedSet? rest with
    | some rest => setRest? fuel rest
    | none => (setRest? fuel (setStart rest)).bind (setRest? fuel)
  | fuel + 1, '&' :: '&' :: rest => setRest? fuel rest
  | fuel + 1, '-' :: '-' :: rest => setRest? fuel rest
  | fuel + 1, '~' :: '~' :: rest => setRest? fuel rest
  | fuel + 1, cs => (range? cs).bind (setRest? fuel)

/-! ## Groups -/

/-- How a group begins. -/
inductive Opening where
  /-- A group. -/
  | group
  /-- No group: how what follows is to be read. -/
  | flags
  deriving DecidableEq, Repr

/-- The name of a group and what follows it. -/
def groupName? (cs : List Char) : Option (Opening × List Char) :=
  let name := cs.takeWhile fun c => c.isAlphanum || c == '_' || c == '.' || c == '[' || c == ']'
  match name, cs.drop name.length with
  | first :: _, '>' :: rest =>
    if first.isAlpha || first == '_' then some (.group, rest) else none
  | _, _ => none

/-- The characters are flags, none of them twice; a minus sign takes back those after it. -/
def areFlags (cs : List Char) : Bool :=
  cs.all (fun c => ['i', 'm', 's', 'U', 'u', 'x', 'R', '-'].contains c && cs.count c == 1) &&
    cs.getLast? != some '-'

/-- What follows a bracket and a question mark. -/
def opening? (cs : List Char) : Option (Opening × List Char) :=
  match cs with
  | 'P' :: '<' :: rest => groupName? rest
  | '<' :: rest => groupName? rest
  | _ =>
    let flags := cs.takeWhile fun c => c != ':' && c != ')'
    match cs.drop flags.length with
    | ':' :: rest => if areFlags flags then some (.group, rest) else none
    | ')' :: rest => if !flags.isEmpty && areFlags flags then some (.flags, rest) else none
    | _ => none

/-! ## Whole patterns -/

/-- The text goes on to the end of a pattern, within so many groups, and after something that can be
repeated or not. -/
def isRest : Nat → Nat → Bool → List Char → Bool
  | 0, _, _, _ => false
  | _ + 1, groups, _, [] => groups == 0
  | fuel + 1, groups, _, '\\' :: rest =>
    match escape? rest with
    | some (_, rest) => isRest fuel groups true rest
    | none => false
  | fuel + 1, groups, _, '[' :: rest =>
    match setRest? (rest.length + 1) (setStart rest) with
    | some rest => isRest fuel groups true rest
    | none => false
  | fuel + 1, groups, _, '(' :: '?' :: rest =>
    match opening? rest with
    | some (.group, rest) => isRest fuel (groups + 1) false rest
    | some (.flags, rest) => isRest fuel groups false rest
    | none => false
  | fuel + 1, groups, _, '(' :: rest => isRest fuel (groups + 1) false rest
  | fuel + 1, groups, _, ')' :: rest => groups != 0 && isRest fuel (groups - 1) true rest
  | fuel + 1, groups, _, '|' :: rest => isRest fuel groups false rest
  | fuel + 1, groups, repeatable, c :: rest =>
    if c = '*' ∨ c = '+' ∨ c = '?' then
      let rest := match rest with
        | '?' :: rest => rest
        | rest => rest
      repeatable && isRest fuel groups true rest
    else c != '\x7b' && isRest fuel groups true rest

/-- The text is a pattern. -/
def isPattern (cs : List Char) : Bool := isRest (cs.length + 1) 0 false cs

/-! ## Numbers -/

/-- An exponent, or nothing. -/
def isExponent : List Char → Bool
  | [] => true
  | c :: rest =>
    let ds := match rest with
      | '+' :: rest => rest
      | '-' :: rest => rest
      | rest => rest
    (c = 'e' || c = 'E') && !ds.isEmpty && ds.all Char.isDigit

/-- The text without a sign is a decimal number or one of the special ones. -/
def isMagnitude (cs : List Char) : Bool :=
  let whole := cs.takeWhile Char.isDigit
  let rest := cs.drop whole.length
  let (fraction, rest) : List Char × List Char := match rest with
    | '.' :: rest => (rest.takeWhile Char.isDigit, rest.dropWhile Char.isDigit)
    | rest => ([], rest)
  let digits := !(whole ++ fraction).isEmpty
  (digits && isExponent rest) ||
    ["inf", "infinity", "nan"].contains (String.ofList (cs.map Char.toLower))

/-- The text is a number. -/
def isNumber : List Char → Bool
  | '+' :: rest => isMagnitude rest
  | '-' :: rest => isMagnitude rest
  | cs => isMagnitude cs

/-- The text can be what a field's value is matched with. -/
def isValue (s : String) : Bool := isNumber s.toList || isPattern s.toList

end Reconciler.Logging.Pattern
