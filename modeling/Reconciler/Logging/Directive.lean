import Reconciler.Logging.Level
import Reconciler.Logging.Pattern
import Reconciler.Text.Alphanumeric
import Reconciler.Text.Blank

/-!
# Directives

A directive such as `kubeops::watch[span{field=value}]=debug` says how much is kept of the lines
from some targets. After the target, in brackets, it may name a span and, in braces, a field; it
then speaks of lines inside that span, or of lines that have that field.

The reader goes over the text once, and what it is at decides what a character means. It leaves out
blanks around the text. The parts, though, are cut out of the text as it was given, at the same
numbers of bytes: after blanks in front every part begins and ends too early by them.
-/

namespace Reconciler.Logging

/-- A field that a line is to have. -/
structure FieldCondition where
  name : String
  /-- The field is to have a certain value. -/
  hasValue : Bool := false
  deriving DecidableEq, Repr

/-- What a filter says about some lines. -/
structure Directive where
  /-- What the targets start with. -/
  target : Option String := none
  /-- The span that lines are in. -/
  span : Option String := none
  /-- The field that lines have. -/
  field : Option FieldCondition := none
  threshold : Threshold := .all
  deriving DecidableEq, Repr, Inhabited

namespace Directive

/-! ## Parts of a text by bytes -/

/-- What is left after so many bytes. -/
def dropBytes : Nat → List Char → List Char
  | _, [] => []
  | n, c :: cs => if n = 0 then c :: cs else dropBytes (n - c.utf8Size) cs

/-- The characters within so many bytes. -/
def takeBytes : Nat → List Char → List Char
  | _, [] => []
  | n, c :: cs => if c.utf8Size ≤ n then c :: takeBytes (n - c.utf8Size) cs else []

/-- The part of a text between two numbers of bytes. -/
def part (cs : List Char) (first after : Nat) : String :=
  String.ofList (takeBytes (after - first) (dropBytes first cs))

/-- The part of a text from a number of bytes on. -/
def partFrom (cs : List Char) (first : Nat) : String := String.ofList (dropBytes first cs)

/-! ## Reading -/

/-- What the reader is at, with the place where that began. -/
inductive Place where
  | start
  /-- A target, or a threshold alone. -/
  | levelOrTarget (first : Nat)
  /-- The name of a span. -/
  | span (first : Nat)
  /-- A field in braces. -/
  | field (first : Nat)
  /-- After the braces. -/
  | fieldEnd
  /-- After the brackets. -/
  | targetEnd
  /-- The threshold after the equals sign. -/
  | level (first : Nat)
  deriving DecidableEq, Repr

/-- The character may begin a directive. -/
def isFirst (c : Char) : Bool := c = '-' || c = ':' || c = '_' || Text.isAlphanumeric c

/-- The field of a text: a name, and a value after an equals sign. -/
def field? (s : String) : Option FieldCondition :=
  match s.splitOn "=" with
  | [name] => if name.isEmpty then none else some { name }
  | name :: value :: _ => if Pattern.isValue value then some { name, hasValue := true } else none
  | [] => none

/-- A character at a place of the text. -/
def step (text : List Char) (d : Directive) (place : Place) (i : Nat) (c : Char) :
    Option (Directive × Place) :=
  match place with
  | .start =>
    if c = '[' then some (d, .span (i + 1))
    else if isFirst c then some (d, .levelOrTarget i)
    else none
  | .levelOrTarget first =>
    if c = '=' then some ({ d with target := some (part text first i) }, .level (i + 1))
    else if c = '[' then some ({ d with target := some (part text first i) }, .span (i + 1))
    else some (d, place)
  | .span first =>
    let name := part text first i
    if c = ']' then some ({ d with span := some name }, .targetEnd)
    else if c = '\x7b' then
      some ({ d with span := if name.isEmpty then none else some name }, .field (i + 1))
    else some (d, place)
  | .field first =>
    if c = '\x7d' then
      (field? (part text first i)).map fun field => ({ d with field := some field }, .fieldEnd)
    else some (d, place)
  | .fieldEnd => if c = ']' then some (d, .targetEnd) else none
  | .targetEnd => if c = '=' then some (d, .level (i + 1)) else none
  | .level _ => some (d, place)

/-- The characters from a number of bytes on. -/
def steps (text : List Char) : Directive → Place → Nat → List Char → Option (Directive × Place)
  | d, place, _, [] => some (d, place)
  | d, place, i, c :: rest => do
    let (d, place) ← step text d place i c
    steps text d place (i + c.utf8Size) rest

/-- The directive at the end of a text. Without a threshold it keeps everything of what it speaks
of; a threshold alone is for every line. -/
def finish? (text : List Char) (d : Directive) : Place → Option Directive
  | .levelOrTarget first =>
    let s := partFrom text first
    match Threshold.ofText? s with
    | some threshold => some { d with threshold }
    | none => some { d with target := some s }
  | .level first =>
    let s := partFrom text first
    if s.isEmpty then some d else (Threshold.ofText? s).map fun threshold => { d with threshold }
  | .targetEnd => some d
  | _ => none

/-- The directive that a text stands for. -/
def ofText? (s : String) : Option Directive := do
  let text := s.toList
  let (d, place) ← steps text {} .start 0 (Text.trim text)
  d.finish? text place

end Directive

end Reconciler.Logging
