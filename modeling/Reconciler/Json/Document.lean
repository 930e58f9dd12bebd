import Reconciler.Json.Basic

/-!
# The structure of JSON text, damage included

A text that breaks off or goes wrong still shows something of what it was to say, and whether a
reader takes offence depends on what the reader asks of the damaged part. So reading has two steps:
a text becomes a `Document`, whatever is wrong with it, and a reader walks through the document in
the order of the text and fails at the first fault it meets.

A part that nobody asks about is *passed over*. It must have the form of JSON, but its numbers may
be out of range, its strings may hold halves of surrogate pairs and its containers may be nested to
any depth.

A fault says whether the text merely ended too early or could not be JSON however it went on: a
watch skips a line that was cut off and reports any other.
-/

namespace Reconciler

namespace Json

/-- Why a text is not what it is read as. -/
inductive ParseFault where
  /-- The text ended too early. -/
  | incomplete
  /-- No continuation would help. -/
  | malformed
  deriving DecidableEq, Repr

/-- Something without parts of its own: what it is to those who ask, and whether it has the form of
JSON for those who do not. -/
structure Leaf (α : Type) where
  value : Except ParseFault α
  passed : Except ParseFault Unit

namespace Leaf

/-- An undamaged leaf. -/
def sound (a : α) : Leaf α := ⟨.ok a, .ok ()⟩

/-- A leaf that is a fault to everyone. -/
def damaged (fault : ParseFault) : Leaf α := ⟨.error fault, .error fault⟩

end Leaf

/-- The structure of a text. What stands after damage that nobody can pass over is not in it. -/
inductive Document where
  /-- The text ended where a value was to be. -/
  | absent
  /-- Text in quotes. -/
  | text (leaf : Leaf String)
  /-- Any other value without parts. -/
  | atom (leaf : Leaf Json)
  /-- An array, and what is wrong with its end. -/
  | array (items : List Document) (closing : Except ParseFault Unit)
  /-- An object: fields as written, repeated ones included, and what is wrong with its end. -/
  | object (fields : List (Leaf String × Document)) (closing : Except ParseFault Unit)

instance : Inhabited Document := ⟨.absent⟩

namespace Document

mutual

/-- Pass over a value. -/
def passOver : Document → Except ParseFault Unit
  | absent => .error .incomplete
  | text leaf => leaf.passed
  | atom leaf => leaf.passed
  | array items closing => do
    passItems items
    closing
  | object fields closing => do
    passFields fields
    closing

/-- `passOver` on every item. -/
def passItems : List Document → Except ParseFault Unit
  | [] => .ok ()
  | item :: rest => do
    passOver item
    passItems rest

/-- `passOver` on every field, its name first. -/
def passFields : List (Leaf String × Document) → Except ParseFault Unit
  | [] => .ok ()
  | (key, value) :: rest => do
    key.passed
    passOver value
    passFields rest

end

mutual

/-- Read a value whole, objects with their fields as written and containers nested at most so
deep. -/
def whole : Nat → Document → Except ParseFault Json
  | _, absent => .error .incomplete
  | _, text leaf => leaf.value.map .str
  | _, atom leaf => leaf.value
  | 0, array _ _ => .error .malformed
  | 0, object _ _ => .error .malformed
  | depth + 1, array items closing => do
    let values ← wholeItems depth items
    closing
    .ok (.arr values)
  | depth + 1, object fields closing => do
    let values ← wholeFields depth fields
    closing
    .ok (.obj values)

/-- `whole` on every item. -/
def wholeItems : Nat → List Document → Except ParseFault (List Json)
  | _, [] => .ok []
  | depth, item :: rest => do
    let value ← whole depth item
    let values ← wholeItems depth rest
    .ok (value :: values)

/-- `whole` on every field. -/
def wholeFields : Nat → List (Leaf String × Document) → Except ParseFault (List (String × Json))
  | _, [] => .ok []
  | depth, (key, item) :: rest => do
    let name ← key.value
    let value ← whole depth item
    let values ← wholeFields depth rest
    .ok ((name, value) :: values)

end

/-! ## The document of a tree -/

mutual

/-- The undamaged document of a tree. -/
def ofJson : Json → Document
  | .str s => text (.sound s)
  | .arr items => array (ofItems items) (.ok ())
  | .obj fields => object (ofFields fields) (.ok ())
  | .null => atom (.sound .null)
  | .bool b => atom (.sound (.bool b))
  | .int n => atom (.sound (.int n))
  | .float x => atom (.sound (.float x))

/-- `ofJson` on every item. -/
def ofItems : List Json → List Document
  | [] => []
  | v :: rest => ofJson v :: ofItems rest

/-- `ofJson` on every field's value. -/
def ofFields : List (String × Json) → List (Leaf String × Document)
  | [] => []
  | (k, v) :: rest => (.sound k, ofJson v) :: ofFields rest

end

end Document

end Json

end Reconciler
