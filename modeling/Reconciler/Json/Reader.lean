import Reconciler.Json.Parser

/-!
# Readers

A reader asks a document for a value. It walks in the order of the text and fails at the first fault
it meets, so what a text lacks further on is no concern of a value that is wrong already. Reading
may enter containers nested 127 deep; what is passed over does not count.

The readers of text are also the readers of trees, whose documents have no damage.
-/

namespace Reconciler

namespace Json

/-- Reads a document, entering at most so many containers one inside another. -/
abbrev Reader (α : Type) : Type := Nat → Document → Except ParseFault α

/-- How many arrays and objects may stand inside one another. -/
def depthLimit : Nat := 127

namespace Reader

/-! ## Combining -/

/-- What is read, changed. -/
protected def map (f : α → β) (r : Reader α) : Reader β := fun depth doc => (r depth doc).map f

/-- What is read, if it is fit. -/
def refine (f : α → Option β) (r : Reader α) : Reader β := fun depth doc =>
  match r depth doc with
  | .error fault => .error fault
  | .ok a =>
    match f a with
    | some b => .ok b
    | none => .error .malformed

/-- A value of another type than the one asked for: a fault of its own comes first. -/
def mismatch : Document → Except ParseFault α
  | .absent => .error .incomplete
  | .text leaf => leaf.value.bind fun _ => .error .malformed
  | .atom leaf => leaf.value.bind fun _ => .error .malformed
  | .array _ _ => .error .malformed
  | .object _ _ => .error .malformed

/-! ## Values without parts -/

/-- A value without parts. -/
def scalar : Reader Json
  | _, .text leaf => leaf.value.map .str
  | _, .atom leaf => leaf.value
  | _, doc => mismatch doc

/-- Text. -/
def str : Reader String := scalar.refine Json.str?

/-- A truth value. -/
def bool : Reader Bool := scalar.refine Json.bool?

/-- An integer of 64 bits with a sign. -/
def int64 : Reader Int := scalar.refine Json.int64?

/-- An integer of 32 bits with a sign. -/
def int32 : Reader Int := scalar.refine Json.int32?

/-- A natural number of 64 bits. -/
def nat64 : Reader Nat := scalar.refine Json.nat64?

/-- A natural number of 32 bits. -/
def nat32 : Reader Nat := scalar.refine Json.nat32?

/-- A natural number of 16 bits. -/
def nat16 : Reader Nat := scalar.refine Json.nat16?

/-- The document is `null`. -/
def isNull : Document → Bool
  | .atom ⟨.ok .null, _⟩ => true
  | _ => false

/-- A value or `null`. -/
def nullable (r : Reader α) : Reader (Option α) := fun depth doc =>
  if isNull doc then .ok none else (r depth doc).map some

/-- One of several names: as text, or as an object with one field of that name whose value is
`null`. -/
def named (ofName? : String → Option α) : Reader α
  | _, .absent => .error .incomplete
  | _, .text leaf => do
    let name ← leaf.value
    (ofName? name).elim (.error .malformed) .ok
  | _, .atom _ => .error .malformed
  | _, .array _ _ => .error .malformed
  | 0, .object _ _ => .error .malformed
  | _ + 1, .object fields closing =>
    match fields with
    | [] => closing.bind fun _ => .error .malformed
    | (key, value) :: rest => do
      let name ← key.value
      let a ← (ofName? name).elim (.error .malformed) .ok
      if isNull value then
        if rest.isEmpty then
          closing
          .ok a
        else .error .malformed
      else mismatch value

/-! ## Values with parts -/

/-- An array, every item of which reads. -/
def list (r : Reader α) : Reader (List α)
  | 0, .array _ _ => .error .malformed
  | depth + 1, .array items closing => do
    let values ← items.mapM (r depth)
    closing
    .ok values
  | _, doc => mismatch doc

/-- Put a pair in its place among ordered pairs, or in the place of one of its name. -/
def insertPair (kv : String × α) : List (String × α) → List (String × α)
  | [] => [kv]
  | (k, v) :: rest =>
    if kv.1 < k then kv :: (k, v) :: rest
    else if kv.1 = k then kv :: rest
    else (k, v) :: insertPair kv rest

/-- Add fields to ordered pairs. -/
def pairs (r : Reader α) (depth : Nat) :
    List (String × α) → List (Leaf String × Document) → Except ParseFault (List (String × α))
  | acc, [] => .ok acc
  | acc, (key, value) :: rest => do
    let name ← key.value
    let a ← r depth value
    pairs r depth (insertPair (name, a) acc) rest

/-- An object as a map, the last of equal names kept. -/
def dict (r : Reader α) : Reader (List (String × α))
  | 0, .object _ _ => .error .malformed
  | depth + 1, .object fields closing => do
    let values ← pairs r depth [] fields
    closing
    .ok values
  | _, doc => mismatch doc

/-- Any value, objects with their fields as written. -/
def raw : Reader Json := Document.whole

/-- Any value, as the tree meant by it. -/
def tree : Reader Json := raw.map canonical

/-! ## Texts and trees -/

/-- Read a text: one value, and blanks after it. -/
def run (r : Reader α) (text : String) : Except ParseFault α := do
  let (doc, rest) := Document.ofText text
  let a ← r depthLimit doc
  match rest.map Parser.skipBlank with
  | some [] => .ok a
  | _ => .error .malformed

/-- Read a text, if it can be. -/
def run? (r : Reader α) (text : String) : Option α := (r.run text).toOption

/-- Read a tree of any height. -/
def ofTree? (r : Reader α) (j : Json) : Option α :=
  (r j.height (Document.ofJson j)).toOption

end Reader

/-- The value written by a text, objects with their fields as written. -/
def parse? (text : String) : Option Json := Reader.raw.run? text

end Json

end Reconciler
