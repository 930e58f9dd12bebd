import Reconciler.Json.Reader

/-!
# Records

A record is a value of a type with named fields. There are two conventions. A *strict* record
refuses a field given twice, at its name, and may also be written as an array of its fields in
order. A *lenient* record is an object only, takes the last of a field given again, and treats
`null` like a missing field. Both pass over fields that they do not know, unless they keep them.
-/

namespace Reconciler

namespace Json

/-- When a field may be left out. -/
inductive Presence where
  /-- Never. -/
  | required
  /-- Always. -/
  | optional
  /-- From an object, but not from an array. -/
  | implied
  deriving DecidableEq, Repr

/-- A field of a record under construction. -/
structure Field (σ : Type) where
  name : String
  presence : Presence
  /-- Reads the field's value into the record. -/
  read : σ → Reader σ

/-- Fields that are handed on as they are read, in order. -/
abbrev Entry : Type := List (String × Json)

namespace Field

/-- A field that a reader and a setter make. -/
def ofSetter (name : String) (presence : Presence) (r : Reader α) (set : σ → α → σ) : Field σ where
  name
  presence
  read s := r.map (set s)

/-- A field that must be there. -/
def required (name : String) (r : Reader α) (set : σ → α → σ) : Field σ :=
  ofSetter name .required r set

/-- A field that may be left out. -/
def optional (name : String) (r : Reader α) (set : σ → α → σ) : Field σ :=
  ofSetter name .optional r set

/-- A field of a lenient record. -/
def lenient (name : String) (r : Reader α) (set : σ → Option α → σ) : Field σ :=
  ofSetter name .optional r.nullable set

/-- A field that is looked at but not kept. -/
def checked (name : String) (presence : Presence) (r : Reader α) : Field σ :=
  ofSetter name presence r fun s _ => s

/-! ### Entries that are only handed on -/

/-- A field of an entry, as it is read. -/
def kept (name : String) (r : Reader Json) : Field Entry :=
  lenient name r fun entry value =>
    match value with
    | some value => insertField name value entry
    | none => entry.filter (·.1 != name)

/-- A text of an entry that is always there. -/
def always (name : String) : Field Entry :=
  lenient name Reader.str fun entry value => insertField name (.str (value.getD "")) entry

end Field

/-- The shape of a record. -/
structure Record (σ : Type) where
  /-- The fields in order. -/
  fields : List (Field σ)
  /-- A field may be given again, and the last one counts. -/
  repeatable : Bool
  /-- The record may be an array of its fields. -/
  positional : Bool
  /-- Reads fields of other names; without it they are passed over. -/
  others : Option (String → σ → Reader σ) := none

namespace Record

/-- A strict record. -/
def strict (fields : List (Field σ)) : Record σ where
  fields
  repeatable := false
  positional := true

/-- A strict record that keeps fields of other names, and so is an object only. -/
def keeping (fields : List (Field σ)) (others : String → σ → Reader σ) : Record σ where
  fields
  repeatable := false
  positional := false
  others := some others

/-- A lenient record. -/
def lenient (fields : List (Field σ)) : Record σ where
  fields
  repeatable := true
  positional := false

/-- Read one field of an object, given the names of the fields before it. -/
def step (r : Record σ) (depth : Nat) (seen : List String) (s : σ) (name : String)
    (value : Document) : Except ParseFault σ :=
  match r.fields.find? (·.name == name), r.others with
  | some field, _ =>
    if !r.repeatable && seen.contains name then .error .malformed else field.read s depth value
  | none, some other => other name s depth value
  | none, none => (value.passOver).map fun _ => s

/-- Read the fields of an object in the order of the text. The names that were given are handed
back. -/
def fill (r : Record σ) (depth : Nat) : List String → σ → List (Leaf String × Document) →
    Except ParseFault (List String × σ)
  | seen, s, [] => .ok (seen, s)
  | seen, s, (key, value) :: rest => do
    let name ← key.value
    let s ← r.step depth seen s name value
    fill r depth (name :: seen) s rest

/-- Read the items of an array into fields, one after the other. -/
def fillInOrder (depth : Nat) (closing : Except ParseFault Unit) :
    σ → List (Field σ) → List Document → Except ParseFault σ
  | s, [], [] => closing.map fun _ => s
  | _, [], _ :: _ => .error .malformed
  | s, field :: fields, item :: items => do
    let s ← field.read s depth item
    fillInOrder depth closing s fields items
  | s, field :: fields, [] => do
    closing
    if (field :: fields).all (·.presence == .optional) then .ok s else .error .malformed

/-- The fields that must be there are. -/
def isComplete (r : Record σ) (seen : List String) : Bool :=
  r.fields.all fun field => field.presence != .required || seen.contains field.name

/-- Reads a record, beginning with one of defaults. -/
def reader (r : Record σ) (start : σ) : Reader σ
  | 0, .array _ _ => .error .malformed
  | 0, .object _ _ => .error .malformed
  | depth + 1, .array items closing =>
    if r.positional then fillInOrder depth closing start r.fields items else .error .malformed
  | depth + 1, .object fields closing => do
    let (seen, s) ← r.fill depth [] start fields
    closing
    if r.isComplete seen then .ok s else .error .malformed
  | _, doc => Reader.mismatch doc

/-- Reads an entry, with empty texts for the fields that are always there. -/
def entry (r : Record Entry) (always : List String := []) : Reader Json :=
  (r.reader (orderFields (always.map fun name => (name, .str "")))).map .obj

end Record

end Json

end Reconciler
