import Reconciler.Entity
import Reconciler.Error

/-!
# Watch events

A watch brings one event a line: an object that is there, has changed or is gone, a version to
resume from, or an error of the server's. A line that was cut off is no event and no failure, since
the end of a connection may cut one off.
-/

namespace Reconciler

/-- Reads the server's account of an error: a strict record of which status and code must be
there. -/
def ApiStatus.reader : Json.Reader ApiStatus :=
  (Json.Record.strict [
    .required "status" Json.Reader.str fun (s : ApiStatus) status => { s with status },
    .optional "message" Json.Reader.str fun s message => { s with message },
    .optional "reason" Json.Reader.str fun s reason => { s with reason },
    .required "code" Json.Reader.nat16 fun s code => { s with code }]).reader ⟨"", "", "", 0⟩

namespace Watch

/-- What a watch reports. -/
inductive Event (K : Type) where
  /-- The entity is there, and was not before or not to this watch's knowledge. -/
  | added (entity : K)
  | modified (entity : K)
  | deleted (entity : K)
  /-- A version to resume from, without an entity. -/
  | bookmark (version : String)
  /-- An error of the server's, told in the stream. -/
  | error (code : Nat) (message : String)
  deriving Repr

namespace Event

variable {K : Type} [Entity K]

/-- The event's name in logs. -/
def name : Event K → String
  | added _ => "added"
  | modified _ => "modified"
  | deleted _ => "deleted"
  | bookmark _ => "bookmark"
  | error _ _ => "error"

/-- The entity the event is about. -/
def entity? : Event K → Option K
  | added e => some e
  | modified e => some e
  | deleted e => some e
  | bookmark _ => none
  | error _ _ => none

/-- The version the event carries. -/
def version? : Event K → Option String
  | bookmark version => some version
  | event => event.entity?.bind fun e => (Entity.metadata e).resourceVersion

/-! ## Reading -/

/-- The version of a bookmark. -/
def bookmarkVersion : Json.Reader String :=
  (Json.Record.strict [
    .required "resourceVersion" Json.Reader.str fun _ version => version,
    .checked "annotations" .optional Json.Reader.str.dict]).reader ""

/-- A text given exactly once. -/
def onlyText? (key : String) (fields : List (String × Json)) : Option String :=
  match fields.filter (·.1 == key) with
  | [(_, value)] => value.str?
  | _ => none

/-- Reads a bookmark, which says of what type it is and has a version, and keeps whatever else it
has for a check of the type in the end. -/
def bookmarkReader : Json.Reader String :=
  ((Json.Record.keeping
    [.required "metadata" bookmarkVersion fun (b : String × List (String × Json)) version =>
      (version, b.2)]
    fun name b => Json.Reader.raw.map fun value => (b.1, b.2 ++ [(name, value)])).reader
      ("", [])).refine fun (version, fields) => do
        let _ ← onlyText? "apiVersion" fields
        let _ ← onlyText? "kind" fields
        some version

/-- The types of events. -/
inductive Tag where
  | added
  | modified
  | deleted
  | bookmark
  | error
  deriving DecidableEq, Repr

/-- The type as it is written. -/
def Tag.name : Tag → String
  | added => "ADDED"
  | modified => "MODIFIED"
  | deleted => "DELETED"
  | bookmark => "BOOKMARK"
  | error => "ERROR"

/-- The type of a name. -/
def Tag.ofName? (s : String) : Option Tag :=
  [added, modified, deleted, bookmark, error].find? (·.name == s)

/-- Reads a type. -/
def Tag.reader : Json.Reader Tag := .named ofName?

/-- Reads the object of an event of a type. -/
def objectReader : Tag → Json.Reader (Event K)
  | .added => Entity.reader.map added
  | .modified => Entity.reader.map modified
  | .deleted => Entity.reader.map deleted
  | .bookmark => bookmarkReader.map bookmark
  | .error => ApiStatus.reader.map fun s => error s.code s.message

/-- What is known of an event within its text. -/
inductive Partial (K : Type) where
  | nothing
  /-- The type, while the object has not come. -/
  | typed (tag : Tag)
  /-- The object, kept whole until its type comes. -/
  | kept (object : Json)
  | event (e : Event K)

/-- Read one field of an event. The object is read as what its type says once both are known;
either comes once, and other fields are passed over. -/
def readField (depth : Nat) (known : Partial K) (name : String) (value : Json.Document) :
    Except Json.ParseFault (Partial K) :=
  if name = "type" then
    match known with
    | .nothing => (Tag.reader depth value).map .typed
    | .kept object => do
      let tag ← Tag.reader depth value
      match (objectReader tag).ofTree? object with
      | some e => .ok (.event e)
      | none => .error .malformed
    | _ => .error .malformed
  else if name = "object" then
    match known with
    | .nothing => (Json.Reader.raw depth value).map .kept
    | .typed tag => (objectReader tag depth value).map .event
    | _ => .error .malformed
  else value.passOver.map fun _ => known

/-- Read the fields of an event in the order of the text. -/
def readFields (depth : Nat) : Partial K → List (Json.Leaf String × Json.Document) →
    Except Json.ParseFault (Partial K)
  | known, [] => .ok known
  | known, (key, value) :: rest => do
    let name ← key.value
    let known ← readField depth known name value
    readFields depth known rest

/-- Reads an event: its type beside its object, as two fields or an array of the two. -/
def reader : Json.Reader (Event K)
  | 0, .array _ _ => .error .malformed
  | 0, .object _ _ => .error .malformed
  | _ + 1, .array [] closing => closing.bind fun _ => .error .malformed
  | depth + 1, .array [type] closing => do
    let _ ← Tag.reader depth type
    closing
    .error .malformed
  | depth + 1, .array [type, object] closing => do
    let tag ← Tag.reader depth type
    let e ← objectReader tag depth object
    closing
    .ok e
  | depth + 1, .array (type :: object :: _) _ => do
    let tag ← Tag.reader depth type
    let _ : Event K ← objectReader tag depth object
    .error .malformed
  | depth + 1, .object fields closing => do
    let known ← readFields depth .nothing fields
    closing
    match known with
    | .event e => .ok e
    | _ => .error .malformed
  | _, doc => Json.Reader.mismatch doc

/-- The event of a line of a watch. -/
def ofLine? (line : String) : Option (Event K) := (reader (K := K)).run? line

end Event

/-- What a line of a watch's body adds to the stream: nothing if it was cut off, an event, the
server's error if the line is one, or a failure to read it. -/
def itemOfLine? {K : Type} [Entity K] (line : String) : Option (Except Error (Event K)) :=
  match (Event.reader (K := K)).run line with
  | .ok event => some (.ok event)
  | .error .incomplete => none
  | .error .malformed =>
    match ApiStatus.reader.run? line with
    | some status => some (.error (.client (.api status)))
    | none => some (.error (.client .undecodable))

end Watch

end Reconciler
