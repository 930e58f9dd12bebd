import Reconciler.Json.Record
import Reconciler.Time.Timestamp

/-!
# Metadata of an object

What the API server keeps about every object beside its own content. Reading drops what is unknown
or `null`, so two objects whose metadata differ only in that have the same metadata.

An entity is named in messages by `Metadata.ref`, and in queues and counters by `Metadata.key?`,
which an object without a name does not have.
-/

namespace Reconciler

/-- The metadata of one object. -/
structure Metadata where
  annotations : Option (List (String × String)) := none
  creationTimestamp : Option Timestamp := none
  deletionGracePeriodSeconds : Option Int := none
  /-- Set once the object is marked for deletion. -/
  deletionTimestamp : Option Timestamp := none
  /-- Identifiers of the cleanup steps that must run before the object goes. -/
  finalizers : Option (List String) := none
  generateName : Option String := none
  /-- Counts the changes of the object's intent. -/
  generation : Option Int := none
  labels : Option (List (String × String)) := none
  /-- Who wrote which fields, each entry as it is written. -/
  managedFields : Option (List Json) := none
  name : Option String := none
  /-- The object's namespace, unless the object belongs to the whole cluster. -/
  ns : Option String := none
  /-- The objects this one belongs to, each entry as it is written. -/
  ownerReferences : Option (List Json) := none
  /-- The server's version of the object. -/
  resourceVersion : Option String := none
  selfLink : Option String := none
  /-- Tells the object from any other one ever, of the same name or not. -/
  uid : Option String := none
  deriving Inhabited, Repr

/-- The identity of an entity among those of its kind. -/
structure EntityKey where
  ns : Option String
  name : String
  deriving DecidableEq, Repr, Inhabited

namespace Metadata

/-- `namespace/name`, or the name alone where there is no namespace. -/
def ref (m : Metadata) : String :=
  let name := m.name.getD ""
  match m.ns with
  | some ns => ns ++ "/" ++ name
  | none => name

/-- The identity of an entity that has a name. -/
def key? (m : Metadata) : Option EntityKey := m.name.map fun name => ⟨m.ns, name⟩

/-- The server has marked the object for deletion. -/
def isDeleting (m : Metadata) : Bool := m.deletionTimestamp.isSome

/-- The finalizer is on the object. -/
def hasFinalizer (m : Metadata) (id : String) : Bool := (m.finalizers.getD []).contains id

/-- The object's name, or what the server was to make a name from. -/
def anyName (m : Metadata) : String := (m.name.or m.generateName).getD ""

/-! ## Reading and writing -/

/-- An instant as text. -/
def instant : Json.Reader Timestamp := Json.Reader.str.refine Timestamp.parse?

/-- Reads an entry of `managedFields`. -/
def managedEntry : Json.Reader Json :=
  let text (key : String) := Json.Field.kept key (Json.Reader.str.map .str)
  Json.Record.entry <| .lenient [
    text "apiVersion",
    text "fieldsType",
    .kept "fieldsV1" Json.Reader.tree,
    text "manager",
    text "operation",
    text "subresource",
    .kept "time" (instant.map fun t => .str t.toSeconds)]

/-- Reads an entry of `ownerReferences`: kind, name, version and uid are always there. -/
def ownerEntry : Json.Reader Json :=
  let texts := ["apiVersion", "kind", "name", "uid"]
  let flags := ["blockOwnerDeletion", "controller"]
  Json.Record.entry
    (.lenient (texts.map .always ++
      flags.map fun key => .kept key (Json.Reader.bool.map .bool)))
    texts

/-- The shape of metadata. -/
def shape : Json.Record Metadata :=
  .lenient [
    .lenient "annotations" Json.Reader.str.dict fun m annotations => { m with annotations },
    .lenient "creationTimestamp" instant fun m creationTimestamp => { m with creationTimestamp },
    .lenient "deletionGracePeriodSeconds" Json.Reader.int64 fun m deletionGracePeriodSeconds =>
      { m with deletionGracePeriodSeconds },
    .lenient "deletionTimestamp" instant fun m deletionTimestamp => { m with deletionTimestamp },
    .lenient "finalizers" Json.Reader.str.list fun m finalizers => { m with finalizers },
    .lenient "generateName" Json.Reader.str fun m generateName => { m with generateName },
    .lenient "generation" Json.Reader.int64 fun m generation => { m with generation },
    .lenient "labels" Json.Reader.str.dict fun m labels => { m with labels },
    .lenient "managedFields" managedEntry.list fun m managedFields => { m with managedFields },
    .lenient "name" Json.Reader.str fun m name => { m with name },
    .lenient "namespace" Json.Reader.str fun m ns => { m with ns },
    .lenient "ownerReferences" ownerEntry.list fun m ownerReferences =>
      { m with ownerReferences },
    .lenient "resourceVersion" Json.Reader.str fun m resourceVersion =>
      { m with resourceVersion },
    .lenient "selfLink" Json.Reader.str fun m selfLink => { m with selfLink },
    .lenient "uid" Json.Reader.str fun m uid => { m with uid }]

/-- Reads metadata. -/
def reader : Json.Reader Metadata := shape.reader {}

/-- The metadata a tree stands for. -/
def ofJson? (j : Json) : Option Metadata := reader.ofTree? j

/-- The tree of an object's metadata, without the fields it does not have. -/
def toJson (m : Metadata) : Json :=
  let text (s : Option String) : Option Json := s.map .str
  let time (t : Option Timestamp) : Option Json := t.map fun t => .str t.toSeconds
  .ofPresent [
    ("annotations", m.annotations.map (Json.ofMap .str)),
    ("creationTimestamp", time m.creationTimestamp),
    ("deletionGracePeriodSeconds", m.deletionGracePeriodSeconds.map .int),
    ("deletionTimestamp", time m.deletionTimestamp),
    ("finalizers", m.finalizers.map Json.ofStrings),
    ("generateName", text m.generateName),
    ("generation", m.generation.map .int),
    ("labels", m.labels.map (Json.ofMap .str)),
    ("managedFields", m.managedFields.map .arr),
    ("name", text m.name),
    ("namespace", text m.ns),
    ("ownerReferences", m.ownerReferences.map .arr),
    ("resourceVersion", text m.resourceVersion),
    ("selfLink", text m.selfLink),
    ("uid", text m.uid)]

end Metadata

end Reconciler
