import Reconciler.Entity
import Reconciler.Json.Printer
import Reconciler.Resource

/-!
# The ConfigMirror resource

A ConfigMirror asks for copies of one ConfigMap of its own namespace in a list of other namespaces.
Its spec and its status are strict records: fields in any order or an array of them, none twice,
unknown ones ignored, defaults where one is left out. Writing leaves out an empty list of copies and
a missing generation or message, which reading restores.
-/

namespace Reconciler.Mirror

/-- The interval of a spec that gives none, in seconds. -/
def Spec.defaultResyncSeconds : Nat := 300

/-- What a ConfigMirror asks for. -/
structure Spec where
  /-- The ConfigMap to copy. -/
  source : String
  /-- The namespaces that get a copy. -/
  targetNamespaces : List String := []
  /-- Seconds after which the copies are written again, changed or not. -/
  resyncSeconds : Nat := Spec.defaultResyncSeconds
  deriving DecidableEq, Repr, Inhabited

namespace Spec

/-- The shape of a spec. -/
def shape : Json.Record Spec :=
  .strict [
    .required "source" Json.Reader.str fun s source => { s with source },
    .optional "targetNamespaces" Json.Reader.str.list fun s targetNamespaces =>
      { s with targetNamespaces },
    .optional "resyncSeconds" Json.Reader.nat64 fun s resyncSeconds => { s with resyncSeconds }]

/-- Reads a spec. -/
def reader : Json.Reader Spec := shape.reader { source := "" }

/-- The fields of a spec, in the order in which they are written. -/
def fields (s : Spec) : List (String × Json) :=
  [("source", .str s.source), ("targetNamespaces", .ofStrings s.targetNamespaces),
    ("resyncSeconds", .int s.resyncSeconds)]

/-- The tree of a spec. -/
def toJson (s : Spec) : Json := .ofFields s.fields

/-- The text of a spec. -/
def text (s : Spec) : String := (Json.obj s.fields).render

end Spec

/-- Where a ConfigMirror is in its life. -/
inductive Phase where
  /-- Not synced yet. -/
  | pending
  /-- Every target holds a current copy. -/
  | ready
  /-- The last sync failed. -/
  | failed
  deriving DecidableEq, Repr, Inhabited

namespace Phase

/-- The phase as it is written. -/
def name : Phase → String
  | pending => "Pending"
  | ready => "Ready"
  | failed => "Failed"

/-- The phase of a name. -/
def ofName? (s : String) : Option Phase := [pending, ready, failed].find? (·.name == s)

/-- Reads a phase. -/
def reader : Json.Reader Phase := .named ofName?

end Phase

/-- What the operator last observed of a ConfigMirror. -/
structure Status where
  phase : Phase := .pending
  /-- The namespaces that hold a copy. -/
  mirrored : List String := []
  /-- The generation this status is about. -/
  observedGeneration : Option Int := none
  /-- What is wrong, in phases other than ready. -/
  message : Option String := none
  deriving DecidableEq, Repr, Inhabited

namespace Status

/-- The shape of a status. -/
def shape : Json.Record Status :=
  .strict [
    .optional "phase" Phase.reader fun s phase => { s with phase },
    .optional "mirrored" Json.Reader.str.list fun s mirrored => { s with mirrored },
    .optional "observedGeneration" Json.Reader.int64.nullable fun s observedGeneration =>
      { s with observedGeneration },
    .optional "message" Json.Reader.str.nullable fun s message => { s with message }]

/-- Reads a status. -/
def reader : Json.Reader Status := shape.reader {}

/-- What a status is written with, in order, as far as it is there. -/
def present (s : Status) : List (String × Option Json) :=
  [("phase", some (.str s.phase.name)),
    ("mirrored", if s.mirrored.isEmpty then none else some (.ofStrings s.mirrored)),
    ("observedGeneration", s.observedGeneration.map .int),
    ("message", s.message.map .str)]

/-- The fields of a status, in the order in which they are written. -/
def fields (s : Status) : List (String × Json) := s.present.filterMap fun (k, v) => v.map (k, ·)

/-- The tree of a status. -/
def toJson (s : Status) : Json := .ofFields s.fields

/-- The text of a status. -/
def text (s : Status) : String := (Json.obj s.fields).render

end Status

/-- A ConfigMirror object. -/
structure ConfigMirror where
  metadata : Metadata
  spec : Spec
  status : Option Status := none
  deriving Inhabited, Repr

namespace ConfigMirror

/-- The type's name and address. -/
def resource : ResourceType :=
  ⟨"ConfigMirror", "kubeops.dev", "v1alpha1", "configmirrors", .namespaced⟩

/-- The shape of an object, which must have metadata and a spec. The version and kind that it gives
are not looked at. -/
def shape : Json.Record ConfigMirror :=
  .strict [
    .required "metadata" Metadata.reader fun m metadata => { m with metadata },
    .required "spec" Spec.reader fun m spec => { m with spec },
    .ofSetter "status" .implied Status.reader.nullable fun m status => { m with status }]

/-- Reads an object. -/
def reader : Json.Reader ConfigMirror := shape.reader ⟨{}, { source := "" }, none⟩

/-- The tree of an object, with its own version and kind. -/
def toJson (m : ConfigMirror) : Json :=
  .ofPresent [
    ("apiVersion", some (.str resource.apiVersion)),
    ("kind", some (.str resource.kind)),
    ("metadata", some m.metadata.toJson),
    ("spec", some m.spec.toJson),
    ("status", m.status.map Status.toJson)]

instance : Entity ConfigMirror where
  metadata := ConfigMirror.metadata
  withMetadata m metadata := { m with metadata }
  encode m := .ok m.toJson
  reader := reader

end ConfigMirror

end Reconciler.Mirror
