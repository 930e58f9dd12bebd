import Reconciler.Object.Lenient

/-!
# Namespaces

The operator does not look into a namespace's spec or state, so both are held as they are written.
-/

namespace Reconciler

/-- A namespace, with its finalizers and its state as they are written. -/
structure NamespaceObject where
  metadata : Metadata := {}
  spec : Option Json := none
  status : Option Json := none
  deriving Inhabited, Repr

namespace NamespaceObject

/-- Reads a namespace's spec. -/
def specEntry : Json.Reader Json :=
  Json.Record.entry (.lenient [.kept "finalizers" (Json.Reader.str.list.map Json.ofStrings)])

/-- Reads a condition of a namespace: status and type are always there. -/
def conditionEntry : Json.Reader Json :=
  Json.Record.entry
    (.lenient [
      .kept "lastTransitionTime" (Metadata.instant.map fun t => .str t.toSeconds),
      .kept "message" (Json.Reader.str.map .str),
      .kept "reason" (Json.Reader.str.map .str),
      .always "status",
      .always "type"])
    ["status", "type"]

/-- Reads a namespace's state. -/
def statusEntry : Json.Reader Json :=
  Json.Record.entry (.lenient [
    .kept "conditions" (conditionEntry.list.map .arr),
    .kept "phase" (Json.Reader.str.map .str)])

/-- Reads a namespace. -/
def reader : Json.Reader NamespaceObject :=
  (typed .namespaceType [
    .lenient "metadata" Metadata.reader fun (n : NamespaceObject) metadata =>
      { n with metadata := metadata.getD {} },
    .lenient "spec" specEntry fun n spec => { n with spec },
    .lenient "status" statusEntry fun n status => { n with status }]).reader {}

/-- The tree of a namespace, with its version and kind. -/
def toJson (n : NamespaceObject) : Json :=
  .ofPresent [
    ("apiVersion", some (.str ResourceType.namespaceType.apiVersion)),
    ("kind", some (.str ResourceType.namespaceType.kind)),
    ("metadata", some n.metadata.toJson),
    ("spec", n.spec),
    ("status", n.status)]

instance : Entity NamespaceObject where
  metadata := NamespaceObject.metadata
  withMetadata n metadata := { n with metadata }
  encode n := .ok n.toJson
  reader := reader

end NamespaceObject

end Reconciler
