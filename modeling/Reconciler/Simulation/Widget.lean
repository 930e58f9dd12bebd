import Reconciler.Entity
import Reconciler.Resource

/-!
# Free-form entities

Entities for trying the runtime out: metadata and any other fields, kept as they are. One that has
the field `$unserializable` cannot be written, which is how a simulation brings a cache or a client
into that case.
-/

namespace Reconciler.Simulation

/-- Metadata and any other fields, in order. -/
structure Widget where
  metadata : Metadata
  fields : List (String × Json)
  deriving Inhabited, Repr

namespace Widget

/-- The field that makes an entity impossible to write. -/
def poison : String := "$unserializable"

/-- The tree of an entity. -/
def encode (w : Widget) : Except String Json :=
  if (Json.find? poison w.fields).isSome then .error "unserializable"
  else .ok (.obj (Json.insertField "metadata" w.metadata.toJson w.fields))

/-- Reads an entity; without metadata it has empty ones. -/
def reader : Json.Reader Widget :=
  (Json.Record.keeping
    [.optional "metadata" Metadata.reader fun w metadata => { w with metadata }]
    fun name w => Json.Reader.tree.map fun value =>
      { w with fields := Json.insertField name value w.fields }).reader ⟨{}, []⟩

instance : Entity Widget where
  metadata := Widget.metadata
  withMetadata w metadata := { w with metadata }
  encode := encode
  reader := reader

end Widget

/-- The namespaced type of free-form entities. -/
def widgetType : ResourceType := ⟨"Widget", "testing.kubeops.dev", "v1", "widgets", .namespaced⟩

/-- The type of free-form entities of the whole cluster. -/
def gadgetType : ResourceType := ⟨"Gadget", "testing.kubeops.dev", "v1", "gadgets", .cluster⟩

end Reconciler.Simulation
