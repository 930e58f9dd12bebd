import Reconciler.Metadata

/-!
# Entities

Anything with metadata that can be written to a tree and read back is an entity: the runtime can
watch, cache, queue and reconcile it. Writing may fail, which a cache and a client have to cope
with.
-/

namespace Reconciler

/-- A type whose values the runtime can manage. -/
class Entity (K : Type) where
  metadata : K → Metadata
  withMetadata : K → Metadata → K
  /-- The tree of an entity, or why there is none. -/
  encode : K → Except String Json
  /-- Reads an entity. -/
  reader : Json.Reader K

namespace Entity

variable {K : Type} [Entity K]

/-- The entity a tree stands for. -/
def decode? (j : Json) : Option K := (reader (K := K)).ofTree? j

/-- What messages call the entity. -/
def ref (e : K) : String := (metadata e).ref

/-- The entity's identity among those of its kind; none without a name. -/
def key? (e : K) : Option EntityKey := (metadata e).key?

/-- The entity is marked for deletion. -/
def isDeleting (e : K) : Bool := (metadata e).isDeleting

/-- The entity with other finalizers. -/
def withFinalizers (e : K) (finalizers : Option (List String)) : K :=
  withMetadata e { metadata e with finalizers }

end Entity

end Reconciler
