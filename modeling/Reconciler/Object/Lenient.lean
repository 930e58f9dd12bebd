import Reconciler.Entity
import Reconciler.Resource

/-!
# Types the server brings along

Their objects are lenient records that say of what type they are; an object that gives another
version or kind than the type's own is not one of them.
-/

namespace Reconciler

/-- Reads a text that can only be one. -/
def exactly (expected : String) : Json.Reader String :=
  Json.Reader.str.refine fun s => if s = expected then some s else none

/-- The shape of an object of a type: its version, its kind and other fields. -/
def typed {σ : Type} (r : ResourceType) (fields : List (Json.Field σ)) : Json.Record σ :=
  .lenient (.checked "apiVersion" .optional (exactly r.apiVersion) ::
    .checked "kind" .optional (exactly r.kind) :: fields)

end Reconciler
