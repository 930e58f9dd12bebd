import Reconciler.Cache.Diff
import Reconciler.Entity

/-!
# Last-seen snapshots

Every entity a watch brings is compared with the snapshot of the one seen before. A change confined
to the status, or to the list of finalizers, is mostly the echo of the operator's own write; telling
these apart lets a dispatcher skip them.

Snapshots are trees, so the comparison does not depend on the type of entity. They are kept by uid,
or by the name in messages where there is no uid.
-/

namespace Reconciler

/-- What changed between an entity and its previous snapshot. -/
inductive Change where
  /-- A new entity, no change at all, or a change beyond status and finalizers. -/
  | other
  /-- The status alone. -/
  | status
  /-- The list of finalizers alone. -/
  | finalizers
  deriving DecidableEq, Repr

/-- The nature of a change, from the paths at which the trees differ. -/
def Change.ofPaths (paths : List Path) : Change :=
  if paths = [] then .other
  else if paths.all (List.isPrefixOf ["status"] ·) then .status
  else if paths.all (List.isPrefixOf ["metadata", "finalizers"] ·) then .finalizers
  else .other

/-- The snapshots of one entity type, and the paths that its comparisons ignore. -/
structure Cache where
  ignored : List Path
  snapshots : List (String × Json) := []
  deriving Inhabited

namespace Cache

/-- Fields the server changes on every write. -/
def defaultIgnored : List String := ["metadata.resourceVersion", "metadata.managedFields"]

/-- An empty cache with a given ignore list of dotted paths. -/
def ignoring (paths : List String) : Cache := { ignored := paths.map Path.ofDotted }

/-- An empty cache. -/
def empty : Cache := ignoring defaultIgnored

/-- The key of an entity's snapshot. -/
def keyOf (m : Metadata) : String := m.uid.getD m.ref

/-- The snapshot under a key. -/
def find? (c : Cache) (key : String) : Option Json :=
  (c.snapshots.find? (·.1 == key)).map (·.2)

/-- Forget the snapshot under a key. -/
def erase (c : Cache) (key : String) : Cache :=
  { c with snapshots := c.snapshots.filter (·.1 != key) }

/-- Keep a snapshot under a key, in place of any other. -/
def insert (c : Cache) (key : String) (tree : Json) : Cache :=
  { c with snapshots := (key, tree) :: (c.erase key).snapshots }

/-- No snapshot left. -/
def clear (c : Cache) : Cache := { c with snapshots := [] }

/-- The number of snapshots. -/
def size (c : Cache) : Nat := c.snapshots.length

variable {K : Type} [Entity K]

/-- Compare an entity with its snapshot and keep it as the new one. An entity that cannot be written
leaves no snapshot. -/
def upsert (c : Cache) (e : K) : Cache × Change :=
  let key := keyOf (Entity.metadata e)
  match Entity.encode e with
  | .error _ => (c.erase key, .other)
  | .ok tree =>
    let change := match c.find? key with
      | none => .other
      | some previous => Change.ofPaths (diffPaths c.ignored previous tree)
    (c.insert key tree, change)

/-- Where an entity differs from its snapshot, if it has one and can be written. -/
def diff? (c : Cache) (e : K) : Option (List String) := do
  let previous ← c.find? (keyOf (Entity.metadata e))
  let tree ← (Entity.encode e).toOption
  some ((diffPaths c.ignored previous tree).map Path.dotted)

/-- Forget an entity; tells whether there was a snapshot. -/
def remove (c : Cache) (e : K) : Cache × Bool :=
  let key := keyOf (Entity.metadata e)
  (c.erase key, (c.find? key).isSome)

end Cache

end Reconciler
