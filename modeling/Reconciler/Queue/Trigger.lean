import Reconciler.Cache.Basic

/-!
# Why an entity is queued

Triggers are weighed against each other when an entity is queued that is queued already: an equal or
heavier one takes the pending one's place. One lighter trigger does so too: a reconcile replaces a
pending deletion, since a watch reports one only for an entity that exists again. So `supersedes` is
no order.
-/

namespace Reconciler

/-- Why an entity was queued. -/
inductive Trigger where
  /-- A new entity, or a change beyond status and finalizers. -/
  | reconcile
  /-- A change of the status alone. -/
  | statusModified
  /-- A change of the finalizers alone. -/
  | finalizersModified
  /-- The entity is gone from the cluster. -/
  | deleted
  /-- Asked for earlier, by a controller or after a failure. -/
  | requeue
  deriving DecidableEq, Repr, Inhabited

namespace Trigger

/-- All triggers. -/
def all : List Trigger := [reconcile, statusModified, finalizersModified, deleted, requeue]

/-- The name in logs. -/
def name : Trigger → String
  | reconcile => "reconcile"
  | statusModified => "status_modified"
  | finalizersModified => "finalizers_modified"
  | deleted => "deleted"
  | requeue => "requeue"

/-- The trigger of a name. -/
def ofName? (s : String) : Option Trigger := all.find? (·.name == s)

/-- How much the trigger asks for. -/
def weight : Trigger → Nat
  | statusModified => 0
  | finalizersModified => 1
  | reconcile => 2
  | requeue => 2
  | deleted => 3

/-- A schedule with this trigger takes the place of one pending with the other. -/
def supersedes : Trigger → Trigger → Bool
  | reconcile, deleted => true
  | new, pending => pending.weight ≤ new.weight

/-- The trigger of a change that a watch reports. -/
def ofChange : Change → Trigger
  | .other => reconcile
  | .status => statusModified
  | .finalizers => finalizersModified

end Trigger

end Reconciler
