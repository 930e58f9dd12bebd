/-!
# Scripts

A script says what comes back from one call after the other. Calls are about an entity, and take
from the entity's own list as long as there is something in it, then from the list for all.
-/

namespace Reconciler.Simulation

/-- What comes back from calls, in order. -/
structure Script (α : Type) where
  own : List (String × List α) := []
  shared : List α := []
  deriving Repr

namespace Script

variable {α : Type}

/-- A script of one list for all entities. -/
def ofList (shared : List α) : Script α := { shared }

/-- Take the first of an entity's own list. -/
def takeOwn (entity : String) : List (String × List α) → Option (α × List (String × List α))
  | [] => none
  | (key, items) :: rest =>
    if key = entity then
      match items with
      | [] => none
      | item :: items => some (item, (key, items) :: rest)
    else (takeOwn entity rest).map fun (item, rest) => (item, (key, items) :: rest)

/-- What comes back from the next call about an entity, and the script after it. -/
def next (s : Script α) (entity : String) : Option α × Script α :=
  match takeOwn entity s.own with
  | some (item, own) => (some item, { s with own })
  | none =>
    match s.shared with
    | item :: shared => (some item, { s with shared })
    | [] => (none, s)

end Script

end Reconciler.Simulation
