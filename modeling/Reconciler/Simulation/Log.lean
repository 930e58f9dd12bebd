import Reconciler.Simulation.Widget

/-!
# What a simulation shows

Every call and every delivery leaves an item in the log. The items of one step are shown sorted by
time, kind and entity, and otherwise in the order in which they came about, so that the order of
parts that run side by side does not show.
-/

namespace Reconciler.Simulation

/-- One thing that happened. -/
structure LogItem where
  t : Nat
  what : String
  kind : Option String := none
  /-- The entity it is about, as messages name it. -/
  entity : Option String := none
  /-- What else there is to tell. -/
  detail : List (String × Json) := []
  deriving Repr

namespace LogItem

/-- What is missing comes first. -/
def missingFirst : Option String → Option String → Ordering
  | none, none => .eq
  | none, some _ => .lt
  | some _, none => .gt
  | some a, some b => compare a b

/-- The order in which items are shown. -/
def order (a b : LogItem) : Ordering :=
  ((compare a.t b.t).then (missingFirst a.kind b.kind)).then (missingFirst a.entity b.entity)

/-- An entity as items name it: not at all if messages would not either. -/
def named? (ref : String) : Option String := if ref.isEmpty then none else some ref

/-- Items as they are shown. -/
def sorted (items : List LogItem) : List LogItem :=
  items.mergeSort fun a b => (order a b).isLE

end LogItem

/-- What an item shows of an entity. -/
def sees (w : Widget) : Json :=
  match w.encode with
  | .error _ =>
    .ofFields [("rv", .null), ("finalizers", .null), ("spec", .null), ("status", .null)]
  | .ok j =>
    .ofFields [("rv", (j.field "metadata").field "resourceVersion"),
      ("finalizers", (j.field "metadata").field "finalizers"),
      ("spec", j.field "spec"), ("status", j.field "status")]

end Reconciler.Simulation
