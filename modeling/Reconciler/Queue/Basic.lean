import Reconciler.Entity
import Reconciler.Queue.Timers
import Reconciler.Queue.Trigger

/-!
# The queue of entities

Producers send commands, and never wait. The single consumer applies them when it looks for an
entry, so a delay counts from then. At most one entry is pending for an entity. A schedule for a
pending entity merges with it: an equal or heavier trigger takes over trigger and deadline, a
lighter one leaves both and only brings the newer entity, and not even that to a pending deletion.

The consumer keeps the pending entries as timers, with an index from an entity to its timer.
Applying a command fails only where a deadline lies beyond the horizon of the timers, or where the
index names a timer that is not there.
-/

namespace Reconciler

namespace Queue

/-- An entity and why it is queued. -/
structure Entry (K : Type) where
  entity : K
  trigger : Trigger
  deriving Repr

/-- What producers ask of the queue. -/
inductive Command (K : Type) where
  /-- Deliver an entry after a delay in milliseconds. -/
  | schedule (key : EntityKey) (entry : Entry K) (delay : Nat)
  /-- Drop every pending entry. -/
  | clear
  deriving Repr

/-- The command to deliver an entity; none for an entity without a name, which has no identity. -/
def Command.schedule? {K : Type} [Entity K] (entity : K) (delay : Nat) (trigger : Trigger) :
    Option (Command K) :=
  (Entity.key? entity).map fun key => .schedule key ⟨entity, trigger⟩ delay

/-- Why a command cannot be applied. -/
inductive Fault where
  /-- The deadline is too far away. -/
  | beyondHorizon
  /-- The index names a timer that is not there. -/
  | lostTimer
  deriving DecidableEq, Repr

/-- What a schedule makes of a pending entry. -/
inductive Merge (K : Type) where
  /-- A new entry after the schedule's own delay. -/
  | replace (entry : Entry K)
  /-- An entry that keeps the pending deadline. -/
  | keep (entry : Entry K)
  deriving Repr

/-- How a scheduled entry merges with a pending one. -/
def Entry.merge {K : Type} (new pending : Entry K) : Merge K :=
  if new.trigger.supersedes pending.trigger then .replace new
  else .keep {
    entity := if pending.trigger = .deleted then pending.entity else new.entity
    trigger := pending.trigger }

end Queue

open Queue in
/-- The consumer's side of a queue. -/
structure Queue (K : Type) where
  timers : Timers (EntityKey × Entry K) := .empty
  /-- The timer of every pending entity. -/
  index : List (EntityKey × Nat) := []
  deriving Repr

namespace Queue

variable {K : Type}

/-- Nothing pending, in a queue whose consumer looks into it for the first time at an instant. -/
def startingAt (now : Nat) : Queue K := { timers := .startingAt now }

/-- Nothing pending. -/
def empty : Queue K := startingAt 0

/-- The timer of an entity. -/
def timer? (q : Queue K) (key : EntityKey) : Option Nat :=
  (q.index.find? (·.1 == key)).map (·.2)

/-- The index without an entity. -/
def forget (q : Queue K) (key : EntityKey) : List (EntityKey × Nat) :=
  q.index.filter (·.1 != key)

/-- Make an entry pending for an entity that has none. -/
def insert (q : Queue K) (key : EntityKey) (entry : Entry K) (deadline : Nat) :
    Except Fault (Queue K) :=
  match q.timers.insertAt? deadline (key, entry) with
  | some (id, timers) => .ok { timers, index := (key, id) :: q.forget key }
  | none => .error .beyondHorizon

/-- Apply a command at an instant. -/
def apply (q : Queue K) (now : Nat) : Command K → Except Fault (Queue K)
  | .clear => .ok { timers := q.timers.clear, index := [] }
  | .schedule key entry delay =>
    match q.timer? key with
    | none => q.insert key entry (now + delay)
    | some id =>
      match q.timers.take? id with
      | none => .error .lostTimer
      | some (pending, timers) =>
        let q : Queue K := { timers, index := q.forget key }
        match entry.merge pending.value.2 with
        | .replace entry => q.insert key entry (now + delay)
        | .keep entry => q.insert key entry pending.deadline

/-- Apply commands in order at an instant. -/
def applyAll (q : Queue K) (now : Nat) : List (Command K) → Except Fault (Queue K)
  | [] => .ok q
  | command :: rest =>
    match q.apply now command with
    | .ok q => q.applyAll now rest
    | .error fault => .error fault

/-- Deliver the entry that is due first, if one is due. -/
def expire (q : Queue K) (now : Nat) : Option (Entry K) × Queue K :=
  match q.timers.expire now with
  | (some timer, timers) => (some timer.value.2, { timers, index := q.forget timer.value.1 })
  | (none, timers) => (none, { q with timers })

/-- What a look into the queue brings. -/
inductive Poll (K : Type) where
  | delivered (entry : Entry K) (queue : Queue K)
  /-- Nothing is due. -/
  | idle (queue : Queue K)
  /-- Nothing will ever come. -/
  | ended
  | failed (fault : Fault)

/-- One look into the queue by its consumer. Cancellation comes before everything, the commands sent
come before any delivery, and without producers the queue ends once nothing is pending. -/
def poll (q : Queue K) (now : Nat) (cancelled closed : Bool) (inbox : List (Command K)) : Poll K :=
  if cancelled then .ended
  else
    match q.applyAll now inbox with
    | .error fault => .failed fault
    | .ok q =>
      match q.expire now with
      | (some entry, q) => .delivered entry q
      | (none, q) => if closed && q.timers.isEmpty then .ended else .idle q

end Queue

end Reconciler
