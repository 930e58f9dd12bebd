import Reconciler.Simulation.Reader

/-!
# A dispatcher on its own

A dispatcher handles the entries it is given, one at a time, and its queue is read only on demand.
While it handles an entry the clock moves with the work that is done.
-/

namespace Reconciler.Simulation

/-- A dispatcher over a scripted actor. -/
structure DispatchBench where
  now : Nat := 0
  stage : Stage
  dispatcher : Dispatcher
  /-- Leadership, if the dispatcher is bound to it. -/
  leadership : Option Leadership := none
  /-- Commands sent to the queue and not applied. -/
  inbox : List (Queue.Command Widget) := []
  queue : Queue Widget := .empty
  /-- The entry that was read last and not handled yet. -/
  last : Option (Queue.Entry Widget) := none

namespace DispatchBench

/-- A dispatcher of the given settings over an actor. -/
def ofActor (s : Settings) (actor : Actor) (leadership : Option Leadership) : DispatchBench where
  stage := { actors := [actor] }
  dispatcher := .ofSettings s (actor.finalizers.map (·.1))
  leadership

/-- Run a plan to its end, moving the clock with it. -/
def run (b : DispatchBench) {α : Type} : Dispatch.Steps Widget α → DispatchBench × α
  | .done a => (b, a)
  | .ask q next =>
    let (stage, reply) := b.stage.entityCall b.now 0 q
    let now := max b.now (reply.ready.getD b.now)
    run { b with now, stage := reply.finish now stage, inbox := b.inbox ++ reply.commands }
      (next reply.value)

/-- This replica leads, as far as the dispatcher knows. -/
def leading (b : DispatchBench) : Bool := b.leadership.all (·.isLeader)

/-- Handle an entry. None if the dispatcher cannot conclude. -/
def dispatch? (b : DispatchBench) (entry : Queue.Entry Widget) : Option DispatchBench := do
  let (b, entity, verdict) := b.run (Dispatch.handle b.dispatcher.policy b.leading entry)
  let (dispatcher, commands) ← b.dispatcher.conclude 0 entity verdict
  some { b with dispatcher, inbox := b.inbox ++ commands }

/-- The failures in a row of an entity that has a name. -/
def failures? (b : DispatchBench) (w : Widget) : Option Nat :=
  (Entity.key? w).map b.dispatcher.failures

/-- A look into the queue at this instant. None if a command cannot be applied. -/
def look? (b : DispatchBench) : Option (DispatchBench × Option (Queue.Entry Widget)) :=
  match b.queue.poll b.now false false b.inbox with
  | .delivered entry queue => some ({ b with inbox := [], queue }, some entry)
  | .idle queue => some ({ b with inbox := [], queue }, none)
  | .ended => some (b, none)
  | .failed _ => none

/-- Look into the queue, at this instant and whenever it is time to, until there is an entry or an
instant has come. -/
def lookUntil? (limit : Nat) : Nat → DispatchBench →
    Option (DispatchBench × Option (Queue.Entry Widget))
  | 0, b => some (b, none)
  | looks + 1, b => do
    let (b, entry) ← b.look?
    match entry, b.queue.timers.alarm?.filter (· ≤ limit) with
    | some entry, _ => some (b, some entry)
    | none, some t => lookUntil? limit looks { b with now := t }
    | none, none => some ({ b with now := limit }, none)

/-- Wait for the next entry, but no longer than `most`. -/
def next? (b : DispatchBench) (most : Nat) :
    Option (DispatchBench × Option (Queue.Entry Widget)) := do
  let (b, entry) ← lookUntil? (b.now + most) patience b
  some ({ b with last := entry }, entry)

/-- The log as it is shown, and the bench without it. -/
def takeLog (b : DispatchBench) : List LogItem × DispatchBench :=
  let (log, stage) := b.stage.takeLog
  (log, { b with stage })

end DispatchBench

end Reconciler.Simulation
