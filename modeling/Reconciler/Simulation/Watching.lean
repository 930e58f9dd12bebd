import Reconciler.Simulation.Reader

/-!
# A watcher and its queue

A watcher over scripted connections feeds a queue whose reader is never busy. It runs on its own, or
gated by a channel of leadership that the steps publish on.
-/

namespace Reconciler.Simulation

open Host (Clock Pipeline)
open Leadership (Channel)

/-- Steps with a watcher. -/
inductive WatcherStep where
  | start
  | stop
  | drop
  /-- The other side puts items into the open connection. -/
  | offer (items : List (Except Error (Watch.Event Widget)))
  /-- The other side ends the open connection. -/
  | close
  /-- Drop everything pending. -/
  | discard
  | requeue (entity : Widget) (delay : Nat)
  /-- Put an entity into the cache. -/
  | upsert (entity : Widget)
  /-- Publish one after the other with nothing in between. -/
  | publish (states : List Leadership)
  /-- There will be no more publications. -/
  | hangUp
  | advance (ms : Nat)

/-- A watcher over a scripted client. -/
structure WatcherBench where
  now : Nat := 0
  stage : Stage
  channel : Channel := {}
  pipeline : Pipeline Widget Question Question.Answer Stage Unit Unit
  /-- The watcher is gone. -/
  dropped : Bool := false
  /-- The watcher's publications at the last step. -/
  seen : Nat := 0

namespace WatcherBench

/-- A watcher over a client, with a reader at its queue, gated if there is a state to begin with. -/
def ofClient (s : Settings) (client : Client) (leadership : Option Leadership) : WatcherBench where
  stage := { actors := [{ client }] }
  channel := { current := leadership.getD .inactive }
  pipeline := {
    watcher := .ofSettings s .empty
    gated := leadership.isSome
    line := { consumer := some { state := () } } }

/-- The clock of a bench. -/
def clock : Clock WatcherBench where
  now b := b.now
  moveTo t b := { b with now := t }
  turn b :=
    (b.pipeline.turn Stage.backend reader b.now 0 b.channel true b.stage).map
      fun (pipeline, stage) => { b with pipeline, stage }
  alarm? b := b.pipeline.alarm?

/-- Change the pipeline, unless the watcher is gone. -/
def onWatcher (b : WatcherBench)
    (f : Pipeline Widget Question Question.Answer Stage Unit Unit → Stage →
      Pipeline Widget Question Question.Answer Stage Unit Unit × Stage) : WatcherBench :=
  if b.dropped then b
  else
    let (pipeline, stage) := f b.pipeline b.stage
    { b with pipeline, stage }

/-- One step before the turns it leads to. None if the step ends the simulation. -/
def act? (b : WatcherBench) : WatcherStep → Option (WatcherBench × Feedback)
  | .start => some (b.onWatcher fun p stage => p.start Stage.backend b.now 0 stage, .nothing)
  | .stop => some (b.onWatcher fun p stage => p.stop Stage.backend b.now 0 stage, .nothing)
  | .drop => some ({ b with dropped := true, pipeline := b.pipeline.drop }, .nothing)
  | .offer items =>
    let (pipeline, feedback) := offerAll b.pipeline items
    some ({ b with pipeline }, feedback)
  | .close =>
    let (pipeline, feedback) := closeOpen b.pipeline
    some ({ b with pipeline }, feedback)
  | .discard =>
    some (b.onWatcher fun p stage => ({ p with line := p.line.send .clear }, stage), .nothing)
  | .requeue entity delay => do
    let command ← Queue.Command.schedule? entity delay .requeue
    some ({ b with pipeline := { b.pipeline with line := b.pipeline.line.send command } }, .nothing)
  | .upsert entity =>
    let w := b.pipeline.watcher
    let w := { w with cache := (w.cache.upsert entity).1 }
    some ({ b with pipeline := { b.pipeline with watcher := w } }, .nothing)
  | .publish states =>
    let channel := if b.channel.closed then b.channel else states.foldl (·.publish ·) b.channel
    some ({ b with channel }, .nothing)
  | .hangUp => some ({ b with channel := { b.channel with closed := true } }, .nothing)
  | .advance ms => some (clock.advanceTo patience (b.now + ms) patience b, .nothing)

/-- What can be seen of the watcher. -/
structure View where
  /-- State and failures in a row, of a watcher that is not gone. -/
  watcher : Option (WatcherState × Nat)
  /-- A state was published, be it the same as before. -/
  changed : Bool
  /-- The number of entities in the cache. -/
  cached : Nat
  log : List LogItem

/-- One step with the turns it leads to, and what can be seen after it. -/
def step? (b : WatcherBench) (s : WatcherStep) :
    Option (WatcherBench × Feedback × View) := do
  let (b, answer) ← b.act? s
  let b := clock.settle patience b
  let (log, stage) := b.stage.takeLog
  let w := b.pipeline.watcher
  let published := b.pipeline.publications
  let view : View := {
    watcher := if b.dropped then none else some (w.state, w.retries)
    changed := !b.dropped && published != b.seen
    cached := w.cache.size
    log }
  some ({ b with stage, seen := published }, answer, view)

end WatcherBench

end Reconciler.Simulation
