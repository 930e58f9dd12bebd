import Reconciler.Simulation.Stage

/-!
# A queue and a reader

A reader takes entries from a queue and is busy for a while with each. Producers send through the
queue itself and through a handle that may outlive it.
-/

namespace Reconciler.Simulation

open Host (Clock Handler Line Pipeline)

/-- The number of turns that a simulation gives to one instant, and of instants to one step. -/
def patience : Nat := 1000000

/-- A reader, which shows entries and does nothing with them. -/
def reader : Handler Widget Question Question.Answer Stage Unit Unit where
  plan _ _ entry := Plan.call (Question.deliver entry)
  conclude _ _ := some ((), [])
  ended t s := s.note { t, what := "end" }

/-- What acting on a connection from the other side tells. -/
inductive Feedback where
  | nothing
  /-- Whether an open connection took each item. -/
  | sent (taken : List Bool)
  /-- Whether there was an open connection. -/
  | closed (wasOpen : Bool)

/-- The other side puts items into the open connection, if there is one. -/
def offerAll {D R : Type} (p : Pipeline Widget Question Question.Answer Stage D R)
    (items : List (Except Error (Watch.Event Widget))) :
    Pipeline Widget Question Question.Answer Stage D R × Feedback :=
  (items.foldl (·.offer ·) p, .sent (items.map fun _ => p.isOpen))

/-- The other side ends the open connection, if there is one. -/
def closeOpen {D R : Type} (p : Pipeline Widget Question Question.Answer Stage D R) :
    Pipeline Widget Question Question.Answer Stage D R × Feedback :=
  (p.close, .closed p.isOpen)

/-- An entity that is sent to a queue. -/
structure Sending where
  entity : Widget
  delay : Nat
  trigger : Trigger

/-- Steps with a queue and a reader. -/
inductive ReaderStep where
  /-- Start a reader that is busy for so long with an entry. -/
  | consume (work : Nat)
  | enqueue (sendings : List Sending)
  /-- Keep a handle. -/
  | keepHandle
  /-- Send through the handle, or through the queue if there is none. -/
  | requeue (entity : Widget) (delay : Nat)
  | clear
  | advance (ms : Nat)
  /-- Cancel the reader. -/
  | cancel
  | dropQueue
  | dropHandle

/-- A queue with its producers and its reader. -/
structure ReaderBench where
  now : Nat := 0
  stage : Stage := {}
  line : Line Widget Question Question.Answer Stage Unit Unit := {}
  hasQueue : Bool := true
  hasHandle : Bool := false

namespace ReaderBench

/-- The clock of a bench. -/
def clock : Clock ReaderBench where
  now b := b.now
  moveTo t b := { b with now := t }
  turn b := (b.line.turn Stage.backend reader b.now true b.stage).map fun (line, stage) =>
    { b with line, stage }
  alarm? b := b.line.alarm?

/-- Send entities; none if one of them has no name. -/
def send? (b : ReaderBench) : List Sending → Option ReaderBench
  | [] => some b
  | s :: rest => do
    let command ← Queue.Command.schedule? s.entity s.delay s.trigger
    { b with line := b.line.send command }.send? rest

/-- The line is closed once the last producer is gone. -/
def closeIfDone (b : ReaderBench) : ReaderBench :=
  { b with line := { b.line with closed := !b.hasQueue && !b.hasHandle } }

/-- One step before the turns it leads to, with the outcome of starting a reader. None if the step
ends the simulation. -/
def act? (b : ReaderBench) : ReaderStep → Option (ReaderBench × Option (Except Error Unit))
  | .consume work =>
    match b.line.consume b.now () with
    | .ok line => some ({ b with line, stage := { b.stage with busy := work } }, some (.ok ()))
    | .error e => some (b, some (.error e))
  | .enqueue sendings => do
    let sent ← b.send? sendings
    some (if b.hasQueue then sent else b, none)
  | .keepHandle => some ({ b with hasHandle := b.hasHandle || b.hasQueue }, none)
  | .requeue entity delay => do
    let sent ← b.send? [⟨entity, delay, .requeue⟩]
    some (if b.hasQueue || b.hasHandle then sent else b, none)
  | .clear => some (if b.hasQueue then { b with line := b.line.send .clear } else b, none)
  | .advance ms => some (clock.advanceTo patience (b.now + ms) patience b, none)
  | .cancel => some ({ b with line := { b.line with cancelled := true } }, none)
  | .dropQueue => some ({ b with hasQueue := false }.closeIfDone, none)
  | .dropHandle => some ({ b with hasHandle := false }.closeIfDone, none)

/-- One step with the turns it leads to, the outcome of starting a reader, and what it shows. -/
def step? (b : ReaderBench) (s : ReaderStep) :
    Option (ReaderBench × Option (Except Error Unit) × List LogItem) := do
  let (b, outcome) ← b.act? s
  let b := clock.settle patience b
  let (log, stage) := b.stage.takeLog
  some ({ b with stage }, outcome, log)

end ReaderBench

end Reconciler.Simulation
