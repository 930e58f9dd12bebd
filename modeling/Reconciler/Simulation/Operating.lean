import Reconciler.Host.Registration
import Reconciler.Simulation.Reader

/-!
# A whole operator

An operator of scripted types with an optional scripted lease. The steps act on the connections, the
stores and the requeue handles of its types, and cancel it; a cancelled operator is run to its end.
-/

namespace Reconciler.Simulation

open Host (Clock Handler Operator Pipeline Program Registration)

/-- A type to register: everything outside, whether it has a controller, and what its cache
ignores. -/
structure Casting where
  actor : Actor
  hasController : Bool
  ignored : Option (List String) := none

/-- Steps with an operator; those about a type name its place in the order of registration. -/
inductive OperatorStep where
  | offer (place : Nat) (items : List (Except Error (Watch.Event Widget)))
  | close (place : Nat)
  | store (place : Nat) (entity : Widget)
  | unstore (place : Nat) (ref : String)
  | requeue (place : Nat) (entity : Widget) (delay : Nat)
  | advance (ms : Nat)
  | cancel

/-- An operator over a stage. -/
abbrev Operating := Operator Widget Question Question.Answer Stage Dispatcher
  (Widget × Dispatch.Verdict)

namespace Operating

/-- The program of a scripted operator. -/
def program : Program Widget Question Question.Answer Stage Dispatcher
    (Widget × Dispatch.Verdict) where
  backend := Stage.backend
  handler place := .ofDispatcher 0 fun call => Plan.call (Question.entity place call)
  attempt := (Plan.call Question.attempt).map some
  release := (Plan.call Question.release).map some

/-- The clock of a scripted operator. -/
def clock : Clock Operating := Operator.clock program

/-- The pipeline of a type. -/
def pipeline (s : Settings) (gated : Bool) (place : Nat) (c : Casting) :
    Pipeline Widget Question Question.Answer Stage Dispatcher (Widget × Dispatch.Verdict) where
  place
  watcher := .ofSettings s ((c.ignored.map Cache.ignoring).getD .empty)
  gated
  line := { consumer := some { state := .ofSettings s (c.actor.finalizers.map (·.1)) } }

/-- The operator of the given settings and types, with a lease to compete for if the stage has
one. -/
def build (s : Settings) (hasLease : Bool) (stage : Stage) (castings : List Casting) :
    Except Error Operating := do
  let registrations := castings.map fun c => ⟨c.actor.client.kind, c.hasController⟩
  let _ ← Registration.registerAll s registrations
  return {
    env := { stage with actors := castings.map (·.actor) }
    election := if hasLease then some (.ofSettings s) else none
    pipelines := castings.mapIdx (pipeline s hasLease) }

/-- Start an operator. -/
def start (o : Operating) : Operating := clock.settle patience (Operator.start program o)

/-- Change the pipeline of a type; nothing happens where there is no such type. -/
def onPipeline (o : Operating) (place : Nat) (missing : Feedback)
    (f : Pipeline Widget Question Question.Answer Stage Dispatcher (Widget × Dispatch.Verdict) →
      Pipeline Widget Question Question.Answer Stage Dispatcher (Widget × Dispatch.Verdict) ×
        Feedback) : Operating × Feedback :=
  match o.pipelines[place]? with
  | none => (o, missing)
  | some p =>
    let (p, feedback) := f p
    ({ o with pipelines := o.pipelines.set place p }, feedback)

/-- The operator has come to its end. -/
def isFinished (o : Operating) : Bool := o.stage = .finished

/-- One step before the turns it leads to. None if the step ends the simulation. -/
def act? (o : Operating) : OperatorStep → Option (Operating × Feedback)
  | .offer place items =>
    some (onPipeline o place (.sent (items.map fun _ => false)) (offerAll · items))
  | .close place => some (onPipeline o place (.closed false) closeOpen)
  | .store place w => some ({ o with env := o.env.mapClient place (·.put w) }, .nothing)
  | .unstore place ref => some ({ o with env := o.env.mapClient place (·.remove ref) }, .nothing)
  | .requeue place w delay => do
    let command ← Queue.Command.schedule? w delay .requeue
    some (onPipeline o place .nothing fun p => ({ p with line := p.line.send command }, .nothing))
  | .advance ms => some (clock.advanceTo patience (o.now + ms) patience o, .nothing)
  | .cancel =>
    some (clock.runUntil patience isFinished patience (clock.settle patience (Operator.cancel o)),
      .nothing)

/-- The log as it is shown, and the operator without it. -/
def takeLog (o : Operating) : List LogItem × Operating :=
  let (log, env) := o.env.takeLog
  (log, { o with env })

/-- One step with the turns it leads to, and what it shows. -/
def step? (o : Operating) (s : OperatorStep) : Option (Operating × Feedback × List LogItem) := do
  let (o, feedback) ← act? o s
  let (log, o) := takeLog (clock.settle patience o)
  some (o, feedback, log)

end Operating

end Reconciler.Simulation
