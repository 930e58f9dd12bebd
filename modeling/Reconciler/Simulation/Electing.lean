import Reconciler.Simulation.Reader

/-!
# An election over a scripted lease

The steps start and stop an election whose attempts and releases do what a script says. A stop waits
for the release it leads to.
-/

namespace Reconciler.Simulation

open Host (Clock Operator Program)
open Leadership (Election)

/-- Steps with an election. -/
inductive ElectionStep where
  | start
  | stop
  | drop
  | advance (ms : Nat)

/-- A program that only asks for the lease. -/
def leaseProgram : Program Widget Question Question.Answer Stage Unit Unit where
  backend := Stage.backend
  handler _ := reader
  attempt := (Plan.call Question.attempt).map some
  release := (Plan.call Question.release).map some

/-- An election over a scripted lease: an operator of no types. -/
structure ElectionBench where
  operator : Operator Widget Question Question.Answer Stage Unit Unit
  /-- The election is gone. -/
  dropped : Bool := false

namespace ElectionBench

/-- An election of the given settings over a stage. -/
def ofStage (s : Settings) (stage : Stage) : ElectionBench where
  operator := { env := stage, election := some (.ofSettings s) }

/-- The clock of a bench. -/
def clock : Clock (Operator Widget Question Question.Answer Stage Unit Unit) :=
  Operator.clock leaseProgram

/-- The election is not in the middle of a release. -/
def isSettled (o : Operator Widget Question Question.Answer Stage Unit Unit) : Bool :=
  (o.election.bind (·.stage)) != some .releasing

/-- One step with the turns it leads to: the state right after the step itself, and what it
shows. -/
def step (b : ElectionBench) (s : ElectionStep) : ElectionBench × Leadership × List LogItem :=
  let o := b.operator
  let o := match s with
    | .start => if b.dropped then o else o.tellElection leaseProgram .start
    | .stop => if b.dropped then o else o.tellElection leaseProgram .stop
    | .drop => { o with election := none, lease := none }
    | .advance ms => clock.advanceTo patience (o.now + ms) patience o
  let atReturn := o.channel.current
  let o := clock.runUntil patience isSettled patience (clock.settle patience o)
  let (log, env) := o.env.takeLog
  let dropped := b.dropped || s matches .drop
  ({ operator := { o with env }, dropped }, atReturn, log)

end ElectionBench

end Reconciler.Simulation
