import Reconciler.Host.Pipeline
import Reconciler.Leadership.Election

/-!
# A running operator

An operator runs one pipeline for every registered type, and an election if it has a lease to
compete for; the pipelines are then gated on it. It runs until it is cancelled. From then on no
consumer takes another entry, and the parts are stopped in reverse order: type by type the watcher,
then the handling of the entry under way, and last the election, which gives the lease back if it
holds it.

At one instant stopping comes first, then the election, then type by type whatever can happen. A
part whose answer yields goes on only when nothing else can happen, so parts that ask one question
after the other take turns.
-/

namespace Reconciler.Host

open Leadership (Channel Election)

/-- What an operator runs: the outside, and plans for everything it asks of it. -/
structure Program (K Q : Type) (A : Q → Type) (E D R : Type) where
  backend : Backend K Q A E
  /-- What is done with entries of the type at a place in the order of registration. -/
  handler : Nat → Handler K Q A E D R
  /-- Try to get or renew the lease; no outcome if that breaks off. -/
  attempt : Plan Q A (Option (Except Error Bool)) := .done (some (.ok false))
  /-- Give the lease back; no outcome if that breaks off. -/
  release : Plan Q A (Option (Except Error Unit)) := .done (some (.ok ()))
  /-- What random parts of waits are drawn from. -/
  draw : Nat := 0

/-- How far the operator has got in its life. -/
inductive Stage where
  | running
  /-- So many types are still to be stopped. -/
  | stopping (types : Nat)
  /-- The watcher of the last of so many types is stopped, its consumer is awaited. -/
  | draining (types : Nat)
  /-- The election is awaited. -/
  | resigning
  | finished
  deriving DecidableEq, Repr

/-- An operator at an instant. -/
structure Operator (K Q : Type) (A : Q → Type) (E D R : Type) where
  now : Nat := 0
  env : E
  channel : Channel := {}
  election : Option Election := none
  /-- The attempt or release under way. -/
  lease : Option (Job K Q A E Election.Input) := none
  pipelines : List (Pipeline K Q A E D R) := []
  stage : Stage := .running

namespace Operator

variable {K Q : Type} {A : Q → Type} {E D R : Type}

/-! ## The election -/

/-- Begin a plan for the lease; one without questions is looked at in the next turn. -/
def launch (pr : Program K Q A E D R) (o : Operator K Q A E D R) (plan : Plan Q A Election.Input) :
    Operator K Q A E D R :=
  match pr.backend.proceed o.now plan o.env with
  | (env, .inl input) =>
    { o with env, lease := some ⟨some o.now, false, fun _ env => env, [], .done input⟩ }
  | (env, .inr job) => { o with env, lease := some job }

/-- Do what the election does. A plan for the lease takes the place of one under way, which is
given up. -/
def performElection (pr : Program K Q A E D R) :
    Operator K Q A E D R → List Election.Effect → Operator K Q A E D R
  | o, [] => o
  | o, .publish s :: rest => performElection pr { o with channel := o.channel.publish s } rest
  | o, .attempt :: rest =>
    performElection pr (o.launch pr (pr.attempt.map (·.elim .failed .attempted))) rest
  | o, .release :: rest =>
    performElection pr (o.launch pr (pr.release.map (·.elim .failed .released))) rest

/-- Something happens to the election. A plan for the lease goes on only as long as the election
waits for it. -/
def tellElection (pr : Program K Q A E D R) (o : Operator K Q A E D R) (input : Election.Input) :
    Operator K Q A E D R :=
  match o.election with
  | none => o
  | some e =>
    let (next, effects) := e.react o.now o.channel.current input
    let lease := if next.stage = e.stage then o.lease else none
    performElection pr { o with election := some next, lease } effects

/-- One thing that can happen to the election. -/
def turnElection (pr : Program K Q A E D R) (o : Operator K Q A E D R) :
    Option (Operator K Q A E D R) :=
  match o.election with
  | none => none
  | some e =>
    match o.lease with
    | some job =>
      if job.isReady o.now then
        match pr.backend.proceed o.now job.rest (job.finish o.now o.env) with
        | (env, .inl input) => some ({ o with env }.tellElection pr input)
        | (env, .inr job) => some { o with env, lease := some job }
      else none
    | none =>
      if e.stage = some .starting ∨ (e.alarm?.any fun t => t ≤ o.now) = true then
        some (o.tellElection pr .wake)
      else none

/-! ## Stopping -/

/-- A pipeline whose consumer takes no more entries. -/
def cancelLine (p : Pipeline K Q A E D R) : Pipeline K Q A E D R :=
  { p with line := { p.line with cancelled := true } }

variable [Entity K]

/-- Cancel the operator. -/
def cancel (o : Operator K Q A E D R) : Operator K Q A E D R :=
  if o.stage = .running then
    { o with pipelines := o.pipelines.map cancelLine, stage := .stopping o.pipelines.length }
  else o

/-- One step of stopping. -/
def turnStop (pr : Program K Q A E D R) (o : Operator K Q A E D R) :
    Option (Operator K Q A E D R) :=
  match o.stage with
  | .running => none
  | .finished => none
  | .stopping 0 => some ({ o with stage := .resigning }.tellElection pr .stop)
  | .stopping (n + 1) =>
    match o.pipelines[n]? with
    | none => some { o with stage := .stopping n }
    | some p =>
      let (p, env) := p.stop pr.backend o.now pr.draw o.env
      some { o with env, pipelines := o.pipelines.set n p, stage := .draining n }
  | .draining n =>
    match o.pipelines[n]? with
    | none => some { o with stage := .stopping n }
    | some p => if p.line.isEnded then some { o with stage := .stopping n } else none
  | .resigning =>
    if (o.election.bind (·.stage)).isNone then some { o with stage := .finished } else none

/-! ## Turns -/

/-- One thing that can happen to the first of the given pipelines to which anything can. -/
def turnPipelines (pr : Program K Q A E D R) (o : Operator K Q A E D R) :
    List (Pipeline K Q A E D R) → Option (List (Pipeline K Q A E D R) × E)
  | [] => none
  | p :: rest =>
    let leading := !p.gated || o.channel.current.isLeader
    match p.turn pr.backend (pr.handler p.place) o.now pr.draw o.channel leading o.env with
    | some (p, env) => some (p :: rest, env)
    | none => (turnPipelines pr o rest).map fun (rest, env) => (p :: rest, env)

/-- When all parts have had their turn, those that let others go first go on; none if there are
none. -/
def resume? (o : Operator K Q A E D R) : Option (Operator K Q A E D R) :=
  if o.lease.any (·.yields) || o.pipelines.any (·.yields) then
    some { o with lease := o.lease.map (·.resume), pipelines := o.pipelines.map (·.resume) }
  else none

/-- One thing that can happen to the operator at this instant. -/
def turn (pr : Program K Q A E D R) (o : Operator K Q A E D R) : Option (Operator K Q A E D R) :=
  match o.turnStop pr with
  | some o => some o
  | none =>
    match o.turnElection pr with
    | some o => some o
    | none =>
      match o.turnPipelines pr o.pipelines with
      | some (pipelines, env) => some { o with pipelines, env }
      | none => o.resume?

/-- The next instant at which something can happen. -/
def alarm? (o : Operator K Q A E D R) : Option Nat :=
  let lease := match o.lease with
    | some job => job.ready
    | none => o.election.bind (·.alarm?)
  soonest? (lease :: o.pipelines.map (·.alarm?))

/-- The clock of an operator. -/
def clock (pr : Program K Q A E D R) : Clock (Operator K Q A E D R) where
  now o := o.now
  moveTo t o := { o with now := t }
  turn := turn pr
  alarm? := alarm?

/-! ## Starting -/

/-- Start the election, then type after type. -/
def start (pr : Program K Q A E D R) (o : Operator K Q A E D R) : Operator K Q A E D R :=
  let o := o.tellElection pr .start
  let (pipelines, env) := o.pipelines.foldl
    (fun (started, env) p =>
      let (p, env) := p.start pr.backend o.now pr.draw env
      (started ++ [p], env)) ([], o.env)
  { o with pipelines, env }

end Operator

end Reconciler.Host
