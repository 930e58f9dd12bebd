import Reconciler.Host.Operator
import Reconciler.Host.Registration
import Reconciler.Http.LeaseClient
import Reconciler.Http.MirrorClient
import Reconciler.Simulation.Reader
import Reconciler.Simulation.Server

/-!
# The mirror's operator on a scripted server

The whole program over routes: ConfigMirrors with their controller and the cleanup as a finalizer,
and the election over a lease on the same server if the settings ask for one.
-/

namespace Reconciler.Simulation

open Host (Clock Handler Operator Pipeline Program Registration)
open Leadership (Elector)
open Mirror (ConfigMirror)

/-- The mirror's operator on a server. -/
abbrev Mirroring := Operator ConfigMirror Http.Question Http.Question.Answer Server Dispatcher
  (ConfigMirror × Dispatch.Verdict)

namespace Mirroring

/-- The program of the mirror's operator. -/
def program (s : Settings) : Program ConfigMirror Http.Question Http.Question.Answer Server
    Dispatcher (ConfigMirror × Dispatch.Verdict) :=
  let client := Http.MirrorClient.mirrors s.name
  let elector := Elector.ofSettings s
  { backend := Server.backend client
    handler := fun _ => .ofDispatcher 0 (Http.MirrorClient.dispatch client)
    attempt := Http.LeaseClient.tryAcquire elector
    release := Http.LeaseClient.release elector }

/-- The clock of the mirror's operator. -/
def clock (s : Settings) : Clock Mirroring := Operator.clock (program s)

/-- The operator of the given settings on a server. -/
def build (s : Settings) (server : Server) : Except Error Mirroring := do
  let _ ← Registration.registerAll s [⟨ConfigMirror.resource.kind, true⟩]
  return {
    env := server
    election := if s.leaderElection then some (.ofSettings s) else none
    pipelines := [{
      watcher := .ofSettings s .empty
      gated := s.leaderElection
      line := { consumer := some { state := .ofSettings s [Mirror.cleanupFinalizer] } } }] }

/-- The log as it is shown, and the operator without it. -/
def takeLog (o : Mirroring) : List LogItem × Mirroring :=
  let (log, env) := o.env.takeLog
  (log, { o with env })

/-- Start the operator. -/
def start (s : Settings) (o : Mirroring) : List LogItem × Mirroring :=
  takeLog ((clock s).settle patience (Operator.start (program s) o))

/-- Move the clock. -/
def advance (s : Settings) (o : Mirroring) (ms : Nat) : List LogItem × Mirroring :=
  takeLog ((clock s).advanceTo patience (o.now + ms) patience o)

/-- Cancel the operator and run it to its end; none if the end breaks off. -/
def shutDown? (s : Settings) (o : Mirroring) : Option (List LogItem × Mirroring) :=
  let o := (clock s).runUntil patience (·.stage == .finished) patience
    ((clock s).settle patience (Operator.cancel o))
  if o.stage = .finished then some (takeLog o) else none

end Mirroring

end Reconciler.Simulation
