import Reconciler.CommandLine.Launch
import Reconciler.Json.Printer

/-!
# The program

Reads the command line and the environment, and does what they come to. No cluster can be reached
from here, so an operator that is ready to start stops at that point.
-/

namespace Reconciler.CommandLine

/-- Every variable that the program reads. -/
def variableNames : List String :=
  ["RUST_LOG", "POD_NAME", "HOSTNAME"] ++ Key.all.filterMap Key.variableName?

/-- The values of the variableNames that are set. -/
def readEnvironment : IO (List (String × String)) := do
  let values ← variableNames.mapM fun name => return (name, ← IO.getEnv name)
  return values.filterMap fun (name, value) => value.map (name, ·)

/-- A line of the log in the chosen format. -/
def logText (o : Options) (line : Logging.Line) : String :=
  if o.plainLogs then line.text else line.toJson.render

end Reconciler.CommandLine

open Reconciler CommandLine in
def main (arguments : List String) : IO UInt32 := do
  let values ← readEnvironment
  let environment (name : String) : Option String := values.lookup name
  let bits ← IO.rand 0 (Nat.pow 2 128 - 1)
  let identity := (Identity.choose (environment "POD_NAME") (environment "HOSTNAME")).resolve bits
  let launch := Launch.ofArguments arguments environment identity
  match launch with
  | .refused fault =>
    IO.eprintln ("error: " ++ fault.message ++ "\n\nFor more information, try '--help'.")
  | .help => IO.println (Launch.helpText environment)
  | .version => IO.println Launch.versionText
  | .definition => IO.println Mirror.Definition.toJson.render
  | .started options log settings =>
    for line in log.lines do
      IO.println (logText options line)
    match settings with
    | .error e => IO.eprintln ("Error: " ++ e.message)
    | .ok _ => IO.eprintln "Error: Failed to create Kubernetes client: no cluster is configured"
  return launch.exitCode.toUInt32
