import Reconciler.CommandLine.Arguments
import Reconciler.Logging.Basic
import Reconciler.Mirror.Definition

/-!
# Launching the program

What a command line comes to: a refusal, a text to print, or an operator that is about to look for
its cluster. Logging is set up before the settings are checked, so unusable settings leave the first
line of the log behind.
-/

namespace Reconciler.CommandLine

/-- What the program does. -/
inductive Launch where
  /-- The command line is refused. -/
  | refused (fault : UsageFault)
  /-- Help is printed. -/
  | help
  /-- The version is printed. -/
  | version
  /-- The definition of the type is printed. -/
  | definition
  /-- An operator starts, or fails to. -/
  | started (options : Options) (log : Logging.Log) (settings : Except Error Settings)

namespace Launch

/-- The program's name and version. -/
def versionText : String := "kubeops 0.1.0"

/-- The lines of help about one option. -/
def helpLines (environment : String → Option String) (key : Key) : List String :=
  let value := if key.form = .switch then ""
    else " <" ++ (key.long.map fun c => if c = '-' then '_' else c.toUpper) ++ ">"
  let source := match key.variableName? with
    | some name => " [env: " ++ name ++ "=" ++ (environment name).getD "" ++ "]"
    | none => ""
  let default := match key.shownDefault? with
    | some text => " [default: " ++ text ++ "]"
    | none => ""
  ["      --" ++ key.long ++ value, "          " ++ key.help ++ source ++ default]

/-- The text of help. -/
def helpText (environment : String → Option String) : String :=
  "\n".intercalate (
    ["Leader-aware watch-and-reconcile runtime for Kubernetes operators", "",
      "Usage: kubeops [OPTIONS]", "", "Options:"] ++
    Key.all.flatMap (helpLines environment) ++
    ["  -h, --help", "          Print help", "  -V, --version", "          Print version"])

/-- What logging is set up with. -/
def logging (o : Options) (environment : String → Option String) : Logging.Config where
  service := o.name
  format := if o.plainLogs then .plain else .json
  filter := .choose (environment "RUST_LOG")

/-- What a command line comes to in an environment, for a replica of some identity. -/
def ofArguments (arguments : List String) (environment : String → Option String)
    (identity : String) : Launch :=
  match Options.ofArguments arguments environment with
  | .error (.refused fault) => .refused fault
  | .error .help => .help
  | .error .version => .version
  | .ok o =>
    if o.definition then .definition
    else
      let settings := o.settings identity
      match ({} : Logging.Log).install (logging o environment) with
      | .ok log => .started o log (settings.validate.map fun _ => settings)
      | .error fault => .started o {} (.error (.internal "logging" fault.message))

/-- The exit code of a program that gets no further. -/
def exitCode : Launch → Nat
  | refused _ => 2
  | help => 0
  | version => 0
  | definition => 0
  | started .. => 1

end Launch

end Reconciler.CommandLine
