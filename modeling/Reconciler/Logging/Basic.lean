import Reconciler.Json.Basic
import Reconciler.Logging.Filter

/-!
# Logging

The log of a process is set up once, with a format and a filter. Setting it up writes its first
line, which names the service, if the filter keeps it; a second time is refused.
-/

namespace Reconciler.Logging

/-- How lines are written. -/
inductive Format where
  /-- One JSON object per line. -/
  | json
  /-- For people to read. -/
  | plain
  deriving DecidableEq, Repr, Inhabited

/-- The format as settings name it. -/
def Format.name : Format → String
  | json => "Json"
  | plain => "Plain"

/-- How logging is set up. -/
structure Config where
  /-- Named by the first line. -/
  service : String := "kubeops"
  format : Format := .json
  filter : Filter := .choose none
  deriving DecidableEq, Repr

instance : Inhabited Config := ⟨{}⟩

/-- A line of the log. -/
structure Line where
  level : Level
  target : String
  message : String
  /-- Named values beside the message. -/
  fields : List (String × String) := []
  deriving DecidableEq, Repr

namespace Line

/-- The names of what the line says. -/
def fieldNames (l : Line) : List String := "message" :: l.fields.map (·.1)

/-- The line as a JSON object, its time apart. -/
def toJson (l : Line) : Json :=
  .ofFields [
    ("level", .str l.level.name),
    ("fields", .ofFields (("message", .str l.message) :: l.fields.map fun (k, v) => (k, .str v))),
    ("target", .str l.target)]

/-- The line for people to read, its time apart. -/
def text (l : Line) : String :=
  let level := String.ofList (List.replicate (5 - l.level.name.length) ' ') ++ l.level.name
  level ++ " " ++ l.target ++ ": " ++ l.message ++
    String.join (l.fields.map fun (k, v) => " " ++ k ++ "=" ++ v)

end Line

/-- Where the line that says that logging is ready comes from. -/
def ownTarget : String := "kubeops_common::telemetry"

/-- The line that says that logging is ready. -/
def readyLine (service : String) : Line :=
  ⟨.info, ownTarget, "logging ready", [("service", service)]⟩

/-- Why logging could not be set up. -/
inductive Fault where
  /-- It is set up already. -/
  | alreadyInstalled (cause : String)
  deriving DecidableEq, Repr

namespace Fault

/-- What went wrong. -/
def summary : Fault → String
  | alreadyInstalled _ => "tracing subscriber already installed: "

/-- Why it did. -/
def cause : Fault → String
  | alreadyInstalled cause => cause

/-- What went wrong and why. -/
def message (f : Fault) : String := f.summary ++ f.cause

end Fault

/-- The log of a process. -/
structure Log where
  /-- How it is set up, if it is. -/
  config : Option Config := none
  lines : List Line := []
  deriving DecidableEq, Repr

namespace Log

/-- Write a line, unless the filter drops it or nothing is set up. -/
def write (l : Log) (line : Line) : Log :=
  if l.config.any fun c => c.filter.keeps line.target line.fieldNames line.level then
    { l with lines := l.lines ++ [line] }
  else l

/-- Set the log up. -/
def install (l : Log) (c : Config) : Except Fault Log :=
  if l.config.isSome then
    .error (.alreadyInstalled "a global default trace dispatcher has already been set")
  else .ok ({ l with config := some c }.write (readyLine c.service))

end Log

end Reconciler.Logging
