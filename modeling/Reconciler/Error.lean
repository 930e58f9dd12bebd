import Reconciler.Text.Quoted

/-!
# What can go wrong

One type for every failure of the runtime. An error carries the entity or the component that it
concerns, so that its one-line message is enough to find the failing watch, reconcile or lease
operation. `ClientFault` is the part that comes from talking to the API server.
-/

namespace Reconciler

/-- The API server's own account of why it refused a request. -/
structure ApiStatus where
  status : String
  message : String
  reason : String
  code : Nat
  deriving DecidableEq, Repr, Inhabited

/-- Why a request was refused before it was sent. -/
inductive RequestFault where
  /-- The object's name is empty. -/
  | emptyName
  /-- The watch would outlast what the server allows. -/
  | watchTimeout
  /-- The field manager of a create or replace is too long. -/
  | writeManager
  /-- The field manager of a patch is too long. -/
  | patchManager
  deriving DecidableEq, Repr

/-- A failure of the exchange with the API server. -/
inductive ClientFault where
  /-- The server answered with an error. -/
  | api (status : ApiStatus)
  /-- The request did not pass the client's own checks. -/
  | invalidRequest (fault : RequestFault)
  /-- The request's path is no path. -/
  | invalidPath
  /-- An object could not be written, or an answer could not be read. -/
  | undecodable
  /-- There was no answer. -/
  | unreachable
  /-- The body of a watch broke off. -/
  | brokenBody
  /-- A line of a watch was too long to be read. -/
  | lineTooLong
  deriving DecidableEq, Repr

/-- Any failure of the runtime. -/
inductive Error where
  /-- The API server rejected a request or could not be reached. -/
  | client (fault : ClientFault)
  /-- The watch of a kind failed. -/
  | watch (kind message : String)
  /-- An object, of a kind if that is known, could not be encoded. -/
  | encoding (kind : Option String) (message : String)
  /-- A controller's callback failed. -/
  | reconcile (entity message : String)
  /-- A finalizer failed to run. -/
  | finalizer (finalizer entity message : String)
  /-- The lease protocol failed. -/
  | leaderElection (lease message : String)
  /-- The settings are not usable. -/
  | configuration (message : String)
  /-- An invariant of a component was broken. -/
  | internal (component message : String)
  deriving DecidableEq, Repr

/-! ## Messages -/

/-- One line: what the server said and why, then its whole answer. -/
def ApiStatus.text (s : ApiStatus) : String :=
  s.message ++ ": " ++ s.reason ++ " (ErrorResponse \x7b status: " ++ Text.quoted s.status ++
    ", message: " ++ Text.quoted s.message ++ ", reason: " ++ Text.quoted s.reason ++
    ", code: " ++ toString s.code ++ " \x7d)"

/-- What the client requires of a request. -/
def RequestFault.text : RequestFault → String
  | .emptyName => "A non-empty name is required"
  | .watchTimeout => "WatchParams::timeout must be < 295s"
  | .writeManager => "Failed to validate PostParams::field_manager!"
  | .patchManager => "Failed to validate PatchParams::field_manager!"

/-- The message of a failed exchange. -/
def ClientFault.text : ClientFault → String
  | .api s => "ApiError: " ++ s.text
  | .invalidRequest f => "Failed to build request: failed to validate request: " ++ f.text
  | .invalidPath => "Failed to build request"
  | .undecodable => "Error deserializing response"
  | .unreachable => "ServiceError"
  | .brokenBody => "Error reading events stream"
  | .lineTooLong => "Error reading events stream: max line length exceeded"

namespace Error

/-- The component recorded when none is given. -/
def unknownComponent : String := "unknown"

/-- The error in one line. -/
def message : Error → String
  | client f => "kubernetes api: " ++ f.text
  | watch kind m => "watch error [" ++ kind ++ "]: " ++ m
  | encoding _ m => "encoding failed: " ++ m
  | reconcile entity m => "reconcile error for " ++ entity ++ ": " ++ m
  | finalizer id entity m => "finalizer " ++ id ++ " failed for " ++ entity ++ ": " ++ m
  | leaderElection lease m => "leader election error [" ++ lease ++ "]: " ++ m
  | configuration m => "configuration error: " ++ m
  | internal component m => "internal error in " ++ component ++ ": " ++ m

/-- The status code of the server's answer, if the server answered. -/
def apiCode? : Error → Option Nat
  | client (.api s) => some s.code
  | _ => none

/-- The server does not know the object. -/
def isNotFound (e : Error) : Bool := e.apiCode? == some 404

/-- Someone else changed the object first. -/
def isConflict (e : Error) : Bool := e.apiCode? == some 409

end Error

end Reconciler
