import Reconciler.Http.Message
import Reconciler.Plan
import Reconciler.Watch.Event
import Reconciler.Watch.Watcher

/-!
# The API of one type of object

Reading and writing objects of a type at an address: each operation is a plan of at most one
request. A request is checked before it is sent, an answer that is an error becomes the server's
account of it, and any other is read as what was asked for.
-/

namespace Reconciler.Http

/-- What plans over the API ask. -/
inductive Question where
  /-- Send a request. -/
  | send (request : Request)
  /-- The time of day. -/
  | clock

/-- The answers. -/
def Question.Answer : Question → Type
  | send _ => Reply
  | clock => Timestamp

/-- A plan over the API. -/
abbrev Exchange (α : Type) : Type := Plan Question Question.Answer α

/-- An operation that may fail. -/
abbrev Operation (α : Type) : Type := Exchange (Except ClientFault α)

namespace Api

/-! ## Answers -/

/-- The error that an answer stands for: the one it tells, else its status and its text. -/
def errorOf (status : Nat) (text : String) : ApiStatus :=
  match ApiStatus.reader.run? text with
  | some told => told
  | none => {
      status := statusText status
      message := Text.quoted text
      reason := "Failed to parse error data"
      code := status }

/-- The text of an answer, unless it is an error. -/
def textOf : Reply → Except ClientFault String
  | .failed => .error .unreachable
  | .answered status body =>
    if body.ending = .broken then .error .unreachable
    else if isErrorStatus status then .error (.api (errorOf status body.text))
    else .ok body.text

/-- What an answer is read as. -/
def readAs (reader : Json.Reader α) (reply : Reply) : Except ClientFault α :=
  match textOf reply with
  | .error fault => .error fault
  | .ok text =>
    match reader.run? text with
    | some a => .ok a
    | none => .error .undecodable

/-- Reads the bookkeeping of a list. -/
def listMetadata : Json.Reader Unit :=
  (Json.Record.lenient [
    .checked "continue" .optional Json.Reader.str.nullable,
    .checked "remainingItemCount" .optional Json.Reader.int64.nullable,
    .checked "resourceVersion" .optional Json.Reader.str.nullable,
    .checked "selfLink" .optional Json.Reader.str.nullable]).reader ()

/-- Reads the items of a list of objects. There must be items, of which `null` are none; what else
the list has must read as a value. -/
def listReader (reader : Json.Reader α) : Json.Reader (List α) :=
  (Json.Record.keeping [
    .checked "metadata" .optional listMetadata,
    .required "items" reader.list.nullable fun _ items => items.getD []]
    fun _ items => Json.Reader.raw.map fun _ => items).reader []

/-- Reads a cause in the server's account of an operation. -/
def causeReader : Json.Reader Unit :=
  (Json.Record.strict [
    .checked "reason" .optional Json.Reader.str,
    .checked "message" .optional Json.Reader.str,
    .checked "field" .optional Json.Reader.str]).reader ()

/-- Reads the details in the server's account of an operation. -/
def detailsReader : Json.Reader Unit :=
  (Json.Record.strict [
    .checked "name" .optional Json.Reader.str,
    .checked "group" .optional Json.Reader.str,
    .checked "kind" .optional Json.Reader.str,
    .checked "uid" .optional Json.Reader.str,
    .checked "causes" .optional causeReader.list,
    .checked "retryAfterSeconds" .optional Json.Reader.nat32]).reader ()

/-- Reads how an operation went, in the server's account of it. -/
def summaryReader : Json.Reader Unit :=
  .named fun name => if name = "Success" ∨ name = "Failure" then some () else none

/-- Reads the server's account of an operation that it carried out. -/
def accountReader : Json.Reader Unit :=
  (Json.Record.strict [
    .checked "status" .optional summaryReader.nullable,
    .checked "code" .optional Json.Reader.nat16,
    .checked "message" .optional Json.Reader.str,
    .checked "reason" .optional Json.Reader.str,
    .checked "details" .optional detailsReader.nullable]).reader ()

/-- The text is a value that says it is the server's account of an operation, if it is a value. -/
def tellsAccount? (text : String) : Option Bool :=
  (Json.Reader.tree.run? text).map fun j => j.field "kind" matches .str "Status"

/-- What the answer to a deletion comes to: the server's account of it, or the object. -/
def readDeletion (reader : Json.Reader α) (reply : Reply) : Except ClientFault Unit :=
  match textOf reply with
  | .error fault => .error fault
  | .ok text =>
    let answer :=
      match tellsAccount? text with
      | some true => accountReader.run? text
      | some false => (reader.run? text).map fun _ => ()
      | none => none
    match answer with
    | some () => .ok ()
    | none => .error .undecodable

/-! ## Requests -/

/-- A name that goes into an address is not empty. -/
def checkName (name : String) : Except ClientFault Unit :=
  if name.isEmpty then .error (.invalidRequest .emptyName) else .ok ()

/-- The greatest length of a field manager in bytes. -/
def managerLimit : Nat := 128

/-- A field manager is not too long. -/
def checkManager (manager : Option String) (fault : RequestFault) : Except ClientFault Unit :=
  if (manager.getD "").utf8ByteSize > managerLimit then .error (.invalidRequest fault) else .ok ()

/-- The request at an address, if that is one. -/
def requestAt (method : Method) (address : Option Address) (content : Option (String × Json)) :
    Except ClientFault Request :=
  match address with
  | some address => .ok { method, address, content }
  | none => .error .invalidPath

/-- The request with a query, however empty: the path ends with the mark of one. -/
def request (method : Method) (path : String) (query : List (String × String))
    (content : Option (String × Json) := none) : Except ClientFault Request :=
  requestAt method (Address.ofText? (path ++ "?") query) content

/-- Send a request that passed its checks, and read the answer. -/
def exchange {α : Type} (request : Except ClientFault Request)
    (read : Reply → Except ClientFault α) : Operation α :=
  match request with
  | .error fault => .done (.error fault)
  | .ok request => .ask (.send request) fun reply => .done (read reply)

/-- The value of a named value, if there is one. -/
def given (name : String) (value : Option String) : List (String × String) :=
  (value.map (name, ·)).toList

/-- The query of a write. -/
def byManager (manager : Option String) : List (String × String) := given "fieldManager" manager

/-- The address of a named object among those at an address. -/
def named (root name : String) : String := root ++ "/" ++ name

/-! ## Operations

All of them take the address of the objects of a type, and how such an object is read. -/

variable {α : Type}

/-- Read an object. -/
def get (root : String) (reader : Json.Reader α) (name : String) : Operation α :=
  exchange (do checkName name; requestAt .get (Address.ofText? (named root name)) none)
    (readAs reader)

/-- What is there, where the server may say that nothing is. -/
def orMissing : Except ClientFault α → Except ClientFault (Option α)
  | .ok a => .ok (some a)
  | .error (.api s) => if s.reason = "NotFound" then .ok none else .error (.api s)
  | .error fault => .error fault

/-- Read an object that may be missing. -/
def get? (root : String) (reader : Json.Reader α) (name : String) : Operation (Option α) :=
  (get root reader name).map orMissing

/-- Read all objects, or those that a selector of labels selects. -/
def list (root : String) (reader : Json.Reader α) (selector : Option String := none) :
    Operation (List α) :=
  exchange (request .get root (given "labelSelector" selector)) (readAs (listReader reader))

/-- Create an object. -/
def create (root : String) (reader : Json.Reader α) (manager : Option String) (object : Json) :
    Operation α :=
  exchange (do
    checkManager manager .writeManager
    request .post root (byManager manager) (some ("application/json", object))) (readAs reader)

/-- Replace an object. -/
def replace (root : String) (reader : Json.Reader α) (manager : Option String) (name : String)
    (object : Json) : Operation α :=
  exchange (do
    checkName name
    request .put (named root name) (byManager manager) (some ("application/json", object)))
    (readAs reader)

/-- Change fields of an object, or of its status. -/
def merge (root : String) (reader : Json.Reader α) (manager : Option String) (name : String)
    (part : String) (change : Json) : Operation α :=
  exchange (do
    checkName name
    checkManager manager .patchManager
    request .patch (named root name ++ part) (byManager manager)
      (some ("application/merge-patch+json", change))) (readAs reader)

/-- Make an object what it is to be, taking over fields that others manage. -/
def apply (root : String) (reader : Json.Reader α) (manager : String) (name : String)
    (object : Json) : Operation α :=
  exchange (do
    checkName name
    checkManager (some manager) .patchManager
    request .patch (named root name) [("fieldManager", manager), ("force", "true")]
      (some ("application/apply-patch+yaml", object))) (readAs reader)

/-- Delete an object. -/
def delete (root : String) (reader : Json.Reader α) (name : String) : Operation Unit :=
  exchange (do
    checkName name
    request .delete (named root name) [] (some ("application/json", .obj [])))
    (readDeletion reader)

/-! ## Watching -/

/-- The number of seconds from which a watch lasts too long. -/
def watchLimit : Nat := 295

/-- The request for a watch of the objects at an address. -/
def watchRequest (root : String) (w : Watch.Request) : Except ClientFault Request :=
  if watchLimit ≤ w.timeoutSecs then .error (.invalidRequest .watchTimeout)
  else
    request .get root ([("watch", "true"), ("timeoutSeconds", toString w.timeoutSecs)] ++
      given "labelSelector" w.labelSelector ++
      [("allowWatchBookmarks", "true"), ("resourceVersion", w.version)])

/-- What a watch brings: an item for every line, and the failure that ends a broken body. -/
def watchItems {K : Type} [Entity K] (body : Body) : List (Except Error (Watch.Event K)) :=
  body.lines.filterMap Watch.itemOfLine? ++
    if body.ending = .broken then [.error (.client .brokenBody)] else []

end Api

end Reconciler.Http
