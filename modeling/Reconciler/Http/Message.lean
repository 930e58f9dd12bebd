import Reconciler.Http.Address
import Reconciler.Json.Basic

/-!
# Requests and answers

What goes to the API server and what comes back. A body is text that ends in one of three ways, so
the same answer serves those who want the whole text and those who want line after line.
-/

namespace Reconciler.Http

/-- What a request is to do. -/
inductive Method where
  | get
  | post
  | put
  | patch
  | delete
  deriving DecidableEq, Repr

/-- The method as it is written. -/
def Method.name : Method → String
  | get => "GET"
  | post => "POST"
  | put => "PUT"
  | patch => "PATCH"
  | delete => "DELETE"

/-- A request. -/
structure Request where
  method : Method
  address : Address
  /-- The type of the body, and the body. -/
  content : Option (String × Json) := none
  deriving Repr

/-- How a body ends. -/
inductive Ending where
  /-- It is complete. -/
  | closed
  /-- Nothing more comes, and no end. -/
  | silent
  /-- The connection breaks. -/
  | broken
  deriving DecidableEq, Repr

/-- The body of an answer. -/
structure Body where
  text : String
  ending : Ending := .closed
  deriving DecidableEq, Repr

/-- What comes back for a request. -/
inductive Reply where
  /-- No answer. -/
  | failed
  | answered (status : Nat) (body : Body)
  deriving DecidableEq, Repr

/-- A line without the carriage return that ends it. -/
def trimReturn (line : List Char) : List Char :=
  match line.reverse with
  | '\r' :: rest => rest.reverse
  | _ => line

/-- The lines of a body: those that are ended, and the rest if the body is complete and the rest is
not empty. -/
def Body.lines (b : Body) : List String :=
  let parts := Address.splitAt '\n' b.text.toList
  let rest := parts.getLastD []
  let kept := if b.ending = .closed && !(trimReturn rest).isEmpty then [rest] else []
  (parts.dropLast ++ kept).map fun line => String.ofList (trimReturn line)

/-! ## Status codes -/

/-- The phrases of status codes that stand for errors. -/
def phrases : List (Nat × String) := [
  (400, "Bad Request"), (401, "Unauthorized"), (402, "Payment Required"), (403, "Forbidden"),
  (404, "Not Found"), (405, "Method Not Allowed"), (406, "Not Acceptable"),
  (407, "Proxy Authentication Required"), (408, "Request Timeout"), (409, "Conflict"),
  (410, "Gone"), (411, "Length Required"), (412, "Precondition Failed"),
  (413, "Payload Too Large"), (414, "URI Too Long"), (415, "Unsupported Media Type"),
  (416, "Range Not Satisfiable"), (417, "Expectation Failed"), (418, "I'm a teapot"),
  (421, "Misdirected Request"), (422, "Unprocessable Entity"), (423, "Locked"),
  (424, "Failed Dependency"), (425, "Too Early"), (426, "Upgrade Required"),
  (428, "Precondition Required"), (429, "Too Many Requests"),
  (431, "Request Header Fields Too Large"), (451, "Unavailable For Legal Reasons"),
  (500, "Internal Server Error"), (501, "Not Implemented"), (502, "Bad Gateway"),
  (503, "Service Unavailable"), (504, "Gateway Timeout"), (505, "HTTP Version Not Supported"),
  (506, "Variant Also Negotiates"), (507, "Insufficient Storage"), (508, "Loop Detected"),
  (510, "Not Extended"), (511, "Network Authentication Required")]

/-- A status code with its phrase. -/
def statusText (status : Nat) : String :=
  toString status ++ " " ++
    ((phrases.find? (·.1 == status)).map (·.2)).getD "<unknown status code>"

/-- The status code says that the request failed. -/
def isErrorStatus (status : Nat) : Bool := 400 ≤ status && status < 600

end Reconciler.Http
