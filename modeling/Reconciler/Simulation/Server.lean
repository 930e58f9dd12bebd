import Reconciler.Host.Backend
import Reconciler.Http.EntityClient
import Reconciler.Json.Printer
import Reconciler.Simulation.Log

/-!
# Scripted servers

A server gives the answers of a script, in order or by the route of a request, and leaves every
request in the log. Every request lets the other parts have their turn before its answer is looked
at. The time of day stands still, so an instant that a request bears shows in the log as so long
ago.
-/

namespace Reconciler.Simulation

open Host (Connection Opening)

/-- An answer and how long it takes. -/
structure Serving where
  delay : Nat := 0
  reply : Http.Reply

/-- Where a server's answers come from. -/
inductive Servings where
  /-- One after the other. -/
  | sequence (servings : List Serving)
  /-- By method and path; the last of a route is given again and again. -/
  | routes (routes : List (String × List Serving))

/-- A server, with the requests since the log was last taken, the latest first. -/
structure Server where
  servings : Servings
  /-- The time of day. -/
  clock : Timestamp
  log : List LogItem := []

namespace Server

/-- The time of day of simulations. -/
def noon : Timestamp := { secs := 1_767_268_800 }

/-! ## What requests show -/

/-- How long ago an instant was, in whole seconds. -/
def age (clock : Timestamp) (text : String) : Json :=
  match Timestamp.parse? text with
  | some t => .str ("@now-" ++ toString (t.secsUntil clock))
  | none => .str text

/-- The present, or an instant as it is written. -/
def presence (clock : Timestamp) (text : String) : Json :=
  if text = clock.toMicros then .str "@now" else .str text

/-- An object in which the texts of some fields show otherwise. -/
def showFields (names : List String) (shown : String → Json) : Json → Json
  | .obj fields => .obj (fields.map fun (k, v) =>
      match v with
      | .str s => if names.contains k then (k, shown s) else (k, v)
      | _ => (k, v))
  | j => j

/-- A body as the log shows it: the instants in its spec relative to the time of day. -/
def showBody (method : Http.Method) (clock : Timestamp) (body : Json) : Json :=
  let shown := if method = .patch then age clock else presence clock
  match body with
  | .obj fields => .obj (fields.map fun (k, v) =>
      if k = "spec" then (k, showFields ["renewTime", "acquireTime"] shown v) else (k, v))
  | j => j

/-- The item of a request. -/
def item (t : Nat) (clock : Timestamp) (r : Http.Request) : LogItem where
  t
  what := "request"
  detail := [
    ("method", .str r.method.name),
    ("path", .str r.address.path),
    ("query", .arr (r.address.query.map fun (k, v) => .arr [.str k, .str v])),
    ("content_type", (r.content.map fun (type, _) => Json.str type).getD .null),
    ("body", (r.content.map fun (_, body) => showBody r.method clock body).getD .null)]

/-! ## Answers -/

/-- The answer where there is no route. -/
def noRoute (method path : String) : Http.Reply :=
  let status : Json := .ofFields [
    ("kind", .str "Status"), ("status", .str "Failure"), ("reason", .str "NotFound"),
    ("message", .str ("no route " ++ method ++ " " ++ path)), ("code", .int 404)]
  .answered 404 ⟨status.render, .closed⟩

/-- A connection on which nothing ever comes. -/
def silence : Http.Reply := .answered 200 ⟨"", .silent⟩

/-- The next answer of a route, the last one of which stays unless it is used up. -/
def takeRoute (route : String) (usesUp : Bool) :
    List (String × List Serving) → Option (Serving × List (String × List Serving))
  | [] => none
  | (key, servings) :: rest =>
    if key = route then
      match servings with
      | [] => none
      | [last] => some (last, (key, if usesUp then [] else [last]) :: rest)
      | next :: later => some (next, (key, later) :: rest)
    else (takeRoute route usesUp rest).map fun (serving, rest) => (serving, (key, servings) :: rest)

/-- The next answer for a method, which is not always that of the request, and a path. -/
def next (s : Server) (method path : String) (usesUp : Bool) (missing : Http.Reply) :
    Serving × Server :=
  match s.servings with
  | .sequence [] => ({ reply := missing }, s)
  | .sequence (serving :: rest) => (serving, { s with servings := .sequence rest })
  | .routes routes =>
    match takeRoute (method ++ " " ++ path) usesUp routes with
    | some (serving, routes) => (serving, { s with servings := .routes routes })
    | none => ({ reply := missing }, s)

/-- A request other than for a watch. -/
def serve (s : Server) (now : Nat) (r : Http.Request) : Serving × Server :=
  let s := { s with log := item now s.clock r :: s.log }
  s.next r.method.name r.address.path false (noRoute r.method.name r.address.path)

/-- A request for a watch, which is silent where there is no answer. -/
def serveWatch (s : Server) (now : Nat) (r : Http.Request) : Serving × Server :=
  let s := { s with log := item now s.clock r :: s.log }
  s.next "WATCH" r.address.path true silence

/-- The log as it is shown, and the server without it. -/
def takeLog (s : Server) : List LogItem × Server :=
  (LogItem.sorted s.log.reverse, { s with log := [] })

/-- The instant of an answer to those who want the whole body. -/
def ready (now : Nat) (serving : Serving) : Option Nat :=
  match serving.reply with
  | .answered _ ⟨_, .silent⟩ => none
  | _ => some (now + serving.delay)

/-- The connection that an answer opens for those who want line after line. -/
def connection {K : Type} [Entity K] : Http.Reply → Except Error (Connection K)
  | .failed => .error (.client .unreachable)
  | .answered _ body =>
    .ok { items := Http.Api.watchItems body, ended := body.ending ≠ .silent }

/-- A watch of the entities of a client. -/
def watch {K : Type} [Entity K] (c : Http.EntityClient) (now : Nat) (w : Watch.Request)
    (s : Server) : Server × Opening K :=
  match c.watchRequest w with
  | .error e => (s, { ready := some now, outcome := .error e })
  | .ok r =>
    let (serving, s) := s.serveWatch now r
    (s, {
      ready := some (now + serving.delay)
      yields := true
      outcome := connection serving.reply })

/-- A question of a plan over the API. -/
def call {K : Type} (now : Nat) :
    (q : Http.Question) → Server → Server × Host.Reply K Server q.Answer
  | .clock, s => (s, { ready := some now, value := s.clock })
  | .send r, s =>
    let (serving, s) := s.serve now r
    (s, { ready := ready now serving, yields := true, value := serving.reply })

/-- The server as a backend for the entities of a client. -/
def backend {K : Type} [Entity K] (c : Http.EntityClient) :
    Host.Backend K Http.Question Http.Question.Answer Server where
  call := call
  watch now _ w s := watch c now w s

end Server

/-! ## One plan after the other -/

/-- A server and a clock. -/
structure ServerBench where
  now : Nat := 0
  server : Server

namespace ServerBench

/-- Run a plan to its end, moving the clock with it. -/
def run {α : Type} (b : ServerBench) : Http.Exchange α → ServerBench × α
  | .done a => (b, a)
  | .ask .clock next => run b (next b.server.clock)
  | .ask (.send r) next =>
    let (serving, server) := b.server.serve b.now r
    run ⟨b.now + serving.delay, server⟩ (next serving.reply)

/-- Run a plan with the given answers: its result, and the requests. -/
def step {α : Type} (b : ServerBench) (servings : List Serving) (plan : Http.Exchange α) :
    ServerBench × α × List LogItem :=
  let (b, a) := { b with server := { b.server with servings := .sequence servings } }.run plan
  let (log, server) := b.server.takeLog
  ({ b with server }, a, log)

/-- How long an open connection is listened to after the last thing that it brought. -/
def listening : Nat := 1000

/-- Open a watch with the given answers: the connection, and the requests. -/
def watch {K : Type} [Entity K] (b : ServerBench) (servings : List Serving) (c : Http.EntityClient)
    (w : Watch.Request) : ServerBench × Except Error (Connection K) × List LogItem :=
  let server := { b.server with servings := .sequence servings }
  let (server, opening) := Server.watch c b.now w server
  let (log, server) := server.takeLog
  let opened := opening.ready.getD b.now
  let now := match opening.outcome with
    | .ok ⟨_, false⟩ => opened + listening
    | _ => opened
  ({ now, server }, opening.outcome, log)

end ServerBench

end Reconciler.Simulation
