import Reconciler.Host.Operator
import Reconciler.Simulation.Log
import Reconciler.Simulation.Script

/-!
# Scripted backends

A stage is the outside of a simulated operator: for every registered type a client with a store, a
controller and finalizers that do what their scripts say, and a lease that is won and lost by
script. Every call leaves an item in the log. Clients answer at once; controllers, finalizers and
the lease take as long as their scripts say.
-/

namespace Reconciler.Simulation

open Host (Connection Opening Reply)

/-- What becomes of asking for a connection. -/
inductive Dialing where
  /-- It never opens. -/
  | hang
  | refuse (error : Error)
  | accept (connection : Connection Widget)

/-- What a controller or a finalizer does in one call. -/
structure Work where
  /-- How long it works. -/
  work : Nat := 0
  /-- After that, the delay with which it has its entity queued again. -/
  handle : Option Nat := none
  error : Option Error := none
  /-- The delay it asks for if it succeeds. -/
  requeue : Option Nat := none
  deriving Repr, Inhabited

/-- What comes of an attempt to get the lease. -/
structure Attempt where
  /-- The attempt never ends. -/
  hangs : Bool := false
  delay : Nat := 0
  outcome : Except Error Bool := .ok false

/-- What comes of a release. -/
structure Release where
  delay : Nat := 0
  outcome : Except Error Unit := .ok ()

/-- A client and what it stores. -/
structure Client where
  kind : String := "Widget"
  /-- The stored entities by the names that messages give them. -/
  store : List (String × Widget) := []
  failGet : Script (Option Error) := {}
  failUpdate : Script (Option Error) := {}
  /-- How often each entity was updated. -/
  updates : List (String × Nat) := []
  connections : List Dialing := []

namespace Client

/-- Store an entity in the place of one of the same name. -/
def put (c : Client) (w : Widget) : Client :=
  { c with store := (Entity.ref w, w) :: c.store.filter (·.1 != Entity.ref w) }

/-- Remove an entity by name. -/
def remove (c : Client) (ref : String) : Client :=
  { c with store := c.store.filter (·.1 != ref) }

/-- The stored entity of a name. -/
def get? (c : Client) (ref : String) : Option Widget := (c.store.find? (·.1 == ref)).map (·.2)

/-- Store an entity under its next version. -/
def update (c : Client) (w : Widget) : Client × Widget :=
  let ref := Entity.ref w
  let count := ((c.updates.find? (·.1 == ref)).map (·.2)).getD 0 + 1
  let w := Entity.withMetadata w
    { Entity.metadata w with resourceVersion := some ("u" ++ toString count) }
  ({ c.put w with updates := (ref, count) :: c.updates.filter (·.1 != ref) }, w)

end Client

/-- Everything outside for one type of entity. -/
structure Actor where
  client : Client := {}
  reconcile : Script (Option Work) := {}
  deleted : Script (Option Work) := {}
  /-- The finalizers in the order of registration. -/
  finalizers : List (String × Script (Option Work)) := []

/-- What a simulated operator asks. -/
inductive Question where
  /-- A call for the type at a place in the order of registration. -/
  | entity (place : Nat) (call : Dispatch.Call Widget)
  | attempt
  | release
  /-- An entry reaches a reader that does nothing else with it. -/
  | deliver (entry : Queue.Entry Widget)

/-- The answers to a question. -/
def Question.Answer : Question → Type
  | entity _ call => call.Answer
  | attempt => Except Error Bool
  | release => Except Error Unit
  | deliver _ => Unit

/-- The outside of a simulated operator. -/
structure Stage where
  actors : List Actor := []
  attempts : List Attempt := []
  releases : List Release := []
  /-- How long a reader is busy with an entry. -/
  busy : Nat := 0
  /-- What happened since the log was last taken, the latest first. -/
  log : List LogItem := []

namespace Stage

/-- Leave an item in the log. -/
def note (s : Stage) (item : LogItem) : Stage := { s with log := item :: s.log }

/-- The log as it is shown, and the stage without it. -/
def takeLog (s : Stage) : List LogItem × Stage :=
  (LogItem.sorted s.log.reverse, { s with log := [] })

/-- The outside of a type. -/
def actor (s : Stage) (place : Nat) : Actor := s.actors.getD place {}

/-- Change the outside of a type. -/
def setActor (s : Stage) (place : Nat) (a : Actor) : Stage :=
  { s with actors := s.actors.set place a }

/-- Change the client of a type. -/
def mapClient (s : Stage) (place : Nat) (f : Client → Client) : Stage :=
  let a := s.actor place
  s.setActor place { a with client := f a.client }

/-- An item about an entity of a type. -/
def item (t : Nat) (what : String) (a : Actor) (w : Widget) (detail : List (String × Json)) :
    LogItem :=
  { t, what, kind := some a.client.kind, entity := LogItem.named? (Entity.ref w), detail }

/-- A piece of work: when it is over, what it leaves in the log, and what it queues. -/
def reply {α : Type} (now : Nat) (a : Actor) (w : Widget) (work : Work) (logs : Bool) (value : α) :
    Reply Widget Stage α where
  ready := some (now + work.work)
  finish t s := if logs && 0 < work.work then s.note (item t "done" a w []) else s
  commands := (work.handle.bind fun delay => Queue.Command.schedule? w delay .requeue).toList
  value

/-- What a controller's reconcile answers. -/
def action (work : Work) : Except Error Action :=
  match work.error with
  | some e => .error e
  | none => .ok ⟨work.requeue.map .ofMillis⟩

/-- What any other piece of work answers. -/
def unit (work : Work) : Except Error Unit :=
  match work.error with
  | some e => .error e
  | none => .ok ()

/-- A call of the client, the controller or a finalizer of a type. -/
def entityCall (now place : Nat) (s : Stage) :
    (call : Dispatch.Call Widget) → Stage × Reply Widget Stage call.Answer
  | .get name ns =>
    let a := s.actor place
    let ref := Metadata.ref { name := some name, ns := ns }
    let s := s.note {
      t := now, what := "get", kind := some a.client.kind, entity := LogItem.named? ref }
    let (failure, failGet) := a.client.failGet.next ref
    let s := s.setActor place { a with client := { a.client with failGet } }
    let value : Except Error (Option Widget) := match failure.join with
      | some e => .error e
      | none => .ok (a.client.get? ref)
    (s, { ready := some now, value })
  | .update w =>
    let a := s.actor place
    let s := s.note (item now "update" a w [("sees", sees w)])
    let (failure, failUpdate) := a.client.failUpdate.next (Entity.ref w)
    let client := { a.client with failUpdate }
    let (client, value) : Client × Except Error Widget := match failure.join with
      | some e => (client, .error e)
      | none =>
        let (client, w) := client.update w
        (client, .ok w)
    (s.setActor place { a with client }, { ready := some now, value })
  | .reconcile w =>
    let a := s.actor place
    let s := s.note (item now "reconcile" a w [("sees", sees w)])
    let (work, reconcile) := a.reconcile.next (Entity.ref w)
    let work := work.join.getD {}
    (s.setActor place { a with reconcile }, reply now a w work true (action work))
  | .deleted w =>
    let a := s.actor place
    let s := s.note (item now "deleted" a w [("sees", sees w)])
    let (work, deleted) := a.deleted.next (Entity.ref w)
    let work := work.join.getD {}
    (s.setActor place { a with deleted }, reply now a w work true (unit work))
  | .finalize slot id w =>
    let a := s.actor place
    let s := s.note (item now "finalize" a w [("id", .str id), ("sees", sees w)])
    let (name, script) := a.finalizers.getD slot (id, {})
    let (work, script) := script.next (Entity.ref w)
    let work := work.join.getD {}
    (s.setActor place { a with finalizers := a.finalizers.set slot (name, script) },
      reply now a w work false (unit work))

/-- An attempt to get the lease. -/
def attempt (now : Nat) (s : Stage) : Stage × Reply Widget Stage (Except Error Bool) :=
  let s := s.note { t := now, what := "attempt" }
  let a := s.attempts.headD {}
  let ready := if a.hangs then none else some (now + a.delay)
  ({ s with attempts := s.attempts.tail }, { ready, value := a.outcome })

/-- A release of the lease. -/
def release (now : Nat) (s : Stage) : Stage × Reply Widget Stage (Except Error Unit) :=
  let s := s.note { t := now, what := "release" }
  let r := s.releases.headD {}
  ({ s with releases := s.releases.tail },
    { ready := some (now + r.delay), value := r.outcome })

/-- An entry reaches a reader. -/
def deliver (now : Nat) (s : Stage) (entry : Queue.Entry Widget) :
    Stage × Reply Widget Stage Unit :=
  let detail := [("trigger", Json.str entry.trigger.name), ("sees", sees entry.entity)]
  let entity := LogItem.named? (Entity.ref entry.entity)
  (s.note { t := now, what := "deliver", entity, detail },
    { ready := some (now + s.busy), value := () })

/-- Any question. -/
def call (now : Nat) : (q : Question) → Stage → Stage × Reply Widget Stage q.Answer
  | .entity place call, s => s.entityCall now place call
  | .attempt, s => s.attempt now
  | .release, s => s.release now
  | .deliver entry, s => s.deliver now entry

/-- Text or nothing. -/
def orNull : Option String → Json
  | some s => .str s
  | none => .null

/-- A connection is asked for. -/
def watch (now place : Nat) (request : Watch.Request) (s : Stage) : Stage × Opening Widget :=
  let a := s.actor place
  let s := s.note {
    t := now
    what := "watch"
    kind := some a.client.kind
    detail := [
      ("namespace", orNull request.ns), ("rv", .str request.version),
      ("timeout_secs", .int request.timeoutSecs),
      ("label_selector", orNull request.labelSelector)] }
  let dialing := a.client.connections.headD (.accept {})
  let s := s.setActor place
    { a with client := { a.client with connections := a.client.connections.tail } }
  (s, match dialing with
    | .hang => { ready := none, outcome := .ok {} }
    | .refuse e => { ready := some now, outcome := .error e }
    | .accept connection => { ready := some now, outcome := .ok connection })

/-- The stage as a backend. -/
def backend : Host.Backend Widget Question Question.Answer Stage where
  call := call
  watch := watch

end Stage

end Reconciler.Simulation
