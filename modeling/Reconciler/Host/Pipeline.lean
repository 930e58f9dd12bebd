import Reconciler.Host.Clock
import Reconciler.Host.Line
import Reconciler.Leadership.Follower

/-!
# One type of entity at work

A pipeline is a watcher with its connection, possibly gated by a follower, and the line that the
watcher feeds. At one instant the follower comes first, then the watcher with all that its
connection holds, then the consumer of the queue.
-/

namespace Reconciler.Host

open Leadership (Channel Follower)

/-- The watcher's connection. -/
inductive Link (K : Type) where
  | none
  | opening (opening : Opening K)
  | opened (connection : Connection K)

/-- Everything that runs for one type of entity. -/
structure Pipeline (K Q : Type) (A : Q → Type) (E D R : Type) where
  /-- The place of the type in the order of registration. -/
  place : Nat := 0
  watcher : Watcher
  link : Link K := .none
  /-- The watcher runs only while this replica leads. -/
  gated : Bool := false
  follower : Option Follower := none
  line : Line K Q A E D R := {}
  /-- The watcher's publications so far. -/
  publications : Nat := 0

namespace Pipeline

variable {K Q : Type} {A : Q → Type} {E D R : Type}

/-- What a watcher does, done. -/
def perform (b : Backend K Q A E) (now : Nat) (p : Pipeline K Q A E D R) (env : E) :
    Watch.Effect K → Pipeline K Q A E D R × E
  | .publish _ => ({ p with publications := p.publications + 1 }, env)
  | .send command => ({ p with line := p.line.send command }, env)
  | .connect request =>
    let (env, opening) := b.watch now p.place request env
    ({ p with link := .opening opening }, env)

/-- All that a watcher does, in order. -/
def performAll (b : Backend K Q A E) (now : Nat) :
    Pipeline K Q A E D R → E → List (Watch.Effect K) → Pipeline K Q A E D R × E
  | p, env, [] => (p, env)
  | p, env, effect :: rest =>
    let (p, env) := p.perform b now env effect
    performAll b now p env rest

variable [Entity K]

/-- Something happens to the watcher. A connection that it no longer reads is dropped. -/
def tell (b : Backend K Q A E) (now draw : Nat) (p : Pipeline K Q A E D R) (env : E)
    (input : Watch.Input K) : Pipeline K Q A E D R × E :=
  let (watcher, effects) := p.watcher.react now draw input
  let link := if watcher.isConnected then p.link else .none
  performAll b now { p with watcher, link } env effects

/-- Do what the follower orders. -/
def obey (b : Backend K Q A E) (now draw : Nat) :
    Pipeline K Q A E D R → E → List Follower.Order → Pipeline K Q A E D R × E
  | p, env, [] => (p, env)
  | p, env, order :: rest =>
    let (p, env) := match order with
      | .startWatcher => p.tell b now draw env .start
      | .stopWatcher => p.tell b now draw env .stop
      | .clearQueue => ({ p with line := p.line.send .clear }, env)
    obey b now draw p env rest

/-- Start the watcher, or have a follower start it. -/
def start (b : Backend K Q A E) (now draw : Nat) (p : Pipeline K Q A E D R) (env : E) :
    Pipeline K Q A E D R × E :=
  if p.gated then
    (if p.follower.isSome then p else { p with follower := some {} }, env)
  else p.tell b now draw env .start

/-- Stop the follower, which stops the watcher, and stop the watcher. -/
def stop (b : Backend K Q A E) (now draw : Nat) (p : Pipeline K Q A E D R) (env : E) :
    Pipeline K Q A E D R × E :=
  let (p, env) :=
    if p.follower.isSome then { p with follower := none }.tell b now draw env .stop else (p, env)
  p.tell b now draw env .stop

/-- Drop the watcher where it stands. -/
def drop (p : Pipeline K Q A E D R) : Pipeline K Q A E D R :=
  { p with follower := none, link := .none, watcher := { p.watcher with loop := none } }

/-- What the connection brings next. -/
def incoming? (now : Nat) (p : Pipeline K Q A E D R) :
    Option (Pipeline K Q A E D R × Watch.Input K) :=
  match p.link with
  | .none => none
  | .opening o =>
    if isDue now o.ready o.yields then
      match o.outcome with
      | .ok connection => some ({ p with link := .opened connection }, .opened)
      | .error e => some ({ p with link := .none }, .refused e)
    else none
  | .opened c =>
    match c.items with
    | .ok event :: items => some ({ p with link := .opened { c with items } }, .event event)
    | .error e :: items => some ({ p with link := .opened { c with items } }, .broken e)
    | [] => if c.ended then some ({ p with link := .none }, .ended) else none

/-- The watcher has something to do on its own. -/
def isRestless (now : Nat) (p : Pipeline K Q A E D R) : Bool :=
  match p.watcher.loop with
  | some ⟨_, .spawned⟩ => true
  | _ => p.watcher.alarm?.any fun t => t ≤ now

/-- One thing that can happen to the pipeline at an instant. -/
def turn (b : Backend K Q A E) (h : Handler K Q A E D R) (now draw : Nat) (c : Channel)
    (leading : Bool) (p : Pipeline K Q A E D R) (env : E) : Option (Pipeline K Q A E D R × E) :=
  match p.follower.bind (·.look c) with
  | some (follower, orders) => some (obey b now draw { p with follower } env orders)
  | none =>
    if p.isRestless now then some (p.tell b now draw env .wake)
    else
      match p.incoming? now with
      | some (p, input) => some (p.tell b now draw env input)
      | none => (p.line.turn b h now leading env).map fun (line, env) => ({ p with line }, env)

/-- A part of the pipeline lets others have their turn. -/
def yields (p : Pipeline K Q A E D R) : Bool :=
  p.line.yields || match p.link with
    | .opening o => o.yields
    | _ => false

/-- The others have had their turn. -/
def resume (p : Pipeline K Q A E D R) : Pipeline K Q A E D R :=
  let link := match p.link with
    | .opening o => .opening { o with yields := false }
    | link => link
  { p with link, line := p.line.resume }

/-- The next instant at which something can happen to the pipeline. -/
def alarm? (p : Pipeline K Q A E D R) : Option Nat :=
  let opening := match p.link with
    | .opening o => o.ready
    | _ => none
  soonest? [p.watcher.alarm?, opening, p.line.alarm?]

/-! ## From outside -/

/-- The connection is open. -/
def isOpen (p : Pipeline K Q A E D R) : Bool :=
  match p.link with
  | .opened c => !c.ended
  | _ => false

/-- The other side puts an item into the open connection. -/
def offer (p : Pipeline K Q A E D R) (item : Except Error (Watch.Event K)) :
    Pipeline K Q A E D R :=
  match p.link with
  | .opened c =>
    if c.ended then p else { p with link := .opened { c with items := c.items ++ [item] } }
  | _ => p

/-- The other side ends the open connection. -/
def close (p : Pipeline K Q A E D R) : Pipeline K Q A E D R :=
  match p.link with
  | .opened c => { p with link := .opened { c with ended := true } }
  | _ => p

end Pipeline

end Reconciler.Host
