import Reconciler.Backoff
import Reconciler.Cache.Basic
import Reconciler.Queue.Basic
import Reconciler.Settings
import Reconciler.Watch.Event

/-!
# Watching one type of entity

A watcher keeps one connection open for as long as it runs. A connection that ends is opened again
at once, from the last version seen; one that fails is opened again after a wait that grows with the
failures in a row; one that was quiet for long enough clears them. When the server says that the
version is too old, the watcher forgets what it knows and starts from the beginning.

Every event about an entity becomes one schedule without delay. The trigger is that of the change
since the entity was last seen, as the cache tells.

The watcher is a state and a reaction to every input; `Watcher.react` says what it publishes, which
connection it asks for, and what it schedules. An entity without a name cannot be scheduled: it ends
the loop where it stands.

`stopped → starting → watching → (closed | errored) → starting → … → stopped`
-/

namespace Reconciler

/-- What a watcher says of itself. -/
inductive WatcherState where
  /-- No loop runs. -/
  | stopped
  /-- A connection is being opened. -/
  | starting
  /-- A connection is open. -/
  | watching
  /-- The connection ended, another follows at once. -/
  | closed
  /-- The connection failed, another follows after a wait. -/
  | errored
  deriving DecidableEq, Repr, Inhabited

namespace Watch

/-- The version that asks for everything there is, and then for every change. -/
def initialVersion : String := "0"

/-- The code of a version that is too old. -/
def gone : Nat := 410

/-- What a connection is asked for with. -/
structure Request where
  /-- Only entities of one namespace. -/
  ns : Option String := none
  /-- The version to resume from. -/
  version : String
  /-- How long the server keeps the connection open. -/
  timeoutSecs : Nat
  labelSelector : Option String := none
  deriving DecidableEq, Repr

/-- What a running loop waits for. -/
inductive Phase where
  /-- Its first turn. -/
  | spawned
  /-- The connection it asked for. -/
  | opening
  /-- The next event, or the instant at which the connection counts as stable if it does not yet. -/
  | streaming (stableAt : Option Nat)
  /-- The instant of the next attempt. -/
  | waiting (resumeAt : Nat)
  deriving DecidableEq, Repr

/-- A loop that runs. -/
structure Loop where
  /-- The version to resume from. -/
  version : String := initialVersion
  phase : Phase := .spawned
  deriving DecidableEq, Repr

/-- What happens to a watcher. -/
inductive Input (K : Type) where
  | start
  | stop
  /-- The clock has moved, or the loop has its first turn. -/
  | wake
  /-- The connection is open. -/
  | opened
  /-- The connection could not be opened. -/
  | refused (error : Error)
  | event (event : Event K)
  /-- The connection failed. -/
  | broken (error : Error)
  /-- The connection ended. -/
  | ended
  deriving Repr

/-- What a watcher does. -/
inductive Effect (K : Type) where
  | publish (state : WatcherState)
  | connect (request : Request)
  | send (command : Queue.Command K)
  deriving Repr

end Watch

open Watch

/-- A watcher, with what it knows of the entities. -/
structure Watcher where
  ns : Option String := none
  timeoutSecs : Nat := Settings.defaultWatchTimeoutSecs
  backoff : BackoffConfig := {}
  state : WatcherState := .stopped
  cache : Cache := .empty
  failures : FailureCount := .clear
  loop : Option Loop := none

namespace Watcher

variable {K : Type} [Entity K]

/-- The watcher of an operator. -/
def ofSettings (s : Settings) (cache : Cache) : Watcher where
  ns := s.onlyNamespace
  timeoutSecs := s.watchTimeoutSecs
  backoff := s.watchBackoff
  cache

/-- The request for a connection from a version. -/
def request (w : Watcher) (version : String) : Request :=
  { ns := w.ns, version, timeoutSecs := w.timeoutSecs }

/-- Say what the watcher does now. -/
def publish (w : Watcher) (state : WatcherState) : Watcher × List (Effect K) :=
  ({ w with state }, [.publish state])

/-- Ask for a connection from a version. -/
def connect (w : Watcher) (version : String) : Watcher × List (Effect K) :=
  ({ w with state := .starting, loop := some ⟨version, .opening⟩ },
    [.publish .starting, .connect (w.request version)])

/-- The connection ended: ask for the next one. -/
def reconnect (w : Watcher) (version : String) : Watcher × List (Effect K) :=
  let (w, effects) := w.connect version
  (w, .publish .closed :: effects)

/-- The connection failed: wait. -/
def backOff (w : Watcher) (now draw : Nat) (version : String) : Watcher × List (Effect K) :=
  let (failures, retries) := w.failures.record
  let delay := w.backoff.delay draw retries
  ({ w with failures, state := .errored, loop := some ⟨version, .waiting (now + delay.millisUp)⟩ },
    [.publish .errored])

/-- Schedule an entity without delay, or end the loop if it has no name. -/
def schedule (w : Watcher) (e : K) (trigger : Trigger) : Watcher × List (Effect K) :=
  match Queue.Command.schedule? e 0 trigger with
  | some command => (w, [.send command])
  | none => ({ w with loop := none }, [])

/-- Handle an event of the open connection. -/
def handle (w : Watcher) (l : Loop) (event : Event K) : Watcher × List (Effect K) :=
  let version := event.version?.getD l.version
  let w := { w with loop := some { l with version } }
  let changed (e : K) : Watcher × List (Effect K) :=
    let (cache, change) := w.cache.upsert e
    { w with cache }.schedule e (.ofChange change)
  match event with
  | .added e => changed e
  | .modified e => changed e
  | .deleted e => { w with cache := (w.cache.remove e).1 }.schedule e .deleted
  | .bookmark _ => (w, [])
  | .error code _ =>
    if code = gone then { w with cache := w.cache.clear }.reconnect initialVersion else (w, [])

/-- The loop has a turn or the clock has moved. -/
def wake (w : Watcher) (now : Nat) (l : Loop) : Watcher × List (Effect K) :=
  match l.phase with
  | .spawned => { w with cache := w.cache.clear }.connect l.version
  | .waiting resumeAt => if resumeAt ≤ now then w.connect l.version else (w, [])
  | .streaming (some stableAt) =>
    if stableAt ≤ now then
      ({ w with failures := .clear, loop := some { l with phase := .streaming none } }, [])
    else (w, [])
  | _ => (w, [])

/-- End the loop, if one runs. The cache of one that has not had its first turn is cleared. -/
def stop (w : Watcher) : Watcher × List (Effect K) :=
  match w.loop with
  | none => w.publish .stopped
  | some l =>
    let cache := if l.phase = .spawned then w.cache.clear else w.cache
    ({ w with cache, state := .stopped, loop := none }, [.publish .stopped, .publish .stopped])

/-- The reaction to an input at an instant. `draw` decides the random part of a wait. -/
def react (w : Watcher) (now draw : Nat) : Input K → Watcher × List (Effect K)
  | .start => if w.loop.isSome then (w, []) else ({ w with loop := some {} }, [])
  | .stop => w.stop
  | input =>
    match w.loop with
    | none => (w, [])
    | some l =>
      match input with
      | .opened =>
        let stableAt := now + w.backoff.stabilityWindow.millisUp
        { w with loop := some { l with phase := .streaming (some stableAt) } }.publish .watching
      | .refused _ => w.backOff now draw l.version
      | .event event => w.handle l event
      | .broken _ => w.backOff now draw l.version
      | .ended => w.reconnect l.version
      | _ => w.wake now l

/-- Failures in a row. -/
def retries (w : Watcher) : Nat := w.failures.retries

/-- The instant at which the loop has to be woken, however long ago it is. -/
def alarm? (w : Watcher) : Option Nat :=
  match w.loop with
  | some ⟨_, .waiting resumeAt⟩ => some resumeAt
  | some ⟨_, .streaming stableAt⟩ => stableAt
  | _ => none

/-- A connection is open or asked for. -/
def isConnected (w : Watcher) : Bool :=
  match w.loop with
  | some ⟨_, .opening⟩ => true
  | some ⟨_, .streaming _⟩ => true
  | _ => false

end Watcher

end Reconciler
