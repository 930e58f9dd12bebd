import Reconciler.Backoff
import Reconciler.Plan
import Reconciler.Queue.Basic
import Reconciler.Settings

/-!
# Handling queue entries

The dispatcher turns an entry into calls of the controller, the finalizers and the client, one entry
at a time, and decides what comes after.

| Trigger              | What is done                                      |
|----------------------|---------------------------------------------------|
| deleted              | the controller hears of it                        |
| status modified      | nothing                                           |
| finalizers modified  | finalizers if marked for deletion, else nothing   |
| reconcile            | finalizers if marked for deletion, else attach and reconcile |
| requeue              | read again, then as reconcile; dropped if gone    |

Handling one entry is a plan over `Call`s that ends with a `Verdict` about one entity. The
dispatcher itself only keeps the number of failures in a row of every entity: `Dispatcher.conclude`
draws from a verdict the new counts and what is queued again.
-/

namespace Reconciler

/-- What a controller asks for after a reconcile: another one after a delay, or none. -/
structure Action where
  requeueAfter : Option Duration := none
  deriving DecidableEq, Repr, Inhabited

/-- Reconcile again after a delay. -/
def Action.requeue (delay : Duration) : Action := ⟨some delay⟩

/-- Wait for the next change. -/
def Action.awaitChange : Action := {}

namespace Dispatch

/-- What handling an entry asks of the client, the controller and the finalizers. -/
inductive Call (K : Type) where
  | get (name : String) (ns : Option String)
  | update (entity : K)
  | reconcile (entity : K)
  | deleted (entity : K)
  /-- Run the finalizer at a place in the order of registration. -/
  | finalize (place : Nat) (id : String) (entity : K)
  deriving Repr

/-- The answers to a call. -/
def Call.Answer {K : Type} : Call K → Type
  | get _ _ => Except Error (Option K)
  | update _ => Except Error K
  | reconcile _ => Except Error Action
  | deleted _ => Except Error Unit
  | finalize _ _ _ => Except Error Unit

/-- How handling an entry ended for its entity. -/
inductive Verdict where
  /-- The entity's past no longer counts, and nothing follows. -/
  | forgotten
  /-- There was nothing to do. -/
  | skipped
  | succeeded (action : Action)
  | failed (error : Error)
  deriving Repr

/-- The parts of an operator that handling an entry depends on. -/
structure Policy where
  /-- The identifiers of the finalizers in the order of registration. -/
  finalizers : List String := []
  /-- Put missing finalizers on an entity before it is reconciled. -/
  autoAttach : Bool := true
  /-- Take a finalizer off the entity once it has run. -/
  autoDetach : Bool := true
  deriving Repr

variable {K : Type} [Entity K]

/-- The plans of a dispatcher. -/
abbrev Steps (K : Type) (α : Type) : Type := Plan (Call K) Call.Answer α

/-- Go on with what a call brought, or end with its error. -/
def orFail {α β : Type} (f : α → Steps K (Except Error β)) :
    Except Error α → Steps K (Except Error β)
  | .ok a => f a
  | .error e => .done (.error e)

/-- The registered finalizers that are not on an entity. -/
def missingFinalizers (p : Policy) (e : K) : List String :=
  p.finalizers.filter fun id => !(Entity.metadata e).hasFinalizer id

/-- The entity with the given finalizers after its own. -/
def attach (e : K) (ids : List String) : K :=
  Entity.withFinalizers e (some ((Entity.metadata e).finalizers.getD [] ++ ids))

/-- The entity without a finalizer. -/
def detach (e : K) (id : String) : K :=
  Entity.withFinalizers e ((Entity.metadata e).finalizers.map (·.filter (· != id)))

/-- Put the missing finalizers on the entity, then reconcile what the client stored. -/
def reconcile (p : Policy) (e : K) : Steps K (Except Error Action) :=
  let missing := missingFinalizers p e
  if p.autoAttach && !missing.isEmpty then
    .ask (.update (attach e missing)) (orFail fun e => Plan.call (Call.reconcile e))
  else Plan.call (Call.reconcile e)

/-- Run those of the given finalizers that are on the entity when their turn comes. -/
def finalizeFrom (p : Policy) (place : Nat) (ids : List String) (e : K) :
    Steps K (Except Error Action) :=
  match ids with
  | [] => .done (.ok .awaitChange)
  | id :: rest =>
    if (Entity.metadata e).hasFinalizer id then
      .ask (.finalize place id e) fun
        | .error err => .done (.error (.finalizer id (Entity.ref e) err.message))
        | .ok () =>
          if p.autoDetach then
            .ask (.update (detach e id)) (orFail (finalizeFrom p (place + 1) rest))
          else finalizeFrom p (place + 1) rest e
    else finalizeFrom p (place + 1) rest e

/-- Run the finalizers in the order of registration. -/
def finalize (p : Policy) (e : K) : Steps K (Except Error Action) := finalizeFrom p 0 p.finalizers e

/-- The verdict of a reconcile or a pass of finalizers. -/
def Verdict.ofOutcome : Except Error Action → Verdict
  | .ok action => .succeeded action
  | .error e => .failed e

/-- Handle an entity that is to be looked at as a whole. -/
def settle (p : Policy) (e : K) : Steps K (K × Verdict) := do
  let outcome ← if Entity.isDeleting e then finalize p e else reconcile p e
  return (e, .ofOutcome outcome)

/-- Read an entity again and handle what is there now. -/
def refresh (p : Policy) (e : K) : Steps K (K × Verdict) :=
  match (Entity.metadata e).name with
  | none => .done (e, .forgotten)
  | some name =>
    .ask (.get name (Entity.metadata e).ns) fun
      | .ok (some latest) => settle p latest
      | .ok none => .done (e, .forgotten)
      | .error err => .done (e, .failed err)

/-- Handle an entry. Leadership is looked at once, when the entry surfaces. -/
def handle (p : Policy) (leading : Bool) (entry : Queue.Entry K) : Steps K (K × Verdict) :=
  let e := entry.entity
  if !leading then .done (e, .forgotten)
  else
    match entry.trigger with
    | .requeue => refresh p e
    | .reconcile => settle p e
    | .statusModified => .done (e, .skipped)
    | .finalizersModified => if Entity.isDeleting e then settle p e else .done (e, .skipped)
    | .deleted => .ask (.deleted e) fun _ => .done (e, .forgotten)

end Dispatch

/-- What the dispatcher of one type of entity keeps from entry to entry. -/
structure Dispatcher where
  policy : Dispatch.Policy := {}
  backoff : BackoffConfig := {}
  /-- Failures in a row of the entities that have any. -/
  counts : List (EntityKey × Nat) := []
  deriving Repr

namespace Dispatcher

variable {K : Type} [Entity K]

/-- The dispatcher of an operator for a type with the given finalizers. -/
def ofSettings (s : Settings) (finalizers : List String) : Dispatcher where
  policy := { finalizers, autoAttach := s.autoAttach, autoDetach := s.autoDetach }
  backoff := s.reconcileBackoff

/-- The greatest number of failures that is told from more. -/
def most : Nat := 4_294_967_295

/-- Failures in a row of an entity. -/
def failures (d : Dispatcher) (key : EntityKey) : Nat :=
  ((d.counts.find? (·.1 == key)).map (·.2)).getD 0

/-- Forget the failures of an entity. -/
def forget (d : Dispatcher) (key : EntityKey) : Dispatcher :=
  { d with counts := d.counts.filter (·.1 != key) }

/-- One more failure of an entity. -/
def fail (d : Dispatcher) (key : EntityKey) : Dispatcher :=
  { d with
    counts := (key, Nat.min (d.failures key + 1) most) :: d.counts.filter (·.1 != key) }

/-- The command to look at an entity again after a delay. -/
def requeue (key : EntityKey) (e : K) (delay : Duration) : Queue.Command K :=
  .schedule key ⟨e, .requeue⟩ delay.millisUp

/-- What follows from a verdict: the new counts, and what is queued. `draw` decides the random part
of a wait. A verdict that concerns the identity of an entity without a name has none. -/
def conclude (d : Dispatcher) (draw : Nat) (e : K) (verdict : Dispatch.Verdict) :
    Option (Dispatcher × List (Queue.Command K)) :=
  match verdict with
  | .skipped => some (d, [])
  | .forgotten => (Entity.key? e).map fun key => (d.forget key, [])
  | .succeeded action =>
    (Entity.key? e).map fun key =>
      (d.forget key, (action.requeueAfter.map (requeue key e)).toList)
  | .failed _ =>
    (Entity.key? e).map fun key =>
      let d := d.fail key
      (d, [requeue key e (d.backoff.delay draw (d.failures key))])

end Dispatcher

end Reconciler
