import Reconciler.Dispatch
import Reconciler.Watch.Watcher

/-!
# What a host talks to

Everything outside: the client's connections, the controller, the finalizers, the lease. A backend
decides what each question is answered and when, from a state of its own, and may have commands sent
to the queue while it works on an answer. Nothing else is assumed about it, so a statement about a
host that holds for every backend holds for every server, every controller and every timing.
-/

namespace Reconciler.Host

/-- An answer and when it comes. -/
structure Reply (K E α : Type) where
  /-- The instant of the answer; none if it never comes. -/
  ready : Option Nat
  /-- The answer is looked at only after every other part has had its turn. -/
  yields : Bool := false
  /-- What the answer changes outside, when it comes. -/
  finish : Nat → E → E := fun _ env => env
  /-- What is sent to the queue when the answer comes. -/
  commands : List (Queue.Command K) := []
  value : α

/-- A connection: what it brings next, and whether it ends after that or is silent. -/
structure Connection (K : Type) where
  items : List (Except Error (Watch.Event K)) := []
  ended : Bool := false

/-- A connection that is asked for. -/
structure Opening (K : Type) where
  /-- The instant at which it opens or fails to; none if neither ever happens. -/
  ready : Option Nat
  /-- The outcome is looked at only after every other part has had its turn. -/
  yields : Bool := false
  outcome : Except Error (Connection K)

/-- What answers the questions `Q`, from a state `E`. -/
structure Backend (K Q : Type) (A : Q → Type) (E : Type) where
  call : Nat → (q : Q) → E → E × Reply K E (A q)
  /-- Ask for a connection for the type of entity at a place in the order of registration. -/
  watch : Nat → Nat → Watch.Request → E → E × Opening K

/-- A plan under way: when its question is answered, and how it goes on then. -/
structure Job (K Q : Type) (A : Q → Type) (E R : Type) where
  ready : Option Nat
  yields : Bool
  finish : Nat → E → E
  commands : List (Queue.Command K)
  rest : Plan Q A R

/-- Go on with a plan up to its result or its next question. -/
def Backend.proceed {K Q : Type} {A : Q → Type} {E R : Type} (b : Backend K Q A E) (now : Nat)
    (plan : Plan Q A R) (env : E) : E × (R ⊕ Job K Q A E R) :=
  match plan with
  | .done r => (env, .inl r)
  | .ask q next =>
    let (env, reply) := b.call now q env
    (env, .inr ⟨reply.ready, reply.yields, reply.finish, reply.commands, next reply.value⟩)

/-- An answer that comes at an instant, if at all, can be looked at. -/
def isDue (now : Nat) (ready : Option Nat) (yields : Bool) : Bool :=
  !yields && ready.any fun t => t ≤ now

/-- The question has been answered. -/
def Job.isReady {K Q : Type} {A : Q → Type} {E R : Type} (j : Job K Q A E R) (now : Nat) : Bool :=
  isDue now j.ready j.yields

/-- The others have had their turn. -/
def Job.resume {K Q : Type} {A : Q → Type} {E R : Type} (j : Job K Q A E R) : Job K Q A E R :=
  { j with yields := false }

end Reconciler.Host
