import Reconciler.Host.Backend

/-!
# A queue with its consumer

Commands are sent to a line at any time. Its consumer, once there is one, handles one entry at a
time and looks for the next when it is done, and only then are the commands applied. What it does
with an entry is a plan, given by a `Handler` together with what follows from the plan's result.
-/

namespace Reconciler.Host

/-- What a consumer with a state `D` does with entries, in plans with results `R`. -/
structure Handler (K Q : Type) (A : Q → Type) (E D R : Type) where
  /-- The plan for an entry that surfaces while leading or not. -/
  plan : D → Bool → Queue.Entry K → Plan Q A R
  /-- What follows from a result: the new state, and what is sent to the queue. None if the
  consumer cannot go on. -/
  conclude : D → R → Option (D × List (Queue.Command K))
  /-- What the end of the queue changes outside. -/
  ended : Nat → E → E := fun _ env => env

/-- The dispatcher as a consumer. Every call of its plans is settled by a plan of questions, and
`draw` decides the random parts of waits. -/
def Handler.ofDispatcher {K Q : Type} {A : Q → Type} {E : Type} [Entity K] (draw : Nat)
    (settle : (call : Dispatch.Call K) → Plan Q A call.Answer) :
    Handler K Q A E Dispatcher (K × Dispatch.Verdict) where
  plan d leading entry := (Dispatch.handle d.policy leading entry).interpret settle
  conclude d result := d.conclude draw result.1 result.2

/-- What a consumer is at. -/
inductive Activity (K Q : Type) (A : Q → Type) (E R : Type) where
  /-- It waits for an entry. -/
  | waiting
  /-- It handles one. -/
  | busy (job : Job K Q A E R)
  /-- It takes no more. -/
  | ended

/-- The consumer of a queue. -/
structure Consumer (K Q : Type) (A : Q → Type) (E D R : Type) where
  queue : Queue K := .empty
  activity : Activity K Q A E R := .waiting
  state : D

/-- A queue, what was sent to it, and its consumer. -/
structure Line (K Q : Type) (A : Q → Type) (E D R : Type) where
  /-- Commands sent and not applied. -/
  inbox : List (Queue.Command K) := []
  /-- There is no one left who could send. -/
  closed : Bool := false
  /-- The consumer is to take no more. -/
  cancelled : Bool := false
  consumer : Option (Consumer K Q A E D R) := none

namespace Line

variable {K Q : Type} {A : Q → Type} {E D R : Type}

/-- Send a command. -/
def send (l : Line K Q A E D R) (command : Queue.Command K) : Line K Q A E D R :=
  { l with inbox := l.inbox ++ [command] }

/-- Send commands in order. -/
def sendAll (l : Line K Q A E D R) (commands : List (Queue.Command K)) : Line K Q A E D R :=
  { l with inbox := l.inbox ++ commands }

/-- Give the queue a consumer at an instant; there can only ever be one. -/
def consume (l : Line K Q A E D R) (now : Nat) (state : D) : Except Error (Line K Q A E D R) :=
  if l.consumer.isSome then .error (.internal "queue" "queue already has a consumer")
  else .ok { l with consumer := some { queue := .startingAt now, state } }

/-- The consumer, if there is one, takes no more entries. -/
def isEnded (l : Line K Q A E D R) : Bool :=
  match l.consumer with
  | some ⟨_, .ended, _⟩ => true
  | some _ => false
  | none => true

/-- A look into the queue would change something. -/
def isDue (l : Line K Q A E D R) (now : Nat) (q : Queue K) : Bool :=
  l.cancelled || !l.inbox.isEmpty || (l.closed && q.timers.isEmpty) ||
    q.timers.isDue now

/-- The consumer goes on with a plan up to its next question, or concludes. -/
def proceed (l : Line K Q A E D R) (b : Backend K Q A E) (h : Handler K Q A E D R) (now : Nat)
    (c : Consumer K Q A E D R) (plan : Plan Q A R) (env : E) : Line K Q A E D R × E :=
  match b.proceed now plan env with
  | (env, .inr job) => ({ l with consumer := some { c with activity := .busy job } }, env)
  | (env, .inl r) =>
    match h.conclude c.state r with
    | some (state, commands) =>
      ({ l.sendAll commands with consumer := some { c with state, activity := .waiting } }, env)
    | none => ({ l with consumer := some { c with activity := .ended } }, env)

/-- One thing that can happen to the line at an instant. -/
def turn (l : Line K Q A E D R) (b : Backend K Q A E) (h : Handler K Q A E D R) (now : Nat)
    (leading : Bool) (env : E) : Option (Line K Q A E D R × E) :=
  match l.consumer with
  | none => none
  | some c =>
    match c.activity with
    | .ended => none
    | .busy job =>
      if job.isReady now then
        some ((l.sendAll job.commands).proceed b h now c job.rest (job.finish now env))
      else none
    | .waiting =>
      if l.isDue now c.queue then
        match c.queue.poll now l.cancelled l.closed l.inbox with
        | .delivered entry queue =>
          some ({ l with inbox := [] }.proceed b h now { c with queue }
            (h.plan c.state leading entry) env)
        | .idle queue => some ({ l with inbox := [], consumer := some { c with queue } }, env)
        | .ended =>
          some ({ l with consumer := some { c with activity := .ended } }, h.ended now env)
        | .failed _ => some ({ l with consumer := some { c with activity := .ended } }, env)
      else none

/-- The consumer lets others have their turn before it looks at an answer. -/
def yields (l : Line K Q A E D R) : Bool :=
  match l.consumer with
  | some ⟨_, .busy job, _⟩ => job.yields
  | _ => false

/-- The others have had their turn. -/
def resume (l : Line K Q A E D R) : Line K Q A E D R :=
  match l.consumer with
  | some ⟨queue, .busy job, state⟩ => { l with consumer := some ⟨queue, .busy job.resume, state⟩ }
  | _ => l

/-- The next instant at which something can happen to the line. -/
def alarm? (l : Line K Q A E D R) : Option Nat :=
  match l.consumer with
  | none => none
  | some c =>
    match c.activity with
    | .ended => none
    | .busy job => job.ready
    | .waiting => c.queue.timers.alarm?

end Line

end Reconciler.Host
