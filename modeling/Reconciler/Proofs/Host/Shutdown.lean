import Reconciler.Host.Operator
import Reconciler.Proofs.Host.Gated
import Reconciler.Proofs.Leadership.Diary

/-!
# An operator from its start to its return

What an operator does is told in marks: it is cancelled, asks for connections, takes up entries,
asks the client, the controller and the finalizers about them, competes for the lease, gives it
back, and returns. Every mark stands in the trace together with the operator as it was then.

Its parts act in any order (`Operator.Step`): one step of stopping, a turn of the election, an act
of any part of any type. In between the clock moves, the outside changes, the connections bring more
or end, and entries are queued through handles. What an operator does in a turn is one such step
(`turn_step`), so whatever holds of all these runs holds of those that keep to the order of turns.
-/

namespace Reconciler.Host

open Leadership (Channel Election Follower)
open Queue (Command Entry)

variable {K Q E D R : Type} {A : Q → Type}

namespace Operator

/-! ## Marks -/

/-- What an operator does. Types are named by their places in the order of registration. -/
inductive Mark (K Q : Type) where
  | cancelled
  /-- A connection is asked for. -/
  | watched (place : Nat) (request : Watch.Request)
  | dispatched (place : Nat) (entry : Entry K)
  /-- The client, the controller or a finalizer is called for the entry under way. -/
  | asked (place : Nat) (question : Q)
  /-- The entry under way is done with. -/
  | concluded (place : Nat)
  | lease (mark : Leadership.Mark)
  /-- The attempt or the release under way has a further question. -/
  | pursued (question : Q)
  | returned

namespace Mark

/-- The connection that a watcher asks for, if that is what shows. -/
def ofIncident? (place : Nat) : Incident K → Option (Mark K Q)
  | .requested request _ => some (.watched place request)
  | _ => none

/-- Going on with the plan for an entry. -/
def ofPlan (place : Nat) : Plan Q A R → Mark K Q
  | .ask question _ => .asked place question
  | .done _ => .concluded place

end Mark

/-- What a turn of a line does. -/
def lineMarks (place : Nat) (l : Line K Q A E D R) (h : Handler K Q A E D R) (now : Nat)
    (leading : Bool) : List (Mark K Q) :=
  match l.consumer with
  | none => []
  | some c =>
    match c.activity with
    | .ended => []
    | .busy job => [.ofPlan place job.rest]
    | .waiting =>
      match c.queue.poll now l.cancelled l.closed l.inbox with
      | .delivered entry _ =>
        [.dispatched place entry, .ofPlan place (h.plan c.state leading entry)]
      | _ => []

/-- What the election does when it hears something. -/
def heard (o : Operator K Q A E D R) (input : Election.Input) : List (Mark K Q) :=
  match o.election with
  | none => []
  | some e =>
    .lease (.heard input) ::
      (e.react o.now o.channel.current input).2.map fun effect => .lease (.did effect)

/-- What a turn of the election does. -/
def electionMarks (o : Operator K Q A E D R) : List (Mark K Q) :=
  match o.lease with
  | none => o.heard .wake
  | some job =>
    match job.rest with
    | .done input => o.heard input
    | .ask question _ => [.pursued question]

variable [Entity K]

/-- What shows when a pipeline is stopped. -/
def stopShown (p : Pipeline K Q A E D R) (now draw : Nat) : List (Incident K) :=
  let stopped := (p.watcher.react now draw (.stop : Watch.Input K)).1
  if p.follower.isSome then
    Watcher.shown p.watcher now draw (.stop : Watch.Input K) ++
      Watcher.shown stopped now draw (.stop : Watch.Input K)
  else Watcher.shown p.watcher now draw (.stop : Watch.Input K)

/-- What a step of stopping does. -/
def stopMarks (pr : Program K Q A E D R) (o : Operator K Q A E D R) : List (Mark K Q) :=
  match o.stage with
  | .stopping 0 => o.heard .stop
  | .stopping (n + 1) =>
    match o.pipelines[n]? with
    | none => []
    | some p => (stopShown p o.now pr.draw).filterMap (Mark.ofIncident? n)
  | .resigning => [.returned]
  | _ => []

/-! ## Steps -/

/-- What a part of a pipeline does on its own, with what it changes outside. -/
inductive Act (b : Backend K Q A E) (h : Handler K Q A E D R) (now place : Nat) (c : Channel)
    (p : Pipeline K Q A E D R) (env : E) :
    List (Mark K Q) → Pipeline K Q A E D R × E → Prop where
  | followed (draw : Nat) {follower : Option Follower} {orders : List Follower.Order} :
      p.follower.bind (·.look c) = some (follower, orders) →
      Act b h now place c p env
        ((Watcher.obeying now draw p.watcher orders).filterMap (Mark.ofIncident? place))
        (Pipeline.obey b now draw { p with follower } env orders)
  | woken (draw : Nat) : p.isRestless now = true →
      Act b h now place c p env
        ((Watcher.shown p.watcher now draw (.wake : Watch.Input K)).filterMap
          (Mark.ofIncident? place))
        (p.tell b now draw env .wake)
  | taken (draw : Nat) {q : Pipeline K Q A E D R} {input : Watch.Input K} :
      p.incoming? now = some (q, input) →
      Act b h now place c p env
        ((Watcher.shown p.watcher now draw input).filterMap (Mark.ofIncident? place))
        (q.tell b now draw env input)
  | turned (leading : Bool) {line : Line K Q A E D R} {env' : E} :
      p.line.turn b h now leading env = some (line, env') →
      Act b h now place c p env (lineMarks place p.line h now leading) ({ p with line }, env')

/-- The operator with a pipeline in the place of another. -/
def put (o : Operator K Q A E D R) (place : Nat) (p : Pipeline K Q A E D R) :
    Operator K Q A E D R :=
  { o with pipelines := o.pipelines.set place p }

/-- What can happen to an operator, with what it does. -/
inductive Step (pr : Program K Q A E D R) :
    Operator K Q A E D R → List (Mark K Q) → Operator K Q A E D R → Prop where
  | cancelled {o : Operator K Q A E D R} : o.stage = .running →
      Step pr o [.cancelled] o.cancel
  | stopped {o o' : Operator K Q A E D R} : o.turnStop pr = some o' →
      Step pr o (stopMarks pr o) o'
  | elected {o o' : Operator K Q A E D R} : o.turnElection pr = some o' →
      Step pr o (electionMarks o) o'
  | worked {o : Operator K Q A E D R} {place : Nat} {p p' : Pipeline K Q A E D R} {env : E}
      {marks : List (Mark K Q)} : o.pipelines[place]? = some p →
      Act pr.backend (pr.handler p.place) o.now place o.channel p o.env marks (p', env) →
      Step pr o marks { o.put place p' with env }
  /-- Those that let others go first have their turn again. -/
  | resumed {o : Operator K Q A E D R} :
      Step pr o []
        { o with lease := o.lease.map (·.resume), pipelines := o.pipelines.map (·.resume) }
  /-- The clock moves, and the outside changes. -/
  | passed {o : Operator K Q A E D R} (later : Nat) (env : E) : o.now ≤ later →
      Step pr o [] { o with now := later, env }
  /-- The other side puts an item into a connection, -/
  | offered {o : Operator K Q A E D R} {place : Nat} {p : Pipeline K Q A E D R}
      (item : Except Error (Watch.Event K)) : o.pipelines[place]? = some p →
      Step pr o [] (o.put place (p.offer item))
  /-- or ends it. -/
  | closed {o : Operator K Q A E D R} {place : Nat} {p : Pipeline K Q A E D R} :
      o.pipelines[place]? = some p → Step pr o [] (o.put place p.close)
  /-- Something is queued through a handle. -/
  | queued {o : Operator K Q A E D R} {place : Nat} {p : Pipeline K Q A E D R}
      (command : Command K) : o.pipelines[place]? = some p →
      Step pr o [] (o.put place { p with line := p.line.send command })

/-- What an operator has done, each time with the operator as it was then. -/
abbrev Trace (K Q : Type) (A : Q → Type) (E D R : Type) : Type :=
  List (Operator K Q A E D R × Mark K Q)

inductive Run (pr : Program K Q A E D R) (start : Operator K Q A E D R) :
    Trace K Q A E D R → Operator K Q A E D R → Prop where
  | nil : Run pr start [] start
  | snoc {trace : Trace K Q A E D R} {marks : List (Mark K Q)} {o o' : Operator K Q A E D R} :
      Run pr start trace o → Step pr o marks o' →
      Run pr start (trace ++ marks.map (o, ·)) o'

/-! ## Turns -/

section Turns

variable {pr : Program K Q A E D R} {o o' : Operator K Q A E D R}

/-- Whatever a pipeline does in a turn is an act of one of its parts. -/
theorem pipelineTurn_act {b : Backend K Q A E} {h : Handler K Q A E D R} {now draw : Nat}
    {c : Channel} {leading : Bool} {p : Pipeline K Q A E D R} {env : E}
    {r : Pipeline K Q A E D R × E} (place : Nat)
    (hturn : p.turn b h now draw c leading env = some r) :
    ∃ marks, Act b h now place c p env marks r := by
  unfold Pipeline.turn at hturn
  split at hturn
  · next follower orders hlook =>
    obtain rfl := Option.some.inj hturn
    exact ⟨_, .followed draw hlook⟩
  · split at hturn
    · next hrestless =>
      obtain rfl := Option.some.inj hturn
      exact ⟨_, .woken draw hrestless⟩
    · split at hturn
      · next q input hincoming =>
        obtain rfl := Option.some.inj hturn
        exact ⟨_, .taken draw hincoming⟩
      · obtain ⟨⟨line, env'⟩, hline, rfl⟩ := Option.map_eq_some_iff.mp hturn
        exact ⟨_, .turned leading hline⟩

/-- A turn of the pipelines is a turn of one of them. -/
theorem exists_pipelineTurn {pipelines pipelines' : List (Pipeline K Q A E D R)} {env : E}
    (hturn : o.turnPipelines pr pipelines = some (pipelines', env)) :
    ∃ place p p' leading, pipelines[place]? = some p ∧ pipelines' = pipelines.set place p' ∧
      p.turn pr.backend (pr.handler p.place) o.now pr.draw o.channel leading o.env =
        some (p', env) := by
  induction pipelines generalizing pipelines' with
  | nil => cases hturn
  | cons p rest ih =>
    dsimp only [turnPipelines] at hturn
    split at hturn
    · next p' env' hp =>
      obtain ⟨rfl, rfl⟩ := Prod.mk.inj (Option.some.inj hturn)
      exact ⟨0, p, p', _, rfl, rfl, hp⟩
    · obtain ⟨⟨rest', env'⟩, hrest, heq⟩ := Option.map_eq_some_iff.mp hturn
      obtain ⟨rfl, rfl⟩ := Prod.mk.inj heq
      obtain ⟨place, q, q', leading, hq, rfl, hturn⟩ := ih hrest
      exact ⟨place + 1, q, q', leading, hq, rfl, hturn⟩

theorem turn_step (hturn : o.turn pr = some o') : ∃ marks, Step pr o marks o' := by
  unfold Operator.turn at hturn
  split at hturn
  · next hstop =>
    obtain rfl := Option.some.inj hturn
    exact ⟨_, .stopped hstop⟩
  · split at hturn
    · next helection =>
      obtain rfl := Option.some.inj hturn
      exact ⟨_, .elected helection⟩
    · split at hturn
      · next pipelines env hpipelines =>
        obtain rfl := Option.some.inj hturn
        obtain ⟨place, p, p', leading, hp, rfl, hpipeline⟩ := exists_pipelineTurn hpipelines
        obtain ⟨marks, hact⟩ := pipelineTurn_act place hpipeline
        exact ⟨marks, .worked hp hact⟩
      · unfold Operator.resume? at hturn
        split at hturn
        · obtain rfl := Option.some.inj hturn
          exact ⟨[], .resumed⟩
        · cases hturn

end Turns

end Operator

end Reconciler.Host
