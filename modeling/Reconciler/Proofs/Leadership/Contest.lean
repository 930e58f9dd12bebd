import Mathlib.Logic.Relation
import Reconciler.Proofs.Leadership.Errand
import Reconciler.Proofs.Time.Order

/-!
# Electors over one lease

Any number of electors send requests to one server, each for errands of its own, under one clock. The
server keeps one lease, at first none. It applies a request at any time after it is sent, or never;
the answer comes at any time after that, or never. A create is accepted only if there is no lease, a
replace only if the lease is still of the version that it bears, a vacating always if there is one;
and every write makes a new version. An elector that drops an errand does not take back the request
that it has sent, and neither does an error: such a request is a stray, and may still be applied.
-/

namespace Reconciler.Leadership

/-! ## The server -/

/-- A lease as the server keeps it: under a version of its own, its instants to the microsecond. -/
def stamped (version : String) (lease : Lease) : Lease where
  metadata := { lease.metadata with resourceVersion := some version }
  spec := lease.spec.map fun s =>
    { s with
      acquireTime := s.acquireTime.map (·.truncated)
      renewTime := s.renewTime.map (·.truncated) }

/-- A lease without a holder. -/
def vacated (lease : Lease) (renewTime : Timestamp) : Lease :=
  { lease with
    spec := some { lease.spec.getD {} with holderIdentity := none, renewTime := some renewTime } }

/-- What a request makes of what is stored; none if it writes nothing, or is refused. -/
def applied? (stored : Option Lease) : LeaseCall → Option Lease
  | .create lease => if stored.isNone then some lease else none
  | .replace lease => stored.bind fun held =>
      if held.metadata.resourceVersion = lease.metadata.resourceVersion then some lease else none
  | .vacate renewTime => stored.map fun held => vacated held renewTime
  | _ => none

/-- The answer is an error. -/
def refused : (q : LeaseCall) → q.Answer → Bool
  | .get, .error _ => true
  | .create _, .error _ => true
  | .replace _, .error _ => true
  | .vacate _, .error _ => true
  | _, _ => false

theorem noted_of_granted (read : Option (Option Lease)) {q : LeaseCall} {answer : q.Answer}
    (h : granted q answer = true) : noted read q answer = read := by
  cases q with
  | get => cases h
  | _ => rfl

theorem noted_of_refused (read : Option (Option Lease)) {q : LeaseCall} {answer : q.Answer}
    (h : refused q answer = true) : noted read q answer = read ∧ granted q answer = false := by
  cases q with
  | clock => cases h
  | _ =>
    rcases answer with err | _
    · exact ⟨rfl, rfl⟩
    · cases h

/-! ## Tasks -/

/-- How far a task has got. -/
inductive Progress where
  /-- It waits for the server to deal with a request, unless it is at its end. -/
  | asking (plan : LeasePlan Election.Input)
  /-- The answer is on its way. -/
  | hearing (rest : LeasePlan Election.Input)
  | dropped

namespace Progress

/-- What is left of the plan. -/
def plan? : Progress → Option (LeasePlan Election.Input)
  | asking plan => some plan
  | hearing rest => some rest
  | dropped => none

/-- Nothing more will come of it. -/
def isOver : Progress → Bool
  | asking (.done _) => true
  | dropped => true
  | _ => false

end Progress

/-- An errand that an elector has begun. -/
structure Task (ι : Type) where
  owner : ι
  errand : Errand
  /-- The instant at which it began. -/
  since : Timestamp
  /-- The number of versions that there were then. -/
  known : Nat
  /-- What it has read, if it has. -/
  read : Option (Option Lease) := none
  progress : Progress

namespace Task

variable {ι : Type}

/-- The attempt has returned that this elector holds the lease. -/
def Succeeded (t : Task ι) : Prop := t.progress = .asking (.done (.attempted (.ok true)))

/-- The same task, further on. -/
structure Becomes (t t' : Task ι) : Prop where
  owner : t'.owner = t.owner
  errand : t'.errand = t.errand
  since : t'.since = t.since
  known : t'.known = t.known
  read : t.read = none ∨ t'.read = t.read

theorem Becomes.refl (t : Task ι) : t.Becomes t := ⟨rfl, rfl, rfl, rfl, .inr rfl⟩

end Task

/-! ## The contest -/

/-- One version of the lease, and the place of the task that made it. -/
structure Version where
  lease : Lease
  task : Nat

/-- What the server calls the version. -/
def Version.name (v : Version) : Option String := v.lease.metadata.resourceVersion

/-- Electors, named by `ι`, and the server, at an instant. -/
structure Contest (ι : Type) where
  now : Timestamp
  /-- The latest first. -/
  versions : List Version := []
  /-- In the order in which they began. -/
  tasks : List (Task ι) := []
  /-- Requests that may still be applied, with the places of their tasks. -/
  strays : List (Nat × LeaseCall) := []

namespace Contest

variable {ι : Type} (electors : ι → Elector)

def stored? (c : Contest ι) : Option Lease := c.versions.head?.map (·.lease)

def begin (c : Contest ι) (i : ι) (errand : Errand) : Contest ι :=
  { c with tasks := c.tasks ++ [
      { owner := i, errand, since := c.now, known := c.versions.length,
        progress := .asking (atOnce c.now (errand.plan (electors i))) }] }

def put (c : Contest ι) (k : Nat) (t : Task ι) : Contest ι := { c with tasks := c.tasks.set k t }

def push (c : Contest ι) (v : Version) : Contest ι := { c with versions := v :: c.versions }

/-- Drop a task that is not at its end. The request that it has sent becomes a stray. -/
def drop (c : Contest ι) (k : Nat) : Contest ι :=
  match c.tasks[k]? with
  | none => c
  | some t =>
    match t.progress with
    | .asking (.ask q _) =>
      { c.put k { t with progress := .dropped } with strays := (k, q) :: c.strays }
    | .hearing _ => c.put k { t with progress := .dropped }
    | _ => c

/-- The server has not called any version so. -/
def Fresh (c : Contest ι) (version : String) : Prop := some version ∉ c.versions.map Version.name

instance (c : Contest ι) (version : String) : Decidable (c.Fresh version) :=
  inferInstanceAs (Decidable (_ ∉ _))

/-- The task at a place waits for the server to deal with a request. -/
def Asks (c : Contest ι) (k : Nat) (t : Task ι) (q : LeaseCall)
    (next : q.Answer → LeasePlan Election.Input) : Prop :=
  c.tasks[k]? = some t ∧ t.progress = .asking (.ask q next)

/-- What can happen while no elector begins or drops an errand. -/
inductive Turn : Contest ι → Contest ι → Prop where
  | passed {c : Contest ι} {later : Timestamp} : c.now ≤ later → later.IsReading →
      Turn c { c with now := later }
  | fetched {c : Contest ι} {k : Nat} {t : Task ι}
      {next : LeaseCall.get.Answer → LeasePlan Election.Input} : c.Asks k t .get next →
      Turn c (c.put k { t with read := some c.stored?, progress := .hearing (next (.ok c.stored?)) })
  | accepted {c : Contest ι} {k : Nat} {t : Task ι} {q : LeaseCall}
      {next : q.Answer → LeasePlan Election.Input} {answer : q.Answer} {lease : Lease}
      {version : String} : c.Asks k t q next → applied? c.stored? q = some lease →
      c.Fresh version → granted q answer = true →
      Turn c ((c.push ⟨stamped version lease, k⟩).put k
        { t with progress := .hearing (next answer) })
  /-- The answer is an error, which says nothing about whether the request is applied. -/
  | failed {c : Contest ι} {k : Nat} {t : Task ι} {q : LeaseCall}
      {next : q.Answer → LeasePlan Election.Input} {answer : q.Answer} : c.Asks k t q next →
      refused q answer = true →
      Turn c { c.put k { t with progress := .hearing (next answer) } with
        strays := (k, q) :: c.strays }
  | heard {c : Contest ι} {k : Nat} {t : Task ι} {rest : LeasePlan Election.Input} :
      c.tasks[k]? = some t → t.progress = .hearing rest →
      Turn c (c.put k { t with progress := .asking (atOnce c.now rest) })
  | strayed {c : Contest ι} {k : Nat} {q : LeaseCall} {before after : List (Nat × LeaseCall)}
      {lease : Lease} {version : String} : c.strays = before ++ (k, q) :: after →
      applied? c.stored? q = some lease → c.Fresh version →
      Turn c ({ c with strays := before ++ after }.push ⟨stamped version lease, k⟩)

/-- Any elector may begin an errand, or drop one, at any time. -/
inductive Step : Contest ι → Contest ι → Prop where
  | turned {c c' : Contest ι} : Turn c c' → Step c c'
  | begun {c : Contest ι} (i : ι) (errand : Errand) : Step c (c.begin electors i errand)
  | dropped {c : Contest ι} (k : Nat) : Step c (c.drop k)

inductive Run (start : Contest ι) : Contest ι → Prop where
  | nil : Run start start
  | snoc {c c' : Contest ι} : Run start c → Step electors c c' → Run start c'

/-- Before the first errand: there is no lease. -/
def initial (now : Timestamp) : Contest ι := { now }

/-! ## A server that answers at once -/

variable {electors : ι → Elector} {c : Contest ι}

/-- A task hears an answer right after it is given. -/
theorem Turn.heard_put {k : Nat} {t : Task ι} {rest : LeasePlan Election.Input}
    (hlt : k < c.tasks.length) (ht : t.progress = .hearing rest) :
    Turn (c.put k t) (c.put k { t with progress := .asking (atOnce c.now rest) }) := by
  have hheard := Turn.heard (c := c.put k t) (List.getElem?_set_self hlt) ht
  simp only [Contest.put, List.set_set] at hheard
  exact hheard

/-- What a waiting task asks is read, and it goes on. -/
theorem Asks.read {k : Nat} {t : Task ι} {next : LeaseCall.get.Answer → LeasePlan Election.Input}
    (hasks : c.Asks k t .get next) :
    Relation.ReflTransGen Turn c (c.put k { t with
      read := some c.stored?, progress := .asking (atOnce c.now (next (.ok c.stored?))) }) := by
  have hlt : k < c.tasks.length := (List.getElem?_eq_some_iff.mp hasks.1).1
  have hfetched : Turn c _ := .fetched hasks
  exact .tail (.single hfetched) (.heard_put hlt rfl)

/-- What a waiting task writes is accepted, and it goes on. -/
theorem Asks.written {k : Nat} {t : Task ι} {q : LeaseCall}
    {next : q.Answer → LeasePlan Election.Input} (hasks : c.Asks k t q next) {lease : Lease}
    {version : String} (answer : q.Answer) (happlied : applied? c.stored? q = some lease)
    (hfresh : c.Fresh version) (hgranted : granted q answer = true) :
    Relation.ReflTransGen Turn c ((c.push ⟨stamped version lease, k⟩).put k { t with
      progress := .asking (atOnce c.now (next answer)) }) := by
  have hlt : k < c.tasks.length := (List.getElem?_eq_some_iff.mp hasks.1).1
  have haccepted : Turn c _ := .accepted hasks happlied hfresh hgranted
  exact .tail (.single haccepted) (.heard_put (c := c.push _) hlt rfl)

theorem Run.turns {start c' : Contest ι} (hrun : Run electors start c)
    (hturns : Relation.ReflTransGen Turn c c') : Run electors start c' := by
  induction hturns with
  | refl => exact hrun
  | tail _ hturn ih => exact ih.snoc (.turned hturn)

end Contest

end Reconciler.Leadership
