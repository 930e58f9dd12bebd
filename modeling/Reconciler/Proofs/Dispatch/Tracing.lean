import Reconciler.Dispatch
import Reconciler.Mirror.ConfigMirror
import Reconciler.Simulation.Widget

/-!
# What is called for an entry

Every way through the plan of an entry, with whatever answers, is described once here (`Dealt`): which
calls were made in which order, how each was answered, and what the verdict is. The entity that a
verdict is about is told by the calls (`subject?`): a requeued one is the one that was read again.

A pass over the finalizers of an entity is told in rounds. A `Round` is one finalizer that ran, with
the update that took it off, if there was one.
-/

namespace Reconciler

namespace Plan

variable {Q : Type} {A : Q → Type} {α β : Type}

/-- One way through a plan: its questions with fit answers, and its result. -/
inductive Comes (fit : (q : Q) → A q → Prop) : Plan Q A α → List ((q : Q) × A q) → α → Prop where
  | done (a : α) : Comes fit (.done a) [] a
  | ask {q : Q} {next : A q → Plan Q A α} {answer : A q} {calls : List ((q : Q) × A q)} {a : α} :
      fit q answer → Comes fit (next answer) calls a →
      Comes fit (.ask q next) (⟨q, answer⟩ :: calls) a

section Comes

variable {fit : (q : Q) → A q → Prop} {calls : List ((q : Q) × A q)}

theorem comes_done {a r : α} : (Plan.done a).Comes fit calls r ↔ calls = [] ∧ r = a := by
  constructor
  · intro h
    cases h
    exact ⟨rfl, rfl⟩
  · rintro ⟨rfl, rfl⟩
    exact .done r

theorem comes_ask {q : Q} {next : A q → Plan Q A α} {r : α} : (Plan.ask q next).Comes fit calls r ↔
    ∃ answer rest, calls = ⟨q, answer⟩ :: rest ∧ fit q answer ∧ (next answer).Comes fit rest r := by
  constructor
  · intro h
    cases h with
    | ask hfit hrest => exact ⟨_, _, rfl, hfit, hrest⟩
  · rintro ⟨answer, rest, rfl, hfit, hrest⟩
    exact .ask hfit hrest

theorem comes_bind {plan : Plan Q A α} {f : α → Plan Q A β} {r : β} :
    (plan.bind f).Comes fit calls r ↔ ∃ first rest a, calls = first ++ rest ∧
      plan.Comes fit first a ∧ (f a).Comes fit rest r := by
  induction plan generalizing calls with
  | done a =>
    constructor
    · intro h
      exact ⟨[], calls, a, rfl, .done a, h⟩
    · rintro ⟨first, rest, b, rfl, hfirst, hrest⟩
      obtain ⟨rfl, rfl⟩ := comes_done.mp hfirst
      exact hrest
  | ask q next ih =>
    rw [show (Plan.ask q next).bind f = .ask q fun answer => (next answer).bind f from rfl, comes_ask]
    constructor
    · rintro ⟨answer, later, rfl, hfit, hlater⟩
      obtain ⟨first, rest, a, rfl, hfirst, hrest⟩ := (ih answer).mp hlater
      exact ⟨⟨q, answer⟩ :: first, rest, a, rfl, .ask hfit hfirst, hrest⟩
    · rintro ⟨first, rest, a, rfl, hfirst, hrest⟩
      obtain ⟨answer, later, rfl, hfit, hlater⟩ := comes_ask.mp hfirst
      exact ⟨answer, later ++ rest, rfl, hfit, (ih answer).mpr ⟨later, rest, a, rfl, hlater, hrest⟩⟩

theorem Comes.all_fit {plan : Plan Q A α} {r : α} (h : plan.Comes fit calls r) :
    ∀ call ∈ calls, fit call.1 call.2 := by
  induction h with
  | done a => exact List.forall_mem_nil _
  | ask hfit _ ih => exact List.forall_mem_cons.mpr ⟨hfit, ih⟩

end Comes

end Plan

/-- Metadata is a part of an entity that can be exchanged. -/
class LawfulEntity (K : Type) [Entity K] : Prop where
  metadata_withMetadata : ∀ (e : K) m, Entity.metadata (Entity.withMetadata e m) = m

attribute [simp] LawfulEntity.metadata_withMetadata

instance : LawfulEntity Simulation.Widget := ⟨fun _ _ => rfl⟩

instance : LawfulEntity Mirror.ConfigMirror := ⟨fun _ _ => rfl⟩

namespace Dispatch

variable {K : Type} [Entity K]

/-- The finalizers of an entity. -/
def remaining (e : K) : List String := (Entity.metadata e).finalizers.getD []

theorem hasFinalizer_iff {e : K} {id : String} :
    (Entity.metadata e).hasFinalizer id = true ↔ id ∈ remaining e := by
  simp [Metadata.hasFinalizer, remaining]

theorem remaining_withFinalizers [LawfulEntity K] (e : K) (finalizers : Option (List String)) :
    remaining (Entity.withFinalizers e finalizers) = finalizers.getD [] := by
  simp [remaining, Entity.withFinalizers]

/-! ## Calls -/

section Calls

omit [Entity K]

/-- A call and its answer. -/
abbrev Asked (K : Type) : Type := (call : Call K) × call.Answer

def Asked.read? : Asked K → Option K
  | ⟨.get _ _, .ok found⟩ => found
  | _ => none

/-- The call was answered with an error. -/
def Asked.error? : Asked K → Option Error
  | ⟨.get _ _, .error error⟩ => some error
  | ⟨.update _, .error error⟩ => some error
  | ⟨.reconcile _, .error error⟩ => some error
  | ⟨.deleted _, .error error⟩ => some error
  | ⟨.finalize _ _ _, .error error⟩ => some error
  | _ => none

/-- The entity that an entry is handled with, of one that is looked at: a requeued one is the one that
is read again. -/
def subject? (entry : Queue.Entry K) (calls : List (Asked K)) : Option K :=
  if entry.trigger = .requeue then calls.head?.bind Asked.read? else some entry.entity

/-- The calls without the one that reads a requeued entity again. -/
def afterReading (entry : Queue.Entry K) (calls : List (Asked K)) : List (Asked K) :=
  if entry.trigger = .requeue then calls.tail else calls

end Calls

/-- An update is answered with what was stored: what was sent, as far as finalizers and the mark of a
deletion go. -/
def Retains : (call : Call K) → call.Answer → Prop
  | .update sent, answer => ∀ stored, answer = (.ok stored : Except Error K) →
      (Entity.metadata stored).finalizers = (Entity.metadata sent).finalizers ∧
        (Entity.metadata stored).deletionTimestamp = (Entity.metadata sent).deletionTimestamp
  | _, _ => True

/-! ## Rounds -/

section Rounds

omit [Entity K]

/-- A finalizer that ran on an entity, how that ended, and the answer to the update that followed, if
there was one. -/
structure Round (K : Type) where
  place : Nat
  id : String
  entity : K
  answer : Except Error Unit
  update : Option (Except Error K) := none

/-- What the client has stored of the entity after the round. -/
def Round.next (round : Round K) : K :=
  match round.update with
  | some (.ok stored) => stored
  | _ => round.entity

def storedAfter (x : K) (rounds : List (Round K)) : K := rounds.foldl (fun _ round => round.next) x

/-- The finalizers that rounds have taken off. -/
def detachedIn (rounds : List (Round K)) : List String :=
  rounds.filterMap fun round => match round.update with
    | some (.ok _) => some round.id
    | _ => none

end Rounds

namespace Round

variable (round : Round K)

def calls : List (Asked K) :=
  ⟨.finalize round.place round.id round.entity, round.answer⟩ ::
    (round.update.map fun answer => ⟨.update (detach round.entity round.id), answer⟩).toList

def failure? : Option Error :=
  match round.answer, round.update with
  | .error error, _ => some (.finalizer round.id (Entity.ref round.entity) error.message)
  | .ok (), some (.error error) => some error
  | .ok (), _ => none

/-- The round of a finalizer at its turn: it runs on what is stored, and a success is followed by an
update if finalizers are to be taken off. -/
structure IsTurn (p : Policy) (place : Nat) (id : String) (x : K) : Prop where
  place_eq : round.place = place
  id_eq : round.id = id
  entity_eq : round.entity = x
  updated_iff : round.update.isSome ↔ p.autoDetach = true ∧ round.answer = .ok ()

end Round

/-- What the rounds of a pass come to: the error of the last one, or nothing more to do. -/
def outcomeOf (rounds : List (Round K)) : Except Error Action :=
  match rounds.getLast?.bind Round.failure? with
  | some error => .error error
  | none => .ok .awaitChange

/-- The rounds over finalizers, the first of them at a place in the order of registration, for an
entity. -/
inductive Rounds (p : Policy) : Nat → List String → K → List (Round K) → Prop
  | done (place : Nat) (x : K) : Rounds p place [] x []
  | absent {place : Nat} {id : String} {rest : List String} {x : K} {rounds : List (Round K)} :
      id ∉ remaining x → Rounds p (place + 1) rest x rounds → Rounds p place (id :: rest) x rounds
  | failed {place : Nat} {id : String} {rest : List String} {x : K} {round : Round K} :
      id ∈ remaining x → round.IsTurn p place id x → round.failure? ≠ none →
      Rounds p place (id :: rest) x [round]
  | passed {place : Nat} {id : String} {rest : List String} {x : K} {round : Round K}
      {rounds : List (Round K)} :
      id ∈ remaining x → round.IsTurn p place id x → round.failure? = none →
      Rounds p (place + 1) rest round.next rounds → Rounds p place (id :: rest) x (round :: rounds)

section Passes

variable {p : Policy} {fit : (call : Call K) → call.Answer → Prop} {calls : List (Asked K)}

theorem outcomeOf_cons {round : Round K} (h : round.failure? = none) (rounds : List (Round K)) :
    outcomeOf (round :: rounds) = outcomeOf rounds := by
  cases rounds with
  | nil => simp [outcomeOf, h]
  | cons next rest => simp [outcomeOf, List.getLast?_cons_cons]

theorem outcomeOf_of_failure {round : Round K} {error : Error} (h : round.failure? = some error) :
    outcomeOf [round] = .error error := by
  simp [outcomeOf, h]

/-- A pass over finalizers asks for no further reconcile. -/
theorem awaitChange_of_outcomeOf {rounds : List (Round K)} {action : Action}
    (h : outcomeOf rounds = .ok action) : action = .awaitChange := by
  unfold outcomeOf at h
  split at h
  · cases h
  · exact (Except.ok.inj h).symm

/-- Every pass is one of rounds. -/
theorem rounds_of_comes {place : Nat} {ids : List String} {x : K} {r : Except Error Action}
    (h : (finalizeFrom p place ids x).Comes fit calls r) :
    ∃ rounds, calls = rounds.flatMap Round.calls ∧ Rounds p place ids x rounds ∧
      r = outcomeOf rounds := by
  induction ids generalizing place x calls r with
  | nil =>
    obtain ⟨rfl, rfl⟩ := Plan.comes_done.mp h
    exact ⟨[], rfl, .done place x, rfl⟩
  | cons id rest ih =>
    unfold finalizeFrom at h
    by_cases hhas : (Entity.metadata x).hasFinalizer id = true
    · rw [if_pos hhas] at h
      have hid : id ∈ remaining x := hasFinalizer_iff.mp hhas
      obtain ⟨answer, later, rfl, -, hlater⟩ := Plan.comes_ask.mp h
      rcases answer with error | ⟨⟩
      · obtain ⟨rfl, rfl⟩ := Plan.comes_done.mp hlater
        exact ⟨[⟨place, id, x, .error error, none⟩], rfl,
          .failed hid ⟨rfl, rfl, rfl, by simp⟩ (by simp [Round.failure?]), rfl⟩
      by_cases hdetach : p.autoDetach = true
      · simp only [hdetach, if_true] at hlater
        obtain ⟨answer, later, rfl, -, hrest⟩ := Plan.comes_ask.mp hlater
        rcases answer with error | stored
        · obtain ⟨rfl, rfl⟩ := Plan.comes_done.mp hrest
          exact ⟨[⟨place, id, x, .ok (), some (.error error)⟩], rfl,
            .failed hid ⟨rfl, rfl, rfl, by simp [hdetach]⟩ (by simp [Round.failure?]), rfl⟩
        · obtain ⟨rounds, rfl, hrounds, rfl⟩ := ih hrest
          refine ⟨⟨place, id, x, .ok (), some (.ok stored)⟩ :: rounds, rfl,
            .passed hid ⟨rfl, rfl, rfl, by simp [hdetach]⟩ rfl hrounds, ?_⟩
          exact (outcomeOf_cons rfl rounds).symm
      · simp only [hdetach, Bool.false_eq_true, if_false] at hlater
        obtain ⟨rounds, rfl, hrounds, rfl⟩ := ih hlater
        refine ⟨⟨place, id, x, .ok (), none⟩ :: rounds, rfl,
          .passed hid ⟨rfl, rfl, rfl, by simp [hdetach]⟩ rfl hrounds, ?_⟩
        exact (outcomeOf_cons rfl rounds).symm
    · rw [if_neg hhas] at h
      obtain ⟨rounds, rfl, hrounds, rfl⟩ := ih h
      exact ⟨rounds, rfl, .absent (fun hid => hhas (hasFinalizer_iff.mpr hid)) hrounds, rfl⟩

end Passes

/-! ## Entries -/

/-- The entity that is looked at as a whole, and the calls that it takes to have it. -/
inductive Seen (entry : Queue.Entry K) : List (Asked K) → K → Prop
  | given : entry.trigger = .reconcile ∨ entry.trigger = .finalizersModified →
      Seen entry [] entry.entity
  | reread {name : String} (x : K) : entry.trigger = .requeue →
      (Entity.metadata entry.entity).name = some name →
      Seen entry [⟨.get name (Entity.metadata entry.entity).ns, Except.ok (some x)⟩] x

/-- The calls of a reconcile with the attaching before it, and what it comes to. -/
inductive Tried (p : Policy) (x : K) : List (Asked K) → Except Error Action → Prop
  | plain (answer : Except Error Action) : p.autoAttach = false ∨ missingFinalizers p x = [] →
      Tried p x [⟨.reconcile x, answer⟩] answer
  | unattached (error : Error) : p.autoAttach = true → missingFinalizers p x ≠ [] →
      Tried p x [⟨.update (attach x (missingFinalizers p x)), Except.error error⟩] (.error error)
  | attached (stored : K) (answer : Except Error Action) : p.autoAttach = true →
      missingFinalizers p x ≠ [] →
      Tried p x [⟨.update (attach x (missingFinalizers p x)), Except.ok stored⟩,
        ⟨.reconcile stored, answer⟩] answer

/-- All that an entry can come to. -/
inductive Dealt (p : Policy) (entry : Queue.Entry K) : Bool → List (Asked K) → K × Verdict → Prop
  | dropped : Dealt p entry false [] (entry.entity, .forgotten)
  | skipped : entry.trigger = .statusModified ∨
      entry.trigger = .finalizersModified ∧ Entity.isDeleting entry.entity = false →
      Dealt p entry true [] (entry.entity, .skipped)
  | told (answer : Except Error Unit) : entry.trigger = .deleted →
      Dealt p entry true [⟨.deleted entry.entity, answer⟩] (entry.entity, .forgotten)
  | nameless : entry.trigger = .requeue → (Entity.metadata entry.entity).name = none →
      Dealt p entry true [] (entry.entity, .forgotten)
  | gone {name : String} : entry.trigger = .requeue →
      (Entity.metadata entry.entity).name = some name →
      Dealt p entry true [⟨.get name (Entity.metadata entry.entity).ns, Except.ok none⟩]
        (entry.entity, .forgotten)
  | unread {name : String} (error : Error) : entry.trigger = .requeue →
      (Entity.metadata entry.entity).name = some name →
      Dealt p entry true [⟨.get name (Entity.metadata entry.entity).ns, Except.error error⟩]
        (entry.entity, .failed error)
  | passed {before : List (Asked K)} {x : K} {rounds : List (Round K)} : Seen entry before x →
      Entity.isDeleting x = true → Rounds p 0 p.finalizers x rounds →
      Dealt p entry true (before ++ rounds.flatMap Round.calls) (x, .ofOutcome (outcomeOf rounds))
  | tried {before own : List (Asked K)} {x : K} {outcome : Except Error Action} :
      Seen entry before x → entry.trigger ≠ .finalizersModified → Entity.isDeleting x = false →
      Tried p x own outcome → Dealt p entry true (before ++ own) (x, .ofOutcome outcome)

section Entries

variable {p : Policy} {fit : (call : Call K) → call.Answer → Prop} {calls : List (Asked K)}
  {entry : Queue.Entry K} {before : List (Asked K)} {x : K}

theorem Seen.subject?_eq (h : Seen entry before x)
    (own : List (Asked K)) : subject? entry (before ++ own) = some x := by
  cases h with
  | given htrigger => rcases htrigger with htrigger | htrigger <;> simp [subject?, htrigger]
  | reread x htrigger => simp [subject?, htrigger, Asked.read?]

theorem Seen.afterReading_eq (h : Seen entry before x)
    (own : List (Asked K)) : afterReading entry (before ++ own) = own := by
  cases h with
  | given htrigger => rcases htrigger with htrigger | htrigger <;> simp [afterReading, htrigger]
  | reread x htrigger => simp [afterReading, htrigger]

theorem tried_of_comes {r : Except Error Action}
    (h : (reconcile p x).Comes fit calls r) : Tried p x calls r := by
  unfold reconcile at h
  by_cases hmissing : (p.autoAttach && !(missingFinalizers p x).isEmpty) = true
  · obtain ⟨answer, later, rfl, -, hlater⟩ := Plan.comes_ask.mp ((if_pos hmissing) ▸ h)
    rw [Bool.and_eq_true, Bool.not_eq_true', List.isEmpty_eq_false_iff] at hmissing
    rcases answer with error | stored
    · obtain ⟨rfl, rfl⟩ := Plan.comes_done.mp hlater
      exact .unattached error hmissing.1 hmissing.2
    · obtain ⟨answer, later, rfl, -, hdone⟩ := Plan.comes_ask.mp hlater
      obtain ⟨rfl, rfl⟩ := Plan.comes_done.mp hdone
      exact .attached stored r hmissing.1 hmissing.2
  · obtain ⟨answer, later, rfl, -, hdone⟩ := Plan.comes_ask.mp ((if_neg hmissing) ▸ h)
    obtain ⟨rfl, rfl⟩ := Plan.comes_done.mp hdone
    refine .plain r ?_
    simpa [Decidable.imp_iff_not_or] using hmissing

/-- An entity that was seen is looked at, unless only its finalizers have changed and it lives. -/
theorem dealt_of_settled {r : K × Verdict} (hseen : Seen entry before x)
    (hdue : Entity.isDeleting x = true ∨ entry.trigger ≠ .finalizersModified)
    (h : (settle p x).Comes fit calls r) : Dealt p entry true (before ++ calls) r := by
  by_cases hdeleting : Entity.isDeleting x = true
  · have heq : settle p x = (finalize p x).bind fun outcome => .done (x, .ofOutcome outcome) :=
      if_pos hdeleting
    obtain ⟨own, rest, outcome, rfl, hpass, hdone⟩ := Plan.comes_bind.mp (heq ▸ h)
    obtain ⟨rfl, rfl⟩ := Plan.comes_done.mp hdone
    obtain ⟨rounds, rfl, hrounds, rfl⟩ := rounds_of_comes hpass
    rw [List.append_nil]
    exact .passed hseen hdeleting hrounds
  · have heq : settle p x = (reconcile p x).bind fun outcome => .done (x, .ofOutcome outcome) :=
      if_neg hdeleting
    obtain ⟨own, rest, outcome, rfl, htry, hdone⟩ := Plan.comes_bind.mp (heq ▸ h)
    obtain ⟨rfl, rfl⟩ := Plan.comes_done.mp hdone
    rw [List.append_nil]
    exact .tried hseen (hdue.resolve_left hdeleting) (by simpa using hdeleting) (tried_of_comes htry)

/-- Nothing else comes of an entry. -/
theorem dealt_of_comes {leading : Bool} {r : K × Verdict}
    (h : (handle p leading entry).Comes fit calls r) : Dealt p entry leading calls r := by
  cases leading with
  | false =>
    obtain ⟨rfl, rfl⟩ := Plan.comes_done.mp h
    exact .dropped
  | true =>
    simp only [handle, Bool.not_true, Bool.false_eq_true, if_false] at h
    cases htrigger : entry.trigger with
    | reconcile =>
      rw [htrigger] at h
      exact dealt_of_settled (.given (.inl htrigger)) (.inr (by simp [htrigger])) h
    | statusModified =>
      rw [htrigger] at h
      obtain ⟨rfl, rfl⟩ := Plan.comes_done.mp h
      exact .skipped (.inl htrigger)
    | finalizersModified =>
      simp only [htrigger] at h
      by_cases hdeleting : Entity.isDeleting entry.entity = true
      · rw [if_pos hdeleting] at h
        exact dealt_of_settled (.given (.inr htrigger)) (.inl hdeleting) h
      · rw [if_neg hdeleting] at h
        obtain ⟨rfl, rfl⟩ := Plan.comes_done.mp h
        exact .skipped (.inr ⟨htrigger, by simpa using hdeleting⟩)
    | deleted =>
      rw [htrigger] at h
      obtain ⟨answer, later, rfl, -, hdone⟩ := Plan.comes_ask.mp h
      obtain ⟨rfl, rfl⟩ := Plan.comes_done.mp hdone
      exact .told answer htrigger
    | requeue =>
      simp only [htrigger, refresh] at h
      cases hname : (Entity.metadata entry.entity).name with
      | none =>
        rw [hname] at h
        obtain ⟨rfl, rfl⟩ := Plan.comes_done.mp h
        exact .nameless htrigger hname
      | some name =>
        rw [hname] at h
        obtain ⟨answer, later, rfl, -, hlater⟩ := Plan.comes_ask.mp h
        rcases answer with error | (_ | x)
        · obtain ⟨rfl, rfl⟩ := Plan.comes_done.mp hlater
          exact .unread error htrigger hname
        · obtain ⟨rfl, rfl⟩ := Plan.comes_done.mp hlater
          exact .gone htrigger hname
        · exact dealt_of_settled (.reread x htrigger hname) (.inr (by simp [htrigger])) hlater

end Entries

end Dispatch

end Reconciler
