import Reconciler.Proofs.Dispatch.Tracing

/-!
# What handling an entry comes to

A plan is followed along every sequence of answers by `Plan.Ends`: whatever is answered, in the end a
condition holds of everything that was asked, with its answers, and of the result. For the plan of
an entry that surfaces while leading, `Dispatch.Handled` lists all there is: which calls are made in
which order, about which entity the verdict is, and what a success has to show.

Nothing is assumed about the answers but that a read brings what was asked for (`Dispatch.Fit`).
-/

namespace Reconciler

namespace Plan

variable {Q : Type} {A : Q → Type} {α β : Type}

/-- Whatever fit answers it gets, the plan ends so that a condition holds of its questions with their
answers, in order and after those of the past, and of its result. -/
def Ends (fit : (q : Q) → A q → Prop) (post : List ((q : Q) × A q) → α → Prop) :
    Plan Q A α → List ((q : Q) × A q) → Prop
  | done a, past => post past a
  | ask q next, past =>
    ∀ answer, fit q answer → (next answer).Ends fit post (past ++ [⟨q, answer⟩])

section Ends

variable {fit : (q : Q) → A q → Prop} {post : List ((q : Q) × A q) → α → Prop}

theorem Ends.mono {post' : List ((q : Q) × A q) → α → Prop} {plan : Plan Q A α}
    {past : List ((q : Q) × A q)} (h : plan.Ends fit post past)
    (himp : ∀ calls a, post calls a → post' calls a) : plan.Ends fit post' past := by
  induction plan generalizing past with
  | done a => exact himp past a h
  | ask q next ih =>
    intro answer hfit
    exact ih answer (h answer hfit)

theorem Ends.bind {post : List ((q : Q) × A q) → β → Prop} {plan : Plan Q A α}
    {f : α → Plan Q A β} {past : List ((q : Q) × A q)}
    (h : plan.Ends fit (fun calls a => (f a).Ends fit post calls) past) :
    (plan.bind f).Ends fit post past := by
  induction plan generalizing past with
  | done a => exact h
  | ask q next ih =>
    intro answer hfit
    exact ih answer (h answer hfit)

/-- A condition on the result alone does not depend on the past. -/
theorem Ends.any_past {P : α → Prop} {plan : Plan Q A α} {past : List ((q : Q) × A q)}
    (h : plan.Ends fit (fun _ a => P a) past) (past' : List ((q : Q) × A q)) :
    plan.Ends fit (fun _ a => P a) past' := by
  induction plan generalizing past past' with
  | done a => exact h
  | ask q next ih =>
    intro answer hfit
    exact ih answer (h answer hfit) _

/-- What holds of every way through a plan holds of its end. -/
theorem ends_of_comes {plan : Plan Q A α} {past : List ((q : Q) × A q)}
    (h : ∀ calls a, plan.Comes fit calls a → post (past ++ calls) a) : plan.Ends fit post past := by
  induction plan generalizing past with
  | done a =>
    have hpost := h [] a (.done a)
    rw [List.append_nil] at hpost
    exact hpost
  | ask q next ih =>
    intro answer hfit
    refine ih answer fun calls a hcomes => ?_
    rw [List.append_assoc]
    exact h _ a (.ask hfit hcomes)

theorem ends_true (plan : Plan Q A α) (past : List ((q : Q) × A q)) :
    plan.Ends fit (fun _ _ => True) past := by
  induction plan generalizing past with
  | done a => trivial
  | ask q next ih => exact fun answer _ => ih answer _

/-- The result of a plan whose questions are settled by plans of further questions, from what these
come to. -/
theorem Ends.interpret {P : α → Prop} {Q' : Type} {A' : Q' → Type}
    {settle : (q : Q) → Plan Q' A' (A q)} {fit' : (q : Q') → A' q → Prop} {plan : Plan Q A α} {past : List ((q : Q) × A q)}
    (h : plan.Ends fit (fun _ a => P a) past)
    (hsettle : ∀ q, (settle q).Ends fit' (fun _ answer => fit q answer) [])
    (past' : List ((q : Q') × A' q)) :
    (plan.interpret settle).Ends fit' (fun _ a => P a) past' := by
  induction plan generalizing past past' with
  | done a => exact h
  | ask q next ih =>
    refine Ends.bind (((hsettle q).any_past past').mono ?_)
    intro calls answer hfit
    exact ih answer (h answer hfit) calls

end Ends

/-- Settling every question by asking it changes nothing. -/
@[simp] theorem interpret_call (plan : Plan Q A α) : plan.interpret call = plan := by
  induction plan with
  | done a => rfl
  | ask q next ih => simp only [interpret, call, Plan.bind, ih]

end Plan

namespace Dispatch

variable {K : Type} [Entity K]

/-- The client reads the entity that it is asked for, if it reads one. -/
def Fit : (call : Call K) → call.Answer → Prop
  | .get name ns, answer => ∀ x, answer = (.ok (some x) : Except Error (Option K)) →
      Entity.key? x = some ⟨ns, name⟩
  | _, _ => True

/-! ## A success -/

/-- The calls of a pass over finalizers that succeeds: each one that is on the entity when its turn
comes has run, and was taken off afterwards unless that is not wanted. -/
inductive Finalized (p : Policy) : Nat → List String → K → List (Asked K) → Prop where
  | done (place : Nat) (x : K) : Finalized p place [] x []
  | absent {place : Nat} {id : String} {rest : List String} {x : K} {calls : List (Asked K)} :
      (Entity.metadata x).hasFinalizer id = false → Finalized p (place + 1) rest x calls →
      Finalized p place (id :: rest) x calls
  | kept {place : Nat} {id : String} {rest : List String} {x : K} {calls : List (Asked K)} :
      (Entity.metadata x).hasFinalizer id = true → p.autoDetach = false →
      Finalized p (place + 1) rest x calls →
      Finalized p place (id :: rest) x (⟨.finalize place id x, Except.ok ()⟩ :: calls)
  | detached {place : Nat} {id : String} {rest : List String} {x stored : K}
      {calls : List (Asked K)} :
      (Entity.metadata x).hasFinalizer id = true → p.autoDetach = true →
      Finalized p (place + 1) rest stored calls →
      Finalized p place (id :: rest) x
        (⟨.finalize place id x, Except.ok ()⟩ :: ⟨.update (detach x id), Except.ok stored⟩ :: calls)

/-- The calls that a success for an entity consists of: a reconcile of it, or of what the client
stored with the missing finalizers attached, and a pass over the finalizers if it is marked for
deletion. -/
inductive Succeeded (p : Policy) (x : K) : Action → List (Asked K) → Prop where
  | reconciled {action : Action} : Entity.isDeleting x = false →
      Succeeded p x action [⟨.reconcile x, Except.ok action⟩]
  | attached {action : Action} {stored : K} : Entity.isDeleting x = false →
      Succeeded p x action [⟨.update (attach x (missingFinalizers p x)), Except.ok stored⟩,
        ⟨.reconcile stored, Except.ok action⟩]
  | finalized {calls : List (Asked K)} : Entity.isDeleting x = true →
      Finalized p 0 p.finalizers x calls → Succeeded p x .awaitChange calls

/-- The end of looking at an entity as a whole. -/
inductive Settled (p : Policy) (x : K) : List (Asked K) → K × Verdict → Prop where
  | succeeded {calls : List (Asked K)} {action : Action} :
      Succeeded p x action calls → Settled p x calls (x, .succeeded action)
  | failed (calls : List (Asked K)) (error : Error) : Settled p x calls (x, .failed error)

theorem Rounds.finalized {p : Policy} {place : Nat} {ids : List String} {x : K}
    {rounds : List (Round K)} (h : Rounds p place ids x rounds) {action : Action}
    (hpassed : outcomeOf rounds = .ok action) :
    Finalized p place ids x (rounds.flatMap Round.calls) := by
  induction h with
  | done place x => exact .done place x
  | absent hid _ ih =>
    exact .absent (Bool.eq_false_iff.mpr (mt hasFinalizer_iff.mp hid)) (ih hpassed)
  | failed _ _ hfailure =>
    obtain ⟨error, herror⟩ := Option.ne_none_iff_exists'.mp hfailure
    rw [outcomeOf_of_failure herror] at hpassed
    cases hpassed
  | @passed _ _ _ _ round rounds hid hturn hfailure _ ih =>
    obtain ⟨place, id, entity, answer, update⟩ := round
    obtain ⟨rfl, rfl, rfl, hupdate⟩ := hturn
    have hpass := ih ((outcomeOf_cons hfailure rounds).symm.trans hpassed)
    rcases answer with error | ⟨⟩
    · cases hfailure
    rcases update with _ | (error | stored)
    · refine .kept (hasFinalizer_iff.mpr hid) (Bool.eq_false_iff.mpr fun hdetach => ?_) hpass
      exact Bool.false_ne_true (hupdate.mpr ⟨hdetach, rfl⟩)
    · cases hfailure
    · exact .detached (hasFinalizer_iff.mpr hid) (hupdate.mp rfl).1 hpass

theorem Tried.succeeded {p : Policy} {x : K} {calls : List (Asked K)} {action : Action}
    (h : Tried p x calls (.ok action)) (hlive : Entity.isDeleting x = false) :
    Succeeded p x action calls := by
  cases h with
  | plain => exact .reconciled hlive
  | attached => exact .attached hlive

/-- What an outcome has to show makes for the end with its verdict. -/
theorem settled_of_succeeded {p : Policy} {x : K} {calls : List (Asked K)}
    {outcome : Except Error Action}
    (h : ∀ action, outcome = .ok action → Succeeded p x action calls) :
    Settled p x calls (x, .ofOutcome outcome) := by
  cases outcome with
  | error error => exact .failed calls error
  | ok action => exact .succeeded (h action rfl)

/-! ## Entries -/

/-- How the entity comes about that an entry is handled with: a requeued one is read again. -/
inductive Found (entry : Queue.Entry K) : List (Asked K) → K → Prop where
  | given : entry.trigger ≠ .requeue → entry.trigger ≠ .deleted → Found entry [] entry.entity
  | reread {name : String} {x : K} : entry.trigger = .requeue →
      (Entity.metadata entry.entity).name = some name →
      Entity.key? x = some ⟨(Entity.metadata entry.entity).ns, name⟩ →
      Found entry [⟨.get name (Entity.metadata entry.entity).ns, Except.ok (some x)⟩] x

/-- All that an entry with an identity can come to while leading. -/
inductive Handled (p : Policy) (entry : Queue.Entry K) : List (Asked K) → K × Verdict → Prop where
  /-- A change of status or finalizers alone asks for nothing. -/
  | skipped : entry.trigger = .statusModified ∨ entry.trigger = .finalizersModified →
      Handled p entry [] (entry.entity, .skipped)
  /-- The controller has heard of the deletion. -/
  | told (answer : Except Error Unit) : entry.trigger = .deleted →
      Handled p entry [⟨.deleted entry.entity, answer⟩] (entry.entity, .forgotten)
  /-- The entity that was to be looked at again is not there any more. -/
  | gone {name : String} : entry.trigger = .requeue →
      (Entity.metadata entry.entity).name = some name →
      Handled p entry [⟨.get name (Entity.metadata entry.entity).ns, Except.ok none⟩]
        (entry.entity, .forgotten)
  | unread {name : String} (error : Error) : entry.trigger = .requeue →
      Handled p entry [⟨.get name (Entity.metadata entry.entity).ns, Except.error error⟩]
        (entry.entity, .failed error)
  | settled {before calls : List (Asked K)} {x : K} {r : K × Verdict} : Found entry before x →
      Settled p x calls r → Handled p entry (before ++ calls) r

theorem Settled.fst {p : Policy} {x : K} {calls : List (Asked K)} {r : K × Verdict}
    (h : Settled p x calls r) : r.1 = x := by
  cases h <;> rfl

theorem Found.key?_eq {entry : Queue.Entry K} {before : List (Asked K)} {x : K}
    (h : Found entry before x) : Entity.key? x = Entity.key? entry.entity := by
  cases h with
  | given => rfl
  | reread _ hname hkey => rw [hkey, Entity.key?, Metadata.key?, hname]; rfl

/-- The verdict concerns the identity of the entry. -/
theorem Handled.key?_eq {p : Policy} {entry : Queue.Entry K} {calls : List (Asked K)}
    {r : K × Verdict} (h : Handled p entry calls r) :
    Entity.key? r.1 = Entity.key? entry.entity := by
  cases h with
  | settled hfound hsettled => rw [hsettled.fst, hfound.key?_eq]
  | skipped => rfl
  | told => rfl
  | gone => rfl
  | unread => rfl

theorem Seen.found {entry : Queue.Entry K} {before : List (Asked K)} {x : K}
    (h : Seen entry before x) (hfit : ∀ call ∈ before, Fit call.1 call.2) : Found entry before x := by
  cases h with
  | given htrigger =>
    rcases htrigger with htrigger | htrigger <;>
      exact .given (by simp [htrigger]) (by simp [htrigger])
  | reread x htrigger hname => exact .reread htrigger hname (hfit _ (List.mem_singleton_self _) x rfl)

/-- Handling an entry of a named entity while leading comes to nothing that `Handled` does not
list. -/
theorem handle_ends (p : Policy) (entry : Queue.Entry K) {key : EntityKey}
    (hkey : Entity.key? entry.entity = some key) :
    (handle p true entry).Ends Fit (Handled p entry) [] := by
  refine Plan.ends_of_comes fun calls r hcomes => ?_
  have hfit := hcomes.all_fit
  rw [List.nil_append]
  cases dealt_of_comes hcomes with
  | skipped hskipped => exact .skipped (hskipped.imp_right And.left)
  | told answer htrigger => exact .told answer htrigger
  | nameless _ hname => simp [Entity.key?, Metadata.key?, hname] at hkey
  | gone htrigger hname => exact .gone htrigger hname
  | unread error htrigger => exact .unread error htrigger
  | passed hseen hdeleting hrounds =>
    refine .settled (hseen.found fun call hmem => hfit call (List.mem_append_left _ hmem)) ?_
    refine settled_of_succeeded fun action haction => ?_
    obtain rfl := awaitChange_of_outcomeOf haction
    exact .finalized hdeleting (hrounds.finalized haction)
  | tried hseen _ hlive htried =>
    refine .settled (hseen.found fun call hmem => hfit call (List.mem_append_left _ hmem)) ?_
    refine settled_of_succeeded fun action haction => ?_
    subst haction
    exact htried.succeeded hlive

end Dispatch

end Reconciler
