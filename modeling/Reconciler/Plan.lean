/-!
# Plans

A plan is what a component will do next as far as it depends on others: a question, and a plan for
every answer. Questions have a type of answers each. A plan is data, so the same one can be run
against a server, against a script, or followed in a proof along every possible answer; how long an
answer takes, and what else happens before it comes, is decided by whoever runs the plan.
-/

namespace Reconciler

/-- A computation that ends with an `α` after finitely many questions. -/
inductive Plan (Q : Type) (A : Q → Type) (α : Type) where
  | done (result : α)
  | ask (question : Q) (next : A question → Plan Q A α)

namespace Plan

variable {Q : Type} {A : Q → Type} {α β : Type}

/-- One plan, then another that depends on its result. -/
def bind : Plan Q A α → (α → Plan Q A β) → Plan Q A β
  | done a, f => f a
  | ask q next, f => ask q fun answer => (next answer).bind f

/-- The plan with its result passed through a function. -/
def map (f : α → β) (plan : Plan Q A α) : Plan Q A β := plan.bind fun a => done (f a)

instance : Monad (Plan Q A) where
  pure := done
  bind := bind

/-- The plan of one question, whose result is the answer. -/
def call (q : Q) : Plan Q A (A q) := ask q done

/-- The plan in which every question is settled by a plan of further questions. -/
def interpret {P : Type} {B : P → Type} (settle : (q : Q) → Plan P B (A q)) :
    Plan Q A α → Plan P B α
  | done a => .done a
  | ask q next => (settle q).bind fun answer => (next answer).interpret settle

/-- The result of a plan when every question is answered by a function. -/
def answeredBy (answer : (q : Q) → A q) : Plan Q A α → α
  | done a => a
  | ask q next => (next (answer q)).answeredBy answer

/-- The questions of a plan in order when every question is answered by a function. -/
def asked (answer : (q : Q) → A q) : Plan Q A α → List Q
  | done _ => []
  | ask q next => q :: (next (answer q)).asked answer

/-! ## Laws -/

@[simp] theorem answeredBy_bind (answer : (q : Q) → A q) (plan : Plan Q A α)
    (f : α → Plan Q A β) :
    (plan.bind f).answeredBy answer = (f (plan.answeredBy answer)).answeredBy answer := by
  induction plan with
  | done a => rfl
  | ask q next ih => simp [bind, answeredBy, ih]

/-- Of two plans in a row, the second asks once the first has its result. -/
@[simp] theorem asked_bind (answer : (q : Q) → A q) (plan : Plan Q A α) (f : α → Plan Q A β) :
    (plan.bind f).asked answer =
      plan.asked answer ++ (f (plan.answeredBy answer)).asked answer := by
  induction plan with
  | done a => rfl
  | ask q next ih => simp [bind, asked, answeredBy, ih]

theorem answeredBy_map (answer : (q : Q) → A q) (plan : Plan Q A α) (f : α → β) :
    (plan.map f).answeredBy answer = f (plan.answeredBy answer) := answeredBy_bind ..

/-- To pass the result on asks nothing more. -/
theorem asked_map (answer : (q : Q) → A q) (plan : Plan Q A α) (f : α → β) :
    (plan.map f).asked answer = plan.asked answer := by
  rw [map, asked_bind]
  exact List.append_nil _

end Plan

end Reconciler
