/-!
# Running on a clock

A machine takes turns at the instant its clock shows until nothing can happen any more, and names
the instant at which something can happen next. Moving its clock stops at every such instant on the
way. Nothing bounds how often a machine takes turns at one instant, so the number of turns is given.
-/

namespace Reconciler.Host

/-- A machine with a clock. -/
structure Clock (σ : Type) where
  now : σ → Nat
  moveTo : Nat → σ → σ
  /-- One thing that can happen now; none if all parts wait. -/
  turn : σ → Option σ
  /-- The next instant at which something can happen. -/
  alarm? : σ → Option Nat

namespace Clock

variable {σ : Type}

/-- Take turns until all parts wait. -/
def settle (c : Clock σ) : Nat → σ → σ
  | 0, s => s
  | turns + 1, s =>
    match c.turn s with
    | some s => c.settle turns s
    | none => s

/-- Move the clock to an instant by way of every alarm before it, with what is due then and at the
end. -/
def advanceTo (c : Clock σ) (turns : Nat) (target : Nat) : Nat → σ → σ
  | 0, s => s
  | alarms + 1, s =>
    match (c.alarm? s).filter fun t => c.now s < t && t ≤ target with
    | some t => c.advanceTo turns target alarms (c.settle turns (c.moveTo t s))
    | none => c.settle turns (c.moveTo target s)

/-- Move the clock from alarm to alarm until a state is reached, or no alarm is set. -/
def runUntil (c : Clock σ) (turns : Nat) (reached : σ → Bool) : Nat → σ → σ
  | 0, s => s
  | alarms + 1, s =>
    if reached s then s
    else
      match (c.alarm? s).filter fun t => c.now s < t with
      | some t => c.runUntil turns reached alarms (c.settle turns (c.moveTo t s))
      | none => s

end Clock

/-- The earlier of two instants that may not come. -/
def sooner? : Option Nat → Option Nat → Option Nat
  | some a, some b => some (min a b)
  | some a, none => some a
  | none, b => b

/-- The earliest of instants that may not come. -/
def soonest? (instants : List (Option Nat)) : Option Nat := instants.foldl sooner? none

end Reconciler.Host
