import Reconciler.Time.Duration

/-!
# Waiting longer after each failure

A backoff policy counts failures in a row and prescribes a wait for each count. The usual policy
doubles from two seconds up to a limit and adds a random part, so that replicas that recover from
one outage do not come back in step.

The count is a 32-bit word. Recording a failure advances the word, and the wait is that for the
count reached, held at the greatest word.
-/

namespace Reconciler

/-- The settings of the doubling policy, and the quiet time after which the count is cleared. -/
structure BackoffConfig where
  maxDelay : Duration := .ofSecs 60
  jitter : Duration := .ofMillis 1000
  stabilityWindow : Duration := .ofSecs 30
  deriving DecidableEq, Repr, Inhabited

namespace BackoffConfig

/-- The wait after so many failures before the random part: `2^retries` seconds up to the limit. -/
def floor (c : BackoffConfig) (retries : Nat) : Duration :=
  (Duration.ofSecs (Nat.min (Nat.pow 2 (Nat.min retries 64)) Duration.maxSeconds)).min c.maxDelay

/-- The number of milliseconds from which the random part is drawn; none below two. -/
def jitterMillis (c : BackoffConfig) : Nat := c.jitter.millis % 18_446_744_073_709_551_616

/-- The wait after so many failures when the draw is `draw`, taken within the window. -/
def delay (c : BackoffConfig) (draw : Nat) (retries : Nat) : Duration :=
  if c.jitterMillis = 0 then c.floor retries
  else (c.floor retries).add (.ofMillis (draw % c.jitterMillis))

/-- The end of the window that waits after so many failures fall into; none beyond the greatest
length of time. -/
def ceiling? (c : BackoffConfig) (retries : Nat) : Option Duration :=
  let ceiling := (c.floor retries).add c.jitter
  if ceiling ≤ Duration.longest then some ceiling else none

end BackoffConfig

/-- The wait that is prescribed for each number of failures in a row. -/
abbrev BackoffPolicy := Nat → Duration

/-- The doubling policy with a given draw. -/
def BackoffConfig.policy (c : BackoffConfig) (draw : Nat) : BackoffPolicy := c.delay draw

/-- The policy whose waits grow by one step with each failure. -/
def BackoffPolicy.linear (step : Duration) : BackoffPolicy := fun retries => ⟨retries * step.nanos⟩

/-- Failures in a row. -/
structure FailureCount where
  word : UInt32 := 0
  deriving DecidableEq, Repr, Inhabited

namespace FailureCount

/-- The number of failures. -/
def retries (c : FailureCount) : Nat := c.word.toNat

/-- No failure since. -/
def clear : FailureCount := ⟨0⟩

/-- One more failure: the new count, and the number of failures to wait for. -/
def record (c : FailureCount) : FailureCount × Nat :=
  (⟨c.word + 1⟩, Nat.min (c.word.toNat + 1) 4_294_967_295)

/-- The count as a log shows it. -/
def text (c : FailureCount) : String :=
  "BackoffPolicy \x7b retries: " ++ toString c.retries ++ ", .. \x7d"

end FailureCount

/-- How a cancellable wait ended. -/
inductive WaitOutcome where
  | elapsed
  | cancelled
  deriving DecidableEq, Repr

/-- A wait that is over. -/
structure Wait where
  outcome : WaitOutcome
  /-- The milliseconds that it took. -/
  millis : Nat
  deriving DecidableEq, Repr

namespace Wait

/-- Wait for a time, or until the cancellation where that comes first. Nothing is waited for once it
has come. -/
def run (delay : Duration) (cancellation : Option Nat) : Wait :=
  match cancellation with
  | none => ⟨.elapsed, delay.millisUp⟩
  | some 0 => ⟨.cancelled, 0⟩
  | some t => if t < delay.millisUp then ⟨.cancelled, t⟩ else ⟨.elapsed, delay.millisUp⟩

end Wait

/-- Record a failure and wait for what the policy prescribes, cancelled so many milliseconds from
now if at all. The failure counts however the wait ends. -/
def FailureCount.waitOnError (c : FailureCount) (policy : BackoffPolicy)
    (cancellation : Option Nat) : FailureCount × Wait :=
  let (c, retries) := c.record
  (c, .run (policy retries) cancellation)

end Reconciler
