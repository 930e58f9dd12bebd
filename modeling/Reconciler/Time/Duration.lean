/-!
# Lengths of time

A length of time is a number of nanoseconds. Seconds are a 64-bit quantity where one is computed
rather than given, so `Duration.maxSeconds` bounds what doubling can reach.
-/

namespace Reconciler

/-- A length of time, to the nanosecond. -/
structure Duration where
  nanos : Nat
  deriving DecidableEq, Repr, Inhabited

namespace Duration

/-- The greatest number of whole seconds. -/
def maxSeconds : Nat := 18_446_744_073_709_551_615

/-- No time at all. -/
def zero : Duration := ⟨0⟩

/-- Whole seconds and nanoseconds beyond them. -/
def ofParts (secs nanos : Nat) : Duration := ⟨secs * 1_000_000_000 + nanos⟩

/-- The greatest length of time. -/
def longest : Duration := ofParts maxSeconds 999_999_999

/-- Whole seconds. -/
def ofSecs (secs : Nat) : Duration := ⟨secs * 1_000_000_000⟩

/-- Whole milliseconds. -/
def ofMillis (ms : Nat) : Duration := ⟨ms * 1_000_000⟩

/-- The whole seconds in it. -/
def secs (d : Duration) : Nat := d.nanos / 1_000_000_000

/-- The nanoseconds beyond its whole seconds. -/
def subsecNanos (d : Duration) : Nat := d.nanos % 1_000_000_000

/-- The whole milliseconds in it. -/
def millis (d : Duration) : Nat := d.nanos / 1_000_000

/-- The first whole millisecond at which it has passed. -/
def millisUp (d : Duration) : Nat := (d.nanos + 999_999) / 1_000_000

/-- One after the other. -/
def add (a b : Duration) : Duration := ⟨a.nanos + b.nanos⟩

/-- The shorter one. -/
def min (a b : Duration) : Duration := if a.nanos ≤ b.nanos then a else b

instance : LT Duration := ⟨fun a b => a.nanos < b.nanos⟩

instance (a b : Duration) : Decidable (a < b) := inferInstanceAs (Decidable (a.nanos < b.nanos))

instance : LE Duration := ⟨fun a b => a.nanos ≤ b.nanos⟩

instance (a b : Duration) : Decidable (a ≤ b) := inferInstanceAs (Decidable (a.nanos ≤ b.nanos))

/-! ## In messages -/

/-- A number with `places` decimals taken from `frac`, without trailing zeros or an empty
fraction. -/
def decimal (whole frac places : Nat) : String :=
  let ds := Nat.toDigits 10 frac
  let padded := List.replicate (places - ds.length) '0' ++ ds
  let kept := (padded.reverse.dropWhile (· = '0')).reverse
  if kept.isEmpty then toString whole else toString whole ++ "." ++ String.ofList kept

/-- The length in the largest unit of which it holds at least one, from seconds down to
nanoseconds. -/
def text (d : Duration) : String :=
  let n := d.nanos
  if 1_000_000_000 ≤ n then decimal (n / 1_000_000_000) (n % 1_000_000_000) 9 ++ "s"
  else if 1_000_000 ≤ n then decimal (n / 1_000_000) (n % 1_000_000) 6 ++ "ms"
  else if 1_000 ≤ n then decimal (n / 1_000) (n % 1_000) 3 ++ "µs"
  else toString n ++ "ns"

end Duration

end Reconciler
