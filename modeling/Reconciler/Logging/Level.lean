/-!
# Levels

How important a line of the log is, and how much is kept.
-/

namespace Reconciler.Logging

/-- How important a line is. -/
inductive Level where
  | error
  | warn
  | info
  | debug
  | trace
  deriving DecidableEq, Repr, Inhabited

namespace Level

/-- The level as a line shows it. -/
def name : Level → String
  | error => "ERROR"
  | warn => "WARN"
  | info => "INFO"
  | debug => "DEBUG"
  | trace => "TRACE"

/-- The number of levels up to this one. -/
def rank : Level → Nat
  | error => 1
  | warn => 2
  | info => 3
  | debug => 4
  | trace => 5

end Level

/-- How much is kept: the lines whose level has at most this rank, and none at all at rank zero. -/
abbrev Threshold := Nat

namespace Threshold

/-- The names of the thresholds from none to all. -/
def names : List String := ["off", "error", "warn", "info", "debug", "trace"]

/-- The threshold that keeps everything. -/
def all : Threshold := Level.trace.rank

/-- The number that decimal digits write, after a plus or not. -/
def number? (cs : List Char) : Option Nat :=
  let ds := match cs with
    | '+' :: rest => rest
    | cs => cs
  if ds.isEmpty || !ds.all Char.isDigit then none
  else some (ds.foldl (fun n c => 10 * n + (c.toNat - 48)) 0)

/-- The threshold that a text stands for: its number, or its name in letters of any case. -/
def ofText? (s : String) : Option Threshold :=
  match number? s.toList with
  | some n => if n ≤ all then some n else none
  | none => names.findIdx? (· == s.map Char.toLower)

end Threshold

end Reconciler.Logging
