import Reconciler.Backoff
import Reconciler.Error

/-!
# Settings of an operator

One record handed to every component. `Settings.validate` refuses what cannot work: a lease that
runs out between renewals, and a watch that the server would not open.
-/

namespace Reconciler

/-- The settings of a whole operator. -/
structure Settings where
  /-- Field manager of its writes and stem of the lease's name. -/
  name : String
  /-- The one namespace to watch; every namespace if there is none. -/
  onlyNamespace : Option String := none
  /-- Whether only the holder of the lease acts. -/
  leaderElection : Bool := false
  leaseName : String
  leaseNamespace : String := "default"
  /-- What this replica writes into the lease, usually its pod's name. -/
  identity : String
  /-- How long a lease lasts without renewal. -/
  leaseDuration : Duration := .ofSecs 15
  /-- How often the holder renews. -/
  renewInterval : Duration := .ofSecs 5
  /-- How often a candidate tries. -/
  retryInterval : Duration := .ofSecs 2
  /-- How long the server keeps a watch open. -/
  watchTimeoutSecs : Nat := 25
  watchBackoff : BackoffConfig := {}
  reconcileBackoff : BackoffConfig := {}
  /-- Add registered finalizers to live entities. -/
  autoAttach : Bool := true
  /-- Remove a finalizer once it has run. -/
  autoDetach : Bool := true
  deriving DecidableEq, Repr, Inhabited

namespace Settings

/-- The name of an operator that is given none. -/
def defaultName : String := "kubeops-operator"

/-- The namespace of a lease that is given none. -/
def defaultLeaseNamespace : String := "default"

/-- Seconds a watch stays open unless set otherwise. It stays below the client's read timeout, so
that the server closes an idle watch before the client gives up on it. -/
def defaultWatchTimeoutSecs : Nat := 25

/-- Settings for an operator of a given name. -/
def named (name identity : String) : Settings :=
  { name, identity, leaseName := name ++ "-leader" }

/-- The lease must outlast the interval at which it is renewed, and the server refuses watches of
295 seconds and more. -/
def validate (s : Settings) : Except Error Unit :=
  if s.name = "" then .error (.configuration "operator name must not be empty")
  else if s.leaseDuration ≤ s.renewInterval then
    .error (.configuration ("renew interval (" ++ s.renewInterval.text ++
      ") must be shorter than lease duration (" ++ s.leaseDuration.text ++ ")"))
  else if s.watchTimeoutSecs = 0 ∨ 295 ≤ s.watchTimeoutSecs then
    .error (.configuration ("watch timeout must be between 1 and 294 seconds, got " ++
      toString s.watchTimeoutSecs))
  else .ok ()

end Settings

/-! ## Identity of a replica -/

/-- Where a replica's identity comes from. -/
inductive Identity where
  /-- Given by the environment. -/
  | given (name : String)
  /-- Drawn at random. -/
  | random
  deriving DecidableEq, Repr

namespace Identity

/-- The pod's name, else the host's, else a random one. -/
def choose (podName hostName : Option String) : Identity :=
  match podName, hostName with
  | some name, _ => .given name
  | none, some name => .given name
  | none, none => .random

/-- What a random identity starts with. -/
def randomStem : String := "kubeops-"

/-- The 32 hexadecimal digits of a random 128-bit number, marked as such and set in groups. -/
def uuid (bits : Nat) : String :=
  let digit (n : Nat) : Char :=
    let v := if n = 12 then 4
      else if n = 16 then 8 + bits / Nat.pow 16 15 % 4
      else bits / Nat.pow 16 (31 - n) % 16
    Char.ofNat (if v < 10 then 48 + v else 87 + v)
  let group (start size : Nat) : String :=
    String.ofList ((List.range size).map fun i => digit (start + i))
  "-".intercalate [group 0 8, group 8 4, group 12 4, group 16 4, group 20 12]

/-- The identity, random ones made from a random number. -/
def resolve (bits : Nat) : Identity → String
  | given name => name
  | random => randomStem ++ uuid bits

end Identity

end Reconciler
