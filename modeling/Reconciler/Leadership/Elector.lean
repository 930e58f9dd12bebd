import Reconciler.Error
import Reconciler.Object.Lease
import Reconciler.Plan
import Reconciler.Settings

/-!
# Getting and giving back a lease

An elector gets the lease by writing itself into it. It reads the lease first, and writes only if
there is none, if it holds the lease already, or if the holder has let it run out. A write counts
only if the lease has not changed in between, so of all who read one version at most one succeeds;
the others learn that they did not.

To give the lease back an elector clears the holder, and dates the last renewal back by more than
the lease lasts, so that any other may take it at once.
-/

namespace Reconciler.Leadership

/-- What an elector asks of the server. -/
inductive LeaseCall where
  /-- The time of day. -/
  | clock
  | get
  | create (lease : Lease)
  /-- Write the lease, if it is still of the version that it bears. -/
  | replace (lease : Lease)
  /-- Clear the holder and date the last renewal. -/
  | vacate (renewTime : Timestamp)

/-- The answers. -/
def LeaseCall.Answer : LeaseCall → Type
  | clock => Timestamp
  | get => Except Error (Option Lease)
  | create _ => Except Error Unit
  | replace _ => Except Error Unit
  | vacate _ => Except Error Unit

/-- A plan over the lease. -/
abbrev LeasePlan (α : Type) : Type := Plan LeaseCall LeaseCall.Answer α

/-- One who competes for a lease. -/
structure Elector where
  leaseName : String
  ns : String
  /-- What it writes into the lease. -/
  identity : String
  /-- The field manager of its releases. -/
  fieldManager : String
  leaseDuration : Duration
  deriving Repr

namespace Elector

/-- The elector of an operator. -/
def ofSettings (s : Settings) : Elector where
  leaseName := s.leaseName
  ns := s.leaseNamespace
  identity := s.identity
  fieldManager := s.name
  leaseDuration := s.leaseDuration

/-- An elector on its own, which writes under its identity. -/
def standalone (s : Settings) : Elector := { ofSettings s with fieldManager := s.identity }

/-- A number as a word of 32 bits with a sign holds it. -/
def word32 (n : Int) : Int := Int.bmod n 4_294_967_296

/-- The spec of a lease that this elector renews now. -/
def claim (e : Elector) (now acquired : Timestamp) (transitions : Int) : LeaseSpec where
  holderIdentity := some e.identity
  leaseDurationSeconds := some (word32 e.leaseDuration.secs)
  acquireTime := some acquired
  renewTime := some now
  leaseTransitions := some transitions

/-- What an attempt does with the lease that it read. -/
inductive Step where
  /-- There is none: create it. -/
  | create
  /-- It is ours: renew it. -/
  | renew
  /-- No one holds it any more: take it, as its next holder. -/
  | takeOver (transitions : Int)
  /-- Someone holds it. -/
  | wait
  deriving DecidableEq, Repr

/-- The next of a count of 32 bits; none after the greatest one. -/
def nextCount? (n : Int) : Option Int :=
  if n < 2_147_483_647 then some (n + 1) else none

/-- The step that a lease calls for; none if someone else's lease lasts beyond the calendar, or if
the lease cannot change hands once more. -/
def step? (e : Elector) (lease : Option Lease) (now : Timestamp) : Option Step :=
  match lease with
  | none => some .create
  | some lease =>
    let takeOver := (nextCount? ((lease.spec.bind (·.leaseTransitions)).getD 0)).map .takeOver
    match lease.holder? with
    | some holder =>
      if holder = e.identity then some .renew
      else (LeaseSpec.isExpired? lease.spec now).bind fun expired =>
        if expired then takeOver else some .wait
    | none => takeOver

/-- The lease that this elector creates. -/
def fresh (e : Elector) (now : Timestamp) : Lease where
  metadata := { name := some e.leaseName, ns := some e.ns }
  spec := some (e.claim now now 0)

/-- The lease, renewed. -/
def renewed (e : Elector) (lease : Lease) (now : Timestamp) : Lease :=
  let held := lease.spec.getD {}
  { lease with
    spec := some (e.claim now (held.acquireTime.getD now) (held.leaseTransitions.getD 0)) }

/-- The lease, taken over. -/
def takenOver (e : Elector) (lease : Lease) (now : Timestamp) (transitions : Int) : Lease :=
  { lease with spec := some (e.claim now now transitions) }

/-- Whether a write got the lease: not if it came too late. -/
def written : Except Error Unit → Except Error Bool
  | .ok () => .ok true
  | .error err => if err.isConflict then .ok false else .error err

/-- Write a lease in the place of the one that was read, which must have a version. -/
def replace (e : Elector) (lease : Lease) : LeasePlan (Except Error Bool) :=
  if lease.metadata.resourceVersion.isNone then
    .done (.error (.leaderElection e.leaseName "lease missing resourceVersion"))
  else .ask (.replace lease) fun outcome => .done (written outcome)

/-- Get the lease, or renew it: whether this elector holds it then. None if no step can be made out
for the lease that was read. -/
def tryAcquire (e : Elector) : LeasePlan (Option (Except Error Bool)) :=
  .ask .clock fun now =>
    .ask .get fun
      | .error err => .done (some (.error err))
      | .ok lease =>
        match e.step? lease now, lease with
        | none, _ => .done none
        | some .create, _ =>
          .ask (.create (e.fresh now)) fun outcome => .done (some (written outcome))
        | some .renew, some lease => (e.replace (e.renewed lease now)).map some
        | some (.takeOver transitions), some lease =>
          (e.replace (e.takenOver lease now transitions)).map some
        | _, _ => .done (some (.ok false))

/-- A number as a word of 64 bits with a sign holds it. -/
def word64 (n : Int) : Int := Int.bmod n 18_446_744_073_709_551_616

/-- The seconds by which the renewal of a lease that is given back is dated back: one more than the
lease lasts. -/
def backdate (e : Elector) : Int := word64 (word64 e.leaseDuration.secs + 1)

/-- The most seconds that an instant is moved by, back or forth. -/
def farthestMove : Int := 9_223_372_036_854_775

/-- The renewal time of a lease that is given back: so long ago that it has run out. None if that is
too far away, or not on the calendar. -/
def staleTime? (e : Elector) (now : Timestamp) : Option Timestamp :=
  (now.addSecs? (-e.backdate)).filter fun _ =>
    -farthestMove ≤ e.backdate && e.backdate ≤ farthestMove

/-- Give the lease back, if it is held by this elector. None if the renewal cannot be dated back. -/
def release (e : Elector) : LeasePlan (Option (Except Error Unit)) :=
  .ask .get fun
    | .error err => .done (some (.error err))
    | .ok lease =>
      if lease.bind (·.holder?) ≠ some e.identity then .done (some (.ok ()))
      else
        .ask .clock fun now =>
          match e.staleTime? now with
          | none => .done none
          | some stale => .ask (.vacate stale) fun outcome => .done (some outcome)

end Elector

end Reconciler.Leadership
