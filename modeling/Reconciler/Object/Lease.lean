import Reconciler.Object.Lenient

/-!
# Leases

The object that replicas compete for. It says who holds it, since when, when it was last renewed and
for how long that is good.
-/

namespace Reconciler

/-- What a lease says. -/
structure LeaseSpec where
  acquireTime : Option Timestamp := none
  holderIdentity : Option String := none
  /-- Seconds from a renewal for which the lease is good; 32 bits with a sign. -/
  leaseDurationSeconds : Option Int := none
  /-- How often the lease has changed hands; 32 bits with a sign. -/
  leaseTransitions : Option Int := none
  preferredHolder : Option String := none
  renewTime : Option Timestamp := none
  strategy : Option String := none
  deriving DecidableEq, Repr, Inhabited

namespace LeaseSpec

/-- Reads a spec. -/
def reader : Json.Reader LeaseSpec :=
  (Json.Record.lenient [
    .lenient "acquireTime" Metadata.instant fun s acquireTime => { s with acquireTime },
    .lenient "holderIdentity" Json.Reader.str fun s holderIdentity => { s with holderIdentity },
    .lenient "leaseDurationSeconds" Json.Reader.int32 fun s leaseDurationSeconds =>
      { s with leaseDurationSeconds },
    .lenient "leaseTransitions" Json.Reader.int32 fun s leaseTransitions =>
      { s with leaseTransitions },
    .lenient "preferredHolder" Json.Reader.str fun s preferredHolder =>
      { s with preferredHolder },
    .lenient "renewTime" Metadata.instant fun s renewTime => { s with renewTime },
    .lenient "strategy" Json.Reader.str fun s strategy => { s with strategy }]).reader {}

/-- The tree of a spec, instants to the microsecond. -/
def toJson (s : LeaseSpec) : Json :=
  let time (t : Option Timestamp) : Option Json := t.map fun t => .str t.toMicros
  .ofPresent [
    ("acquireTime", time s.acquireTime),
    ("holderIdentity", s.holderIdentity.map .str),
    ("leaseDurationSeconds", s.leaseDurationSeconds.map .int),
    ("leaseTransitions", s.leaseTransitions.map .int),
    ("preferredHolder", s.preferredHolder.map .str),
    ("renewTime", time s.renewTime),
    ("strategy", s.strategy.map .str)]

/-- Whether the lease has outlived its last renewal. One that gives no renewal or no duration has.
None if it lasts beyond the calendar. -/
def isExpired? (s : Option LeaseSpec) (now : Timestamp) : Option Bool :=
  match s.bind (·.renewTime), s.bind (·.leaseDurationSeconds) with
  | some renewed, some secs => (renewed.addSecs? secs).map fun expiry => decide (expiry < now)
  | _, _ => some true

end LeaseSpec

/-- A lease object. -/
structure Lease where
  metadata : Metadata := {}
  spec : Option LeaseSpec := none
  deriving Inhabited, Repr

namespace Lease

/-- Reads a lease. -/
def reader : Json.Reader Lease :=
  (typed .lease [
    .lenient "metadata" Metadata.reader fun (l : Lease) metadata =>
      { l with metadata := metadata.getD {} },
    .lenient "spec" LeaseSpec.reader fun l spec => { l with spec }]).reader {}

/-- The tree of a lease, with its version and kind. -/
def toJson (l : Lease) : Json :=
  .ofPresent [
    ("apiVersion", some (.str ResourceType.lease.apiVersion)),
    ("kind", some (.str ResourceType.lease.kind)),
    ("metadata", some l.metadata.toJson),
    ("spec", l.spec.map LeaseSpec.toJson)]

/-- Who holds the lease, if anyone. -/
def holder? (l : Lease) : Option String := l.spec.bind (·.holderIdentity)

end Lease

end Reconciler
