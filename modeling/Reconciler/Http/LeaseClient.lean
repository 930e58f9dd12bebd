import Reconciler.Http.EntityClient
import Reconciler.Leadership.Elector

/-!
# Leases on the API server

The calls of an elector as requests for its lease.
-/

namespace Reconciler.Http

open Leadership (Elector LeaseCall)

namespace LeaseClient

/-- Where the leases of an elector's namespace are. -/
def root (e : Elector) : String := ResourceType.lease.urlPath (some e.ns)

/-- What a release changes. -/
def vacancy (renewTime : Timestamp) : Json :=
  .ofFields [("spec", .ofFields [
    ("holderIdentity", .null), ("renewTime", .str renewTime.toMicros)])]

/-- Whether an operation succeeded, without the lease that it returned. -/
def done (operation : Operation Lease) : Exchange (Except Error Unit) :=
  (EntityClient.lift operation).map (·.map fun _ => ())

/-- An elector's call as a plan of requests. -/
def settle (e : Elector) : (call : LeaseCall) → Exchange call.Answer
  | .clock => Plan.call Question.clock
  | .get => EntityClient.lift (Api.get? (root e) Lease.reader e.leaseName)
  | .create lease => done (Api.create (root e) Lease.reader none lease.toJson)
  | .replace lease => done (Api.replace (root e) Lease.reader none e.leaseName lease.toJson)
  | .vacate renewTime =>
    done (Api.merge (root e) Lease.reader (some e.fieldManager) e.leaseName "" (vacancy renewTime))

/-- An attempt to get the lease, as requests. -/
def tryAcquire (e : Elector) : Exchange (Option (Except Error Bool)) :=
  e.tryAcquire.interpret (settle e)

/-- A release, as requests. -/
def release (e : Elector) : Exchange (Option (Except Error Unit)) := e.release.interpret (settle e)

end LeaseClient

end Reconciler.Http
