import Reconciler.Http.EntityClient
import Reconciler.Mirror.Controller

/-!
# The mirror on the API server

The calls of the mirror's controller and cleanup as requests, and with them what the dispatcher asks
about ConfigMirrors.
-/

namespace Reconciler.Http

open Mirror (ConfigMirror)

namespace MirrorClient

/-- Where the ConfigMaps of a namespace are. -/
def configMaps (ns : String) : String := ResourceType.configMap.urlPath (some ns)

/-- Whether a call succeeded, without what it returned. -/
def done {α : Type} (call : Exchange (Except Error α)) : Exchange (Except Error Unit) :=
  call.map (·.map fun _ => ())

/-- A call of the mirror as a plan of requests; statuses are written through a client. -/
def settle (c : EntityClient) : (call : Mirror.Call) → Exchange call.Answer
  | .source ns name => EntityClient.lift (Api.get? (configMaps ns) ConfigMap.reader name)
  | .apply ns name copy =>
    done (EntityClient.lift
      (Api.apply (configMaps ns) ConfigMap.reader Mirror.fieldManager name copy.toJson))
  | .writeStatus m => done (c.updateStatus m)
  | .select selector =>
    EntityClient.lift
      (Api.list (ResourceType.configMap.urlPath none) ConfigMap.reader (some selector))
  | .delete ns name => EntityClient.lift (Api.delete (configMaps ns) ConfigMap.reader name)

/-- The client of ConfigMirrors for an operator of a name. -/
def mirrors (fieldManager : String) : EntityClient := ⟨ConfigMirror.resource, fieldManager⟩

/-- What the dispatcher asks about ConfigMirrors, as requests. There is one finalizer, the
cleanup. -/
def dispatch (c : EntityClient) : (call : Dispatch.Call ConfigMirror) → Exchange call.Answer
  | .get name ns => c.get name ns
  | .update m => c.update m
  | .reconcile m => (Mirror.reconcile m).interpret (settle c)
  | .deleted m => (Mirror.deleted m).interpret (settle c)
  | .finalize _ _ m => (Mirror.cleanUp m).interpret (settle c)

end MirrorClient

end Reconciler.Http
