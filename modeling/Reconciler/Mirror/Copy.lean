import Reconciler.Mirror.ConfigMirror
import Reconciler.Object.ConfigMap

/-!
# Copies and statuses

What a ConfigMirror writes: the copy of its source in one namespace, marked with a label that names
the mirror, and the statuses of a sync that succeeded or could not begin. A copy takes the source's
content and nothing the server has set on the source.
-/

namespace Reconciler.Mirror

/-- The field manager of copies. -/
def fieldManager : String := "kubeops-config-mirror"

/-- The finalizer that removes the copies before a ConfigMirror goes. -/
def cleanupFinalizer : String := "kubeops.dev/mirror-cleanup"

/-- The label of a copy that names its ConfigMirror. -/
def mirrorLabel : String := "kubeops.dev/mirror"

/-- The label of everything this operator manages. -/
def managedByLabel : String := "app.kubernetes.io/managed-by"

/-- What `managedByLabel` says. -/
def managedByValue : String := "kubeops"

/-- The label value that names a ConfigMirror: namespace and name with a dot between. -/
def mirrorId (m : ConfigMirror) : String := m.metadata.ns.getD "" ++ "." ++ m.metadata.anyName

/-- The copy of `source` that a ConfigMirror wants in `ns`. -/
def mirrorCopy (source : ConfigMap) (m : ConfigMirror) (ns : String) : ConfigMap where
  metadata := {
    name := some source.metadata.anyName
    ns := some ns
    labels := some [(managedByLabel, managedByValue), (mirrorLabel, mirrorId m)] }
  data := source.data
  binaryData := source.binaryData
  immutable := source.immutable

/-- The status after a sync into the given namespaces. -/
def readyStatus (m : ConfigMirror) (mirrored : List String) : Status where
  phase := .ready
  mirrored
  observedGeneration := m.metadata.generation

/-- The status of a sync that cannot go on. -/
def pendingStatus (m : ConfigMirror) (message : String) : Status where
  phase := .pending
  observedGeneration := m.metadata.generation
  message := some message

end Reconciler.Mirror
