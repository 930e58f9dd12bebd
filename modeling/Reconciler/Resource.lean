/-!
# Resource types and their addresses

What the API server calls a type of object, and where it keeps objects of that type. The core group
has an empty name, and a shorter address than the named groups.
-/

namespace Reconciler

/-- Where objects of a type live. -/
inductive Scope where
  | namespaced
  | cluster
  deriving DecidableEq, Repr

/-- A type of object as the API server knows it. -/
structure ResourceType where
  kind : String
  /-- The API group; empty for the core group. -/
  group : String
  version : String
  /-- The name in addresses. -/
  plural : String
  scope : Scope := .namespaced
  deriving DecidableEq, Repr

namespace ResourceType

/-- The kind of a list of such objects. -/
def listKind (r : ResourceType) : String := r.kind ++ "List"

/-- `group/version`, or the version alone in the core group. -/
def apiVersion (r : ResourceType) : String :=
  if r.group = "" then r.version else r.group ++ "/" ++ r.version

/-- Kind and version, as a log names the type. -/
def text (r : ResourceType) : String := r.kind ++ "." ++ r.apiVersion

/-- The address of the type's group and version. -/
def root (r : ResourceType) : String :=
  if r.group = "" then "/api/" ++ r.version else "/apis/" ++ r.group ++ "/" ++ r.version

/-- The address of all objects of the type, or of those in one namespace. A type of the whole
cluster has only the former. -/
def urlPath (r : ResourceType) (ns : Option String) : String :=
  match r.scope, ns with
  | .namespaced, some ns => r.root ++ "/namespaces/" ++ ns ++ "/" ++ r.plural
  | _, _ => r.root ++ "/" ++ r.plural

/-! ## Types the server brings along -/

def configMap : ResourceType := ⟨"ConfigMap", "", "v1", "configmaps", .namespaced⟩

def namespaceType : ResourceType := ⟨"Namespace", "", "v1", "namespaces", .cluster⟩

def node : ResourceType := ⟨"Node", "", "v1", "nodes", .cluster⟩

def lease : ResourceType := ⟨"Lease", "coordination.k8s.io", "v1", "leases", .namespaced⟩

def deployment : ResourceType := ⟨"Deployment", "apps", "v1", "deployments", .namespaced⟩

end ResourceType

end Reconciler
