import Reconciler.Mirror.ConfigMirror

/-!
# The definition of the ConfigMirror type

The object that teaches an API server what a ConfigMirror is: its names, the columns of its listing,
that its status is written on its own, and the schema of its spec and status. Defaults in the schema
are those that reading a spec or status assumes.
-/

namespace Reconciler.Mirror.Definition

/-! ## Schemas -/

/-- A schema of a JSON type with a description and what else it says. -/
def schema (type description : String) (more : List (String × Json)) : Json :=
  .ofFields (("type", .str type) :: ("description", .str description) :: more)

/-- The schema of an object with some properties. -/
def object (description : String) (properties : List (String × Json))
    (more : List (String × Json)) : Json :=
  schema "object" description (("properties", .ofFields properties) :: more)

/-- The schema of a list of texts. -/
def textList (description : String) (more : List (String × Json)) : Json :=
  schema "array" description (("items", .ofFields [("type", .str "string")]) :: more)

/-- What marks a value that may be missing. -/
def nullable : String × Json := ("nullable", .bool true)

/-- What a ConfigMirror is for, with an example. -/
def purpose : String :=
  "ConfigMirror keeps copies of a ConfigMap in other namespaces.\n\n" ++
  "Example: ```yaml apiVersion: kubeops.dev/v1alpha1 kind: ConfigMirror metadata: " ++
  "name: shared-settings namespace: platform spec: source: app-settings targetNamespaces: " ++
  "- team-a - team-b ```"

/-- The schema of a spec. -/
def specSchema : Json :=
  object purpose [
      ("source",
        schema "string" "Name of the ConfigMap to copy, in the ConfigMirror's namespace" []),
      ("targetNamespaces", textList "Namespaces that receive a copy" [("default", .arr [])]),
      ("resyncSeconds", schema "integer" "How often to re-copy even without changes" [
        ("default", .int Spec.defaultResyncSeconds), ("format", .str "uint64"),
        ("minimum", .float ⟨false, 0, 0⟩)])]
    [("required", .ofStrings ["source"])]

/-- The schema of a status. -/
def statusSchema : Json :=
  object "Observed state of a ConfigMirror" [
      ("phase", schema "string" "Current phase" [
        ("default", .str Phase.pending.name),
        ("enum", .ofStrings ([Phase.pending, .ready, .failed].map Phase.name))]),
      ("mirrored", textList "Namespaces holding a copy" []),
      ("observedGeneration", schema "integer" "Generation the status describes"
        [("format", .str "int64"), nullable]),
      ("message", schema "string" "Human-readable detail for non-ready phases" [nullable])]
    [nullable]

/-- The schema of a whole ConfigMirror, its metadata apart. -/
def mirrorSchema : Json :=
  object "Auto-generated derived type for ConfigMirrorSpec via `CustomResource`"
    [("spec", specSchema), ("status", statusSchema)]
    [("title", .str ConfigMirror.resource.kind), ("required", .ofStrings ["spec"])]

/-! ## The definition -/

/-- A column of the listing. -/
def column (name type path : String) : Json :=
  .ofFields [("name", .str name), ("type", .str type), ("jsonPath", .str path)]

/-- The names of the type. -/
def names : Json :=
  .ofFields [
    ("kind", .str ConfigMirror.resource.kind),
    ("plural", .str ConfigMirror.resource.plural),
    ("singular", .str "configmirror"),
    ("shortNames", .ofStrings ["cmir"]),
    ("categories", .arr [])]

/-- The one version of the type. -/
def version : Json :=
  .ofFields [
    ("name", .str ConfigMirror.resource.version),
    ("served", .bool true),
    ("storage", .bool true),
    ("schema", .ofFields [("openAPIV3Schema", mirrorSchema)]),
    ("subresources", .ofFields [("status", .obj [])]),
    ("additionalPrinterColumns", .arr [
      column "Source" "string" ".spec.source",
      column "Phase" "string" ".status.phase",
      column "Age" "date" ".metadata.creationTimestamp"])]

/-- The definition of the type. -/
def toJson : Json :=
  let r := ConfigMirror.resource
  .ofFields [
    ("apiVersion", .str "apiextensions.k8s.io/v1"),
    ("kind", .str "CustomResourceDefinition"),
    ("metadata", .ofFields [("name", .str (r.plural ++ "." ++ r.group))]),
    ("spec", .ofFields [
      ("group", .str r.group),
      ("scope", .str "Namespaced"),
      ("names", names),
      ("versions", .arr [version])])]

end Reconciler.Mirror.Definition
