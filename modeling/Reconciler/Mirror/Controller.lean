import Reconciler.Dispatch
import Reconciler.Mirror.Copy
import Reconciler.Plan

/-!
# Keeping copies

A reconcile of a ConfigMirror reads its source and makes every target's copy what it is to be, in
the order of the targets and up to the first failure; the mirror's own namespace is left out, where
the source itself lives. Then the status is written, if it is another than before. Cleaning up
deletes everything that bears the mirror's label, and passes over what is gone already.

Both are plans over the few calls that they make.
-/

namespace Reconciler.Mirror

/-- What the controller and the cleanup ask of the server. -/
inductive Call where
  /-- A ConfigMap that may be missing. -/
  | source (ns name : String)
  /-- Make the ConfigMap of a name in a namespace what it is to be. -/
  | apply (ns name : String) (copy : ConfigMap)
  | writeStatus (mirror : ConfigMirror)
  /-- All ConfigMaps that a selector of labels selects. -/
  | select (selector : String)
  | delete (ns name : String)

/-- The answers. -/
def Call.Answer : Call → Type
  | source _ _ => Except Error (Option ConfigMap)
  | apply _ _ _ => Except Error Unit
  | writeStatus _ => Except Error Unit
  | select _ => Except Error (List ConfigMap)
  | delete _ _ => Except Error Unit

/-- A plan over the calls of the mirror. -/
abbrev Steps (α : Type) : Type := Plan Call Call.Answer α

/-- Seconds after which a missing source is looked for again. -/
def missingSourceRetrySecs : Nat := 30

/-! ## Reconciling -/

/-- Write a status, unless the mirror has it already, and end with an action. -/
def setStatus (m : ConfigMirror) (status : Status) (action : Action) :
    Steps (Except Error Action) :=
  if m.status = some status then .done (.ok action)
  else
    .ask (.writeStatus { m with status := some status }) fun
      | .ok () => .done (.ok action)
      | .error e => .done (.error e)

/-- Apply the copies of the targets other than the mirror's own namespace, after those of `applied`:
the namespaces that have one, or the first failure. -/
def applyCopies (m : ConfigMirror) (own : String) (source : ConfigMap) (applied : List String) :
    List String → Steps (Except Error (List String))
  | [] => .done (.ok applied)
  | target :: rest =>
    if target = own then applyCopies m own source applied rest
    else
      .ask (.apply target m.spec.source (mirrorCopy source m target)) fun
        | .ok () => applyCopies m own source (applied ++ [target]) rest
        | .error e => .done (.error e)

/-- The message of a mirror whose source is missing. -/
def missingMessage (m : ConfigMirror) : String := "ConfigMap " ++ m.spec.source ++ " not found"

/-- Bring the copies up to date. -/
def reconcile (m : ConfigMirror) : Steps (Except Error Action) :=
  match m.metadata.ns with
  | none => .done (.error (.reconcile m.metadata.anyName "ConfigMirror without namespace"))
  | some own =>
    .ask (.source own m.spec.source) fun
      | .error e => .done (.error e)
      | .ok none =>
        setStatus m (pendingStatus m (missingMessage m))
          (.requeue (.ofSecs missingSourceRetrySecs))
      | .ok (some source) =>
        (applyCopies m own source [] m.spec.targetNamespaces).bind fun
          | .error e => .done (.error e)
          | .ok applied =>
            setStatus m (readyStatus m applied) (.requeue (.ofSecs m.spec.resyncSeconds))

/-- Nothing is left to do for a mirror that is gone. -/
def deleted (_ : ConfigMirror) : Steps (Except Error Unit) := .done (.ok ())

/-! ## Cleaning up -/

/-- The selector of a mirror's copies. -/
def copySelector (m : ConfigMirror) : String := mirrorLabel ++ "=" ++ mirrorId m

/-- Delete ConfigMaps up to the first failure. -/
def deleteAll : List ConfigMap → Steps (Except Error Unit)
  | [] => .done (.ok ())
  | copy :: rest =>
    match copy.metadata.ns with
    | none => deleteAll rest
    | some ns =>
      .ask (.delete ns copy.metadata.anyName) fun
        | .ok () => deleteAll rest
        | .error e => if e.isNotFound then deleteAll rest else .done (.error e)

/-- Delete all copies of a mirror. -/
def cleanUp (m : ConfigMirror) : Steps (Except Error Unit) :=
  .ask (.select (copySelector m)) fun
    | .ok copies => deleteAll copies
    | .error e => .done (.error e)

end Reconciler.Mirror
