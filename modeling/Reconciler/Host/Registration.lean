import Reconciler.Settings

/-!
# Registering types

An operator takes usable settings and, one after the other, registrations of types. A registration
needs a controller, and a type is registered once.
-/

namespace Reconciler.Host

/-- What registering a type depends on. -/
structure Registration where
  kind : String
  hasController : Bool
  deriving DecidableEq, Repr

namespace Registration

/-- Register a type beside the kinds that are registered already. -/
def register (kinds : List String) (r : Registration) : Except Error (List String) :=
  if !r.hasController then
    .error (.configuration ("no controller registered for " ++ r.kind))
  else if kinds.contains r.kind then
    .error (.configuration (r.kind ++ " registered twice"))
  else .ok (kinds ++ [r.kind])

/-- Register types in order with an operator of the given settings. -/
def registerAll (s : Settings) (registrations : List Registration) :
    Except Error (List String) := do
  s.validate
  registrations.foldlM register []

end Registration

end Reconciler.Host
