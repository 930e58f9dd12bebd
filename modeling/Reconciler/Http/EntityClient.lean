import Reconciler.Http.Api
import Reconciler.Resource

/-!
# The client of one type of entity

The operations of the runtime on the entities of one type, each at the address at which the API
serves those of the namespace in question. Writes go to the entity's own namespace, and bear the
client's field manager.
-/

namespace Reconciler.Http

/-- Where the API serves the objects of a type, those of one namespace or all of them: under the
version of the type, with the core group apart from the named ones, and there under the namespace. -/
def collection (r : ResourceType) (ns : Option String) : String :=
  let trunk := (if r.group = "" then "/api/" else "/apis/") ++ r.apiVersion
  match ns with
  | some ns => trunk ++ "/namespaces/" ++ ns ++ "/" ++ r.plural
  | none => trunk ++ "/" ++ r.plural

/-- A client for the entities of a type. -/
structure EntityClient where
  resource : ResourceType
  fieldManager : String
  deriving Repr

namespace EntityClient

variable {K : Type} [Entity K]

/-- A plan whose failures are those of the runtime. -/
def lift {α : Type} (operation : Operation α) : Exchange (Except Error α) :=
  operation.map (·.mapError .client)

/-- Where the entities of a namespace are, or all of them. No namespace holds entities of the whole
cluster, so theirs are asked for without. -/
def root (c : EntityClient) (ns : Option String) : String :=
  match c.resource.scope with
  | .namespaced => collection c.resource ns
  | .cluster => collection c.resource none

/-- Where the entity belongs. -/
def rootOf (c : EntityClient) (e : K) : String := c.root (Entity.metadata e).ns

/-- Go on with an entity's name, which it must have. -/
def withName {α : Type} (c : EntityClient) (e : K) (f : String → Exchange (Except Error α)) :
    Exchange (Except Error α) :=
  match (Entity.metadata e).name with
  | some name => f name
  | none => .done (.error (.internal "client" (c.resource.kind ++ " without metadata.name")))

/-- Go on with an entity's tree, which may not exist. -/
def withTree {α : Type} (e : K) (f : Json → Operation α) : Operation α :=
  match Entity.encode e with
  | .ok tree => f tree
  | .error _ => .done (.error .undecodable)

/-- The entity of a name, if there is one. -/
def get (c : EntityClient) (name : String) (ns : Option String) :
    Exchange (Except Error (Option K)) :=
  lift (Api.get? (c.root ns) Entity.reader name)

/-- All entities, or those of one namespace. -/
def list (c : EntityClient) (ns : Option String) : Exchange (Except Error (List K)) :=
  lift (Api.list (c.root ns) Entity.reader)

/-- Create an entity. -/
def create (c : EntityClient) (e : K) : Exchange (Except Error K) :=
  lift (withTree e (Api.create (c.rootOf e) Entity.reader (some c.fieldManager)))

/-- Replace an entity; its version must be the current one. -/
def update (c : EntityClient) (e : K) : Exchange (Except Error K) :=
  c.withName e fun name =>
    lift (withTree e (Api.replace (c.rootOf e) Entity.reader (some c.fieldManager) name))

/-- What a write of the status changes: the status of the entity, or none at all. -/
def statusChange (tree : Json) : Json := .ofFields [("status", tree.field "status")]

/-- Write the status of an entity. -/
def updateStatus (c : EntityClient) (e : K) : Exchange (Except Error K) :=
  c.withName e fun name =>
    match Entity.encode e with
    | .error message => .done (.error (.encoding (some c.resource.kind) message))
    | .ok tree =>
      lift (Api.merge (c.rootOf e) Entity.reader (some c.fieldManager) name "/status"
        (statusChange tree))

/-- What a deletion comes to where the entity may be gone already. -/
def orGone : Except Error Unit → Except Error Unit
  | .error e => if e.isNotFound then .ok () else .error e
  | .ok () => .ok ()

/-- Delete an entity, if it is there. -/
def delete (c : EntityClient) (e : K) : Exchange (Except Error Unit) :=
  c.withName e fun name =>
    (lift (Api.delete (c.rootOf e) (Entity.reader (K := K)) name)).map orGone

/-- The request that opens a watch. -/
def watchRequest (c : EntityClient) (w : Watch.Request) : Except Error Request :=
  (Api.watchRequest (c.root w.ns) w).mapError .client

end EntityClient

end Reconciler.Http
