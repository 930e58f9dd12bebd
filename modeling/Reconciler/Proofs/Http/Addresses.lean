import Reconciler.Proofs.Http.Requests
import Reconciler.Simulation.Widget

/-!
# Where requests go

The description of a type and the API make the address of its objects in two ways: the one decides
between the core group and the named ones once, the other in each of two parts; the one leaves out
the namespace of a type of the whole cluster, and for the other the client does. They agree
(`EntityClient.root_eq_urlPath`), so every request of a client goes where the description of its
type says (`Call.sent_to_urlPath`).
-/

namespace Reconciler.Http

namespace Address

/-- The text needs no escaping to be a path. -/
def IsPath (text : String) : Prop := ∀ c ∈ text.toList, isPathChar c ∧ c ≠ '?' ∧ c ≠ '#'

instance (text : String) : Decidable (IsPath text) :=
  List.decidableBAll (fun c => isPathChar c ∧ c ≠ '?' ∧ c ≠ '#') text.toList

variable {text mark : String} {given : List (String × String)} {address : Address}

/-- A text that needs no escaping ends where the query begins, if there is one. -/
theorem takeWhile_of_isPath (h : IsPath text) (hmark : mark = "" ∨ mark = "?") :
    (text ++ mark).toList.takeWhile (fun c => c != '?' && c != '#') = text.toList := by
  have hall : ∀ c ∈ text.toList, (c != '?' && c != '#') = true := fun c hc => by
    simpa using (h c hc).2
  rw [String.toList_append, List.takeWhile_append_of_pos hall]
  rcases hmark with rfl | rfl <;> simp

theorem path_of_isPath (h : IsPath text) (hmark : mark = "" ∨ mark = "?")
    (haddress : ofText? (text ++ mark) given = some address) : address.path = text := by
  simp only [ofText?, takeWhile_of_isPath h hmark] at haddress
  split at haddress
  · obtain rfl := Option.some.inj haddress
    exact String.ofList_toList
  · cases haddress

theorem ofText?_of_isPath (h : IsPath text) (hmark : mark = "" ∨ mark = "?")
    (hsize : (text ++ mark).utf8ByteSize + querySize given ≤ longest) :
    ∃ address, ofText? (text ++ mark) given = some address := by
  have hrest :
      (((text ++ mark).toList.drop text.toList.length).takeWhile (· != '#')).drop 1 = [] := by
    rw [String.toList_append, List.drop_left]
    rcases hmark with rfl | rfl <;> simp
  have hpath : text.toList.all isPathChar = true := List.all_eq_true.mpr fun c hc => (h c hc).1
  simp only [ofText?, takeWhile_of_isPath h hmark, hrest, hpath, hsize]
  simp

end Address

/-! ## Where the objects of a type are -/

/-- The description of a type and the API agree on where its objects are. -/
theorem collection_eq_urlPath {r : ResourceType} (h : r.scope = .namespaced) (ns : Option String) :
    collection r ns = r.urlPath ns := by
  cases ns <;> by_cases hgroup : r.group = "" <;>
    simp [collection, ResourceType.urlPath, ResourceType.root, ResourceType.apiVersion, h, hgroup,
      String.append_assoc]

theorem urlPath_of_cluster {r : ResourceType} (h : r.scope = .cluster) (ns : Option String) :
    r.urlPath ns = collection r none := by
  by_cases hgroup : r.group = "" <;>
    simp [collection, ResourceType.urlPath, ResourceType.root, ResourceType.apiVersion, h, hgroup,
      String.append_assoc]

/-- A client looks for entities where the description of their type says that they are. -/
theorem EntityClient.root_eq_urlPath (c : EntityClient) (ns : Option String) :
    c.root ns = c.resource.urlPath ns := by
  cases h : c.resource.scope with
  | namespaced => simp only [root, h, collection_eq_urlPath h]
  | cluster => simp only [root, h, urlPath_of_cluster h]

/-! ## Where a call is sent -/

namespace Call

variable {K : Type} [Entity K]

/-- Whatever a client is called for, the text of the address is the path that the description of its
type gives for the namespace, and then nothing, the name, or the name and the word for its status.
Where nothing in it needs escaping, it is the path of every request, and a call that passes the
client's checks is sent unless the address is too long. A type of the whole cluster has one path for
all namespaces. -/
theorem sent_to_urlPath (c : EntityClient) (call : Call K) :
    (∀ request, call.Sends c request →
      Address.ofText? (c.resource.urlPath call.ns ++ call.tail ++ call.mark) (call.query c) =
        some request.address) ∧
    (Address.IsPath (c.resource.urlPath call.ns ++ call.tail) →
      (∀ request, call.Sends c request →
        request.address.path = c.resource.urlPath call.ns ++ call.tail) ∧
      (call.Allowed c →
        (c.resource.urlPath call.ns ++ call.tail ++ call.mark).utf8ByteSize +
          Address.querySize (call.query c) ≤ Address.longest →
        ∃ request, call.Sends c request)) ∧
    (c.resource.scope = .cluster → c.resource.urlPath call.ns = c.resource.urlPath none) := by
  have haddress : call.address? c =
      Address.ofText? (c.resource.urlPath call.ns ++ call.tail ++ call.mark) (call.query c) := by
    rw [address?, c.root_eq_urlPath]
  have hmark : call.mark = "" ∨ call.mark = "?" := by
    cases call with
    | get name ns => exact .inl rfl
    | _ => exact .inr rfl
  have hsent : ∀ request, call.Sends c request →
      Address.ofText? (c.resource.urlPath call.ns ++ call.tail ++ call.mark) (call.query c) =
        some request.address := fun request hsends => by
    rw [← haddress]
    exact hsends.allowed.2
  refine ⟨hsent, fun hpath => ⟨fun request hsends => ?_, fun hallowed hsize => ?_⟩,
    fun hcluster => ?_⟩
  · exact Address.path_of_isPath hpath hmark (hsent request hsends)
  · obtain ⟨address, hfits⟩ := Address.ofText?_of_isPath hpath hmark hsize
    obtain ⟨request, hsends, -⟩ := hallowed.sends (haddress.trans hfits)
    exact ⟨request, hsends⟩
  · rw [urlPath_of_cluster hcluster, urlPath_of_cluster hcluster]

section Gadgets

open Simulation (Widget)

/-- An entity of the whole cluster that says it has a namespace. -/
def strayGadget : Widget where
  metadata := { name := some "gauge", ns := some "team-a" }
  fields := []

/-- The status of an entity of the whole cluster is written where it has no namespace. -/
theorem sent_to_urlPath_cluster :
    Address.IsPath (Simulation.gadgetType.urlPath (some "team-a") ++ "/gauge/status") ∧
    (updateStatus strayGadget).Allowed ⟨Simulation.gadgetType, "kubeops"⟩ ∧
    ∃ request, (updateStatus strayGadget).Sends ⟨Simulation.gadgetType, "kubeops"⟩ request ∧
      request.address.path = "/apis/testing.kubeops.dev/v1/gadgets/gauge/status" := by
  have hpath : Address.IsPath
      (Simulation.gadgetType.urlPath (some "team-a") ++ "/gauge/status") := by
    decide
  have hallowed : (updateStatus strayGadget).Allowed ⟨Simulation.gadgetType, "kubeops"⟩ :=
    .updateStatus rfl (by decide) rfl (by decide)
  obtain ⟨-, hplain, -⟩ :=
    sent_to_urlPath ⟨Simulation.gadgetType, "kubeops"⟩ (updateStatus strayGadget)
  obtain ⟨hsent, hsends⟩ := hplain hpath
  obtain ⟨request, hrequest⟩ := hsends hallowed (by decide +kernel)
  exact ⟨hpath, hallowed, request, hrequest, hsent request hrequest⟩

end Gadgets

end Call

end Reconciler.Http
