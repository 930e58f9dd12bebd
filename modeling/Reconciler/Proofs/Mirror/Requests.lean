import Reconciler.Proofs.Mirror.StatusWrites
import Reconciler.Proofs.Mirror.Waits

/-!
# Calls as requests

A plan whose calls are settled by plans of further questions asks these questions call by call
(`comes_interpret`). The calls of the mirror are settled by at most one request each, and `StandsFor`
says which. A call for which none is sent fails before it reaches the server (`Sends`). A source that
is there is what the reply to its request says (`comes_source`).
-/

namespace Reconciler

namespace Plan

variable {Q P : Type} {A : Q → Type} {B : P → Type} {α β : Type}
  {settle : (q : Q) → Plan P B (A q)} {fit : (p : P) → B p → Prop} {asked : List ((p : P) × B p)}

theorem comes_map {f : α → β} {plan : Plan P B α} {r : β} :
    (plan.map f).Comes fit asked r ↔ ∃ a, plan.Comes fit asked a ∧ r = f a := by
  rw [Plan.map, comes_bind]
  constructor
  · rintro ⟨first, rest, a, rfl, hfirst, hrest⟩
    obtain ⟨rfl, rfl⟩ := comes_done.mp hrest
    rw [List.append_nil]
    exact ⟨a, hfirst, rfl⟩
  · rintro ⟨a, ha, rfl⟩
    exact ⟨asked, [], a, (List.append_nil asked).symm, ha, .done _⟩

/-- The way through a plan whose questions a function answers. -/
theorem comes_answeredBy (answer : (q : Q) → A q) (plan : Plan Q A α) :
    plan.Comes (fun _ _ => True) ((plan.asked answer).map fun q => ⟨q, answer q⟩)
      (plan.answeredBy answer) := by
  induction plan with
  | done a => exact .done a
  | ask q next ih => exact .ask trivial (ih (answer q))

/-- Calls and what is asked to settle them, one after the other. -/
inductive Settles (settle : (q : Q) → Plan P B (A q)) (fit : (p : P) → B p → Prop) :
    List ((q : Q) × A q) → List ((p : P) × B p) → Prop where
  | nil : Settles settle fit [] []
  | cons {q : Q} {answer : A q} {calls : List ((q : Q) × A q)} {own asked : List ((p : P) × B p)} :
      (settle q).Comes fit own answer → Settles settle fit calls asked →
      Settles settle fit (⟨q, answer⟩ :: calls) (own ++ asked)

/-- A way through a plan whose calls are settled is a way through the plan, with each call settled in
its turn. -/
theorem comes_interpret {plan : Plan Q A α} {r : α} : (plan.interpret settle).Comes fit asked r ↔
    ∃ calls, plan.Comes (fun _ _ => True) calls r ∧ Settles settle fit calls asked := by
  induction plan generalizing asked with
  | done a =>
    rw [interpret, comes_done]
    constructor
    · rintro ⟨rfl, rfl⟩
      exact ⟨[], .done r, .nil⟩
    · rintro ⟨calls, hcomes, hsettles⟩
      obtain ⟨rfl, rfl⟩ := comes_done.mp hcomes
      cases hsettles
      exact ⟨rfl, rfl⟩
  | ask q next ih =>
    rw [interpret, comes_bind]
    constructor
    · rintro ⟨own, rest, answer, rfl, hown, hrest⟩
      obtain ⟨calls, hcomes, hsettles⟩ := (ih answer).mp hrest
      exact ⟨⟨q, answer⟩ :: calls, .ask trivial hcomes, .cons hown hsettles⟩
    · rintro ⟨calls, hcomes, hsettles⟩
      obtain ⟨answer, later, rfl, -, hlater⟩ := comes_ask.mp hcomes
      cases hsettles with
      | cons hown hrest => exact ⟨_, _, answer, rfl, hown, (ih answer).mpr ⟨later, hlater, hrest⟩⟩

end Plan

namespace Mirror

open Http (EntityClient Request Question)
open Http.MirrorClient (configMaps settle)

/-! ## The request of a call -/

/-- The call was answered with an error. -/
def Asked.error? : Asked → Option Error
  | ⟨.source _ _, .error error⟩ => some error
  | ⟨.apply _ _ _, .error error⟩ => some error
  | ⟨.writeStatus _, .error error⟩ => some error
  | ⟨.select _, .error error⟩ => some error
  | ⟨.delete _ _, .error error⟩ => some error
  | _ => none

/-- The request that is sent for a call. -/
inductive StandsFor (c : EntityClient) : Call → Request → Prop where
  | source {ns name : String} {address : Http.Address} :
      Http.Address.ofText? (Http.Api.named (configMaps ns) name) = some address →
      StandsFor c (.source ns name) { method := .get, address }
  | apply {ns name : String} {copy : ConfigMap} {address : Http.Address} :
      Http.Address.ofText? (Http.Api.named (configMaps ns) name ++ "?")
        [("fieldManager", fieldManager), ("force", "true")] = some address →
      StandsFor c (.apply ns name copy)
        { method := .patch, address, content := some ("application/apply-patch+yaml", copy.toJson) }
  | writeStatus {m : ConfigMirror} {name : String} {address : Http.Address} :
      m.metadata.name = some name → statusAddress c m name = some address →
      StandsFor c (.writeStatus m)
        { method := .patch, address,
          content := some ("application/merge-patch+json", EntityClient.statusChange m.toJson) }
  | select {selector : String} {address : Http.Address} :
      Http.Address.ofText? (ResourceType.configMap.urlPath none ++ "?")
        [("labelSelector", selector)] = some address →
      StandsFor c (.select selector) { method := .get, address }
  | delete {ns name : String} {address : Http.Address} :
      Http.Address.ofText? (Http.Api.named (configMaps ns) name ++ "?") = some address →
      StandsFor c (.delete ns name)
        { method := .delete, address, content := some ("application/json", .obj []) }

/-- What is sent for calls, in their order: the answer of a call is what the client makes of the
reply. -/
inductive Sends (c : EntityClient) : List Asked → List ((q : Question) × q.Answer) → Prop where
  | nil : Sends c [] []
  | refused {call : Asked} {calls : List Asked} {asked : List ((q : Question) × q.Answer)} :
      (settle c call.1).Comes (fun _ _ => True) [] call.2 → call.error? ≠ none →
      Sends c calls asked → Sends c (call :: calls) asked
  | sent {call : Asked} {calls : List Asked} {request : Request} {reply : Http.Reply}
      {asked : List ((q : Question) × q.Answer)} :
      (settle c call.1).Comes (fun _ _ => True) [⟨.send request, reply⟩] call.2 →
      StandsFor c call.1 request → Sends c calls asked →
      Sends c (call :: calls) (⟨.send request, reply⟩ :: asked)

section Exchanges

variable {α : Type} {fit : (q : Question) → q.Answer → Prop}
  {own : List ((q : Question) × q.Answer)}

theorem comes_exchange {request : Except ClientFault Request}
    {read : Http.Reply → Except ClientFault α} {a : Except ClientFault α}
    (h : (Http.Api.exchange request read).Comes fit own a) :
    (∃ fault, request = .error fault ∧ own = [] ∧ a = .error fault) ∨
      ∃ sent reply, request = .ok sent ∧ own = [⟨.send sent, reply⟩] ∧ a = read reply := by
  cases request with
  | error fault =>
    obtain ⟨rfl, rfl⟩ := Plan.comes_done.mp h
    exact .inl ⟨fault, rfl, rfl, rfl⟩
  | ok sent =>
    obtain ⟨reply, rest, rfl, -, hrest⟩ := Plan.comes_ask.mp h
    obtain ⟨rfl, rfl⟩ := Plan.comes_done.mp hrest
    exact .inr ⟨sent, reply, rfl, rfl, rfl⟩

theorem requestAt_eq_ok {method : Http.Method} {address? : Option Http.Address}
    {content : Option (String × Json)} {request : Request} :
    Http.Api.requestAt method address? content = .ok request ↔
      ∃ address, address? = some address ∧ request = { method, address, content } := by
  cases address? with
  | none => simp [Http.Api.requestAt]
  | some address => simp [Http.Api.requestAt, eq_comm]

theorem bind_eq_ok {check : Except ClientFault Unit} {request : Except ClientFault Request}
    {sent : Request} :
    (check.bind fun _ => request) = .ok sent ↔ check = .ok () ∧ request = .ok sent := by
  cases check with
  | error fault => simp [Except.bind]
  | ok _ => simp [Except.bind]

/-- What is refused before it is sent is not refused by the server. -/
theorem unsent_ne_api {name : String} {address? : Option Http.Address} {fault : ClientFault}
    (h : ((Http.Api.checkName name).bind fun _ =>
      Http.Api.requestAt .get address? none) = .error fault) (status : ApiStatus) :
    fault ≠ .api status := by
  rintro rfl
  unfold Http.Api.checkName at h
  split at h
  · cases h
  · cases address? <;> cases h

/-- A call is settled by one request, or fails without. -/
theorem settle_comes {c : EntityClient} {call : Call} {answer : call.Answer}
    (h : (settle c call).Comes fit own answer) :
    own = [] ∧ Asked.error? ⟨call, answer⟩ ≠ none ∨
      ∃ request reply, StandsFor c call request ∧ own = [⟨.send request, reply⟩] := by
  cases call with
  | source ns name =>
    obtain ⟨found, hfound, rfl⟩ := Plan.comes_map.mp h
    obtain ⟨object, hobject, rfl⟩ := Plan.comes_map.mp hfound
    rcases comes_exchange hobject with ⟨fault, herror, rfl, rfl⟩ | ⟨request, reply, hsent, rfl, -⟩
    · -- A 404 would be an answer and no failure, but it takes a server to say so.
      have hfault := unsent_ne_api herror
      refine .inl ⟨rfl, ?_⟩
      cases fault with
      | api status => exact absurd rfl (hfault status)
      | _ => exact Option.some_ne_none _
    · obtain ⟨address, haddress, rfl⟩ := requestAt_eq_ok.mp (bind_eq_ok.mp hsent).2
      exact .inr ⟨_, reply, .source haddress, rfl⟩
  | apply ns name copy =>
    obtain ⟨stored, hstored, rfl⟩ := Plan.comes_map.mp h
    obtain ⟨object, hobject, rfl⟩ := Plan.comes_map.mp hstored
    rcases comes_exchange hobject with ⟨fault, -, rfl, rfl⟩ | ⟨request, reply, hsent, rfl, -⟩
    · exact .inl ⟨rfl, Option.some_ne_none _⟩
    · obtain ⟨address, haddress, rfl⟩ := requestAt_eq_ok.mp (bind_eq_ok.mp (bind_eq_ok.mp hsent).2).2
      exact .inr ⟨_, reply, .apply haddress, rfl⟩
  | writeStatus m =>
    obtain ⟨stored, hstored, rfl⟩ := Plan.comes_map.mp h
    simp only [EntityClient.updateStatus, EntityClient.withName] at hstored
    split at hstored
    · next name hname =>
      obtain ⟨object, hobject, rfl⟩ := Plan.comes_map.mp hstored
      rcases comes_exchange hobject with ⟨fault, -, rfl, rfl⟩ | ⟨request, reply, hsent, rfl, -⟩
      · exact .inl ⟨rfl, Option.some_ne_none _⟩
      · obtain ⟨address, haddress, rfl⟩ := requestAt_eq_ok.mp (bind_eq_ok.mp (bind_eq_ok.mp hsent).2).2
        exact .inr ⟨_, reply, .writeStatus hname haddress, rfl⟩
    · obtain ⟨rfl, rfl⟩ := Plan.comes_done.mp hstored
      exact .inl ⟨rfl, Option.some_ne_none _⟩
  | select selector =>
    obtain ⟨objects, hobjects, rfl⟩ := Plan.comes_map.mp h
    rcases comes_exchange hobjects with ⟨fault, -, rfl, rfl⟩ | ⟨request, reply, hsent, rfl, -⟩
    · exact .inl ⟨rfl, Option.some_ne_none _⟩
    · obtain ⟨address, haddress, rfl⟩ := requestAt_eq_ok.mp hsent
      exact .inr ⟨_, reply, .select haddress, rfl⟩
  | delete ns name =>
    obtain ⟨object, hobject, rfl⟩ := Plan.comes_map.mp h
    rcases comes_exchange hobject with ⟨fault, -, rfl, rfl⟩ | ⟨request, reply, hsent, rfl, -⟩
    · exact .inl ⟨rfl, Option.some_ne_none _⟩
    · obtain ⟨address, haddress, rfl⟩ := requestAt_eq_ok.mp (bind_eq_ok.mp hsent).2
      exact .inr ⟨_, reply, .delete haddress, rfl⟩

theorem readAs_eq_ok {reader : Json.Reader α} {reply : Http.Reply} {a : α}
    (h : Http.Api.readAs reader reply = .ok a) :
    ∃ status body, reply = .answered status body ∧ reader.run? body.text = some a := by
  unfold Http.Api.readAs at h
  split at h
  · cases h
  · next text htext =>
    unfold Http.Api.textOf at htext
    split at htext
    · cases htext
    · next status body =>
      split at htext
      · cases htext
      · split at htext
        · cases htext
        · obtain rfl := Except.ok.inj htext
          split at h
          · next b hb => exact ⟨status, body, rfl, hb.trans (congrArg some (Except.ok.inj h))⟩
          · cases h

/-- A source that is there is what the reply says. -/
theorem comes_source {c : EntityClient} {ns name : String} {source : ConfigMap}
    (h : (settle c (.source ns name)).Comes fit own (.ok (some source))) :
    ∃ request status body, own = [⟨.send request, .answered status body⟩] ∧
      ConfigMap.reader.run? body.text = some source := by
  obtain ⟨found, hfound, heq⟩ := Plan.comes_map.mp h
  obtain ⟨object, hobject, rfl⟩ := Plan.comes_map.mp hfound
  have hthere := Http.orMissing_eq_some (Http.mapError_eq_ok.mp heq.symm)
  rcases comes_exchange hobject with ⟨fault, -, rfl, rfl⟩ | ⟨request, reply, -, rfl, rfl⟩
  · cases hthere
  · obtain ⟨status, body, rfl, hread⟩ := readAs_eq_ok hthere
    exact ⟨request, status, body, rfl, hread⟩

/-- What is asked to settle calls is what is sent for them. -/
theorem sends_of_settles {c : EntityClient} {calls : List Asked}
    {asked : List ((q : Question) × q.Answer)}
    (h : Plan.Settles (settle c) (fun _ _ => True) calls asked) : Sends c calls asked := by
  induction h with
  | nil => exact .nil
  | cons hown _ ih =>
    rcases settle_comes hown with ⟨rfl, herror⟩ | ⟨request, reply, hstands, rfl⟩
    · exact .refused hown herror ih
    · exact .sent hown hstands ih

theorem Sends.stands {c : EntityClient} {calls : List Asked}
    {asked : List ((q : Question) × q.Answer)} (h : Sends c calls asked) {request : Request}
    {reply : Http.Reply} (hmem : ⟨.send request, reply⟩ ∈ asked) :
    ∃ call ∈ calls, StandsFor c call.1 request := by
  induction h with
  | nil => cases hmem
  | refused _ _ _ ih =>
    obtain ⟨call, hcall, hstands⟩ := ih hmem
    exact ⟨call, List.mem_cons_of_mem _ hcall, hstands⟩
  | sent _ hstands _ ih =>
    rcases List.mem_cons.mp hmem with heq | hmem
    · cases heq
      exact ⟨_, List.mem_cons_self, hstands⟩
    · obtain ⟨call, hcall, hstands⟩ := ih hmem
      exact ⟨call, List.mem_cons_of_mem _ hcall, hstands⟩

end Exchanges

end Mirror

end Reconciler
