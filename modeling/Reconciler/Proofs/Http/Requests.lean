import Reconciler.Proofs.Mirror.Requests
import Reconciler.Proofs.Mirror.Waits

/-!
# The requests of a client

Whatever the client of a type is called for, there is one request at most that it sends. It sends
one exactly if the call passes the client's own checks (`Call.Allowed`) and has an address, which is
made of where the objects are and what follows (`Call.Sends.allowed`, `Call.Allowed.sends`).
-/

namespace Reconciler

namespace Plan

variable {Q : Type} {A : Q → Type} {α β : Type}

/-- In some run the plan asks a question. -/
def Asks (plan : Plan Q A α) (q : Q) : Prop :=
  ∃ calls r answer, plan.Comes (fun _ _ => True) calls r ∧ ⟨q, answer⟩ ∈ calls

theorem not_asks_done {a : α} {q : Q} : ¬(done a : Plan Q A α).Asks q := by
  rintro ⟨calls, r, answer, hcomes, hmem⟩
  obtain ⟨rfl, -⟩ := comes_done.mp hcomes
  cases hmem

theorem asks_map {f : α → β} {plan : Plan Q A α} {q : Q} : (plan.map f).Asks q ↔ plan.Asks q := by
  constructor
  · rintro ⟨calls, r, answer, hcomes, hmem⟩
    obtain ⟨a, ha, -⟩ := comes_map.mp hcomes
    exact ⟨calls, a, answer, ha, hmem⟩
  · rintro ⟨calls, a, answer, hcomes, hmem⟩
    exact ⟨calls, f a, answer, comes_map.mpr ⟨a, hcomes, rfl⟩, hmem⟩

end Plan

namespace Http

open Mirror (comes_exchange requestAt_eq_ok bind_eq_ok)

variable {K α : Type} [Entity K]

theorem asks_exchange {request : Except ClientFault Request} {read : Reply → Except ClientFault α}
    {sent : Request} :
    (Api.exchange request read).Asks (.send sent) ↔ request = .ok sent := by
  constructor
  · rintro ⟨asked, r, reply, hcomes, hmem⟩
    rcases comes_exchange hcomes with ⟨fault, -, rfl, -⟩ | ⟨request, reply, rfl, rfl, -⟩
    · cases hmem
    · obtain ⟨heq, -⟩ := Sigma.mk.inj (List.mem_singleton.mp hmem)
      rw [Question.send.inj heq]
  · rintro rfl
    exact ⟨[⟨.send sent, .failed⟩], read .failed, .failed, .ask trivial (.done _),
      List.mem_singleton_self _⟩

/-! ## Checks -/

theorem checkName_eq_ok {name : String} : Api.checkName name = .ok () ↔ name ≠ "" := by
  simp [Api.checkName]

theorem checkManager_eq_ok {manager : String} {fault : RequestFault} :
    Api.checkManager (some manager) fault = .ok () ↔ manager.utf8ByteSize ≤ Api.managerLimit := by
  simp [Api.checkManager]

/-! ## Calls -/

/-- What the client of a type is called for. -/
inductive Call (K : Type) where
  | get (name : String) (ns : Option String)
  | list (ns : Option String)
  | create (entity : K)
  | update (entity : K)
  | updateStatus (entity : K)
  | delete (entity : K)
  | watch (request : Watch.Request)

namespace Call

/-- In some run of a call the client sends a request. -/
def Sends (c : EntityClient) (request : Request) : Call K → Prop
  | get name ns => (c.get (K := K) name ns).Asks (.send request)
  | list ns => (c.list (K := K) ns).Asks (.send request)
  | create e => (c.create e).Asks (.send request)
  | update e => (c.update e).Asks (.send request)
  | updateStatus e => (c.updateStatus e).Asks (.send request)
  | delete e => (c.delete e).Asks (.send request)
  | watch w => c.watchRequest w = .ok request

/-- The namespace that a call is given, or that of its entity. -/
def ns : Call K → Option String
  | get _ ns | list ns => ns
  | create e | update e | updateStatus e | delete e => (Entity.metadata e).ns
  | watch w => w.ns

/-- What follows where the objects are: nothing, a name, or a name and the word for its status. -/
def tail : Call K → String
  | list _ | create _ | watch _ => ""
  | get name _ => "/" ++ name
  | update e | delete e => "/" ++ (Entity.metadata e).name.getD ""
  | updateStatus e => "/" ++ (Entity.metadata e).name.getD "" ++ "/status"

/-- The mark of a query, which every address but that of a reading has. -/
def mark : Call K → String
  | get _ _ => ""
  | _ => "?"

/-- The named values of the address. -/
def query (c : EntityClient) : Call K → List (String × String)
  | get _ _ | list _ | delete _ => []
  | create _ | update _ | updateStatus _ => Api.byManager (some c.fieldManager)
  | watch w => [("watch", "true"), ("timeoutSeconds", toString w.timeoutSecs)] ++
      Api.given "labelSelector" w.labelSelector ++
      [("allowWatchBookmarks", "true"), ("resourceVersion", w.version)]

/-- The address of a call, if there is one. -/
def address? (c : EntityClient) (call : Call K) : Option Address :=
  Address.ofText? (c.root call.ns ++ call.tail ++ call.mark) (call.query c)

/-- A call passes the client's own checks. -/
inductive Allowed (c : EntityClient) : Call K → Prop where
  | get {name : String} {ns : Option String} (nonempty : name ≠ "") : Allowed c (.get name ns)
  | list {ns : Option String} : Allowed c (.list ns)
  | create {e : K} {tree : Json} (written : Entity.encode e = .ok tree)
      (manager : c.fieldManager.utf8ByteSize ≤ Api.managerLimit) : Allowed c (.create e)
  | update {e : K} {name : String} {tree : Json} (named : (Entity.metadata e).name = some name)
      (nonempty : name ≠ "") (written : Entity.encode e = .ok tree) : Allowed c (.update e)
  | updateStatus {e : K} {name : String} {tree : Json}
      (named : (Entity.metadata e).name = some name) (nonempty : name ≠ "")
      (written : Entity.encode e = .ok tree)
      (manager : c.fieldManager.utf8ByteSize ≤ Api.managerLimit) : Allowed c (.updateStatus e)
  | delete {e : K} {name : String} (named : (Entity.metadata e).name = some name)
      (nonempty : name ≠ "") : Allowed c (.delete e)
  | watch {w : Watch.Request} (short : w.timeoutSecs < Api.watchLimit) : Allowed c (.watch w)

section Sends

variable {c : EntityClient} {request : Request} {e : K} {name : String} {tree : Json}
  {ns : Option String}

theorem sends_get : (get name ns : Call K).Sends c request ↔ name ≠ "" ∧
    ∃ address, (get name ns : Call K).address? c = some address ∧
      request = { method := .get, address } := by
  have htext : Api.named (c.root ns) name = c.root ns ++ ("/" ++ name) ++ "" := by
    simp [Api.named, String.append_assoc]
  simp only [Sends, EntityClient.get, EntityClient.lift, Plan.asks_map, Api.get?, Api.get]
  rw [asks_exchange, htext]
  exact bind_eq_ok.trans (and_congr checkName_eq_ok requestAt_eq_ok)

theorem sends_list : (list ns : Call K).Sends c request ↔
    ∃ address, (list ns : Call K).address? c = some address ∧
      request = { method := .get, address } := by
  have htext : c.root ns ++ "?" = c.root ns ++ "" ++ "?" := by rw [String.append_empty]
  simp only [Sends, EntityClient.list, EntityClient.lift, Plan.asks_map, Api.list, Api.request]
  rw [asks_exchange, htext]
  exact requestAt_eq_ok

theorem not_sends_unwritten {error : String} (h : Entity.encode e = .error error) :
    ¬(create e).Sends c request ∧ ¬(update e).Sends c request ∧
      ¬(updateStatus e).Sends c request := by
  simp only [Sends, EntityClient.create, EntityClient.update, EntityClient.updateStatus,
    EntityClient.withName, EntityClient.withTree, EntityClient.lift, h]
  refine ⟨Plan.not_asks_done, ?_, ?_⟩ <;> cases (Entity.metadata e).name <;>
    exact Plan.not_asks_done

theorem not_sends_nameless (h : (Entity.metadata e).name = none) :
    ¬(update e).Sends c request ∧ ¬(updateStatus e).Sends c request ∧
      ¬(delete e).Sends c request := by
  simp only [Sends, EntityClient.update, EntityClient.updateStatus, EntityClient.delete,
    EntityClient.withName, h]
  exact ⟨Plan.not_asks_done, Plan.not_asks_done, Plan.not_asks_done⟩

theorem sends_create (hwritten : Entity.encode e = .ok tree) : (create e).Sends c request ↔
    c.fieldManager.utf8ByteSize ≤ Api.managerLimit ∧
    ∃ address, (create e).address? c = some address ∧
      request = { method := .post, address, content := some ("application/json", tree) } := by
  have htext : c.rootOf e ++ "?" = c.root (Entity.metadata e).ns ++ "" ++ "?" := by
    rw [String.append_empty, EntityClient.rootOf]
  simp only [Sends, EntityClient.create, EntityClient.lift, EntityClient.withTree, hwritten,
    Plan.asks_map, Api.create, Api.request]
  rw [asks_exchange, htext]
  exact bind_eq_ok.trans (and_congr checkManager_eq_ok requestAt_eq_ok)

theorem sends_update (hname : (Entity.metadata e).name = some name)
    (hwritten : Entity.encode e = .ok tree) : (update e).Sends c request ↔ name ≠ "" ∧
    ∃ address, (update e).address? c = some address ∧
      request = { method := .put, address, content := some ("application/json", tree) } := by
  have htext : Api.named (c.rootOf e) name ++ "?" =
      c.root (Entity.metadata e).ns ++ ("/" ++ name) ++ "?" := by
    simp only [Api.named, EntityClient.rootOf, String.append_assoc]
  have htail : (update e).tail = "/" ++ name := by rw [tail, hname, Option.getD_some]
  simp only [Sends, EntityClient.update, EntityClient.withName, hname, EntityClient.lift,
    EntityClient.withTree, hwritten, Plan.asks_map, Api.replace, Api.request]
  rw [asks_exchange, htext, address?, htail]
  exact bind_eq_ok.trans (and_congr checkName_eq_ok requestAt_eq_ok)

theorem sends_updateStatus (hname : (Entity.metadata e).name = some name)
    (hwritten : Entity.encode e = .ok tree) : (updateStatus e).Sends c request ↔ name ≠ "" ∧
    c.fieldManager.utf8ByteSize ≤ Api.managerLimit ∧
    ∃ address, (updateStatus e).address? c = some address ∧
      request = {
        method := .patch, address
        content := some ("application/merge-patch+json", EntityClient.statusChange tree) } := by
  have htext : Api.named (c.rootOf e) name ++ "/status" ++ "?" =
      c.root (Entity.metadata e).ns ++ ("/" ++ name ++ "/status") ++ "?" := by
    simp only [Api.named, EntityClient.rootOf, String.append_assoc]
  have htail : (updateStatus e).tail = "/" ++ name ++ "/status" := by
    rw [tail, hname, Option.getD_some]
  simp only [Sends, EntityClient.updateStatus, EntityClient.withName, hname, EntityClient.lift,
    hwritten, Plan.asks_map, Api.merge, Api.request]
  rw [asks_exchange, htext, address?, htail]
  exact bind_eq_ok.trans (and_congr checkName_eq_ok
    (bind_eq_ok.trans (and_congr checkManager_eq_ok requestAt_eq_ok)))

theorem sends_delete (hname : (Entity.metadata e).name = some name) :
    (delete e).Sends c request ↔ name ≠ "" ∧
    ∃ address, (delete e).address? c = some address ∧
      request = { method := .delete, address, content := some ("application/json", .obj []) } := by
  have htext : Api.named (c.rootOf e) name ++ "?" =
      c.root (Entity.metadata e).ns ++ ("/" ++ name) ++ "?" := by
    simp only [Api.named, EntityClient.rootOf, String.append_assoc]
  have htail : (delete e).tail = "/" ++ name := by rw [tail, hname, Option.getD_some]
  simp only [Sends, EntityClient.delete, EntityClient.withName, hname, EntityClient.lift,
    Plan.asks_map, Api.delete, Api.request]
  rw [asks_exchange, htext, address?, htail]
  exact bind_eq_ok.trans (and_congr checkName_eq_ok requestAt_eq_ok)

theorem sends_watch {w : Watch.Request} : (watch w : Call K).Sends c request ↔
    w.timeoutSecs < Api.watchLimit ∧
    ∃ address, (watch w : Call K).address? c = some address ∧
      request = { method := .get, address } := by
  have htext : c.root w.ns ++ "?" = c.root w.ns ++ "" ++ "?" := by rw [String.append_empty]
  simp only [Sends, EntityClient.watchRequest, Api.watchRequest, Api.request]
  rw [htext]
  by_cases hlong : Api.watchLimit ≤ w.timeoutSecs
  · simp [hlong, Except.mapError]
  · rw [if_neg hlong, mapError_eq_ok, requestAt_eq_ok]
    exact (and_iff_right (Nat.lt_of_not_le hlong)).symm

/-- What is sent goes to the address of the call, which has passed the checks. -/
theorem Sends.allowed {call : Call K} (h : call.Sends c request) :
    call.Allowed c ∧ call.address? c = some request.address := by
  cases call with
  | get name ns =>
    obtain ⟨hname, address, haddress, rfl⟩ := sends_get.mp h
    exact ⟨.get hname, haddress⟩
  | list ns =>
    obtain ⟨address, haddress, rfl⟩ := sends_list.mp h
    exact ⟨.list, haddress⟩
  | watch w =>
    obtain ⟨hshort, address, haddress, rfl⟩ := sends_watch.mp h
    exact ⟨.watch hshort, haddress⟩
  | create e =>
    cases hwritten : Entity.encode e with
    | error error => exact absurd h (not_sends_unwritten hwritten).1
    | ok tree =>
      obtain ⟨hmanager, address, haddress, rfl⟩ := (sends_create hwritten).mp h
      exact ⟨.create hwritten hmanager, haddress⟩
  | update e =>
    cases hname : (Entity.metadata e).name with
    | none => exact absurd h (not_sends_nameless hname).1
    | some name =>
      cases hwritten : Entity.encode e with
      | error error => exact absurd h (not_sends_unwritten hwritten).2.1
      | ok tree =>
        obtain ⟨hnonempty, address, haddress, rfl⟩ := (sends_update hname hwritten).mp h
        exact ⟨.update hname hnonempty hwritten, haddress⟩
  | updateStatus e =>
    cases hname : (Entity.metadata e).name with
    | none => exact absurd h (not_sends_nameless hname).2.1
    | some name =>
      cases hwritten : Entity.encode e with
      | error error => exact absurd h (not_sends_unwritten hwritten).2.2
      | ok tree =>
        obtain ⟨hnonempty, hmanager, address, haddress, rfl⟩ :=
          (sends_updateStatus hname hwritten).mp h
        exact ⟨.updateStatus hname hnonempty hwritten hmanager, haddress⟩
  | delete e =>
    cases hname : (Entity.metadata e).name with
    | none => exact absurd h (not_sends_nameless hname).2.2
    | some name =>
      obtain ⟨hnonempty, address, haddress, rfl⟩ := (sends_delete hname).mp h
      exact ⟨.delete hname hnonempty, haddress⟩

/-- A call that passes the checks and has an address is sent there. -/
theorem Allowed.sends {call : Call K} (h : call.Allowed c) {address : Address}
    (haddress : call.address? c = some address) :
    ∃ request, call.Sends c request ∧ request.address = address := by
  cases h with
  | get hname => exact ⟨_, sends_get.mpr ⟨hname, address, haddress, rfl⟩, rfl⟩
  | list => exact ⟨_, sends_list.mpr ⟨address, haddress, rfl⟩, rfl⟩
  | create hwritten hmanager =>
    exact ⟨_, (sends_create hwritten).mpr ⟨hmanager, address, haddress, rfl⟩, rfl⟩
  | update hname hnonempty hwritten =>
    exact ⟨_, (sends_update hname hwritten).mpr ⟨hnonempty, address, haddress, rfl⟩, rfl⟩
  | updateStatus hname hnonempty hwritten hmanager =>
    exact ⟨_, (sends_updateStatus hname hwritten).mpr
      ⟨hnonempty, hmanager, address, haddress, rfl⟩, rfl⟩
  | delete hname hnonempty =>
    exact ⟨_, (sends_delete hname).mpr ⟨hnonempty, address, haddress, rfl⟩, rfl⟩
  | watch hshort => exact ⟨_, sends_watch.mpr ⟨hshort, address, haddress, rfl⟩, rfl⟩

end Sends

end Call

end Http

end Reconciler
