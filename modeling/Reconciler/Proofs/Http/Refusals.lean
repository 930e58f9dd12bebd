import Reconciler.Http.LeaseClient
import Reconciler.Proofs.Http.Requests
import Reconciler.Simulation.Widget

/-!
# Requests that the client refuses

The client checks a request before it sends it, and the settings of an operator are checked once
when it starts. The two agree about how long a watch may last. They do not agree about the operator's
name, which is the field manager of what it creates, of the statuses that it writes and of the lease
that it gives back: the settings may have a name of any length, and of these requests the client
refuses those with a name of more than 128 bytes (`Demand.refused_iff`). Watches, replacements and
the acquisition of the lease are not affected, so such an operator starts, leads and watches.
-/

namespace Reconciler

namespace Plan

variable {Q : Type} {A : Q → Type} {α β : Type}

/-- In some run the plan ends with a result of a kind. -/
def MayEnd (plan : Plan Q A α) (kind : α → Prop) : Prop :=
  ∃ calls r, plan.Comes (fun _ _ => True) calls r ∧ kind r

theorem mayEnd_done {a : α} {kind : α → Prop} : (done a : Plan Q A α).MayEnd kind ↔ kind a := by
  constructor
  · rintro ⟨calls, r, hcomes, hkind⟩
    obtain ⟨-, rfl⟩ := comes_done.mp hcomes
    exact hkind
  · exact fun hkind => ⟨[], a, .done a, hkind⟩

theorem mayEnd_map {f : α → β} {plan : Plan Q A α} {kind : β → Prop} :
    (plan.map f).MayEnd kind ↔ plan.MayEnd fun a => kind (f a) := by
  constructor
  · rintro ⟨calls, r, hcomes, hkind⟩
    obtain ⟨a, ha, rfl⟩ := comes_map.mp hcomes
    exact ⟨calls, a, ha, hkind⟩
  · rintro ⟨calls, a, hcomes, hkind⟩
    exact ⟨calls, f a, comes_map.mpr ⟨a, hcomes, rfl⟩, hkind⟩

end Plan

namespace Http

open Leadership (Elector LeaseCall)

variable {K α β : Type}

/-! ## Checks -/

/-- What does not pass the client's own checks. -/
def Invalid (outcome : Except ClientFault α) : Prop :=
  ∃ fault, outcome = .error (.invalidRequest fault)

theorem invalid_bind {check : Except ClientFault Unit} {request : Except ClientFault α} :
    Invalid (check.bind fun _ => request) ↔ Invalid check ∨ check = .ok () ∧ Invalid request := by
  cases check with
  | error fault => simp [Invalid, Except.bind]
  | ok _ => simp [Invalid, Except.bind]

theorem invalid_checkName {name : String} : Invalid (Api.checkName name) ↔ name = "" := by
  by_cases hname : name = "" <;> simp [Invalid, Api.checkName, hname]

theorem invalid_checkManager {manager : Option String} {fault : RequestFault} :
    Invalid (Api.checkManager manager fault) ↔
      Api.managerLimit < (manager.getD "").utf8ByteSize := by
  by_cases hlong : Api.managerLimit < (manager.getD "").utf8ByteSize <;>
    simp [Invalid, Api.checkManager, hlong]

theorem not_invalid_requestAt {method : Method} {address? : Option Address}
    {content : Option (String × Json)} : ¬Invalid (Api.requestAt method address? content) := by
  rintro ⟨fault, h⟩
  cases address? <;> cases h

/-- The request for a named object is refused only for its name. -/
theorem not_invalid_named {name : String} {method : Method} {address? : Option Address}
    {content : Option (String × Json)} (hname : name ≠ "") :
    ¬Invalid ((Api.checkName name).bind fun _ => Api.requestAt method address? content) := by
  rw [invalid_bind, invalid_checkName]
  rintro (hempty | ⟨-, hrequest⟩)
  · exact hname hempty
  · exact not_invalid_requestAt hrequest

/-- No answer is read as a refusal of the request. -/
theorem not_invalid_readAs (reader : Json.Reader α) (reply : Reply) :
    ¬Invalid (Api.readAs reader reply) := by
  rintro ⟨fault, h⟩
  unfold Api.readAs at h
  split at h
  · next told htext =>
    obtain rfl := Except.error.inj h
    unfold Api.textOf at htext
    split at htext
    · cases htext
    · split at htext
      · cases htext
      · split at htext <;> cases htext
  · split at h <;> cases h

theorem invalid_orMissing {outcome : Except ClientFault α} :
    Invalid (Api.orMissing outcome) ↔ Invalid outcome := by
  cases outcome with
  | ok a => simp [Invalid, Api.orMissing]
  | error fault =>
    cases fault with
    | api status =>
      simp only [Invalid, Api.orMissing]
      split <;> simp
    | _ => simp [Invalid, Api.orMissing]

theorem mayEnd_exchange {request : Except ClientFault Request} {reader : Json.Reader α} :
    (Api.exchange request (Api.readAs reader)).MayEnd Invalid ↔ Invalid request := by
  constructor
  · rintro ⟨asked, outcome, hcomes, fault, rfl⟩
    rcases Mirror.comes_exchange hcomes with ⟨told, rfl, -, heq⟩ | ⟨sent, reply, -, -, heq⟩
    · exact ⟨fault, congrArg Except.error (Except.error.inj heq).symm⟩
    · exact absurd ⟨fault, heq.symm⟩ (not_invalid_readAs reader reply)
  · rintro ⟨fault, rfl⟩
    exact Plan.mayEnd_done.mpr ⟨fault, rfl⟩

section Operations

variable {root name : String} {reader : Json.Reader α} {manager : Option String} {object : Json}

theorem not_mayEnd_get (hname : name ≠ "") : ¬(Api.get? root reader name).MayEnd Invalid := by
  simp only [Api.get?, Plan.mayEnd_map, invalid_orMissing]
  exact fun h => not_invalid_named hname (mayEnd_exchange.mp h)

theorem mayEnd_create : (Api.create root reader manager object).MayEnd Invalid ↔
    Api.managerLimit < (manager.getD "").utf8ByteSize := by
  refine mayEnd_exchange.trans (invalid_bind.trans ?_)
  rw [invalid_checkManager]
  exact or_iff_left fun h => not_invalid_requestAt h.2

theorem not_mayEnd_replace (hname : name ≠ "") :
    ¬(Api.replace root reader manager name object).MayEnd Invalid :=
  fun h => not_invalid_named hname (mayEnd_exchange.mp h)

theorem mayEnd_merge {part : String} (hname : name ≠ "") :
    (Api.merge root reader manager name part object).MayEnd Invalid ↔
      Api.managerLimit < (manager.getD "").utf8ByteSize := by
  have hchecked : Api.checkName name = .ok () := checkName_eq_ok.mpr hname
  refine mayEnd_exchange.trans (invalid_bind.trans ?_)
  rw [invalid_checkName, or_iff_right hname, and_iff_right hchecked]
  refine invalid_bind.trans ?_
  rw [invalid_checkManager]
  exact or_iff_left fun h => not_invalid_requestAt h.2

end Operations

/-! ## Outcomes -/

/-- An operation of the runtime failed because the client refused its request. -/
def IsRefusal (outcome : Except Error α) : Prop :=
  ∃ fault, outcome = .error (.client (.invalidRequest fault))

theorem isRefusal_mapError {outcome : Except ClientFault α} :
    IsRefusal (outcome.mapError .client) ↔ Invalid outcome := by
  cases outcome <;> simp [IsRefusal, Invalid, Except.mapError]

theorem isRefusal_map {f : α → β} {outcome : Except Error α} :
    IsRefusal (outcome.map f) ↔ IsRefusal outcome := by
  cases outcome <;> simp [IsRefusal, Except.map]

theorem refused_lift {operation : Operation α} :
    (EntityClient.lift operation).MayEnd IsRefusal ↔ operation.MayEnd Invalid := by
  simp only [EntityClient.lift, Plan.mayEnd_map, isRefusal_mapError]

theorem refused_done {operation : Operation Lease} :
    (LeaseClient.done operation).MayEnd IsRefusal ↔ operation.MayEnd Invalid := by
  simp only [LeaseClient.done, Plan.mayEnd_map, isRefusal_map, refused_lift]

/-! ## What is asked on behalf of an operator -/

/-- What an operator asks of the API about its entities and its lease. -/
inductive Demand (K : Type) where
  | watch (ns : Option String) (version : String) (labelSelector : Option String)
  | create (entity : K)
  | update (entity : K)
  | updateStatus (entity : K)
  | lease (call : LeaseCall)

namespace Demand

variable [Entity K]

/-- In some run the client refuses the request that an operator of these settings has for it. -/
def Refused (s : Settings) (r : ResourceType) : Demand K → Prop
  | watch ns version labelSelector => IsRefusal (EntityClient.watchRequest ⟨r, s.name⟩
      { ns, version, labelSelector, timeoutSecs := s.watchTimeoutSecs })
  | create e => (EntityClient.create ⟨r, s.name⟩ e).MayEnd IsRefusal
  | update e => (EntityClient.update ⟨r, s.name⟩ e).MayEnd IsRefusal
  | updateStatus e => (EntityClient.updateStatus ⟨r, s.name⟩ e).MayEnd IsRefusal
  | lease .clock => False
  | lease .get => (LeaseClient.settle (.ofSettings s) .get).MayEnd IsRefusal
  | lease (.create held) => (LeaseClient.settle (.ofSettings s) (.create held)).MayEnd IsRefusal
  | lease (.replace held) => (LeaseClient.settle (.ofSettings s) (.replace held)).MayEnd IsRefusal
  | lease (.vacate time) => (LeaseClient.settle (.ofSettings s) (.vacate time)).MayEnd IsRefusal

/-- The demand is about an entity with a name, or a lease with one. -/
def Named (s : Settings) : Demand K → Prop
  | watch _ _ _ => True
  | create e | update e | updateStatus e => ∃ name, (Entity.metadata e).name = some name ∧ name ≠ ""
  | lease _ => s.leaseName ≠ ""

/-- The client measures the operator's name before it sends the request. -/
def Measured : Demand K → Prop
  | create e | updateStatus e => ∃ tree, Entity.encode e = .ok tree
  | lease (.vacate _) => True
  | _ => False

section Cases

variable {s : Settings} {r : ResourceType} {e : K}

theorem not_refused_watch (hvalid : s.validate = .ok ()) {ns labelSelector : Option String}
    {version : String} : ¬(watch ns version labelSelector : Demand K).Refused s r := by
  have hshort : ¬Api.watchLimit ≤ s.watchTimeoutSecs := fun hlong => by
    unfold Settings.validate at hvalid
    split at hvalid
    · cases hvalid
    · split at hvalid
      · cases hvalid
      · rw [if_pos (.inr hlong)] at hvalid
        cases hvalid
  rw [Refused, EntityClient.watchRequest, isRefusal_mapError, Api.watchRequest, if_neg hshort]
  exact not_invalid_requestAt

theorem refused_create : (create e).Refused s r ↔
    (create e).Measured ∧ Api.managerLimit < s.name.utf8ByteSize := by
  rw [Refused, EntityClient.create, refused_lift, EntityClient.withTree]
  cases hwritten : Entity.encode e with
  | error message => simp [Measured, hwritten, Plan.mayEnd_done, Invalid]
  | ok tree => simp [Measured, hwritten, mayEnd_create]

theorem not_refused_update {name : String} (hname : (Entity.metadata e).name = some name)
    (hnonempty : name ≠ "") : ¬(update e).Refused s r := by
  simp only [Refused, EntityClient.update, EntityClient.withName, hname, refused_lift,
    EntityClient.withTree]
  cases Entity.encode e with
  | error message => simp [Plan.mayEnd_done, Invalid]
  | ok tree => exact not_mayEnd_replace hnonempty

theorem refused_updateStatus {name : String} (hname : (Entity.metadata e).name = some name)
    (hnonempty : name ≠ "") : (updateStatus e).Refused s r ↔
      (updateStatus e).Measured ∧ Api.managerLimit < s.name.utf8ByteSize := by
  simp only [Refused, EntityClient.updateStatus, EntityClient.withName, hname]
  cases hwritten : Entity.encode e with
  | error message => simp [Measured, hwritten, Plan.mayEnd_done, IsRefusal]
  | ok tree => simp [Measured, hwritten, refused_lift, mayEnd_merge hnonempty]

theorem refused_lease (hlease : s.leaseName ≠ "") {call : LeaseCall} :
    (lease call : Demand K).Refused s r ↔
      (lease call : Demand K).Measured ∧ Api.managerLimit < s.name.utf8ByteSize := by
  cases call with
  | clock => simp [Refused, Measured]
  | get =>
    refine iff_of_false (fun h => ?_) (fun h => h.1)
    exact not_mayEnd_get hlease (refused_lift.mp h)
  | create held =>
    refine iff_of_false (fun h => ?_) (fun h => h.1)
    exact absurd (mayEnd_create.mp (refused_done.mp h)) (by decide)
  | replace held =>
    refine iff_of_false (fun h => ?_) (fun h => h.1)
    exact not_mayEnd_replace hlease (refused_done.mp h)
  | vacate time =>
    refine (refused_done.trans (mayEnd_merge hlease)).trans ?_
    exact (and_iff_right trivial).symm

/-- Of what an operator with validated settings demands for entities and a lease that have names, the
client refuses what it measures the operator's name for, exactly if the name has more than 128
bytes. -/
theorem refused_iff (hvalid : s.validate = .ok ()) {demand : Demand K} (hnamed : demand.Named s) :
    demand.Refused s r ↔ demand.Measured ∧ Api.managerLimit < s.name.utf8ByteSize := by
  cases demand with
  | watch ns version labelSelector =>
    exact iff_of_false (not_refused_watch hvalid) fun h => h.1
  | create e => exact refused_create
  | update e =>
    obtain ⟨name, hname, hnonempty⟩ := hnamed
    exact iff_of_false (not_refused_update hname hnonempty) fun h => h.1
  | updateStatus e =>
    obtain ⟨name, hname, hnonempty⟩ := hnamed
    exact refused_updateStatus hname hnonempty
  | lease call => exact refused_lease hnamed

end Cases

section LongNames

open Simulation (Widget)

/-- The settings of an operator whose name has a number of letters. -/
def lengthy (n : Nat) : Settings := .named (String.ofList (List.replicate n 'a')) "me"

def gauge : Widget where
  metadata := { name := some "gauge" }
  fields := []

/-- With a name of 128 letters an operator can write statuses and give back its lease. -/
theorem refused_iff_longest :
    (lengthy 128).validate = .ok () ∧
    (updateStatus gauge).Named (lengthy 128) ∧
    (lease (.vacate ⟨0, 0⟩) : Demand Widget).Named (lengthy 128) ∧
    ¬(updateStatus gauge).Refused (lengthy 128) Simulation.widgetType ∧
    ¬(lease (.vacate ⟨0, 0⟩) : Demand Widget).Refused (lengthy 128) Simulation.widgetType := by
  have hvalid : (lengthy 128).validate = .ok () := by decide +kernel
  have hgauge : (updateStatus gauge).Named (lengthy 128) := ⟨"gauge", rfl, by decide⟩
  have hlease : (lease (.vacate ⟨0, 0⟩) : Demand Widget).Named (lengthy 128) := by
    show (lengthy 128).leaseName ≠ ""
    decide +kernel
  have hfits : ¬Api.managerLimit < (lengthy 128).name.utf8ByteSize := by decide +kernel
  exact ⟨hvalid, hgauge, hlease, fun h => hfits ((refused_iff hvalid hgauge).mp h).2,
    fun h => hfits ((refused_iff hvalid hlease).mp h).2⟩

/-- With one letter more it may start and watch, but can do neither. -/
theorem long_manager_refused :
    (lengthy 129).validate = .ok () ∧
    (updateStatus gauge).Named (lengthy 129) ∧
    (lease (.vacate ⟨0, 0⟩) : Demand Widget).Named (lengthy 129) ∧
    ¬(watch none "0" none : Demand Widget).Refused (lengthy 129) Simulation.widgetType ∧
    (updateStatus gauge).Refused (lengthy 129) Simulation.widgetType ∧
    (lease (.vacate ⟨0, 0⟩) : Demand Widget).Refused (lengthy 129) Simulation.widgetType := by
  have hvalid : (lengthy 129).validate = .ok () := by decide +kernel
  have hlease : (lengthy 129).leaseName ≠ "" := by decide +kernel
  have hlong : Api.managerLimit < (lengthy 129).name.utf8ByteSize := by decide +kernel
  exact ⟨hvalid, ⟨"gauge", rfl, by decide⟩, hlease, not_refused_watch hvalid,
    (refused_updateStatus rfl (by decide)).mpr ⟨⟨_, rfl⟩, hlong⟩,
    (refused_lease hlease).mpr ⟨trivial, hlong⟩⟩

end LongNames

end Demand

end Http

end Reconciler
