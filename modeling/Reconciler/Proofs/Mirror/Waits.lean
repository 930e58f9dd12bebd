import Reconciler.Http.MirrorClient
import Reconciler.Proofs.Backoff.Delays
import Reconciler.Proofs.Dispatch.Handling

/-!
# What a dispatcher is asked to wait for

A reconcile that succeeds asks for another one after a delay, and nothing between the controller and
the queue looks at how long it is. So what the queue gets is what the entities say that the client
hands out: if these are all admitted, and reconciles of admitted entities ask for granted actions
only, then so does every verdict (`Dispatch.handle_grants`).

For mirrors there are two delays, a fixed one for a missing source and the interval of the spec. The
waits after failures are bounded by the settings of the backoff (`BackoffConfig.delay_le`).
-/

namespace Reconciler

namespace Dispatch

variable {K : Type} [Entity K] {admitted : K → Prop} {granted : Action → Prop}

/-- Answers to calls: the client hands out what is admitted, and a reconcile of what is admitted asks
for what is granted. -/
def Admits (admitted : K → Prop) (granted : Action → Prop) : (call : Call K) → call.Answer → Prop
  | .get _ _, answer => ∀ x, answer = (.ok (some x) : Except Error (Option K)) → admitted x
  | .update _, answer => ∀ x, answer = (.ok x : Except Error K) → admitted x
  | .reconcile x, answer =>
    admitted x → ∀ action, answer = (.ok action : Except Error Action) → granted action
  | _, _ => True

/-- The verdict is about an admitted entity, and asks for what is granted. -/
def Grants (admitted : K → Prop) (granted : Action → Prop) (r : K × Verdict) : Prop :=
  admitted r.1 ∧ ∀ action, r.2 = .succeeded action → granted action

theorem Tried.grants {p : Policy} {x : K} {own : List (Asked K)} {outcome : Except Error Action}
    (h : Tried p x own outcome) (hx : admitted x)
    (hfit : ∀ call ∈ own, Admits admitted granted call.1 call.2) {action : Action}
    (haction : outcome = .ok action) : granted action := by
  cases h with
  | plain => exact hfit _ (List.mem_singleton_self _) hx action haction
  | unattached => cases haction
  | attached stored =>
    have hstored : admitted stored := hfit _ List.mem_cons_self stored rfl
    exact hfit _ (List.mem_cons_of_mem _ List.mem_cons_self) hstored action haction

/-- Handling an entry of an admitted entity asks for nothing that is not granted. -/
theorem handle_grants (hawait : granted .awaitChange) (p : Policy) (leading : Bool)
    {entry : Queue.Entry K} (hentry : admitted entry.entity) :
    (handle p leading entry).Ends (Admits admitted granted) (fun _ r => Grants admitted granted r)
      [] := by
  refine Plan.ends_of_comes fun calls r hcomes => ?_
  have hfit := hcomes.all_fit
  have hquiet : ∀ verdict, (∀ action, verdict ≠ Verdict.succeeded action) →
      Grants admitted granted (entry.entity, verdict) := fun verdict hnone =>
    ⟨hentry, fun action haction => absurd haction (hnone action)⟩
  have houtcome : ∀ {before own : List (Asked K)} {x : K} {outcome : Except Error Action},
      Seen entry before x → (∀ call ∈ before ++ own, Admits admitted granted call.1 call.2) →
      (admitted x → ∀ action, outcome = .ok action → granted action) →
      Grants admitted granted (x, Verdict.ofOutcome outcome) := by
    intro before own x outcome hseen hfit hgranted
    have hx : admitted x := by
      cases hseen with
      | given => exact hentry
      | reread x => exact hfit _ List.mem_cons_self x rfl
    refine ⟨hx, fun action haction => ?_⟩
    cases outcome with
    | error error => cases haction
    | ok asked =>
      obtain rfl := Verdict.succeeded.inj haction
      exact hgranted hx asked rfl
  cases dealt_of_comes hcomes with
  | dropped => exact hquiet _ nofun
  | skipped => exact hquiet _ nofun
  | told => exact hquiet _ nofun
  | nameless => exact hquiet _ nofun
  | gone => exact hquiet _ nofun
  | unread => exact hquiet _ nofun
  | passed hseen =>
    exact houtcome hseen hfit fun _ action haction => awaitChange_of_outcomeOf haction ▸ hawait
  | tried hseen _ _ htried =>
    refine houtcome hseen hfit fun hx action haction => htried.grants hx ?_ haction
    exact fun call hmem => hfit call (List.mem_append_right _ hmem)

end Dispatch

/-! ## Mirrors -/

namespace Mirror

/-- The actions that reconciles of mirrors come to, and passes over the finalizers. -/
inductive Asks (admitted : ConfigMirror → Prop) : Action → Prop where
  | nothing : Asks admitted .awaitChange
  /-- The source is missing. -/
  | again : Asks admitted (.requeue (.ofSecs missingSourceRetrySecs))
  | resync {m : ConfigMirror} : admitted m → Asks admitted (.requeue (.ofSecs m.spec.resyncSeconds))

theorem setStatus_asks (m : ConfigMirror) (status : Status) (action : Action)
    (past : List ((call : Call) × call.Answer)) :
    (setStatus m status action).Ends (fun _ _ => True)
      (fun _ r => ∀ asked, r = .ok asked → asked = action) past := by
  unfold setStatus
  split
  · exact fun asked hasked => (Except.ok.inj hasked).symm
  · intro answer _
    rcases answer with error | ⟨⟩
    · exact fun asked hasked => nomatch hasked
    · exact fun asked hasked => (Except.ok.inj hasked).symm

/-- A reconcile that succeeds asks for the interval of the spec, or for a short one if the source is
missing. -/
theorem reconcile_asks {admitted : ConfigMirror → Prop} {m : ConfigMirror} (hm : admitted m) :
    (reconcile m).Ends (fun _ _ => True) (fun _ r => ∀ action, r = .ok action → Asks admitted action)
      [] := by
  have hfails : ∀ error, ∀ action, (.error error : Except Error Action) = .ok action →
      Asks admitted action := fun _ _ haction => nomatch haction
  unfold reconcile
  split
  · exact hfails _
  · next own _ =>
    intro answer _
    rcases answer with error | (_ | source)
    · exact hfails error
    · refine (setStatus_asks m _ _ _).mono fun _ r hr action haction => ?_
      exact hr action haction ▸ .again
    · refine Plan.Ends.bind ((Plan.ends_true (applyCopies m own source [] _) _).mono ?_)
      intro calls outcome _
      rcases outcome with error | applied
      · exact hfails error
      · refine (setStatus_asks m _ _ _).mono fun _ r hr action haction => ?_
        exact hr action haction ▸ .resync hm

end Mirror

namespace Http

open Mirror (ConfigMirror Asks)

/-- The mirrors that an answer can be read as are admitted. -/
def HandsOut (admitted : ConfigMirror → Prop) : (q : Question) → q.Answer → Prop
  | .send _, reply => ∀ m, Api.readAs ConfigMirror.reader reply = .ok m → admitted m
  | .clock, _ => True

theorem exchange_handsOut {admitted : ConfigMirror → Prop} (request : Except ClientFault Request) :
    (Api.exchange request (Api.readAs ConfigMirror.reader)).Ends (HandsOut admitted)
      (fun _ r => ∀ m, r = .ok m → admitted m) [] := by
  unfold Api.exchange
  split
  · exact fun m hm => nomatch hm
  · exact fun reply hreply => hreply

theorem orMissing_eq_some {α : Type} {r : Except ClientFault α} {a : α}
    (h : Api.orMissing r = .ok (some a)) : r = .ok a := by
  unfold Api.orMissing at h
  split at h
  · rw [Option.some.inj (Except.ok.inj h)]
  · split at h <;> cases h
  · cases h

theorem mapError_eq_ok {ε ε' α : Type} {r : Except ε α} {f : ε → ε'} {a : α} :
    r.mapError f = .ok a ↔ r = .ok a := by
  constructor
  · intro h
    cases r with
    | error fault => cases h
    | ok found => exact congrArg Except.ok (Except.ok.inj h)
  · rintro rfl
    rfl

namespace MirrorClient

variable {admitted : ConfigMirror → Prop} (c : EntityClient)

theorem get_handsOut (name : String) (ns : Option String) :
    (c.get (K := ConfigMirror) name ns).Ends (HandsOut admitted)
      (fun _ r => ∀ m, r = .ok (some m) → admitted m) [] := by
  refine .bind (.bind ((exchange_handsOut _).mono fun _ r hr m hm => hr m ?_))
  exact orMissing_eq_some (mapError_eq_ok.mp hm)

theorem update_handsOut (m : ConfigMirror) :
    (c.update m).Ends (HandsOut admitted) (fun _ r => ∀ stored, r = .ok stored → admitted stored)
      [] := by
  unfold EntityClient.update EntityClient.withName
  split
  · refine .bind ((exchange_handsOut _).mono fun _ r hr stored hstored => hr stored ?_)
    exact mapError_eq_ok.mp hstored
  · exact fun stored hstored => nomatch hstored

/-- All that mirrors are asked to wait for comes from mirrors that the server hands out. -/
theorem dispatch_admits (call : Dispatch.Call ConfigMirror) :
    (dispatch c call).Ends (HandsOut admitted)
      (fun _ answer => Dispatch.Admits admitted (Asks admitted) call answer) [] := by
  cases call with
  | get name ns => exact get_handsOut c name ns
  | update m => exact update_handsOut c m
  | reconcile m =>
    by_cases hm : admitted m
    · refine ((Mirror.reconcile_asks hm).interpret (fun q => Plan.ends_true _ []) []).mono ?_
      exact fun _ answer hasks _ => hasks
    · exact (Plan.ends_true _ []).mono fun _ answer _ hadmitted => absurd hadmitted hm
  | deleted m => exact Plan.ends_true _ []
  | finalize place id m => exact Plan.ends_true _ []

end MirrorClient

end Http

end Reconciler
