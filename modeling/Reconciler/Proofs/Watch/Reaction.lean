import Reconciler.Watch.Watcher

/-!
# What a watcher sends

Of all that happens to a watcher, only events about an entity make it send to the queue, and each of
them makes it send one schedule at most: that of `Watcher.queued?`. In particular nothing that
happens to the connection, and no start or stop, touches what is queued.

The version to resume from, on the other hand, is only ever changed by events, and by every one that
carries a version. A loop that runs goes on until it is stopped, as long as entities have names.
-/

namespace Reconciler

open Queue (Command)

variable {K : Type}

/-- The command that is sent, if one is. -/
def Watch.Effect.command? : Watch.Effect K → Option (Command K)
  | .send command => some command
  | _ => none

/-- The commands sent among all that a watcher does. -/
def Watch.sent (effects : List (Watch.Effect K)) : List (Command K) :=
  effects.filterMap Watch.Effect.command?

variable [Entity K]

/-- If the event is about an entity, the entity has an identity. -/
def Watch.Event.IsNamed (event : Watch.Event K) : Prop :=
  ∀ x, event.entity? = some x → ∃ key, Entity.key? x = some key

/-- If the input is an event about an entity, the entity has an identity. -/
def Watch.Input.IsNamed (input : Watch.Input K) : Prop :=
  ∀ event, input = .event event → event.IsNamed

namespace Watcher

open Watch

/-- The entity that an event has queued, and why; none while no loop runs. -/
def queued? (w : Watcher) : Input K → Option (K × Trigger)
  | .event (.added x) => if w.loop.isSome then some (x, .ofChange (w.cache.upsert x).2) else none
  | .event (.modified x) => if w.loop.isSome then some (x, .ofChange (w.cache.upsert x).2) else none
  | .event (.deleted x) => if w.loop.isSome then some (x, .deleted) else none
  | _ => none

theorem sent_schedule (w : Watcher) (x : K) (trigger : Trigger) :
    sent (w.schedule x trigger).2 = (Command.schedule? x 0 trigger).toList := by
  unfold schedule
  cases Command.schedule? x 0 trigger <;> rfl

theorem sent_handle (w : Watcher) (l : Loop) (event : Event K) (hloop : w.loop = some l) :
    sent (w.handle l event).2 =
      ((w.queued? (.event event)).bind fun (x, trigger) =>
        Command.schedule? x 0 trigger).toList := by
  cases event with
  | added x => simp only [handle, queued?, hloop, Option.isSome_some, if_true, sent_schedule]; rfl
  | modified x => simp only [handle, queued?, hloop, Option.isSome_some, if_true, sent_schedule]; rfl
  | deleted x => simp only [handle, queued?, hloop, Option.isSome_some, if_true, sent_schedule]; rfl
  | bookmark version => rfl
  | error code message =>
    simp only [handle]
    split <;> rfl

/-- A watcher sends the schedule of what an event has queued, and nothing else. -/
theorem sent_react (w : Watcher) (now draw : Nat) (input : Input K) :
    sent (w.react now draw input).2 =
      ((w.queued? input).bind fun (x, trigger) => Command.schedule? x 0 trigger).toList := by
  cases hloop : w.loop with
  | none =>
    have hnone : w.queued? input = none := by
      rcases input with _ | _ | _ | _ | _ | event | _ | _
      case event => cases event <;> simp [queued?, hloop]
      all_goals rfl
    rw [hnone]
    cases input <;> simp only [react, hloop, stop] <;> rfl
  | some l =>
    cases input with
    | event event =>
      simp only [react, hloop]
      exact sent_handle w l event hloop
    | wake =>
      simp only [react, hloop, wake]
      split
      · rfl
      · split <;> rfl
      · split <;> rfl
      · rfl
    | start => simp only [react, hloop]; rfl
    | stop => simp only [react, stop, hloop]; rfl
    | opened => simp only [react, hloop]; rfl
    | refused error => simp only [react, hloop]; rfl
    | broken error => simp only [react, hloop]; rfl
    | ended => simp only [react, hloop]; rfl

theorem queued?_event {w : Watcher} (hloop : w.loop.isSome) {event : Event K} {x : K}
    (hx : event.entity? = some x) :
    ∃ trigger, w.queued? (.event event) = some (x, trigger) := by
  cases event with
  | added y =>
    obtain rfl := Option.some.inj hx
    exact ⟨_, if_pos hloop⟩
  | modified y =>
    obtain rfl := Option.some.inj hx
    exact ⟨_, if_pos hloop⟩
  | deleted y =>
    obtain rfl := Option.some.inj hx
    exact ⟨_, if_pos hloop⟩
  | bookmark version => cases hx
  | error code message => cases hx

/-! ## The version to resume from -/

section Loop

variable {w : Watcher} {l : Loop} (now draw : Nat)

theorem loop_schedule {x : K} {key : EntityKey} (hkey : Entity.key? x = some key)
    (trigger : Trigger) : (w.schedule x trigger).1.loop = w.loop := by
  rw [schedule, Command.schedule?, hkey]
  rfl

/-- A loop resumes from the version of the last event about a named entity, of whatever kind. -/
theorem loop_react_event (hloop : w.loop = some l) {event : Event K} {x : K} {key : EntityKey}
    (hx : event.entity? = some x) (hkey : Entity.key? x = some key) :
    (w.react now draw (.event event)).1.loop =
      some { l with version := event.version?.getD l.version } := by
  simp only [react, hloop]
  cases event with
  | added y =>
    obtain rfl := Option.some.inj hx
    exact loop_schedule hkey _
  | modified y =>
    obtain rfl := Option.some.inj hx
    exact loop_schedule hkey _
  | deleted y =>
    obtain rfl := Option.some.inj hx
    exact loop_schedule hkey _
  | bookmark version => cases hx
  | error code message => cases hx

theorem loop_react_opened (hloop : w.loop = some l) :
    ∃ stableAt, (w.react now draw (.opened : Input K)).1.loop =
      some ⟨l.version, .streaming stableAt⟩ := by
  simp only [react, hloop]
  exact ⟨_, rfl⟩

theorem loop_react_lost (hloop : w.loop = some l) {input : Input K}
    (hinput : input = .ended ∨ (∃ error, input = .broken error) ∨ ∃ error, input = .refused error) :
    ∃ phase, (w.react now draw input).1.loop = some ⟨l.version, phase⟩ := by
  rcases hinput with rfl | ⟨error, rfl⟩ | ⟨error, rfl⟩ <;> simp only [react, hloop] <;>
    exact ⟨_, rfl⟩

/-- A turn of the loop does not touch an open connection. -/
theorem loop_react_wake (hloop : w.loop = some l) :
    ∃ phase, (w.react now draw (.wake : Input K)).1.loop = some ⟨l.version, phase⟩ ∧
      ((∃ stableAt, l.phase = .streaming stableAt) → ∃ stableAt, phase = .streaming stableAt) := by
  obtain ⟨version, phase⟩ := l
  simp only [react, hloop]
  cases phase with
  | spawned => exact ⟨_, rfl, fun ⟨_, h⟩ => by cases h⟩
  | opening => exact ⟨_, hloop, id⟩
  | waiting resumeAt =>
    simp only [wake]
    split
    · exact ⟨_, rfl, fun ⟨_, h⟩ => by cases h⟩
    · exact ⟨_, hloop, id⟩
  | streaming stableAt =>
    cases stableAt with
    | none => exact ⟨_, hloop, id⟩
    | some stableAt =>
      simp only [wake]
      split
      · exact ⟨_, rfl, fun _ => ⟨none, rfl⟩⟩
      · exact ⟨_, hloop, id⟩

end Loop

/-! ## The loop and its connection -/

section Connection

variable {w : Watcher} {now draw : Nat} {input : Input K}

/-- Loops begin with a start, and end with a stop or an entity without a name. -/
theorem loop_isSome_react (hloop : w.loop.isSome) (hstop : input ≠ .stop) (hnamed : input.IsNamed) :
    (w.react now draw input).1.loop.isSome := by
  obtain ⟨l, hl⟩ := Option.isSome_iff_exists.mp hloop
  cases input with
  | stop => exact absurd rfl hstop
  | start => simp only [react, hloop, if_true]
  | opened =>
    obtain ⟨stableAt, h⟩ := loop_react_opened (K := K) now draw hl
    simp only [h, Option.isSome_some]
  | wake =>
    obtain ⟨phase, h, -⟩ := loop_react_wake (K := K) now draw hl
    simp only [h, Option.isSome_some]
  | refused error =>
    obtain ⟨phase, h⟩ := loop_react_lost (K := K) now draw hl (.inr (.inr ⟨error, rfl⟩))
    simp only [h, Option.isSome_some]
  | broken error =>
    obtain ⟨phase, h⟩ := loop_react_lost (K := K) now draw hl (.inr (.inl ⟨error, rfl⟩))
    simp only [h, Option.isSome_some]
  | ended =>
    obtain ⟨phase, h⟩ := loop_react_lost (K := K) now draw hl (.inl rfl)
    simp only [h, Option.isSome_some]
  | event event =>
    cases hx : event.entity? with
    | some x =>
      obtain ⟨key, hkey⟩ := hnamed event rfl x hx
      simp only [loop_react_event now draw hl hx hkey, Option.isSome_some]
    | none =>
      cases event with
      | bookmark version => simp only [react, hl, handle, Option.isSome_some]
      | error code message =>
        simp only [react, hl, handle]
        split <;> rfl
      | _ => cases hx

/-- A watcher that asks for a connection waits for it. -/
theorem isConnected_of_connect {request : Request}
    (h : .connect request ∈ (w.react now draw input).2) :
    (w.react now draw input).1.isConnected := by
  cases hloop : w.loop with
  | none =>
    cases input <;> simp_all [react, stop, publish]
  | some l =>
    cases input with
    | event event =>
      simp only [react, hloop] at h ⊢
      cases event with
      | bookmark version => cases h
      | error code message =>
        simp only [handle] at h ⊢
        split at h
        · next hgone => simp [hgone, reconnect, connect, isConnected]
        · cases h
      | _ =>
        simp only [handle, schedule] at h
        split at h <;> simp at h
    | wake =>
      simp only [react, hloop, wake] at h ⊢
      split at h
      · rfl
      · split at h
        · next hdue => simp [hdue, connect, isConnected]
        · cases h
      · split at h <;> cases h
      · cases h
    | ended => simp [react, hloop, reconnect, connect, isConnected]
    | start => simp [react, hloop] at h
    | stop => simp [react, hloop, stop] at h
    | opened => simp [react, hloop, publish] at h
    | refused error => simp [react, hloop, backOff] at h
    | broken error => simp [react, hloop, backOff] at h

omit [Entity K] in
theorem loop_isSome_of_isConnected (h : w.isConnected) : w.loop.isSome := by
  unfold isConnected at h
  split at h <;> simp_all

end Connection

end Watcher

end Reconciler
