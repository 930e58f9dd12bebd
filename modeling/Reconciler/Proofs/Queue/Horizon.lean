import Reconciler.Proofs.Queue.Stream

/-!
# How far ahead a schedule may be

A timer can be set so far ahead of the wheel and no further, and the wheel lags behind the clock. It
may stand as far back as where it began, since only a look that takes timers to their deadlines turns
it, and a clear turns it back. So what is safe depends on the age of a queue: as long as its age and
its longest delay together stay within the horizon, no look overreaches (`Stream.Near`). A delay that
is beyond the horizon by itself overreaches wherever the wheel stands.
-/

namespace Reconciler.Queue

/-! ## Where the wheel stands -/

namespace Timers

variable {α : Type} {t : Timers α} {now limit : Nat}

theorem turnUntil_wheel (stops : Nat) (h : t.origin ≤ t.reached) (hlimit : t.origin ≤ limit) :
    (t.turnUntil limit stops).2.origin = t.origin ∧
      t.origin ≤ (t.turnUntil limit stops).2.reached := by
  induction stops generalizing t with
  | zero => exact ⟨rfl, h⟩
  | succ stops ih =>
    unfold turnUntil
    split
    · exact ⟨rfl, hlimit⟩
    · next first hfirst =>
      simp only
      split
      · exact ⟨rfl, hlimit⟩
      · split
        · exact ⟨rfl, h⟩
        · exact ih (t := { t with reached := t.stop first.deadline }) (Nat.le_add_right _ _) hlimit

theorem origin_le_nextStop? {stop : Nat} (hstop : t.nextStop? = some stop) : t.origin ≤ stop := by
  obtain ⟨first, -, rfl⟩ := Option.map_eq_some_iff.mp hstop
  exact Nat.le_add_right _ _

theorem look_wheel (looks : Nat) (h : t.origin ≤ t.reached)
    (hwake : ∀ wakeAt, t.wakeAt = some wakeAt → t.origin ≤ wakeAt) :
    (t.look now looks).2.origin = t.origin ∧ t.origin ≤ (t.look now looks).2.reached := by
  induction looks generalizing t with
  | zero => exact ⟨rfl, h⟩
  | succ looks ih =>
    unfold look
    split
    · exact ⟨rfl, h⟩
    · next limit hlimit =>
      have hturn := turnUntil_wheel (topLevel + 1) h
        (hwake limit (Option.filter_eq_some_iff.mp hlimit).1)
      generalize t.turnUntil limit (topLevel + 1) = turned at hturn ⊢
      obtain ⟨found, t'⟩ := turned
      obtain ⟨horigin, hreached⟩ : t'.origin = t.origin ∧ t.origin ≤ t'.reached := hturn
      cases found with
      | some timer => exact ⟨horigin, hreached⟩
      | none =>
        rw [← horigin] at hreached ⊢
        exact ih (t := { t' with wakeAt := t'.nextStop? }) hreached fun _ hstop =>
          origin_le_nextStop? (t := t') hstop

/-- Looking never turns the wheel back behind where it began. -/
theorem expire_wheel (hp : t.Prompt now) (h : t.origin ≤ t.reached) :
    (t.expire now).2.origin = t.origin ∧ t.origin ≤ (t.expire now).2.reached := by
  unfold expire
  split
  · exact ⟨rfl, h⟩
  · split
    · exact ⟨rfl, h⟩
    · exact look_wheel _ h fun wakeAt hwake => Nat.le_trans h (hp.forward wakeAt hwake)

end Timers

variable {K : Type}

theorem le_wheelAfter {origin reached : Nat} (h : origin ≤ reached) (sent : List (Command K)) :
    origin ≤ sent.foldl (wheelAfter origin) reached := by
  induction sent generalizing reached with
  | nil => exact h
  | cons command rest ih =>
    cases command with
    | clear => exact ih (Nat.le_refl origin)
    | schedule key entry delay => exact ih h

theorem wheelAfter_le {origin reached now : Nat} (horigin : origin ≤ now) (hreached : reached ≤ now)
    (sent : List (Command K)) : sent.foldl (wheelAfter origin) reached ≤ now := by
  induction sent generalizing reached with
  | nil => exact hreached
  | cons command rest ih =>
    cases command with
    | clear => exact ih horigin
    | schedule key entry delay => exact ih hreached

/-- A look leaves the wheel where it began or further on. -/
theorem poll_wheel {q q' : Queue K} {start now : Nat} {cancelled closed : Bool}
    {inbox : List (Command K)} (h : q.Timely start) (hle : start ≤ now)
    (hwheel : q.timers.origin ≤ q.timers.reached)
    (hpoll : q.poll now cancelled closed inbox = .idle q' ∨
      ∃ entry, q.poll now cancelled closed inbox = .delivered entry q') :
    q'.timers.origin = q.timers.origin ∧ q.timers.origin ≤ q'.timers.reached := by
  unfold poll at hpoll
  split at hpoll
  · rcases hpoll with hpoll | ⟨_, hpoll⟩ <;> cases hpoll
  · split at hpoll
    · rcases hpoll with hpoll | ⟨_, hpoll⟩ <;> cases hpoll
    · next applied happly =>
      obtain ⟨horigin, hreached⟩ := applyAll_wheel h.toSound hle happly
      have hforward : applied.timers.origin ≤ applied.timers.reached := by
        rw [horigin, hreached]
        exact le_wheelAfter hwheel inbox
      have hlooked := Timers.expire_wheel (h.applyAll hle happly).prompt hforward
      rw [← Timely.expire_timers, horigin] at hlooked
      generalize applied.expire now = expired at hpoll hlooked
      obtain ⟨found, rest⟩ := expired
      cases found with
      | some entry =>
        rcases hpoll with hpoll | ⟨_, hpoll⟩ <;> cases hpoll
        exact hlooked
      | none =>
        simp only at hpoll
        split at hpoll
        · rcases hpoll with hpoll | ⟨_, hpoll⟩ <;> cases hpoll
        · rcases hpoll with hpoll | ⟨_, hpoll⟩ <;> cases hpoll
          exact hlooked

/-! ## Schedules that are near -/

/-- A schedule of an admitted entity, after a delay that is brief. -/
def Command.Within (admitted : K → Prop) (brief : Nat → Prop) : Command K → Prop
  | .clear => True
  | .schedule _ entry delay => admitted entry.entity ∧ brief delay

/-- The deadline is no further away than something brief. -/
def Soon (brief : Nat → Prop) (now deadline : Nat) : Prop :=
  ∃ delay, brief delay ∧ deadline ≤ now + delay

variable {admitted : K → Prop} {brief : Nat → Prop}

theorem Soon.mono {now later deadline : Nat} (h : Soon brief now deadline) (hle : now ≤ later) :
    Soon brief later deadline := by
  obtain ⟨delay, hbrief, hdeadline⟩ := h
  exact ⟨delay, hbrief, Nat.le_trans hdeadline (Nat.add_le_add_right hle delay)⟩

/-- A merge takes entity and deadline from one of the two entries each. -/
theorem upon_within {due : Nat → Prop} {new : Entry K} {deadline : Nat}
    {pending : Option (Entry K × Nat)} (hnew : admitted new.entity ∧ due deadline)
    (hpending : ∀ entry deadline, pending = some (entry, deadline) →
      admitted entry.entity ∧ due deadline) :
    admitted (new.upon deadline pending).1.entity ∧ due (new.upon deadline pending).2 := by
  rcases pending with _ | ⟨old, reached⟩
  · exact hnew
  · obtain ⟨hadmitted, hdue⟩ := hpending old reached rfl
    unfold Entry.upon Entry.merge
    by_cases hover : new.trigger.supersedes old.trigger = true
    · simp only [hover, if_true]
      exact hnew
    · simp only [hover, Bool.false_eq_true, if_false]
      refine ⟨?_, hdue⟩
      split
      · exact hadmitted
      · exact hnew.1

theorem foldl_meetAt_within {now : Nat} {key : EntityKey} {sent : List (Command K)}
    (hsent : ∀ command ∈ sent, command.Within admitted brief) {pending : Option (Entry K × Nat)}
    (hpending : ∀ entry deadline, pending = some (entry, deadline) →
      admitted entry.entity ∧ Soon brief now deadline) {entry : Entry K} {deadline : Nat}
    (h : sent.foldl (meetAt key now) pending = some (entry, deadline)) :
    admitted entry.entity ∧ Soon brief now deadline := by
  induction sent generalizing pending with
  | nil => exact hpending entry deadline h
  | cons command rest ih =>
    refine ih (fun other hother => hsent other (List.mem_cons_of_mem _ hother)) ?_ h
    have hcommand := hsent command List.mem_cons_self
    cases command with
    | clear => rintro _ _ ⟨⟩
    | schedule other new delay =>
      simp only [meetAt]
      split
      · intro merged due heq
        have hsoon : Soon brief now (now + delay) := ⟨delay, hcommand.2, Nat.le_refl _⟩
        have hmerged := upon_within ⟨hcommand.1, hsoon⟩ hpending
        rwa [Option.some.inj heq] at hmerged
      · exact hpending

namespace Stream

/-- A queue that is consumed from an instant on, with admitted entities only and nothing beyond what
is brief. -/
structure Near (admitted : K → Prop) (brief : Nat → Prop) (start : Nat) (s : Stream K) : Prop where
  timely : s.queue.Timely s.now
  origin : s.queue.timers.origin = start
  reached : start ≤ s.queue.timers.reached
  pending : ∀ key entry deadline, (entry, deadline) ∈ s.queue.pendingOf key →
    admitted entry.entity ∧ Soon brief s.now deadline
  inbox : ∀ command ∈ s.inbox, command.Within admitted brief

namespace Near

variable {start instant : Nat} {s : Stream K}

theorem consumedAt (admitted : K → Prop) (brief : Nat → Prop) (start : Nat) :
    (consumedAt start : Stream K).Near admitted brief start where
  timely := .startingAt start
  origin := rfl
  reached := Nat.le_refl start
  pending _ _ _ h := by cases h
  inbox _ h := by cases h

theorem mono (h : s.Near admitted brief start) (hle : s.now ≤ instant) :
    ({ s with now := instant } : Stream K).Near admitted brief start where
  timely := h.timely.mono hle
  origin := h.origin
  reached := h.reached
  pending key entry deadline hm :=
    (h.pending key entry deadline hm).imp_right fun hsoon => hsoon.mono hle
  inbox := h.inbox

theorem sendAll (h : s.Near admitted brief start) {commands : List (Command K)}
    (hcommands : ∀ command ∈ commands, command.Within admitted brief) :
    ({ s with inbox := s.inbox ++ commands } : Stream K).Near admitted brief start where
  timely := h.timely
  origin := h.origin
  reached := h.reached
  pending := h.pending
  inbox := List.forall_mem_append.mpr ⟨h.inbox, hcommands⟩

theorem foldl (h : s.Near admitted brief start) (hle : s.now ≤ instant) {key : EntityKey}
    {sent : List (Command K)} (hsent : ∀ command ∈ sent, command.Within admitted brief)
    {entry : Entry K} {deadline : Nat}
    (hfold : sent.foldl (meetAt key instant) (s.queue.pendingOf key).head? =
      some (entry, deadline)) : admitted entry.entity ∧ Soon brief instant deadline := by
  refine foldl_meetAt_within hsent ?_ hfold
  intro pending deadline hpending
  obtain ⟨hadmitted, hsoon⟩ := h.pending key pending deadline (List.mem_of_head? hpending)
  exact ⟨hadmitted, hsoon.mono hle⟩

/-- No look overreaches as long as the age of the queue and any brief delay stay within the
horizon. -/
theorem not_overreaches (h : s.Near admitted brief start) (hle : s.now ≤ instant)
    (hage : ∀ delay, brief delay → instant + delay ≤ start + Timers.horizon) :
    ¬s.Overreaches instant := by
  rintro ⟨sent, hsent, key, entry, deadline, hfold, hover⟩
  obtain ⟨-, delay, hbrief, hdeadline⟩ :=
    h.foldl hle (fun command hm => h.inbox command (hsent.subset hm)) hfold
  have hwheel : start ≤ sent.foldl (wheelAfter s.queue.timers.origin) s.queue.timers.reached := by
    rw [h.origin]
    exact le_wheelAfter h.reached sent
  have := hage delay hbrief
  omega

theorem due? (h : s.Near admitted brief start) (hle : s.now ≤ instant) {key : EntityKey}
    {entry : Entry K} {deadline : Nat} (hdue : s.due? instant key = some (entry, deadline)) :
    admitted entry.entity ∧ Soon brief instant deadline :=
  h.foldl hle h.inbox hdue

theorem wheel (h : s.Near admitted brief start) (hle : s.now ≤ instant) {queue : Queue K}
    (hpoll : s.poll instant = .idle queue ∨ ∃ entry, s.poll instant = .delivered entry queue) :
    queue.timers.origin = start ∧ start ≤ queue.timers.reached := by
  have hwheel := poll_wheel h.timely hle (h.origin.symm ▸ h.reached) hpoll
  rwa [h.origin] at hwheel

/-- What a look leaves is near. -/
theorem idle (h : s.Near admitted brief start) (hle : s.now ≤ instant) {queue : Queue K}
    (hpoll : s.poll instant = .idle queue) :
    ({ s with now := instant, queue, inbox := [] } : Stream K).Near admitted brief start := by
  obtain ⟨horigin, hreached⟩ := h.wheel hle (.inl hpoll)
  cases s.polled h.timely hle hpoll with
  | idle _ _ _ htimely hpending =>
    refine ⟨htimely, horigin, hreached, fun key entry deadline hm => ?_, fun _ hm => nomatch hm⟩
    rw [hpending key, Option.mem_toList] at hm
    exact h.due? hle hm

/-- What a look delivers is admitted, and what it leaves is near. -/
theorem delivered (h : s.Near admitted brief start) (hle : s.now ≤ instant) {entry : Entry K}
    {queue : Queue K} (hpoll : s.poll instant = .delivered entry queue) :
    admitted entry.entity ∧
      ({ s with now := instant, queue, inbox := [] } : Stream K).Near admitted brief start := by
  obtain ⟨horigin, hreached⟩ := h.wheel hle (.inr ⟨entry, hpoll⟩)
  cases s.polled h.timely hle hpoll with
  | @delivered surfaced _ _ _ _ _ _ _ hdue htimely hnone hothers =>
    refine ⟨(h.due? hle hdue).1, htimely, horigin, hreached, ?_, fun _ hm => nomatch hm⟩
    intro key other deadline hm
    by_cases hkey : key = surfaced
    · rw [hkey, hnone] at hm
      cases hm
    · rw [hothers key hkey, Option.mem_toList] at hm
      exact h.due? hle hm

end Near

/-- A delay beyond the horizon overreaches, unless a pending entry keeps its own deadline. -/
theorem overreaches_of_far {s : Stream K} {instant : Nat} (h : s.queue.Timely s.now)
    (hle : s.now ≤ instant) {sent rest : List (Command K)} {key : EntityKey} {entry : Entry K}
    {delay : Nat} (hinbox : s.inbox = sent ++ .schedule key entry delay :: rest)
    (htakes : ∀ pending deadline,
      sent.foldl (meetAt key instant) (s.queue.pendingOf key).head? = some (pending, deadline) →
        entry.trigger.supersedes pending.trigger = true)
    (hfar : Timers.horizon < delay) : s.Overreaches instant := by
  have hsound := h.toSound.timers.mono hle
  have hwheel := wheelAfter_le hsound.origin_le hsound.reached_le (sent ++ [.schedule key entry delay])
  refine ⟨sent ++ [.schedule key entry delay], ⟨rest, by rw [hinbox]; simp⟩, key, entry,
    instant + delay, ?_, by omega⟩
  rw [List.foldl_append, List.foldl_cons, List.foldl_nil, meetAt, if_pos rfl]
  cases hpending : sent.foldl (meetAt key instant) (s.queue.pendingOf key).head? with
  | none => rfl
  | some pending =>
    obtain ⟨pending, deadline⟩ := pending
    simp only [Entry.upon, Entry.merge, htakes pending deadline hpending, if_true]

end Stream

end Reconciler.Queue
