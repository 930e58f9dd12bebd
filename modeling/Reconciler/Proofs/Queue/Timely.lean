import Mathlib.Data.List.Induction
import Reconciler.Proofs.Queue.Upcoming
import Reconciler.Proofs.Queue.Wheel

/-!
# Entries in time

What is pending for an identity is an entry together with its deadline, and commands that are
applied at an instant make of it what `meetAt` says, one after the other. The consumer looks in time
for all of it (`Queue.Timely`): what surfaces was due, and if nothing surfaces then nothing is due.

A command fails exactly if what it makes pending comes due further ahead of the wheel than the
timers can hold. An entry that keeps its deadline never is, so nothing but a far schedule can fail.
-/

namespace Reconciler.Queue

variable {K : Type}

/-! ## Commands at an instant -/

/-- What a command that is applied at an instant makes of what is pending for an identity. -/
def meetAt (key : EntityKey) (instant : Nat) (pending : Option (Entry K × Nat)) :
    Command K → Option (Entry K × Nat)
  | .clear => none
  | .schedule other entry delay =>
    if other = key then some (entry.upon (instant + delay) pending) else pending

theorem meetAt_fst (key : EntityKey) (instant : Nat) (pending : Option (Entry K × Nat))
    (command : Command K) :
    (meetAt key instant pending command).map (·.1) = meet key (pending.map (·.1)) command := by
  cases command with
  | clear => rfl
  | schedule other entry delay =>
    simp only [meetAt, meet]
    split
    · rw [Option.map_some, upon_fst]
    · rfl

theorem foldl_meetAt_fst (key : EntityKey) (instant : Nat) (inbox : List (Command K))
    (pending : Option (Entry K × Nat)) :
    (inbox.foldl (meetAt key instant) pending).map (·.1) =
      inbox.foldl (meet key) (pending.map (·.1)) := by
  induction inbox generalizing pending with
  | nil => rfl
  | cons command rest ih => rw [List.foldl_cons, List.foldl_cons, ih, meetAt_fst]

/-- Commands touch what is pending for an identity only if one is a clear or a schedule for it. -/
theorem foldl_meetAt_cases (key : EntityKey) (instant : Nat) (inbox : List (Command K))
    (pending : Option (Entry K × Nat)) :
    inbox.foldl (meetAt key instant) pending = pending ∨ .clear ∈ inbox ∨
      ∃ entry delay, .schedule key entry delay ∈ inbox ∧
        (inbox.foldl (meetAt key instant) pending).isSome := by
  induction inbox using List.reverseRecOn with
  | nil => exact .inl rfl
  | append_singleton inbox command ih =>
    rw [List.foldl_append, List.foldl_cons, List.foldl_nil]
    cases command with
    | clear => exact .inr (.inl (by simp))
    | schedule other entry delay =>
      simp only [meetAt]
      split
      · next hkey => exact .inr (.inr ⟨entry, delay, by simp [hkey], rfl⟩)
      · rcases ih with hsame | hclear | ⟨entry', delay', hmem, hsome⟩
        · exact .inl hsame
        · exact .inr (.inl (List.mem_append_left _ hclear))
        · exact .inr (.inr ⟨entry', delay', List.mem_append_left _ hmem, hsome⟩)

section Apply

variable {q q' : Queue K} {start now : Nat}

theorem Sound.pendingOf_eq_toList (h : q.Sound now) (key : EntityKey) :
    q.pendingOf key = (q.pendingOf key).head?.toList := by
  by_cases hnone : ∃ timer ∈ q.timers.all, timer.value.1 = key
  · obtain ⟨timer, hm, rfl⟩ := hnone
    rw [h.pendingOf_timer hm]
    rfl
  · rw [pendingOf_eq_nil.mpr fun timer hm hkey => hnone ⟨timer, hm, hkey⟩]
    rfl

theorem apply_pending (h : q.Sound start) (hle : start ≤ now) {command : Command K}
    (happly : q.apply now command = .ok q') :
    q'.Sound now ∧
      ∀ key, q'.pendingOf key = (meetAt key now (q.pendingOf key).head? command).toList := by
  cases command with
  | clear =>
    obtain ⟨hsound, hnone⟩ := apply_clear h hle happly
    exact ⟨hsound, hnone⟩
  | schedule other entry delay =>
    obtain ⟨hsound, hself, hothers⟩ := apply_schedule h hle happly
    refine ⟨hsound, fun key => ?_⟩
    by_cases hkey : other = key
    · subst hkey
      rw [hself, meetAt, if_pos rfl]
      rfl
    · rw [hothers key (Ne.symm hkey), meetAt, if_neg hkey]
      exact h.pendingOf_eq_toList key

/-- Applying commands makes pending what they make of it in order. -/
theorem applyAll_pending {inbox : List (Command K)} (h : q.Sound start) (hle : start ≤ now)
    (happly : q.applyAll now inbox = .ok q') :
    q'.Sound now ∧
      ∀ key, q'.pendingOf key = (inbox.foldl (meetAt key now) (q.pendingOf key).head?).toList := by
  induction inbox generalizing q start with
  | nil =>
    obtain rfl := Except.ok.inj happly
    exact ⟨h.mono hle, h.pendingOf_eq_toList⟩
  | cons command rest ih =>
    unfold applyAll at happly
    split at happly
    · next q₁ hfirst =>
      obtain ⟨hsound, hsame⟩ := apply_pending h hle hfirst
      obtain ⟨hsound', hsame'⟩ := ih hsound (Nat.le_refl now) happly
      refine ⟨hsound', fun key => ?_⟩
      rw [hsame' key, hsame key, Option.head?_toList, List.foldl_cons]
    · cases happly

theorem applyAll_append (q : Queue K) (now : Nat) (sent rest : List (Command K)) :
    q.applyAll now (sent ++ rest) =
      match q.applyAll now sent with
      | .ok q' => q'.applyAll now rest
      | .error fault => .error fault := by
  induction sent generalizing q with
  | nil => rfl
  | cons command sent ih =>
    simp only [List.cons_append, applyAll]
    cases q.apply now command with
    | ok q₁ => exact ih q₁
    | error fault => rfl

/-- Where the wheel stands after a command: only a clear turns it back. -/
def wheelAfter (origin reached : Nat) : Command K → Nat
  | .clear => origin
  | .schedule .. => reached

theorem insert_wheel {key : EntityKey} {entry : Entry K} {deadline : Nat}
    (hins : q.insert key entry deadline = .ok q') :
    q'.timers.origin = q.timers.origin ∧ q'.timers.reached = q.timers.reached := by
  unfold insert at hins
  split at hins
  · next id timers htimers =>
    obtain rfl := Except.ok.inj hins
    obtain ⟨-, -, horigin, hreached, -⟩ := Timers.insertAt?_eq_some htimers
    exact ⟨horigin, hreached⟩
  · cases hins

theorem apply_wheel (h : q.Sound start) {command : Command K}
    (happly : q.apply now command = .ok q') :
    q'.timers.origin = q.timers.origin ∧
      q'.timers.reached = wheelAfter q.timers.origin q.timers.reached command := by
  cases command with
  | clear =>
    obtain rfl := Except.ok.inj happly
    exact ⟨rfl, rfl⟩
  | schedule key entry delay =>
    unfold apply at happly
    simp only at happly
    split at happly
    · exact insert_wheel happly
    · next id hid =>
      obtain ⟨timer, timers, htake, -, -, -, horigin, hreached, -⟩ := take_spec h hid
      rw [htake] at happly
      simp only at happly
      rw [wheelAfter, ← horigin, ← hreached]
      split at happly <;> exact insert_wheel happly

theorem applyAll_wheel {inbox : List (Command K)} (h : q.Sound start) (hle : start ≤ now)
    (happly : q.applyAll now inbox = .ok q') :
    q'.timers.origin = q.timers.origin ∧
      q'.timers.reached = inbox.foldl (wheelAfter q.timers.origin) q.timers.reached := by
  induction inbox generalizing q start with
  | nil =>
    obtain rfl := Except.ok.inj happly
    exact ⟨rfl, rfl⟩
  | cons command rest ih =>
    unfold applyAll at happly
    split at happly
    · next q₁ hfirst =>
      obtain ⟨horigin, hreached⟩ := apply_wheel h hfirst
      obtain ⟨horigin', hreached'⟩ := ih (apply_pending h hle hfirst).1 (Nat.le_refl now) happly
      rw [horigin] at horigin' hreached'
      rw [hreached] at hreached'
      exact ⟨horigin', hreached'⟩
    · cases happly

end Apply

/-! ## Looking in time -/

/-- Index and timers agree, and the consumer wakes up in time for every timer. -/
structure Timely (q : Queue K) (now : Nat) : Prop extends q.Sound now where
  prompt : q.timers.Prompt now

namespace Timely

variable {q q' : Queue K} {start now : Nat}

theorem mono (h : q.Timely now) {later : Nat} (hle : now ≤ later) : q.Timely later :=
  ⟨h.toSound.mono hle, h.prompt.mono hle⟩

theorem startingAt (now : Nat) : (Queue.startingAt now : Queue K).Timely now :=
  ⟨.startingAt now, .startingAt now⟩

/-- What is pending is never further away than the timers can hold. -/
theorem near (h : q.Timely now) {key : EntityKey} {entry : Entry K} {deadline : Nat}
    (hpending : (entry, deadline) ∈ q.pendingOf key) :
    deadline ≤ q.timers.reached + Timers.horizon := by
  obtain ⟨timer, hm, heq⟩ := List.mem_map.mp hpending
  obtain ⟨-, rfl⟩ := Prod.mk.inj heq
  exact h.prompt.near timer (List.mem_filter.mp hm).1

theorem insert_prompt {key : EntityKey} {entry : Entry K} {deadline : Nat}
    (htimers : q.timers.Sound now) (hprompt : q.timers.Prompt now)
    (hins : q.insert key entry deadline = .ok q') : q'.timers.Prompt now := by
  unfold insert at hins
  split at hins
  · next id timers hset =>
    obtain rfl := Except.ok.inj hins
    exact hprompt.insertAt? htimers hset
  · cases hins

theorem apply (h : q.Timely start) (hle : start ≤ now) {command : Command K}
    (happly : q.apply now command = .ok q') : q'.Timely now := by
  have hnow := h.mono hle
  refine ⟨(apply_pending h.toSound hle happly).1, ?_⟩
  cases command with
  | clear =>
    obtain rfl := Except.ok.inj happly
    exact .clear _ now
  | schedule key entry delay =>
    unfold Queue.apply at happly
    simp only at happly
    split at happly
    · exact insert_prompt hnow.timers hnow.prompt happly
    · next id hid =>
      obtain ⟨timer, timers, htake, -, -, htimers, -⟩ := take_spec hnow.toSound hid
      have hprompt := hnow.prompt.take? hnow.timers htake
      rw [htake] at happly
      simp only at happly
      split at happly <;> exact insert_prompt htimers hprompt happly

theorem applyAll {inbox : List (Command K)} (h : q.Timely start) (hle : start ≤ now)
    (happly : q.applyAll now inbox = .ok q') : q'.Timely now := by
  induction inbox generalizing q start with
  | nil =>
    obtain rfl := Except.ok.inj happly
    exact h.mono hle
  | cons command rest ih =>
    unfold Queue.applyAll at happly
    split at happly
    · next q₁ hfirst => exact ih (h.apply hle hfirst) (Nat.le_refl now) happly
    · cases happly

theorem insert_fails {key : EntityKey} {entry : Entry K} {deadline : Nat} {fault : Fault}
    (hins : q.insert key entry deadline = .error fault) :
    q.timers.reached + Timers.horizon < deadline := by
  unfold insert at hins
  split at hins
  · cases hins
  · next hnone =>
    by_contra hnear
    have hsome := (Timers.insertAt?_isSome_iff q.timers deadline (key, entry)).mpr (by omega)
    rw [hnone] at hsome
    cases hsome

/-- A command fails only if what it makes pending comes due beyond the horizon. An entry that keeps
its deadline always can be set again. -/
theorem apply_fails (h : q.Timely start) (hle : start ≤ now) {command : Command K} {fault : Fault}
    (happly : q.apply now command = .error fault) :
    ∃ key entry deadline, meetAt key now (q.pendingOf key).head? command = some (entry, deadline) ∧
      wheelAfter q.timers.origin q.timers.reached command + Timers.horizon < deadline := by
  have hnow := h.mono hle
  cases command with
  | clear => cases happly
  | schedule key entry delay =>
    unfold Queue.apply at happly
    simp only at happly
    split at happly
    · next hid =>
      have hnone : q.pendingOf key = [] := pendingOf_eq_nil.mpr fun a ha hkey =>
        timer?_eq_none hid a.id ((h.mem_index _ _).mpr ⟨a, ha, hkey, rfl⟩)
      exact ⟨key, entry, now + delay, by rw [hnone, meetAt, if_pos rfl]; rfl, insert_fails happly⟩
    · next id hid =>
      obtain ⟨timer, timers, htake, rfl, hm, -, -, hreached, -⟩ := take_spec hnow.toSound hid
      have hpending := hnow.toSound.pendingOf_timer hm
      rw [htake] at happly
      simp only at happly
      split at happly
      · next new hmerge =>
        have hfar := insert_fails happly
        rw [hreached] at hfar
        refine ⟨timer.value.1, new, now + delay, ?_, hfar⟩
        rw [hpending, meetAt, if_pos rfl, List.head?_cons, Entry.upon, hmerge]
      · have hfar := insert_fails happly
        rw [hreached] at hfar
        have hnear := h.prompt.near timer hm
        omega

/-- Commands fail exactly if some of them make an entry pending that comes due beyond the horizon,
as it stands ahead of the wheel by then. -/
theorem applyAll_fails_iff (h : q.Timely start) (hle : start ≤ now) (inbox : List (Command K)) :
    (∃ fault, q.applyAll now inbox = .error fault) ↔
      ∃ sent, sent <+: inbox ∧ ∃ key entry deadline,
        sent.foldl (meetAt key now) (q.pendingOf key).head? = some (entry, deadline) ∧
        sent.foldl (wheelAfter q.timers.origin) q.timers.reached + Timers.horizon < deadline := by
  constructor
  · -- The commands before the one that fails have been applied, each as `meetAt` says.
    rintro ⟨fault, happly⟩
    induction inbox generalizing q start with
    | nil => cases happly
    | cons command rest ih =>
      unfold Queue.applyAll at happly
      split at happly
      · next q₁ hfirst =>
        obtain ⟨sent, hsent, key, entry, deadline, hmeet, hfar⟩ :=
          ih (h.apply hle hfirst) (Nat.le_refl now) happly
        obtain ⟨horigin, hreached⟩ := apply_wheel h.toSound hfirst
        rw [(apply_pending h.toSound hle hfirst).2 key, Option.head?_toList] at hmeet
        rw [horigin, hreached] at hfar
        exact ⟨command :: sent, List.cons_prefix_cons.mpr ⟨rfl, hsent⟩, key, entry, deadline,
          hmeet, hfar⟩
      · next fault' hfirst =>
        obtain ⟨key, entry, deadline, hmeet, hfar⟩ := h.apply_fails hle hfirst
        exact ⟨[command], List.cons_prefix_cons.mpr ⟨rfl, List.nil_prefix⟩, key, entry, deadline,
          hmeet, hfar⟩
  · -- No queue holds a timer beyond its horizon, so these commands cannot all have been applied.
    rintro ⟨sent, ⟨rest, rfl⟩, key, entry, deadline, hmeet, hfar⟩
    rw [applyAll_append]
    cases happly : q.applyAll now sent with
    | error fault => exact ⟨fault, rfl⟩
    | ok q' =>
      have hpending := (applyAll_pending h.toSound hle happly).2 key
      rw [hmeet] at hpending
      have hmem : (entry, deadline) ∈ q'.pendingOf key := by
        rw [hpending]
        exact List.mem_singleton_self _
      have hnear := (h.applyAll hle happly).near hmem
      rw [(applyAll_wheel h.toSound hle happly).2] at hnear
      omega

theorem expire_timers (q : Queue K) (now : Nat) :
    (q.expire now).2.timers = (q.timers.expire now).2 := by
  unfold Queue.expire
  split <;> next heq => rw [heq]

/-- What surfaces was due. -/
theorem expire_some (h : q.Timely now) {key : EntityKey} (hsome : q.expired? now = some key) :
    ∃ entry deadline, deadline ≤ now ∧ (q.expire now).1 = some entry ∧
      q.pendingOf key = [(entry, deadline)] ∧ (q.expire now).2.Timely now ∧
      (q.expire now).2.pendingOf key = [] ∧
      ∀ other, other ≠ key → (q.expire now).2.pendingOf other = q.pendingOf other := by
  obtain ⟨entry, deadline, hentry, hpending, hsound, hself, hothers⟩ :=
    Queue.expire_some h.toSound (Nat.le_refl now) hsome
  obtain ⟨hprompt, hdue⟩ := Timers.expire_prompt h.timers h.prompt
  obtain ⟨hlooked, -⟩ := Timers.expire_spec h.timers
  refine ⟨entry, deadline, ?_, hentry, hpending, ⟨hsound, ?_⟩, hself, hothers⟩
  · obtain ⟨timer, hfound, rfl⟩ := Option.map_eq_some_iff.mp hsome
    have hm : timer ∈ q.timers.all := by
      rw [hfound] at hlooked
      cases hlooked with
      | found hm _ => exact hm
    rw [h.toSound.pendingOf_timer hm] at hpending
    obtain ⟨-, rfl⟩ := Prod.mk.inj (List.singleton_inj.mp hpending)
    exact hdue timer hfound
  · rw [expire_timers]
    exact hprompt

/-- If nothing surfaces, nothing is due, and the consumer wakes up for what comes due first. -/
theorem expire_none (h : q.Timely now) (hnone : q.expired? now = none) :
    (q.expire now).1 = none ∧ (q.expire now).2.Timely now ∧
      (∀ key, (q.expire now).2.pendingOf key = q.pendingOf key) ∧
      ∀ key entry deadline, (entry, deadline) ∈ q.pendingOf key →
        ∃ wakeAt, (q.expire now).2.timers.alarm? = some wakeAt ∧ now < wakeAt ∧
          wakeAt ≤ deadline := by
  obtain ⟨hentry, hsound, hsame⟩ := Queue.expire_none h.toSound (Nat.le_refl now) hnone
  obtain ⟨hprompt, -⟩ := Timers.expire_prompt h.timers h.prompt
  refine ⟨hentry, ⟨hsound, by rw [expire_timers]; exact hprompt⟩, hsame, ?_⟩
  intro key entry deadline hpending
  rw [← hsame key] at hpending
  obtain ⟨timer, hm, heq⟩ := List.mem_map.mp hpending
  obtain ⟨-, rfl⟩ := Prod.mk.inj heq
  rw [expire_timers] at hm ⊢
  exact Timers.alarm_of_expire_eq_none h.timers h.prompt (Option.map_eq_none_iff.mp hnone) timer
    (List.mem_filter.mp hm).1

end Timely

end Reconciler.Queue
