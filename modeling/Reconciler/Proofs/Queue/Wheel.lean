import Reconciler.Proofs.Queue.Timers

/-!
# When a timer is found due

A look at the wheel finds a timer exactly if one is due. It finds none too early, since a timer
comes off only where the wheel has been turned to its very deadline. And it finds one in time, since
the next look is never set later than the first deadline (`Timers.Prompt`), and a look that finds
nothing brings the first timer down a level: there are only so many levels, so the loops of a look
come to their end before their count does.

The wheel itself only ever turns forward, but for a clear, and no timer is further ahead of it than
`horizon`. So a timer that was once set can be set again at the same deadline.
-/

namespace Reconciler.Queue.Timers

variable {α : Type}

/-! ## Levels and slots -/

section Levels

variable {t : Timers α} {deadline : Nat}

theorem slotWidth_pos (level : Nat) : 0 < slotWidth level := Nat.pow_pos (by decide)

theorem level_le (t : Timers α) (deadline : Nat) : t.level deadline ≤ topLevel := by
  unfold level
  simp only
  cases hfind : (List.range topLevel).find? _ with
  | none => exact Nat.le_refl _
  | some found => exact Nat.le_of_lt (by simpa using (List.find?_range_eq_some.mp hfind).2.1)

/-- A deadline stands no higher than the first slot that it shares with the wheel. -/
theorem level_le_of_same {level : Nat}
    (h : (t.reached - t.origin) / slotWidth (level + 1) =
      (deadline - t.origin) / slotWidth (level + 1)) : t.level deadline ≤ level := by
  by_cases htop : topLevel ≤ level
  · exact Nat.le_trans (level_le t deadline) htop
  · unfold Timers.level
    simp only
    cases hfind : (List.range topLevel).find? _ with
    | none =>
      have hnot := List.find?_eq_none.mp hfind level (List.mem_range.mpr (by omega))
      simp [h] at hnot
    | some found =>
      by_contra hlt
      have hnot := (List.find?_range_eq_some.mp hfind).2.2 level (by simpa using hlt)
      simp [h] at hnot

theorem ne_of_lt_level {level : Nat} (h : level < t.level deadline) :
    (t.reached - t.origin) / slotWidth (level + 1) ≠
      (deadline - t.origin) / slotWidth (level + 1) :=
  fun hsame => Nat.not_le_of_lt h (level_le_of_same hsame)

/-- On the lowest level the wheel stops at the deadline itself. -/
theorem stop_of_level_eq_zero (hlevel : t.level deadline = 0) (h : t.origin ≤ deadline) :
    t.stop deadline = deadline := by
  have hwidth : slotWidth (t.level deadline) = 1 := by rw [hlevel]; rfl
  unfold stop
  simp only [hwidth, Nat.div_one, Nat.mul_one]
  omega

/-- The next stop is never behind the wheel. -/
theorem reached_le_stop (horigin : t.origin ≤ deadline) (hreached : t.reached ≤ deadline) :
    t.reached ≤ t.stop deadline := by
  cases hlevel : t.level deadline with
  | zero => rw [stop_of_level_eq_zero hlevel horigin]; exact hreached
  | succ level =>
    have hne : (t.reached - t.origin) / slotWidth (level + 1) ≠
        (deadline - t.origin) / slotWidth (level + 1) := ne_of_lt_level (by omega)
    have hle : (t.reached - t.origin) / slotWidth (level + 1) ≤
        (deadline - t.origin) / slotWidth (level + 1) := Nat.div_le_div_right (by omega)
    have hlt : t.reached - t.origin <
        (deadline - t.origin) / slotWidth (level + 1) * slotWidth (level + 1) :=
      (Nat.div_lt_iff_lt_mul (slotWidth_pos _)).mp (by omega)
    unfold stop
    simp only [hlevel]
    omega

/-- Past its stop, a deadline stands on a lower level. -/
theorem level_lt_of_stop_le {reached : Nat} (horigin : t.origin ≤ deadline)
    (hlevel : t.level deadline ≠ 0) (hstop : t.stop deadline ≤ reached)
    (hreached : reached ≤ deadline) :
    ({ t with reached } : Timers α).level deadline < t.level deadline := by
  obtain ⟨level, hsucc⟩ := Nat.exists_eq_succ_of_ne_zero hlevel
  have hwidth := slotWidth_pos (level + 1)
  have hstop' : t.origin + (deadline - t.origin) / slotWidth (level + 1) * slotWidth (level + 1) ≤
      reached := by
    rw [← Nat.succ_eq_add_one, ← hsucc]
    exact hstop
  have hsame : (reached - t.origin) / slotWidth (level + 1) =
      (deadline - t.origin) / slotWidth (level + 1) := by
    refine Nat.le_antisymm (Nat.div_le_div_right (by omega)) ?_
    exact (Nat.le_div_iff_mul_le hwidth).mpr (by omega)
  have hle : ({ t with reached } : Timers α).level deadline ≤ level := level_le_of_same hsame
  omega

end Levels

/-! ## Looking in time -/

/-- The wheel is looked at in time, and nothing is further ahead of it than it can hold. -/
structure Prompt (t : Timers α) (now : Nat) : Prop where
  woken : ∀ timer ∈ t.active, ∃ wakeAt, t.wakeAt = some wakeAt ∧ wakeAt ≤ timer.deadline
  forward : ∀ wakeAt, t.wakeAt = some wakeAt → t.reached ≤ wakeAt
  overdue : ∀ timer ∈ t.overdue, timer.deadline ≤ now
  near : ∀ timer ∈ t.all, timer.deadline ≤ t.reached + horizon

section Looking

variable {t : Timers α} {now limit : Nat} {first : Timer α}

theorem Prompt.mono (h : t.Prompt now) {later : Nat} (hle : now ≤ later) : t.Prompt later :=
  { h with overdue := fun timer hm => Nat.le_trans (h.overdue timer hm) hle }

theorem Prompt.startingAt (now : Nat) : (Timers.startingAt now : Timers α).Prompt now := by
  constructor <;> simp [Timers.startingAt, Timers.all]

theorem Sound.nextStop?_le (h : t.Sound now) {timer : Timer α} (hm : timer ∈ t.active) :
    ∃ stop, t.nextStop? = some stop ∧ stop ≤ timer.deadline := by
  cases hfirst : t.earliest? with
  | none => simp [earliest?_eq_none hfirst] at hm
  | some first =>
    obtain ⟨hmem, hmin⟩ := earliest?_eq_some hfirst
    have horigin := h.origin_le_deadline first (List.mem_append_right _ hmem)
    refine ⟨t.stop first.deadline, by rw [nextStop?, hfirst, Option.map_some], ?_⟩
    exact Nat.le_trans (stop_le horigin) (hmin timer hm)

theorem Sound.reached_le_nextStop? (h : t.Sound now) {stop : Nat}
    (hstop : t.nextStop? = some stop) : t.reached ≤ stop := by
  obtain ⟨first, hfirst, rfl⟩ := Option.map_eq_some_iff.mp hstop
  have hall := List.mem_append_right t.overdue (earliest?_eq_some hfirst).1
  exact reached_le_stop (h.origin_le_deadline first hall) (h.reached_le_deadline first hall)

/-- The wheel is looked at in time if the next look is at the next stop. -/
theorem Sound.prompt_nextStop (h : t.Sound now) (hover : t.overdue = [])
    (hnear : ∀ timer ∈ t.all, timer.deadline ≤ t.reached + horizon) :
    ({ t with wakeAt := t.nextStop? } : Timers α).Prompt now where
  woken _ hm := h.nextStop?_le hm
  forward _ hwake := h.reached_le_nextStop? hwake
  overdue timer hm := by simp [hover] at hm
  near := hnear

/-- Turning the wheel takes the first timer off if the limit reaches it, and otherwise brings it
down a level if the limit reaches its stop. -/
theorem turnUntil_first (stops : Nat) (hfirst : t.earliest? = some first)
    (horigin : t.origin ≤ first.deadline) (hreached : t.reached ≤ first.deadline)
    (hlimit : t.reached ≤ limit) (hstops : t.level first.deadline < stops) :
    ∃ reached, t.reached ≤ reached ∧
      ((t.turnUntil limit stops = (some first, ({ t with reached } : Timers α).drop first.id) ∧
          first.deadline ≤ limit) ∨
        (t.turnUntil limit stops = (none, { t with reached }) ∧ reached ≤ first.deadline ∧
          (t.stop first.deadline ≤ limit →
            ({ t with reached } : Timers α).level first.deadline < t.level first.deadline))) := by
  induction stops generalizing t with
  | zero => omega
  | succ stops ih =>
    have hstop := stop_le horigin
    unfold turnUntil
    simp only [hfirst]
    by_cases hbefore : limit < t.stop first.deadline
    · refine ⟨limit, hlimit, .inr ⟨by simp [hbefore], by omega, by omega⟩⟩
    · by_cases hlevel : t.level first.deadline = 0
      · have heq := stop_of_level_eq_zero hlevel horigin
        exact ⟨t.reached, Nat.le_refl _, .inl ⟨by simp [hbefore, hlevel], by omega⟩⟩
      · have hlower := level_lt_of_stop_le horigin hlevel (Nat.le_refl _) hstop
        have hforward := reached_le_stop horigin hreached
        obtain ⟨reached, hle, hturn⟩ :=
          ih (t := { t with reached := t.stop first.deadline }) hfirst horigin hstop
            (Nat.not_lt.mp hbefore) (by omega)
        have hle : t.stop first.deadline ≤ reached := hle
        refine ⟨reached, by omega, ?_⟩
        simp only [hbefore, hlevel, if_false]
        rcases hturn with hfound | ⟨hnone, hahead, -⟩
        · exact .inl hfound
        · exact .inr ⟨hnone, hahead, fun _ => level_lt_of_stop_le horigin hlevel hle hahead⟩

/-- A look at a wheel that holds a timer: it is not yet time, or the first timer is found due, or
the look goes on. The first timer has come down a level then, if it was time for its stop. -/
theorem look_cases (looks : Nat) (h : t.Sound now) (hp : t.Prompt now) (hover : t.overdue = [])
    (hfirst : t.earliest? = some first) :
    (t.look now (looks + 1) = (none, t) ∧ ∃ wakeAt, t.wakeAt = some wakeAt ∧ now < wakeAt) ∨
    (∃ t' : Timers α, t.look now (looks + 1) = (some first, t') ∧ first.deadline ≤ now ∧
      t'.Prompt now ∧ t'.overdue = []) ∨
    (∃ t' : Timers α, t.look now (looks + 1) = t'.look now looks ∧ t'.Sound now ∧ t'.Prompt now ∧
      t'.overdue = [] ∧ t'.earliest? = some first ∧ t'.wakeAt = t'.nextStop? ∧
      (t.wakeAt = t.nextStop? → t'.level first.deadline < t.level first.deadline)) := by
  have hall := List.mem_append_right t.overdue (earliest?_eq_some hfirst).1
  have horigin := h.origin_le_deadline first hall
  obtain ⟨limit, hwake, -⟩ := hp.woken first (earliest?_eq_some hfirst).1
  by_cases hdue : limit ≤ now
  · have hfilter : t.wakeAt.filter (· ≤ now) = some limit := by simp [hwake, hdue]
    obtain ⟨reached, hforward, hturn⟩ := turnUntil_first (topLevel + 1) hfirst horigin
      (h.reached_le_deadline first hall) (hp.forward limit hwake)
      (Nat.lt_succ_of_le (level_le t first.deadline))
    obtain ⟨-, hsound, hover'⟩ := turnUntil_spec hdue (topLevel + 1) h hover
    have hnear : ∀ timer ∈ t.all, timer.deadline ≤ reached + horizon := fun timer hm =>
      Nat.le_trans (hp.near timer hm) (Nat.add_le_add_right hforward _)
    rcases hturn with ⟨hfound, hle⟩ | ⟨hnone, -, hlower⟩
    · rw [hfound] at hsound hover'
      have hprompt := hsound.prompt_nextStop hover' fun timer hm => by
        rw [drop_all (t := { t with reached }) hover] at hm
        exact hnear timer (List.mem_filter.mp hm).1
      exact .inr (.inl ⟨_, by simp only [look, hfilter, hfound], Nat.le_trans hle hdue, hprompt,
        hover'⟩)
    · rw [hnone] at hsound hover'
      have hprompt := hsound.prompt_nextStop hover' hnear
      have hlook : t.look now (looks + 1) = look now looks
          { t with reached, wakeAt := ({ t with reached } : Timers α).nextStop? } := by
        simp only [look, hfilter, hnone]
      refine .inr (.inr ⟨_, hlook, { hsound with }, hprompt, hover', hfirst, rfl, fun hnext =>
        hlower ?_⟩)
      rw [nextStop?, hfirst, hwake] at hnext
      exact Nat.le_of_eq (Option.some.inj hnext).symm
  · have hfilter : t.wakeAt.filter (· ≤ now) = none := by
      rw [hwake, Option.filter_some, if_neg (by simpa using hdue)]
    exact .inl ⟨by simp only [look, hfilter], limit, hwake, Nat.not_le.mp hdue⟩

theorem look_prompt (looks : Nat) (h : t.Sound now) (hp : t.Prompt now) (hover : t.overdue = [])
    (hfirst : t.earliest? = some first) :
    (t.look now looks).2.Prompt now ∧ (t.look now looks).2.overdue = [] ∧
      ∀ timer, (t.look now looks).1 = some timer → timer.deadline ≤ now := by
  induction looks generalizing t with
  | zero => exact ⟨hp, hover, fun timer hsome => by cases hsome⟩
  | succ looks ih =>
    rcases look_cases looks h hp hover hfirst with
      ⟨hlook, -⟩ | ⟨t', hlook, hdue, hp', hover'⟩ | ⟨t', hlook, h', hp', hover', hfirst', -⟩
    · rw [hlook]
      exact ⟨hp, hover, fun timer hsome => by cases hsome⟩
    · rw [hlook]
      exact ⟨hp', hover', fun timer hsome => Option.some.inj hsome ▸ hdue⟩
    · rw [hlook]
      exact ih h' hp' hover' hfirst'

/-- A look that finds nothing has come to an end because it was not yet time, as long as there were
looks enough for the level that the first timer stands on. -/
theorem wakeAt_of_look_eq_none (looks : Nat) (h : t.Sound now) (hp : t.Prompt now)
    (hover : t.overdue = []) (hfirst : t.earliest? = some first) (hwake : t.wakeAt = t.nextStop?)
    (hlooks : t.level first.deadline < looks) (hnone : (t.look now looks).1 = none) :
    ∃ wakeAt, (t.look now looks).2.wakeAt = some wakeAt ∧ now < wakeAt := by
  induction looks generalizing t with
  | zero => omega
  | succ looks ih =>
    rcases look_cases looks h hp hover hfirst with
      ⟨hlook, hahead⟩ | ⟨t', hlook, -⟩ | ⟨t', hlook, h', hp', hover', hfirst', hwake', hlower⟩
    · rw [hlook]
      exact hahead
    · rw [hlook] at hnone
      cases hnone
    · rw [hlook] at hnone ⊢
      have := hlower hwake
      exact ih h' hp' hover' hfirst' hwake' (by omega) hnone

end Looking

/-! ## What the operations keep -/

section Operations

variable {t t' : Timers α} {now : Nat}

theorem exists_earliest? (h : t.active.isEmpty = false) : ∃ first, t.earliest? = some first := by
  cases hfirst : t.earliest? with
  | none => simp [earliest?_eq_none hfirst] at h
  | some first => exact ⟨first, rfl⟩

/-- What is found was due. -/
theorem expire_prompt (h : t.Sound now) (hp : t.Prompt now) :
    (t.expire now).2.Prompt now ∧
      ∀ timer, (t.expire now).1 = some timer → timer.deadline ≤ now := by
  unfold expire
  split
  · next first rest hover =>
    refine ⟨{ hp with overdue := ?_, near := ?_ }, ?_⟩
    · intro timer hm
      exact hp.overdue timer (by rw [hover]; exact List.mem_cons_of_mem _ hm)
    · intro timer hm
      refine hp.near timer ?_
      rw [all, hover]
      exact List.mem_cons_of_mem _ hm
    · rintro timer ⟨⟩
      exact hp.overdue first (by rw [hover]; exact List.mem_cons_self)
  · next hover =>
    split
    · exact ⟨hp, fun timer hsome => by cases hsome⟩
    · next hactive =>
      obtain ⟨first, hfirst⟩ := exists_earliest? (by simpa using hactive)
      obtain ⟨hprompt, -, hdue⟩ := look_prompt (topLevel + 3) h hp hover hfirst
      exact ⟨hprompt, hdue⟩

/-- If nothing is found, nothing is due, and the next look is set no later than anything is. -/
theorem alarm_of_expire_eq_none (h : t.Sound now) (hp : t.Prompt now)
    (hnone : (t.expire now).1 = none) :
    ∀ timer ∈ (t.expire now).2.all, ∃ wakeAt, (t.expire now).2.alarm? = some wakeAt ∧
      now < wakeAt ∧ wakeAt ≤ timer.deadline := by
  unfold expire at hnone ⊢
  split at hnone
  · cases hnone
  · next hover =>
    split at hnone
    · next hempty =>
      intro timer hm
      simp [all, hover, List.isEmpty_iff.mp hempty] at hm
    · next hactive =>
      obtain ⟨first, hfirst⟩ := exists_earliest? (by simpa using hactive)
      obtain ⟨hprompt, hover', -⟩ := look_prompt (topLevel + 3) h hp hover hfirst
      -- The first look may find the next one set too early, and takes no level; all others do.
      have hahead :
          ∃ wakeAt, (t.look now (topLevel + 3)).2.wakeAt = some wakeAt ∧ now < wakeAt := by
        rcases look_cases (topLevel + 2) h hp hover hfirst with
          ⟨hlook, hahead⟩ | ⟨t', hlook, -⟩ | ⟨t', hlook, h', hp', hover', hfirst', hwake', -⟩
        · rw [hlook]
          exact hahead
        · rw [hlook] at hnone
          cases hnone
        · rw [hlook] at hnone ⊢
          have := level_le t' first.deadline
          exact wakeAt_of_look_eq_none _ h' hp' hover' hfirst' hwake' (by omega) hnone
      obtain ⟨wakeAt, hwake, hlt⟩ := hahead
      intro timer hm
      rw [if_neg hactive] at hm ⊢
      have hm : timer ∈ (t.look now (topLevel + 3)).2.active := by simpa [all, hover'] using hm
      obtain ⟨wakeAt', hwake', hle⟩ := hprompt.woken timer hm
      obtain rfl := Option.some.inj (hwake.symm.trans hwake')
      refine ⟨wakeAt, ?_, hlt, hle⟩
      rw [alarm?, if_neg (by simpa using List.ne_nil_of_mem hm), hwake]

theorem take?_fields {id : Nat} {timer : Timer α} (htake : t.take? id = some (timer, t')) :
    t'.active = t.active.filter (·.id != id) ∧ t'.overdue = t.overdue.filter (·.id != id) ∧
      (t'.wakeAt = t.wakeAt ∨ t'.wakeAt = t'.nextStop?) := by
  obtain ⟨found, -, heq⟩ := Option.map_eq_some_iff.mp htake
  obtain ⟨rfl, rfl⟩ := Prod.mk.inj heq
  refine ⟨rfl, rfl, ?_⟩
  simp only
  split
  · exact .inl rfl
  · exact .inr rfl

theorem Prompt.take? {id : Nat} {timer : Timer α} (h : t.Sound now) (hp : t.Prompt now)
    (htake : t.take? id = some (timer, t')) : t'.Prompt now := by
  have hsound := h.take? htake
  obtain ⟨-, -, hall, -, -, hreached⟩ := take?_eq_some htake
  obtain ⟨hactive, hover, hwake⟩ := take?_fields htake
  refine ⟨?_, ?_, ?_, ?_⟩
  · intro other hm
    rcases hwake with hwake | hwake <;> rw [hwake]
    · rw [hactive] at hm
      exact hp.woken other (List.mem_filter.mp hm).1
    · exact hsound.nextStop?_le hm
  · intro wakeAt hsome
    rcases hwake with hwake | hwake <;> rw [hwake] at hsome
    · rw [hreached]
      exact hp.forward wakeAt hsome
    · exact hsound.reached_le_nextStop? hsome
  · intro other hm
    rw [hover] at hm
    exact hp.overdue other (List.mem_filter.mp hm).1
  · intro other hm
    rw [hall] at hm
    rw [hreached]
    exact hp.near other (List.mem_filter.mp hm).1

/-- A timer beyond the horizon cannot be set, and every other one can. -/
theorem insertAt?_isSome_iff (t : Timers α) (deadline : Nat) (value : α) :
    (t.insertAt? deadline value).isSome ↔ deadline ≤ t.reached + horizon := by
  unfold insertAt?
  simp only
  split
  · simp only [Option.isSome_some, true_iff]
    omega
  · split
    · simp only [Option.isSome_none, Bool.false_eq_true, false_iff]
      omega
    · simp only [Option.isSome_some, true_iff]
      omega

/-- The next look is set no later than it was, and no later than a new deadline ahead. -/
theorem wakeBy_spec (hp : t.Prompt now) {deadline : Nat} (hahead : t.reached ≤ deadline) :
    ∃ wakeAt, t.wakeBy deadline = some wakeAt ∧ t.reached ≤ wakeAt ∧ wakeAt ≤ deadline ∧
      ∀ before, t.wakeAt = some before → wakeAt ≤ before := by
  unfold wakeBy
  cases hwake : t.wakeAt with
  | none => exact ⟨deadline, rfl, hahead, Nat.le_refl _, fun before hsome => by cases hsome⟩
  | some before =>
    have hforward := hp.forward before hwake
    refine ⟨_, rfl, ?_⟩
    split
    · exact ⟨hahead, Nat.le_refl _, fun _ hsome => by obtain rfl := Option.some.inj hsome; omega⟩
    · exact ⟨hforward, by omega, fun _ hsome => Nat.le_of_eq (Option.some.inj hsome)⟩

theorem Prompt.insertAt? {deadline id : Nat} {value : α} (h : t.Sound now) (hp : t.Prompt now)
    (hins : t.insertAt? deadline value = some (id, t')) : t'.Prompt now := by
  obtain ⟨wakeAt, hwake, hforward, hle, hbefore⟩ :=
    wakeBy_spec hp (Nat.le_max_right deadline t.reached)
  have hwoken : ∀ timer ∈ t.active, wakeAt ≤ timer.deadline := by
    intro timer hm
    obtain ⟨before, hsome, hdeadline⟩ := hp.woken timer hm
    exact Nat.le_trans (hbefore before hsome) hdeadline
  unfold Timers.insertAt? at hins
  simp only at hins
  split at hins
  · next hover =>
    obtain ⟨-, rfl⟩ := Prod.mk.inj (Option.some.inj hins)
    have hreached := h.reached_le
    refine ⟨fun timer hm => ⟨wakeAt, hwake, hwoken timer hm⟩, ?_, ?_, ?_⟩
    · intro other hsome
      obtain rfl := Option.some.inj (hwake.symm.trans hsome)
      exact hforward
    · intro timer hm
      rcases List.mem_cons.mp hm with rfl | hm
      · exact Nat.le_trans hover hreached
      · exact hp.overdue timer hm
    · intro timer hm
      rcases List.mem_cons.mp hm with rfl | hm
      · exact Nat.le_trans hover (Nat.le_add_right _ _)
      · exact hp.near timer hm
  · split at hins
    · cases hins
    · next hnear =>
      obtain ⟨-, rfl⟩ := Prod.mk.inj (Option.some.inj hins)
      refine ⟨?_, ?_, hp.overdue, ?_⟩
      · intro timer hm
        refine ⟨wakeAt, hwake, ?_⟩
        rcases List.mem_append.mp hm with hm | hm
        · exact hwoken timer hm
        · rw [List.mem_singleton.mp hm]
          exact hle
      · intro other hsome
        obtain rfl := Option.some.inj (hwake.symm.trans hsome)
        exact hforward
      · intro timer hm
        rw [all, ← List.append_assoc] at hm
        rcases List.mem_append.mp hm with hm | hm
        · exact hp.near timer hm
        · rw [List.mem_singleton.mp hm]
          show max deadline t.reached ≤ t.reached + horizon
          omega

theorem Prompt.clear (t : Timers α) (now : Nat) : t.clear.Prompt now := by
  constructor <;> simp [Timers.clear, Timers.all]

end Operations

end Reconciler.Queue.Timers
