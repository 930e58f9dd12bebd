import Reconciler.Proofs.Queue.Barriers

/-!
# Draining a stream

Once all producers are gone nothing more is sent, so the first poll applies all that ever was. From
then on the stream drains: what is upcoming is delivered, each entry once, and the poll after the
last delivery finds the stream at its end. All that this needs of the consumer is that it polls
again until the stream is at its end, and is woken up where a poll has set the next look
(`Polling`).

Only the first poll can fail, on a schedule beyond the horizon that was still in the channel. The
stream does not drain then: what was pending is never delivered.
-/

namespace Reconciler.Queue

variable {K : Type}

/-- The entry of an identity that was delivered. -/
def Occurrence.delivery? (key : EntityKey) : Occurrence K → Option (Entry K)
  | .delivered _ other entry => if other = key then some entry else none
  | _ => none

namespace Stream

variable {s s' : Stream K} {since : List (Occurrence K)} {occurrence : Occurrence K}

/-! ## What is delivered while it drains -/

theorem Run.drains (run : Run s since s') (h : s.queue.Timely s.now) (hclosed : s.closed = true)
    (hcancelled : s.cancelled = false) (hnever : .cancelled ∉ since)
    (hfailed : ∀ instant fault, .failed instant fault ∉ since) :
    s'.closed = true ∧ s'.cancelled = false ∧
      ∀ key, since.filterMap (·.delivery? key) ++ (s'.upcoming? key).toList =
        (s.upcoming? key).toList := by
  induction run with
  | start => exact ⟨hclosed, hcancelled, fun key => rfl⟩
  | @step past s₁ s₂ occurrence run step ih =>
    obtain ⟨hclosed₁, hcancelled₁, hsame⟩ := ih (fun hm => hnever (List.mem_append_left _ hm))
      fun instant fault hm => hfailed instant fault (List.mem_append_left _ hm)
    have htimely := run.timely h
    have hpast : ∀ key, (past ++ [occurrence]).filterMap (·.delivery? key) =
        past.filterMap (·.delivery? key) ++ (occurrence.delivery? key).toList := by
      intro key
      rw [List.filterMap_append]
      cases hdelivery : occurrence.delivery? key with
      | none => rw [List.filterMap_cons_none hdelivery]; rfl
      | some entry => rw [List.filterMap_cons_some hdelivery]; rfl
    -- Nothing is sent any more: a delivery moves an entry from the one list to the other.
    have haccounted := step.accounted htimely
    have hupcoming := fun hrunning key => step.upcoming htimely hrunning key
    cases step with
    | sent producing => rw [hclosed₁] at producing; cases producing
    | closed => exact ⟨rfl, hcancelled₁, fun key => by rw [hpast, ← hsame key]; simp; rfl⟩
    | cancelled => exact absurd (List.mem_append_right _ (List.mem_singleton_self _)) hnever
    | @delivered instant other entry queue running later surfacing polled =>
      refine ⟨hclosed₁, hcancelled₁, fun key => ?_⟩
      obtain ⟨hmark, honly⟩ := hupcoming running key
      rw [hpast, ← hsame key, List.append_assoc, hmark, mark, Occurrence.delivery?]
      split
      · next hkey =>
        subst hkey
        rw [honly instant entry rfl]
        rfl
      · rfl
    | idle running later polled =>
      refine ⟨hclosed₁, hcancelled₁, fun key => ?_⟩
      rw [hpast, ← hsame key, List.append_assoc, (hupcoming running key).1]
      rfl
    | @ended instant running later polled =>
      refine ⟨hclosed₁, hcancelled₁, fun key => ?_⟩
      rcases haccounted with hyes | ⟨-, hnone⟩
      · rw [hcancelled₁] at hyes
        cases hyes
      · rw [hpast, ← hsame key, List.append_assoc, ← due?_fst s₁ instant key, hnone key]
        rfl
    | failed running later polled =>
      exact absurd (List.mem_append_right _ (List.mem_singleton_self _)) (hfailed _ _)

/-- A closed stream is at its end exactly if nothing is upcoming. -/
theorem poll_eq_ended_iff {instant : Nat} (h : s.queue.Timely s.now) (hle : s.now ≤ instant)
    (hclosed : s.closed = true) (hcancelled : s.cancelled = false)
    (hreach : ¬s.Overreaches instant) :
    s.poll instant = .ended ↔ ∀ key, s.upcoming? key = none := by
  have hdue : ∀ key, s.upcoming? key = none ↔ s.due? instant key = none := fun key => by
    rw [← due?_fst s instant key, Option.map_eq_none_iff]
  constructor
  · intro hpoll key
    cases s.polled h hle hpoll with
    | cancelled hyes => rw [hcancelled] at hyes; cases hyes
    | drained _ _ _ hnone => exact (hdue key).mpr (hnone key)
  · intro hnone
    cases hpoll : s.poll instant with
    | ended => rfl
    | failed fault =>
      cases s.polled h hle hpoll with
      | failed _ hover => exact absurd hover hreach
    | delivered entry queue =>
      cases s.polled h hle hpoll with
      | @delivered key _ _ _ _ _ _ _ hentry =>
        rw [(hdue key).mp (hnone key)] at hentry
        cases hentry
    | idle queue =>
      cases s.polled h hle hpoll with
      | idle _ _ hopen =>
        obtain ⟨key, hsome⟩ := hopen hclosed
        rw [(hdue key).mp (hnone key)] at hsome
        cases hsome

theorem Step.now_le (step : Step s occurrence s') : s.now ≤ s'.now := by
  cases step with
  | sent producing => exact Nat.le_of_eq (send_now s _).symm
  | closed => exact Nat.le_refl _
  | cancelled => exact Nat.le_refl _
  | delivered _ later => exact later
  | idle _ later => exact later
  | ended _ later => exact later
  | failed _ later => exact later

theorem Run.without_consumer (run : Run s since s') (hstopped : s.running = false) :
    ∀ occurrence ∈ since, occurrence.instant? = none := by
  suffices s'.running = false ∧ ∀ occurrence ∈ since, occurrence.instant? = none from this.2
  induction run with
  | start => exact ⟨hstopped, fun _ hm => by cases hm⟩
  | step run step ih =>
    obtain ⟨hbefore, hquiet⟩ := ih
    obtain ⟨hafter, -, -, hnone⟩ := step.stays_stopped hbefore
    refine ⟨hafter, fun occurrence hm => ?_⟩
    rcases List.mem_append.mp hm with hm | hm
    · exact hquiet occurrence hm
    · rw [List.mem_singleton.mp hm]
      exact hnone

/-! ## The consumer goes on -/

/-- A stream without producers, all of whose commands have been applied. -/
structure Draining (s : Stream K) : Prop where
  timely : s.queue.Timely s.now
  running : s.running = true
  closed : s.closed = true
  live : s.cancelled = false
  applied : s.inbox = []

theorem Draining.not_overreaches (h : s.Draining) (instant : Nat) : ¬s.Overreaches instant := by
  rintro ⟨sent, hsent, key, entry, deadline, hmeet, hfar⟩
  rw [h.applied, List.prefix_nil] at hsent
  subst hsent
  have hnear := h.timely.near (List.mem_of_mem_head? hmeet)
  simp only [List.foldl_nil] at hfar
  omega

theorem Draining.due? (h : s.Draining) (instant : Nat) (key : EntityKey) :
    (s.due? instant key).toList = s.queue.pendingOf key := by
  rw [Stream.due?, h.applied, List.foldl_nil, ← h.timely.toSound.pendingOf_eq_toList key]

/-- A poll of a draining stream waits for what is pending, and sets the next look in time, or it
delivers what is due, or nothing is pending and the stream is at its end. -/
theorem Draining.step_cases (h : s.Draining) (step : Step s occurrence s')
    (hpoll : occurrence.instant?.isSome) :
    (∃ instant, occurrence = .idle instant ∧ s'.Draining ∧
      (∃ key, s.queue.pendingOf key ≠ []) ∧
      (∀ key, s'.queue.pendingOf key = s.queue.pendingOf key) ∧
      ∀ key entry deadline, (entry, deadline) ∈ s'.queue.pendingOf key →
        ∃ wakeAt, s'.queue.timers.alarm? = some wakeAt ∧ s'.now < wakeAt ∧ wakeAt ≤ deadline) ∨
    (∃ instant key entry, occurrence = .delivered instant key entry ∧ s'.Draining ∧
      s.queue.pendingOf key ≠ [] ∧ s'.queue.pendingOf key = [] ∧
      ∀ other, other ≠ key → s'.queue.pendingOf other = s.queue.pendingOf other) ∨
    (∃ instant, occurrence = .ended instant ∧ ∀ key, s.queue.pendingOf key = []) := by
  cases step with
  | sent => cases hpoll
  | closed => cases hpoll
  | cancelled => cases hpoll
  | @idle instant queue running later polled =>
    cases s.polled h.timely later polled with
    | idle _ _ hopen htimely hpending hahead =>
      obtain ⟨key, hsome⟩ := hopen h.closed
      obtain ⟨waiting, hwaiting⟩ := Option.isSome_iff_exists.mp hsome
      refine .inl ⟨instant, rfl, ⟨htimely, running, h.closed, h.live, rfl⟩, ⟨key, ?_⟩,
        fun key => (hpending key).trans (h.due? instant key), hahead⟩
      rw [← h.due? instant key, hwaiting]
      exact List.cons_ne_nil _ _
  | @delivered instant key entry queue running later surfacing polled =>
    cases s.polled h.timely later polled with
    | delivered _ _ hsurfacing _ hentry htimely hself hothers =>
      obtain rfl := Option.some.inj (surfacing.symm.trans hsurfacing)
      refine .inr (.inl ⟨instant, key, entry, rfl, ⟨htimely, running, h.closed, h.live, rfl⟩, ?_,
        hself, fun other hne => (hothers other hne).trans (h.due? instant other)⟩)
      rw [← h.due? instant key, hentry]
      exact List.cons_ne_nil _ _
  | @ended instant running later polled =>
    cases s.polled h.timely later polled with
    | cancelled hyes => rw [h.live] at hyes; cases hyes
    | drained _ _ _ hnone =>
      refine .inr (.inr ⟨instant, rfl, fun key => ?_⟩)
      rw [← h.due? instant key, hnone key]
      rfl
  | @failed instant fault running later polled =>
    cases s.polled h.timely later polled with
    | failed _ hover => exact absurd hover (h.not_overreaches instant)

/-- The consumer polls until it stops, and is woken up where a poll has set the next look. -/
structure Polling (K : Type) where
  states : Nat → Stream K
  labels : Nat → Occurrence K
  polls : ∀ n, (states n).running = true →
    (labels n).instant?.isSome ∧ Step (states n) (labels n) (states (n + 1))
  awake : ∀ n wakeAt, (states n).queue.timers.alarm? = some wakeAt →
    ∃ m, n < m ∧ ((states m).running = false ∨ wakeAt ≤ (states m).now)

namespace Polling

variable (p : Polling K) {n : Nat}

/-- What happened up to a poll. -/
def trace (n : Nat) : List (Occurrence K) := (List.range n).map p.labels

theorem run (hrunning : ∀ m < n, (p.states m).running = true) :
    Run (p.states 0) (p.trace n) (p.states n) := by
  induction n with
  | zero => exact .start
  | succ n ih =>
    rw [trace, List.range_succ, List.map_append]
    exact (ih fun m hm => hrunning m (by omega)).step (p.polls n (hrunning n (by omega))).2

/-- The next delivery after a poll. -/
structure NextDelivery (n m : Nat) : Prop where
  later : n ≤ m
  draining : ∀ k, n ≤ k → k ≤ m → (p.states k).Draining
  waiting : ∀ key, (p.states m).queue.pendingOf key = (p.states n).queue.pendingOf key
  delivered : ∃ instant key entry, p.labels m = .delivered instant key entry

theorem NextDelivery.here (h : (p.states n).Draining) {instant : Nat} {key : EntityKey}
    {entry : Entry K} (hlabel : p.labels n = .delivered instant key entry) :
    p.NextDelivery n n where
  later := Nat.le_refl n
  draining k hn hk := by rw [Nat.le_antisymm hk hn]; exact h
  waiting _ := rfl
  delivered := ⟨instant, key, entry, hlabel⟩

theorem NextDelivery.earlier {m k : Nat} (h : p.NextDelivery k m) (hle : n ≤ k)
    (hdraining : ∀ j, n ≤ j → j ≤ k → (p.states j).Draining)
    (hsame : ∀ key, (p.states k).queue.pendingOf key = (p.states n).queue.pendingOf key) :
    p.NextDelivery n m where
  later := Nat.le_trans hle h.later
  draining j hn hj := by
    by_cases hjk : j ≤ k
    · exact hdraining j hn hjk
    · exact h.draining j (by omega) hj
  waiting key := (h.waiting key).trans (hsame key)
  delivered := h.delivered

/-- A poll delivers what is pending, or it leaves it and sets the next look in time. -/
theorem step_cases (h : (p.states n).Draining) {key : EntityKey} {entry : Entry K} {deadline : Nat}
    (hpending : (entry, deadline) ∈ (p.states n).queue.pendingOf key) :
    p.NextDelivery n n ∨ (p.states (n + 1)).Draining ∧
      (∀ key, (p.states (n + 1)).queue.pendingOf key = (p.states n).queue.pendingOf key) ∧
      ∃ wakeAt, (p.states (n + 1)).queue.timers.alarm? = some wakeAt ∧
        (p.states n).now < wakeAt ∧ wakeAt ≤ deadline := by
  obtain ⟨hpoll, step⟩ := p.polls n h.running
  rcases h.step_cases step hpoll with
    ⟨instant, -, hnext, -, hkeeps, hahead⟩ | ⟨instant, surfaced, surfacing, hlabel, -⟩ |
    ⟨instant, -, hnone⟩
  · obtain ⟨wakeAt, halarm, hlt, hle⟩ :=
      hahead key entry deadline (by rw [hkeeps key]; exact hpending)
    exact .inr ⟨hnext, hkeeps, wakeAt, halarm, Nat.lt_of_le_of_lt step.now_le hlt, hle⟩
  · exact .inl (.here p h hlabel)
  · rw [hnone key] at hpending
    cases hpending

/-- Up to any later poll there is a delivery, or nothing changes. -/
theorem walk (h : (p.states n).Draining) {key : EntityKey} {entry : Entry K} {deadline : Nat}
    (hpending : (entry, deadline) ∈ (p.states n).queue.pendingOf key) (k : Nat) :
    (∃ m, p.NextDelivery n m) ∨ (∀ j, n ≤ j → j ≤ n + k → (p.states j).Draining) ∧
      ∀ other, (p.states (n + k)).queue.pendingOf other = (p.states n).queue.pendingOf other := by
  induction k with
  | zero => exact .inr ⟨fun j hn hj => by rw [Nat.le_antisymm hj hn]; exact h, fun other => rfl⟩
  | succ k ih =>
    rcases ih with hnext | ⟨hdraining, hsame⟩
    · exact .inl hnext
    · have hlast := hdraining (n + k) (Nat.le_add_right n k) (Nat.le_refl _)
      rcases p.step_cases hlast (by rw [hsame key]; exact hpending) with
        hnext | ⟨hnext, hkeeps, -⟩
      · exact .inl ⟨n + k, hnext.earlier p (Nat.le_add_right n k) hdraining hsame⟩
      · refine .inr ⟨fun j hn hj => ?_, fun other => (hkeeps other).trans (hsame other)⟩
        rcases Nat.lt_or_eq_of_le hj with hlt | rfl
        · exact hdraining j hn (by omega)
        · exact hnext

/-- As long as something is pending there is a next delivery. The induction is on the time that is
left until the deadline: a poll that does not deliver sets the next look no later than that, and the
consumer is woken up for it. -/
theorem exists_nextDelivery {key : EntityKey} {entry : Entry K} {deadline : Nat} (left : Nat)
    (h : (p.states n).Draining) (hpending : (entry, deadline) ∈ (p.states n).queue.pendingOf key)
    (hleft : deadline ≤ (p.states n).now + left) : ∃ m, p.NextDelivery n m := by
  induction left generalizing n with
  | zero =>
    rcases p.step_cases h hpending with hnext | ⟨-, -, wakeAt, -, hlt, hle⟩
    · exact ⟨n, hnext⟩
    · omega
  | succ left ih =>
    rcases p.step_cases h hpending with hnext | ⟨hnext, hkeeps, wakeAt, halarm, hlt, -⟩
    · exact ⟨n, hnext⟩
    · have hstill : (entry, deadline) ∈ (p.states (n + 1)).queue.pendingOf key := by
        rw [hkeeps key]
        exact hpending
      have hbetween : ∀ j, n ≤ j → j ≤ n + 1 → (p.states j).Draining := by
        intro j hn hj
        rcases Nat.lt_or_eq_of_le hj with hlt | rfl
        · rw [Nat.le_antisymm (Nat.le_of_lt_succ hlt) hn]
          exact h
        · exact hnext
      obtain ⟨m, hm, hwoken⟩ := p.awake (n + 1) wakeAt halarm
      obtain ⟨k, rfl⟩ := Nat.exists_eq_add_of_le (Nat.le_of_lt hm)
      rcases p.walk hnext hstill k with ⟨m, hdelivery⟩ | ⟨hdraining, hsame⟩
      · exact ⟨m, hdelivery.earlier p (Nat.le_succ n) hbetween hkeeps⟩
      · have hlast := hdraining (n + 1 + k) (Nat.le_add_right _ k) (Nat.le_refl _)
        rw [hlast.running] at hwoken
        have hreached := hwoken.resolve_left (by decide)
        obtain ⟨m, hdelivery⟩ := ih hlast (by rw [hsame key]; exact hstill) (by omega)
        refine ⟨m, hdelivery.earlier p (by omega) (fun j hn hj => ?_)
          fun other => (hsame other).trans (hkeeps other)⟩
        by_cases hj' : j ≤ n + 1
        · exact hbetween j hn hj'
        · exact hdraining j (by omega) hj

/-- A draining stream comes to its end. The induction is on the identities that may have something
pending: every delivery takes one of them off. -/
theorem ends {keys : List EntityKey} (k : Nat) (hlength : keys.length ≤ k)
    (h : (p.states n).Draining)
    (hkeys : ∀ key, (p.states n).queue.pendingOf key ≠ [] → key ∈ keys) :
    ∃ m ≥ n, (∀ j, n ≤ j → j ≤ m → (p.states j).Draining) ∧
      ∃ instant, p.labels m = .ended instant := by
  induction k generalizing keys n with
  | zero =>
    obtain rfl := List.length_eq_zero_iff.mp (Nat.le_zero.mp hlength)
    obtain ⟨hpoll, step⟩ := p.polls n h.running
    rcases h.step_cases step hpoll with
      ⟨-, -, -, ⟨key, hwaiting⟩, -⟩ | ⟨-, key, -, -, -, hwaiting, -⟩ | ⟨instant, hlabel, -⟩
    · exact absurd (hkeys key hwaiting) List.not_mem_nil
    · exact absurd (hkeys key hwaiting) List.not_mem_nil
    · refine ⟨n, Nat.le_refl n, fun j hn hj => ?_, instant, hlabel⟩
      rw [Nat.le_antisymm hj hn]
      exact h
  | succ k ih =>
    by_cases hpending : ∃ key, (p.states n).queue.pendingOf key ≠ []
    · obtain ⟨key, hpending⟩ := hpending
      obtain ⟨⟨entry, deadline⟩, hmem⟩ := List.exists_mem_of_ne_nil _ hpending
      obtain ⟨m, hnext⟩ := p.exists_nextDelivery deadline h hmem (Nat.le_add_left _ _)
      obtain ⟨instant, surfaced, surfacing, hlabel⟩ := hnext.delivered
      have hlast := hnext.draining m hnext.later (Nat.le_refl m)
      obtain ⟨hpoll, step⟩ := p.polls m hlast.running
      rcases hlast.step_cases step hpoll with
        ⟨_, hidle, -⟩ | ⟨_, taken, _, -, hafter, hwaiting, hgone, hothers⟩ | ⟨_, hended, -⟩
      · rw [hlabel] at hidle
        cases hidle
      · have htaken : taken ∈ keys := hkeys taken (by rw [← hnext.waiting taken]; exact hwaiting)
        have hfewer : (keys.erase taken).length ≤ k := by
          rw [List.length_erase_of_mem htaken]
          omega
        have hrest : ∀ other, (p.states (m + 1)).queue.pendingOf other ≠ [] →
            other ∈ keys.erase taken := by
          intro other hother
          have hne : other ≠ taken := fun heq => hother (heq ▸ hgone)
          rw [hothers other hne, hnext.waiting other] at hother
          exact (List.mem_erase_of_ne hne).mpr (hkeys other hother)
        obtain ⟨m', hm', hdraining, instant', hlabel'⟩ := ih hfewer hafter hrest
        refine ⟨m', Nat.le_trans hnext.later (by omega), fun j hn hj => ?_, instant', hlabel'⟩
        by_cases hjm : j ≤ m
        · exact hnext.draining j hn hjm
        · exact hdraining j (by omega) hj
      · rw [hlabel] at hended
        cases hended
    · rw [not_exists] at hpending
      have hnone : ([] : List EntityKey).length ≤ k := Nat.zero_le k
      exact ih hnone h fun key hkey => absurd hkey (hpending key)

theorem upcoming?_of_ended (h : (p.states n).Draining) {instant : Nat}
    (hlabel : p.labels n = .ended instant) (key : EntityKey) :
    (p.states n).upcoming? key = none := by
  obtain ⟨hpoll, step⟩ := p.polls n h.running
  rcases h.step_cases step hpoll with ⟨_, heq, -⟩ | ⟨_, _, _, heq, -⟩ | ⟨-, -, hnone⟩
  · rw [hlabel] at heq
    cases heq
  · rw [hlabel] at heq
    cases heq
  · exact upcoming?_of_pendingOf none h.applied (hnone key)

theorem poll_of_mem_trace {occurrence : Occurrence K} (hm : occurrence ∈ p.trace n) :
    ∃ m < n, p.labels m = occurrence := by
  obtain ⟨m, hlt, hlabel⟩ := List.mem_map.mp hm
  exact ⟨m, List.mem_range.mp hlt, hlabel⟩

theorem not_failed (h : (p.states n).Draining) (instant : Nat) (fault : Fault) :
    p.labels n ≠ .failed instant fault := by
  intro hlabel
  obtain ⟨hpoll, step⟩ := p.polls n h.running
  rcases h.step_cases step hpoll with ⟨_, heq, -⟩ | ⟨_, _, _, heq, -⟩ | ⟨_, heq, -⟩
  all_goals rw [hlabel] at heq; cases heq

theorem keys_of_pending {q : Queue K} {key : EntityKey} (h : q.pendingOf key ≠ []) :
    key ∈ q.timers.all.map (·.value.1) := by
  by_contra hnone
  refine h (pendingOf_eq_nil.mpr fun timer hm hkey => hnone ?_)
  exact List.mem_map.mpr ⟨timer, hm, hkey⟩

/-- After a first poll that leaves it draining, a stream delivers what was upcoming and comes to its
end. -/
theorem drains_after (htimely : (p.states 0).queue.Timely (p.states 0).now)
    (hrunning : (p.states 0).running = true) (hclosed : (p.states 0).closed = true)
    (hcancelled : (p.states 0).cancelled = false) (hdraining : (p.states 1).Draining)
    (hfirst : ∀ instant fault, p.labels 0 ≠ .failed instant fault) :
    ∃ n instant, p.labels n = .ended instant ∧ (∀ m ≤ n, (p.states m).running = true) ∧
      ∀ key, (p.trace n).filterMap (·.delivery? key) = ((p.states 0).upcoming? key).toList := by
  obtain ⟨n, hn, hall, instant, hended⟩ :=
    p.ends _ (Nat.le_refl _) hdraining fun _ => keys_of_pending
  have hbefore : ∀ m ≤ n, (p.states m).running = true := by
    intro m hm
    cases m with
    | zero => exact hrunning
    | succ m => exact (hall (m + 1) (by omega) hm).running
  have hnever : .cancelled ∉ p.trace n := by
    intro hm
    obtain ⟨m, hlt, hlabel⟩ := p.poll_of_mem_trace hm
    have hpoll := (p.polls m (hbefore m (Nat.le_of_lt hlt))).1
    rw [hlabel] at hpoll
    cases hpoll
  have hfailed : ∀ instant fault, .failed instant fault ∉ p.trace n := by
    intro instant fault hm
    obtain ⟨m, hlt, hlabel⟩ := p.poll_of_mem_trace hm
    cases m with
    | zero => exact hfirst instant fault hlabel
    | succ m =>
      exact p.not_failed (hall (m + 1) (by omega) (Nat.le_of_lt hlt)) instant fault hlabel
  have hrun := p.run fun m hm => hbefore m (Nat.le_of_lt hm)
  obtain ⟨-, -, hsame⟩ := hrun.drains htimely hclosed hcancelled hnever hfailed
  refine ⟨n, instant, hended, hbefore, fun key => ?_⟩
  rw [← hsame key, p.upcoming?_of_ended (hall n hn (Nat.le_refl n)) hended key]
  exact (List.append_nil _).symm

/-- A stream whose producers are gone drains, unless its first poll fails. -/
theorem drains (htimely : (p.states 0).queue.Timely (p.states 0).now)
    (hrunning : (p.states 0).running = true) (hclosed : (p.states 0).closed = true)
    (hcancelled : (p.states 0).cancelled = false) :
    (∃ instant, p.labels 0 = .failed instant .beyondHorizon ∧
      (p.states 0).Overreaches instant) ∨
    ∃ n instant, p.labels n = .ended instant ∧ (∀ m ≤ n, (p.states m).running = true) ∧
      ∀ key, (p.trace n).filterMap (·.delivery? key) = ((p.states 0).upcoming? key).toList := by
  obtain ⟨hpoll, step⟩ := p.polls 0 hrunning
  have haccounted := step.accounted htimely
  cases hlabel : p.labels 0 with
  | sent command => rw [hlabel] at hpoll; cases hpoll
  | closed => rw [hlabel] at hpoll; cases hpoll
  | cancelled => rw [hlabel] at hpoll; cases hpoll
  | failed instant fault =>
    rw [hlabel] at haccounted
    obtain ⟨-, rfl, hover⟩ := haccounted
    exact .inl ⟨instant, rfl, hover⟩
  | ended instant =>
    rw [hlabel] at haccounted
    refine .inr ⟨0, instant, hlabel, fun m hm => by rw [Nat.le_zero.mp hm]; exact hrunning, ?_⟩
    intro key
    rcases haccounted with hyes | ⟨-, hnone⟩
    · rw [hcancelled] at hyes
      cases hyes
    · rw [← due?_fst _ instant key, hnone key]
      rfl
  | delivered | idle =>
    -- All that was sent is applied by now, and nothing is sent any more.
    have hdraining : (p.states 1).Draining := by
      have hnext := step.timely htimely
      rw [hlabel] at step
      cases hstate : p.states 1
      rw [hstate] at step hnext
      cases step
      exact ⟨hnext, hrunning, hclosed, hcancelled, rfl⟩
    refine .inr (p.drains_after htimely hrunning hclosed hcancelled hdraining ?_)
    intro instant fault heq
    rw [hlabel] at heq
    cases heq

end Polling

/-- Clear and cancellation are barriers, and closing drains, as long as no poll fails. In every run,
what a poll delivers is what was sent before it, and if a clear was among that, it comes from the
schedules after the clear alone; what was scheduled stays upcoming until it is delivered, as long as
no clear comes after it; and nothing is delivered after a cancellation. Once all producers are gone
every upcoming entry is delivered once, and the stream is at its end exactly if nothing is upcoming
any more, which it comes to if only the consumer goes on. The first poll may fail, though, on a
schedule beyond the horizon that was still in the channel, and then the stream does not drain. -/
theorem Run.barriers_and_drains {begin : Nat} {past : List (Occurrence K)}
    (run : Run (consumedAt begin) past s) :
    (∀ instant key entry s', Step s (.delivered instant key entry) s' →
      s'.inbox = [] ∧ past.foldl (mark key) none = some entry ∧
      ∀ before after, past = before ++ .sent .clear :: after →
        after.foldl (mark key) none = some entry ∧
        (∃ new delay, .sent (.schedule key new delay) ∈ after ∧ entry.entity = new.entity) ∧
        ∃ new delay, .sent (.schedule key new delay) ∈ after ∧ entry.trigger = new.trigger) ∧
    (∀ before after key new delay, past = before ++ .sent (.schedule key new delay) :: after →
      s.running = true → .sent .clear ∉ after →
      (∀ instant entry, .delivered instant key entry ∉ after) → (s.upcoming? key).isSome) ∧
    (∀ before after, past = before ++ .cancelled :: after →
      ∀ instant key entry, .delivered instant key entry ∉ after) ∧
    (s.closed = true → s.cancelled = false → s.running = true →
      (∀ since s', Run s since s' → .cancelled ∉ since →
        (∀ instant fault, .failed instant fault ∉ since) →
        (∀ key, since.filterMap (·.delivery? key) ++ (s'.upcoming? key).toList =
          (s.upcoming? key).toList) ∧
        ∀ instant, s'.now ≤ instant → ¬s'.Overreaches instant →
          (s'.poll instant = .ended ↔ ∀ key, s'.upcoming? key = none)) ∧
      ∀ p : Polling K, p.states 0 = s →
        (∃ instant, p.labels 0 = .failed instant .beyondHorizon ∧ s.Overreaches instant) ∨
        ∃ n instant, p.labels n = .ended instant ∧ (∀ m ≤ n, (p.states m).running = true) ∧
          ∀ key, (p.trace n).filterMap (·.delivery? key) = (s.upcoming? key).toList) := by
  have htimely : s.queue.Timely s.now := run.timely (.startingAt begin)
  refine ⟨?_, ?_, ?_, ?_⟩
  · intro instant key entry s' step
    obtain ⟨hinbox, hupcoming⟩ := run.delivered_eq step
    refine ⟨hinbox, hupcoming, fun before after hpast => ?_⟩
    rw [hpast, foldl_mark_clear] at hupcoming
    exact ⟨hupcoming, foldl_mark_source hupcoming⟩
  · intro before after key new delay hpast hrunning hclear hdelivered
    exact run.scheduled_kept hpast hrunning hclear hdelivered
  · intro before after hpast
    exact run.nothing_after_cancelled hpast
  · intro hclosed hcancelled hrunning
    constructor
    · intro since s' since_run hnever hfailed
      obtain ⟨hclosed', hcancelled', hsame⟩ :=
        since_run.drains htimely hclosed hcancelled hnever hfailed
      refine ⟨hsame, fun instant hle hreach => ?_⟩
      exact poll_eq_ended_iff (since_run.timely htimely) hle hclosed' hcancelled' hreach
    · rintro p rfl
      exact p.drains htimely hrunning hclosed hcancelled

/-- A closed stream after a clear: what was scheduled before the clear was already due. -/
def afterClear : Stream Nat :=
  { now := 0, queue := .startingAt 0, closed := true,
    inbox := [.schedule ⟨none, "a"⟩ ⟨1, .reconcile⟩ 0, .clear,
      .schedule ⟨none, "a"⟩ ⟨2, .statusModified⟩ 0] }

theorem run_afterClear :
    Run (consumedAt 0) ([.sent (.schedule ⟨none, "a"⟩ ⟨1, .reconcile⟩ 0)] ++ .sent .clear ::
      [.sent (.schedule ⟨none, "a"⟩ ⟨2, .statusModified⟩ 0), .closed]) afterClear := by
  have scheduled : Run (consumedAt 0) [.sent (.schedule ⟨none, "a"⟩ ⟨1, .reconcile⟩ 0)] _ :=
    .step .start (.sent rfl)
  have cleared : Run (consumedAt 0) (_ ++ [.sent .clear]) _ := scheduled.step (.sent rfl)
  have again : Run (consumedAt 0) (_ ++ [.sent (.schedule ⟨none, "a"⟩ ⟨2, .statusModified⟩ 0)]) _ :=
    cleared.step (.sent rfl)
  exact again.step .closed

/-- Its consumer polls twice, at once: only what came after the clear is delivered. -/
theorem polling_afterClear : ∃ p : Polling Nat, p.states 0 = afterClear ∧
    p.labels 0 = .delivered 0 ⟨none, "a"⟩ ⟨2, .statusModified⟩ ∧ p.labels 1 = .ended 0 := by
  have delivery : ∃ s, Step afterClear (.delivered 0 ⟨none, "a"⟩ ⟨2, .statusModified⟩) s ∧
      s.queue.timers.alarm? = none ∧ ∃ s', Step s (.ended 0) s' ∧ s'.running = false ∧
        s'.queue.timers.alarm? = none :=
    ⟨_, .delivered rfl (Nat.le_refl 0) rfl rfl, rfl, _, .ended rfl (Nat.le_refl 0) rfl, rfl, rfl⟩
  obtain ⟨s, first, hquiet, s', last, hstopped, hquiet'⟩ := delivery
  refine ⟨{ states := fun | 0 => afterClear | 1 => s | _ => s'
            labels := fun
              | 0 => .delivered 0 ⟨none, "a"⟩ ⟨2, .statusModified⟩
              | _ => .ended 0
            polls := ?_, awake := ?_ }, rfl, rfl, rfl⟩
  · rintro (_ | _ | n) hrunning
    · exact ⟨rfl, first⟩
    · exact ⟨rfl, last⟩
    · exact absurd (hstopped.symm.trans hrunning) Bool.false_ne_true
  · rintro (_ | _ | n) wakeAt halarm
    · cases halarm
    · cases hquiet.symm.trans halarm
    · cases hquiet'.symm.trans halarm

/-- After the clear, the second schedule alone is delivered, and then the stream is at its end. -/
theorem barriers_and_drains_afterClear :
    ∃ (p : Polling Nat) (n instant : Nat), p.states 0 = afterClear ∧ p.labels n = .ended instant ∧
      (p.trace n).filterMap (·.delivery? ⟨none, "a"⟩) = [⟨2, .statusModified⟩] := by
  obtain ⟨p, hstart, hfirst, hsecond⟩ := polling_afterClear
  obtain ⟨-, -, -, hdrains⟩ := run_afterClear.barriers_and_drains
  obtain ⟨-, hpolling⟩ := hdrains rfl rfl rfl
  rcases hpolling p hstart with ⟨instant, hfailed, -⟩ | ⟨n, instant, hended, -, hsame⟩
  · rw [hfirst] at hfailed
    cases hfailed
  · exact ⟨p, n, instant, hstart, hended, hsame ⟨none, "a"⟩⟩

/-- A closed stream need not drain: `a` waits for its deadline when the poll fails on a schedule a
millisecond beyond the horizon, and whatever happens then, nothing is ever delivered. -/
theorem closed_without_draining :
    ∃ (past : List (Occurrence Nat)) (s s' : Stream Nat), Run (consumedAt 0) past s ∧
      s.closed = true ∧ s.cancelled = false ∧ s.running = true ∧
      s.upcoming? ⟨none, "a"⟩ = some ⟨1, .reconcile⟩ ∧ Step s (.failed 0 .beyondHorizon) s' ∧
      ∀ since s'', Run s' since s'' →
        ∀ instant key entry, .delivered instant key entry ∉ since := by
  have scheduled : Run (consumedAt 0) [.sent (.schedule ⟨none, "a"⟩ ⟨1, .reconcile⟩ 1000)] _ :=
    .step .start (.sent rfl)
  have waiting : Run (consumedAt 0) (_ ++ [.idle 0]) _ :=
    scheduled.step (.idle rfl (Nat.le_refl 0) rfl)
  have far : Run (consumedAt 0)
      (_ ++ [.sent (.schedule ⟨none, "b"⟩ ⟨2, .reconcile⟩ (Timers.horizon + 1))]) _ :=
    waiting.step (.sent rfl)
  have closed : Run (consumedAt 0) (_ ++ [.closed]) _ := far.step .closed
  refine ⟨_, _, _, closed, rfl, rfl, rfl, rfl, .failed rfl (Nat.le_refl 0) rfl, ?_⟩
  intro since s'' run instant key entry hm
  exact absurd (run.without_consumer rfl _ hm) (by simp [Occurrence.instant?])

end Stream

end Reconciler.Queue
