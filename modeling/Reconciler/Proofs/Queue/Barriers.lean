import Reconciler.Proofs.Queue.Stream

/-!
# Barriers in the stream

What a poll delivers is told by what was sent before it, in the order in which it was sent. So a
clear cuts a run in two: what is delivered after it comes from the schedules that were sent after
it, and none of these is dropped with the ones before. A cancellation lets nothing through any more.
-/

namespace Reconciler.Queue

variable {K : Type}

theorem onto_trigger (new : Entry K) (pending? : Option (Entry K)) :
    (new.onto pending?).trigger = new.trigger ∨
      ∃ pending, pending? = some pending ∧ (new.onto pending?).trigger = pending.trigger := by
  rcases pending? with _ | pending
  · exact .inl rfl
  · by_cases hsup : new.trigger.supersedes pending.trigger = true
    · exact .inl (by rw [onto_of_supersedes hsup])
    · rw [Bool.not_eq_true] at hsup
      exact .inr ⟨pending, rfl, by rw [onto_of_not_supersedes hsup]⟩

/-- The consumer polls no more. -/
def Occurrence.stops : Occurrence K → Bool
  | .ended _ | .failed _ _ => true
  | _ => false

namespace Stream

variable {start s : Stream K} {past trace before after : List (Occurrence K)} {key : EntityKey}
  {upcoming : Option (Entry K)} {entry : Entry K}

/-! ## What is upcoming after a trace -/

theorem foldl_mark_clear :
    (before ++ .sent .clear :: after).foldl (mark key) upcoming = after.foldl (mark key) none := by
  rw [List.foldl_append, List.foldl_cons]
  rfl

/-- What is upcoming has its entity and its trigger from schedules of the trace. -/
theorem foldl_mark_source (h : trace.foldl (mark key) none = some entry) :
    (∃ new delay, .sent (.schedule key new delay) ∈ trace ∧ entry.entity = new.entity) ∧
      ∃ new delay, .sent (.schedule key new delay) ∈ trace ∧ entry.trigger = new.trigger := by
  -- A schedule that does not supersede takes its trigger from an earlier one, so the induction is
  -- from the end, over all entries.
  induction trace using List.reverseRecOn generalizing entry with
  | nil => cases h
  | append_singleton trace occurrence ih =>
    rw [List.foldl_append, List.foldl_cons, List.foldl_nil] at h
    have hbefore : ∀ {pending : Entry K}, trace.foldl (mark key) none = some pending →
        (∃ new delay, .sent (.schedule key new delay) ∈ trace ++ [occurrence] ∧
          pending.entity = new.entity) ∧
        ∃ new delay, .sent (.schedule key new delay) ∈ trace ++ [occurrence] ∧
          pending.trigger = new.trigger := by
      intro pending hpending
      obtain ⟨⟨new, delay, hm, hentity⟩, new', delay', hm', htrigger⟩ := ih hpending
      exact ⟨⟨new, delay, List.mem_append_left _ hm, hentity⟩, new', delay',
        List.mem_append_left _ hm', htrigger⟩
    cases occurrence with
    | sent command =>
      cases command with
      | clear => cases h
      | schedule other new delay =>
        simp only [mark, meet] at h
        split at h
        · next hkey =>
          subst hkey
          obtain rfl := Option.some.inj h
          have hlast : Occurrence.sent (.schedule other new delay) ∈
              trace ++ [.sent (.schedule other new delay)] := by simp
          constructor
          · rcases onto_entity new (trace.foldl (mark other) none) with
              heq | ⟨pending, hpending, heq⟩
            · exact ⟨new, delay, hlast, heq⟩
            · rw [heq]
              exact (hbefore hpending).1
          · rcases onto_trigger new (trace.foldl (mark other) none) with
              heq | ⟨pending, hpending, heq⟩
            · exact ⟨new, delay, hlast, heq⟩
            · rw [heq]
              exact (hbefore hpending).2
        · exact hbefore h
    | delivered instant other delivered =>
      simp only [mark] at h
      split at h
      · cases h
      · exact hbefore h
    | ended | failed => cases h
    | closed | cancelled | idle => exact hbefore h

/-- What is upcoming stays so until it is delivered or cleared, or the consumer is gone. -/
theorem foldl_mark_isSome (hsome : upcoming.isSome) (hclear : .sent .clear ∉ trace)
    (hdelivered : ∀ occurrence ∈ trace, occurrence.delivers key = false)
    (hstops : ∀ occurrence ∈ trace, occurrence.stops = false) :
    (trace.foldl (mark key) upcoming).isSome := by
  induction trace generalizing upcoming with
  | nil => exact hsome
  | cons occurrence rest ih =>
    rw [List.foldl_cons]
    refine ih ?_ (fun hm => hclear (List.mem_cons_of_mem _ hm))
      (fun o hm => hdelivered o (List.mem_cons_of_mem _ hm))
      (fun o hm => hstops o (List.mem_cons_of_mem _ hm))
    have hd := hdelivered occurrence List.mem_cons_self
    have hs := hstops occurrence List.mem_cons_self
    cases occurrence with
    | sent command =>
      cases command with
      | clear => exact absurd List.mem_cons_self hclear
      | schedule other new delay =>
        simp only [mark, meet]
        split
        · rfl
        · exact hsome
    | delivered instant other delivered =>
      have hne : other ≠ key := by simpa [Occurrence.delivers] using hd
      rw [mark, if_neg hne]
      exact hsome
    | ended | failed => cases hs
    | closed | cancelled | idle => exact hsome

/-! ## Runs -/

namespace Run

theorem not_stopped (run : Run start past s) (hrunning : s.running = true) :
    ∀ occurrence ∈ past, occurrence.stops = false := by
  induction run with
  | start => simp
  | @step past s s' occurrence run step ih =>
    intro other hm
    have hbefore : s.running = true := by
      by_contra hstopped
      rw [Bool.not_eq_true] at hstopped
      rw [(step.stays_stopped hstopped).1] at hrunning
      cases hrunning
    rcases List.mem_append.mp hm with hm | hm
    · exact ih hbefore other hm
    · rw [List.mem_singleton.mp hm]
      cases step with
      | ended => cases hrunning
      | failed => cases hrunning
      | _ => rfl

theorem cancelled_mono (run : Run start past s) (h : start.cancelled = true ∨ .cancelled ∈ past) :
    s.cancelled = true := by
  induction run with
  | start => exact h.resolve_right List.not_mem_nil
  | @step past s s' occurrence run step ih =>
    rw [List.mem_append, List.mem_singleton, ← or_assoc] at h
    rcases h with hbefore | rfl
    · have hs := ih hbefore
      cases step with
      | sent producing =>
        rw [send]
        split <;> exact hs
      | cancelled => rfl
      | _ => exact hs
    · cases step
      rfl

theorem poll_cancelled {instant : Nat} (hcancelled : s.cancelled = true) :
    s.poll instant = .ended := by
  rw [poll, Queue.poll, if_pos hcancelled]

/-- Once the consumer is cancelled nothing is delivered. -/
theorem nothing_after_cancelled (run : Run start past s)
    (hpast : past = before ++ .cancelled :: after) :
    ∀ instant key entry, .delivered instant key entry ∉ after := by
  induction run generalizing after with
  | start => cases before <;> cases hpast
  | @step past s s' occurrence run step ih =>
    rcases List.eq_nil_or_concat after with rfl | ⟨rest, last, rfl⟩
    · intro instant key entry
      exact List.not_mem_nil
    · rw [List.concat_eq_append, ← List.cons_append, ← List.append_assoc] at hpast
      obtain ⟨hbefore, hlast⟩ := List.append_inj' hpast rfl
      obtain rfl := List.singleton_inj.mp hlast
      have hcancelled : s.cancelled = true := run.cancelled_mono (.inr (by rw [hbefore]; simp))
      intro instant key entry hm
      rw [List.concat_eq_append, List.mem_append, List.mem_singleton] at hm
      rcases hm with hm | rfl
      · exact ih hbefore instant key entry hm
      · cases step with
        | delivered _ _ _ polled =>
          rw [poll_cancelled hcancelled] at polled
          cases polled

/-- What is delivered is what was sent before the poll, and since the last clear. -/
theorem delivered_eq {begin instant : Nat} (run : Run (consumedAt begin) past s)
    {s' : Stream K} (step : Step s (.delivered instant key entry) s') :
    s'.inbox = [] ∧ past.foldl (mark key) none = some entry := by
  have htimely : s.queue.Timely s.now := run.timely (.startingAt begin)
  have hupcoming := run.upcoming (.startingAt begin) rfl key
  have hrunning : s.running = true := by
    cases step
    assumption
  obtain ⟨-, honly⟩ := step.upcoming htimely hrunning key
  rw [honly instant entry rfl, if_pos hrunning] at hupcoming
  refine ⟨?_, hupcoming.symm⟩
  cases step
  rfl

/-- What was scheduled is kept until it is delivered, as long as no clear comes after it. -/
theorem scheduled_kept {begin delay : Nat} (run : Run (consumedAt begin) past s) {new : Entry K}
    (hpast : past = before ++ .sent (.schedule key new delay) :: after)
    (hrunning : s.running = true) (hclear : .sent .clear ∉ after)
    (hdelivered : ∀ instant entry, .delivered instant key entry ∉ after) :
    (s.upcoming? key).isSome := by
  have hstops := run.not_stopped hrunning
  rw [run.upcoming (.startingAt begin) rfl key, if_pos hrunning, hpast, List.foldl_append,
    List.foldl_cons]
  refine foldl_mark_isSome ?_ hclear ?_ ?_
  · rw [mark, meet, if_pos rfl]
    rfl
  · intro occurrence hm
    cases occurrence with
    | delivered instant other entry =>
      by_cases hkey : other = key
      · subst hkey
        exact absurd hm (hdelivered instant entry)
      · simpa [Occurrence.delivers] using hkey
    | _ => rfl
  · intro occurrence hm
    exact hstops occurrence (by rw [hpast]; simp [hm])

end Run

end Stream

end Reconciler.Queue
