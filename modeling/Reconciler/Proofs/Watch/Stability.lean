import Reconciler.Proofs.Watch.Reconnecting

/-!
# Quiet periods

A watcher clears its count of failures when a connection has been open for the stability window. The
window is that of one connection: the timer starts anew with each, so a server that closes every
connection earlier never lets it run out, however long nothing fails.

A run is a course on a clock (`Span`): the clock stops at every instant at which the loop is to be
woken. In a quiet period nothing fails, and time passes only while a connection is open. The period
leaves the count alone unless a turn of the loop finds the connection old enough (`Stood`), and then
the count is zero (`quiet_clears_iff`).
-/

namespace Reconciler

/-- A connection is open. -/
def Watcher.IsStreaming (w : Watcher) : Prop :=
  ∃ version stableAt, w.loop = some ⟨version, .streaming stableAt⟩

namespace Watch

variable {K : Type} [Entity K]

/-! ## Runs on a clock -/

/-- What happens to a watcher from an instant to another. It hears of what it awaits, as far as that
may be heard at all; and the clock moves on where the watcher may rest, but never beyond the instant
at which the loop is to be woken. -/
inductive Span (heard : Input K → Prop) (rests : Watcher → Prop) (first : Watcher) (start : Nat) :
    List (Moment K) → Watcher → Nat → Prop
  | nil : Span heard rests first start [] first start
  | snoc {past : List (Moment K)} {w : Watcher} {now : Nat} {l : Loop} {input : Input K}
      (draw : Nat) (span : Span heard rests first start past w now) (loop : w.loop = some l)
      (awaits : Awaits l.phase input) (named : input.IsNamed) (may : heard input) :
      Span heard rests first start (past ++ [⟨now, draw, input, (w.react now draw input).2⟩])
        (w.react now draw input).1 now
  | passed {past : List (Moment K)} {w : Watcher} {now : Nat} (later : Nat)
      (span : Span heard rests first start past w now) (forth : now ≤ later) (rest : rests w)
      (unalarmed : ∀ t, w.alarm? = some t → later ≤ t) : Span heard rests first start past w later

/-- A run of the loop. -/
abbrev Runs (first : Watcher) (start : Nat) : List (Moment K) → Watcher → Nat → Prop :=
  Span (fun _ => True) (fun _ => True) first start

/-- A period in which nothing fails, and a connection is open whenever time passes. -/
abbrev Quiet (first : Watcher) (start : Nat) : List (Moment K) → Watcher → Nat → Prop :=
  Span (fun input => input.fails = false) Watcher.IsStreaming first start

section Spans

variable {heard : Input K → Prop} {rests : Watcher → Prop} {first w w' : Watcher}
  {past period : List (Moment K)} {start a b : Nat}

theorem Span.le (span : Span heard rests first start past w b) : start ≤ b := by
  induction span with
  | nil => exact Nat.le_refl start
  | snoc draw span loop awaits named may ih => exact ih
  | passed later span forth rest unalarmed ih => exact Nat.le_trans ih forth

theorem Span.course (span : Span heard rests first start past w b) : Course first past w := by
  induction span with
  | nil => exact .nil
  | snoc draw span loop awaits named may ih => exact ih.snoc _ draw loop awaits named
  | passed later span forth rest unalarmed ih => exact ih

/-- A run goes on with any span from where it is. -/
theorem Span.after (span : Span heard rests w a period w' b) (run : Runs first start past w a) :
    Runs first start (past ++ period) w' b := by
  induction span with
  | nil => rwa [List.append_nil]
  | snoc draw span loop awaits named may ih =>
    rw [← List.append_assoc]
    exact ih.snoc draw loop awaits named trivial
  | passed later span forth rest unalarmed ih => exact ih.passed later forth trivial unalarmed

end Spans

/-! ## The age of a connection -/

section Ages

omit [Entity K]

/-- Since when a connection is open, after one more moment. -/
def Moment.openSince (since : Option Nat) (m : Moment K) : Option Nat :=
  if m.input.fails || m.input.closes then none
  else match m.input with
    | .opened => some m.instant
    | _ => since

/-- Since when a connection is open, if one is. -/
def openSince (past : List (Moment K)) : Option Nat := past.foldl Moment.openSince none

theorem openSince_append (past : List (Moment K)) (m : Moment K) :
    openSince (past ++ [m]) = m.openSince (openSince past) := by
  rw [openSince, List.foldl_append]
  rfl

/-- The loop has a turn, and the connection has been open for the window. -/
def StandsAt (window : Nat) (past : List (Moment K)) (m : Moment K) : Prop :=
  m.input = .wake ∧ ∃ since, openSince past = some since ∧ since + window ≤ m.instant

/-- In a period the loop has a turn when its connection has been open for the window. -/
def Stood (window : Nat) (past period : List (Moment K)) : Prop :=
  ∃ before m after, period = before ++ m :: after ∧ StandsAt window (past ++ before) m

theorem stood_append {window : Nat} {past period : List (Moment K)} {m : Moment K} :
    Stood window past (period ++ [m]) ↔
      Stood window past period ∨ StandsAt window (past ++ period) m := by
  constructor
  · rintro ⟨before, n, after, heq, hstands⟩
    rcases List.eq_nil_or_concat after with rfl | ⟨rest, last, rfl⟩
    · obtain ⟨rfl, hlast⟩ := List.append_inj' heq rfl
      obtain rfl := List.singleton_inj.mp hlast
      exact .inr hstands
    · rw [List.concat_eq_append, ← List.cons_append, ← List.append_assoc] at heq
      obtain ⟨rfl, -⟩ := List.append_inj' heq rfl
      exact .inl ⟨before, n, rest, rfl, hstands⟩
  · rintro (⟨before, n, after, rfl, hstands⟩ | hstands)
    · exact ⟨before, n, after ++ [m], by simp, hstands⟩
    · exact ⟨period, m, [], rfl, hstands⟩

/-- How old the connection is, and what the loop waits for with it. -/
inductive Aged (window now : Nat) (w : Watcher) : Option Nat → Phase → Prop
  | unlinked {phase : Phase} (closed : ∀ stableAt, phase ≠ .streaming stableAt) :
      Aged window now w none phase
  | young {since : Nat} (opened : since ≤ now) (pending : now ≤ since + window) :
      Aged window now w (some since) (.streaming (some (since + window)))
  | stable {since : Nat} (opened : since ≤ now) (clear : w.retries = 0) :
      Aged window now w (some since) (.streaming none)

end Ages

section Steps

variable {first w w' : Watcher} {past period : List (Moment K)} {l : Loop} {window : Nat}
  {m : Moment K}

/-- What a moment does to the count and the age of the connection: a turn when the connection has
been open for the window clears the count, and nothing else that does not fail touches it. -/
structure Ages (window : Nat) (past : List (Moment K)) (w : Watcher) (m : Moment K) (w' : Watcher) :
    Prop where
  aged : ∃ l', w'.loop = some l' ∧ Aged window m.instant w' (openSince (past ++ [m])) l'.phase
  cleared : StandsAt window past m → w'.retries = 0
  kept : m.input.fails = false → ¬ StandsAt window past m → w'.retries = w.retries

theorem Aged.event (h : Aged window m.instant w (openSince past) l.phase) (hloop : w.loop = some l)
    {event : Event K} (hinput : m.input = .event event) (hnamed : event.IsNamed) :
    Ages window past w m (w.react m.instant m.draw m.input).1 := by
  have hreact : (w.react m.instant m.draw m.input).1 = (w.handle l event).1 := by
    simp only [hinput, Watcher.react, hloop]
  obtain ⟨-, -, -, -, hfailures⟩ := handle_fields w l event
  have hretries : (w.handle l event).1.retries = w.retries :=
    congrArg FailureCount.retries hfailures
  have hsince : openSince (past ++ [m]) = if event.isGone then none else openSince past := by
    rw [openSince_append, Moment.openSince, hinput]
    simp [Input.fails, Input.closes]
  rw [hreact]
  refine ⟨⟨_, loop_handle hloop hnamed, ?_⟩, ?_, fun _ _ => hretries⟩
  · rw [hsince]
    split
    · exact .unlinked fun _ => Phase.noConfusion
    · obtain ⟨version, phase⟩ := l
      generalize openSince past = since at h ⊢
      cases h with
      | unlinked closed => exact .unlinked closed
      | young opened pending => exact .young opened pending
      | stable opened clear => exact .stable opened (hretries.trans clear)
  · rintro ⟨hwake, -⟩
    rw [hinput] at hwake
    cases hwake

theorem Aged.quiet (h : Aged window m.instant w (openSince past) l.phase) (hloop : w.loop = some l)
    (hwindow : w.backoff.stabilityWindow.millisUp = window) (hinput : m.input.event? = none)
    (hawaits : Awaits l.phase m.input) :
    Ages window past w m (w.react m.instant m.draw m.input).1 := by
  have hturn := turn_of_awaits m.instant m.draw hloop hawaits hinput
  have hsince := openSince_append past m
  obtain ⟨version, phase⟩ := l
  obtain ⟨instant, draw, input, effects⟩ := m
  simp only at hturn hsince h ⊢
  generalize (w.react instant draw input).1 = w' at hturn ⊢
  generalize (w.react instant draw input).2.filterMap Effect.request? = requests at hturn
  generalize hopen : openSince past = since at h hsince
  have hother : input ≠ .wake → ¬ StandsAt window past ⟨instant, draw, input, effects⟩ :=
    fun hne hstands => hne hstands.1
  -- A turn without a connection finds none that stands, and opens none.
  have hunlinked : ∀ {w' : Watcher} {l' : Loop}, (∀ stableAt, phase ≠ .streaming stableAt) →
      input = .wake → w'.loop = some l' → w'.retries = w.retries →
      (∀ stableAt, l'.phase ≠ .streaming stableAt) →
      Ages window past w ⟨instant, draw, input, effects⟩ w' := by
    intro w' l' hclosed hwake hloop' hretries hclosed'
    subst hwake
    cases h with
    | unlinked =>
      refine ⟨⟨l', hloop', ?_⟩, ?_, fun _ _ => hretries⟩
      · rw [hsince]
        exact .unlinked hclosed'
      · rintro ⟨-, opened, hsome, -⟩
        rw [hopen] at hsome
        cases hsome
    | young => exact absurd rfl (hclosed _)
    | stable => exact absurd rfl (hclosed _)
  cases hturn with
  | first | due => exact hunlinked (fun _ => Phase.noConfusion) rfl rfl rfl fun _ => Phase.noConfusion
  | early | patient =>
    exact hunlinked (fun _ => Phase.noConfusion) rfl hloop rfl fun _ => Phase.noConfusion
  | again =>
    refine ⟨⟨_, hloop, ?_⟩, fun hstands => absurd hstands (hother nofun), fun _ _ => rfl⟩
    rw [hsince]
    exact h
  | unstable hearly =>
    cases h with
    | young opened pending =>
      refine ⟨⟨_, hloop, ?_⟩, ?_, fun _ _ => rfl⟩
      · rw [hsince]
        exact .young opened pending
      · rintro ⟨-, since', hsome, hold⟩
        obtain rfl := Option.some.inj (hopen.symm.trans hsome)
        exact absurd hold (Nat.not_le.mpr hearly)
    | unlinked closed => exact absurd rfl (closed _)
  | stable hdue =>
    cases h with
    | young opened pending =>
      refine ⟨⟨_, rfl, ?_⟩, fun _ => rfl, fun _ hnot => ?_⟩
      · rw [hsince]
        exact .stable opened rfl
      · exact absurd ⟨rfl, _, hopen, hdue⟩ hnot
    | unlinked closed => exact absurd rfl (closed _)
  | settled =>
    cases h with
    | stable opened clear =>
      refine ⟨⟨_, hloop, ?_⟩, fun _ => clear, fun _ _ => rfl⟩
      rw [hsince]
      exact .stable opened clear
    | unlinked closed => exact absurd rfl (closed _)
  | opened =>
    refine ⟨⟨_, rfl, ?_⟩, fun hstands => absurd hstands (hother nofun), fun _ _ => rfl⟩
    rw [hsince, hwindow]
    exact .young (Nat.le_refl _) (Nat.le_add_right _ _)
  | failed hfails =>
    refine ⟨⟨_, rfl, ?_⟩, fun hstands => ?_, fun hsafe => absurd hfails (by simp [hsafe])⟩
    · rw [hsince, Moment.openSince, if_pos (by rw [hfails]; rfl)]
      exact .unlinked fun _ => Phase.noConfusion
    · obtain rfl : input = .wake := hstands.1
      cases hfails
  | ended =>
    refine ⟨⟨_, rfl, ?_⟩, fun hstands => absurd hstands (hother nofun), fun _ _ => rfl⟩
    rw [hsince]
    exact .unlinked fun _ => Phase.noConfusion

theorem Aged.ages (h : Aged window m.instant w (openSince past) l.phase) (hloop : w.loop = some l)
    (hwindow : w.backoff.stabilityWindow.millisUp = window) (hawaits : Awaits l.phase m.input)
    (hnamed : m.input.IsNamed) : Ages window past w m (w.react m.instant m.draw m.input).1 := by
  cases hinput : m.input with
  | event event =>
    rw [← hinput]
    exact h.event hloop hinput (hnamed event hinput)
  | _ =>
    rw [← hinput]
    exact h.quiet hloop hwindow (by rw [hinput]; rfl) hawaits

/-- On a clock, a connection is known to be stable once it has been open for longer than the
window. -/
theorem Span.aged {start now : Nat} (run : Runs first start past w now)
    (hstart : first.loop = some {}) :
    ∃ l, w.loop = some l ∧
      Aged first.backoff.stabilityWindow.millisUp now w (openSince past) l.phase := by
  induction run with
  | nil => exact ⟨_, hstart, .unlinked fun _ => Phase.noConfusion⟩
  | @snoc past w now l input draw run loop awaits named may ih =>
    obtain ⟨l', hloop, haged⟩ := ih
    obtain rfl := Option.some.inj (hloop.symm.trans loop)
    obtain ⟨l₁, hfollows⟩ := run.course.follows hstart
    exact (haged.ages (m := ⟨now, draw, input, _⟩) hloop (by rw [hfollows.backoff]) awaits
      named).aged
  | @passed past w now later run forth rest unalarmed ih =>
    obtain ⟨⟨version, phase⟩, hloop, haged⟩ := ih
    refine ⟨_, hloop, ?_⟩
    simp only [Watcher.alarm?, hloop] at unalarmed
    generalize openSince past = since at haged ⊢
    cases haged with
    | unlinked closed => exact .unlinked closed
    | young opened pending => exact .young (Nat.le_trans opened forth) (unalarmed _ rfl)
    | stable opened clear => exact .stable (Nat.le_trans opened forth) clear

/-- What the next moment of a run does. -/
theorem Span.ages {start now : Nat} {input : Input K} (run : Runs first start past w now) (draw : Nat)
    (hstart : first.loop = some {}) (hloop : w.loop = some l) (hawaits : Awaits l.phase input)
    (hnamed : input.IsNamed) : Ages first.backoff.stabilityWindow.millisUp past w
      ⟨now, draw, input, (w.react now draw input).2⟩ (w.react now draw input).1 := by
  obtain ⟨l', hloop', haged⟩ := run.aged hstart
  obtain rfl := Option.some.inj (hloop'.symm.trans hloop)
  obtain ⟨l₁, hfollows⟩ := run.course.follows hstart
  exact haged.ages (m := ⟨now, draw, input, _⟩) hloop (by rw [hfollows.backoff]) hawaits hnamed

end Steps

/-! ## Quiet periods -/

section Periods

variable {first w w' : Watcher} {past period : List (Moment K)} {start a b : Nat}

/-- In a quiet period only a connection that stands touches the count. -/
theorem Span.count (quiet : Quiet w a period w' b) (run : Runs first start past w a)
    (hstart : first.loop = some {}) :
    (Stood first.backoff.stabilityWindow.millisUp past period → w'.retries = 0) ∧
      (¬ Stood first.backoff.stabilityWindow.millisUp past period → w'.retries = w.retries) := by
  induction quiet with
  | nil =>
    refine ⟨?_, fun _ => rfl⟩
    rintro ⟨before, m, after, heq, -⟩
    simp at heq
  | passed later span forth rest unalarmed ih => exact ih
  | @snoc period w₁ now l input draw span loop awaits named may ih =>
    have hages := (span.after run).ages draw hstart loop awaits named
    rw [stood_append]
    by_cases hstands : StandsAt first.backoff.stabilityWindow.millisUp (past ++ period)
        ⟨now, draw, input, (w₁.react now draw input).2⟩
    · exact ⟨fun _ => hages.cleared hstands, fun hnot => absurd (.inr hstands) hnot⟩
    · have hkept := hages.kept may hstands
      refine ⟨?_, fun hnot => ?_⟩
      · rintro (hstood | hstands')
        · exact hkept.trans (ih.1 hstood)
        · exact absurd hstands' hstands
      · exact hkept.trans (ih.2 fun hstood => hnot (.inl hstood))

/-- A connection that is closed only after the window has been found stable, so a count that is not
cleared is that of a connection older than the period. -/
theorem Span.open_throughout (quiet : Quiet w a period w' b) (run : Runs first start past w a)
    (hstart : first.loop = some {}) (hopen : w.IsStreaming)
    (hlate : ∀ before m after, period = before ++ m :: after → m.input.closes →
      ∀ since, openSince (past ++ before) = some since →
        since + first.backoff.stabilityWindow.millisUp < m.instant) :
    w'.retries = 0 ∨ ∃ since ≤ a, openSince (past ++ period) = some since := by
  induction quiet with
  | nil =>
    obtain ⟨version, stableAt, hloop⟩ := hopen
    obtain ⟨l, hloop', haged⟩ := run.aged hstart
    obtain rfl := Option.some.inj (hloop.symm.trans hloop')
    rw [List.append_nil]
    generalize openSince past = since at haged ⊢
    cases haged with
    | unlinked closed => exact absurd rfl (closed _)
    | young opened pending => exact .inr ⟨_, opened, rfl⟩
    | stable opened clear => exact .inl clear
  | passed later span forth rest unalarmed ih => exact ih hlate
  | @snoc period w₁ now l input draw span loop awaits named may ih =>
    obtain ⟨⟨version, phase⟩, hloop, haged⟩ := (span.after run).aged hstart
    obtain rfl := Option.some.inj (hloop.symm.trans loop)
    have hages := (span.after run).ages draw hstart loop awaits named
    have hcount : w₁.retries = 0 → (w₁.react now draw input).1.retries = 0 := by
      intro hzero
      by_cases hstands : StandsAt first.backoff.stabilityWindow.millisUp (past ++ period)
          ⟨now, draw, input, (w₁.react now draw input).2⟩
      · exact hages.cleared hstands
      · exact (hages.kept may hstands).trans hzero
    have hbefore := ih fun before m after heq => hlate before m
      (after ++ [⟨now, draw, input, (w₁.react now draw input).2⟩]) (by rw [heq]; simp)
    rcases hbefore with hzero | ⟨since, hsince, hopen₁⟩
    · exact .inl (hcount hzero)
    rw [← List.append_assoc, openSince_append, Moment.openSince, may, Bool.false_or]
    rw [hopen₁] at haged ⊢
    simp only
    split
    · next hcloses =>
      -- It is closed, and has been open for longer than the window: it was found stable before.
      have hold := hlate period _ [] rfl hcloses since hopen₁
      cases haged with
      | young opened pending => exact absurd hold (Nat.not_lt.mpr pending)
      | stable opened clear => exact .inl (hcount clear)
    · split
      · -- A connection that is open is not opened again.
        cases haged <;> cases awaits
      · exact .inr ⟨since, hsince, rfl⟩

/-- A period in which nothing fails and a connection is open all along, closed and opened again at
once at any times, and that is at least as long as the stability window. The count of failures is
zero at its end exactly if it was at its beginning or, in the period, the loop had a turn when its
connection had been open for the window; otherwise it is what it was. It is zero whenever each
connection that was closed in the period had been open for longer than the window. And once it is
zero, the next failure waits what the policy prescribes for the first. -/
theorem quiet_clears_iff (hstart : first.loop = some {}) (run : Runs first start past w a)
    (hopen : w.IsStreaming) (quiet : Quiet w a period w' b)
    (hsettled : ∀ t, w'.alarm? = some t → b < t)
    (hlong : first.backoff.stabilityWindow ≤ Duration.ofMillis (b - a)) :
    (w'.retries = 0 ↔
      w.retries = 0 ∨ Stood first.backoff.stabilityWindow.millisUp past period) ∧
    (¬ Stood first.backoff.stabilityWindow.millisUp past period → w'.retries = w.retries) ∧
    ((∀ before m after, period = before ++ m :: after → m.input.closes →
      ∀ since, openSince (past ++ before) = some since →
        since + first.backoff.stabilityWindow.millisUp < m.instant) → w'.retries = 0) ∧
    (w'.retries = 0 → ∀ (instant draw : Nat) (input : Input K), input.fails →
      ∃ version, (w'.react instant draw input).1.loop = some ⟨version,
        .waiting (instant + (first.backoff.delay draw 1).millisUp)⟩) := by
  obtain ⟨hcleared, hkept⟩ := quiet.count run hstart
  have run' := quiet.after run
  obtain ⟨l, hloop, haged⟩ := run'.aged hstart
  obtain ⟨l', hfollows⟩ := run'.course.follows hstart
  refine ⟨⟨fun hzero => ?_, ?_⟩, hkept, fun hlate => ?_, fun hzero instant draw input hfails => ?_⟩
  · by_cases hstood : Stood first.backoff.stabilityWindow.millisUp past period
    · exact .inr hstood
    · exact .inl ((hkept hstood).symm.trans hzero)
  · rintro (hzero | hstood)
    · by_cases hstood : Stood first.backoff.stabilityWindow.millisUp past period
      · exact hcleared hstood
      · exact (hkept hstood).trans hzero
    · exact hcleared hstood
  · rcases quiet.open_throughout run hstart hopen hlate with hzero | ⟨since, hsince, hsame⟩
    · exact hzero
    · have hwindow : first.backoff.stabilityWindow.millisUp ≤ b - a := by
        have hnanos : first.backoff.stabilityWindow.nanos ≤ (b - a) * 1000000 := hlong
        rw [Duration.millisUp]
        omega
      have hle := quiet.le
      obtain ⟨version, phase⟩ := l
      rw [hsame] at haged
      -- It is as old as the period, so its timer has run out.
      cases haged with
      | young opened pending =>
        have halarm : w'.alarm? = some (since + first.backoff.stabilityWindow.millisUp) := by
          rw [Watcher.alarm?, hloop]
        have hlater := hsettled _ halarm
        omega
      | stable opened clear => exact clear
  · obtain ⟨-, hwaiting⟩ := waiting_of_fails instant draw hloop hfails
    have hword : w'.failures.word.toNat = 0 := hzero
    have hrecord : w'.failures.record.2 = 1 := by
      rw [FailureCount.record]
      simp [hword]
    rw [hrecord, hfollows.backoff] at hwaiting
    exact ⟨_, hwaiting⟩

end Periods

section Rhythms

open Simulation (Widget)

/-- A watcher whose first watch was refused, when two seconds later the next one has been opened. -/
def retried : Watcher :=
  let refused := ((started.react 0 0 (.wake : Input Widget)).1.react 0 0
    (.refused (.client .unreachable) : Input Widget)).1
  ((refused.react 2000 0 (.wake : Input Widget)).1.react 2000 0 (.opened : Input Widget)).1

theorem run_retried :
    ∃ past : List (Moment Widget), Runs started 0 past retried 2000 ∧ openSince past = some 2000 := by
  have first : Runs (K := Widget) started 0 [⟨0, 0, .wake, _⟩] _ 0 :=
    Span.nil.snoc 0 rfl .woken (by rintro _ ⟨⟩) trivial
  have refused : Runs started 0 [_, ⟨0, 0, .refused (.client .unreachable), _⟩] _ 0 :=
    first.snoc 0 rfl .refused (by rintro _ ⟨⟩) trivial
  have again : Runs started 0 [_, _, ⟨2000, 0, .wake, _⟩] _ 2000 :=
    (refused.passed 2000 (by decide) trivial (by rintro _ ⟨⟩; decide)).snoc 0 rfl .woken
      (by rintro _ ⟨⟩) trivial
  have opened : Runs started 0 [_, _, _, ⟨2000, 0, .opened, _⟩] retried 2000 :=
    again.snoc 0 rfl .opened (by rintro _ ⟨⟩) trivial
  exact ⟨_, opened, rfl⟩

/-- A connection that stays open for thirty seconds clears the count. -/
theorem quiet_clears_iff_stable :
    ∃ (past period : List (Moment Widget)) (w' : Watcher),
      started.loop = some {} ∧ Runs started 0 past retried 2000 ∧ retried.IsStreaming ∧
        retried.retries = 1 ∧ Quiet retried 2000 period w' 32000 ∧
        (∀ t, w'.alarm? = some t → 32000 < t) ∧
        started.backoff.stabilityWindow ≤ Duration.ofMillis (32000 - 2000) ∧
        Stood started.backoff.stabilityWindow.millisUp past period ∧ w'.retries = 0 := by
  obtain ⟨past, opened, hopen⟩ := run_retried
  have stable : Quiet (K := Widget) retried 2000 [⟨32000, 0, .wake, _⟩] _ 32000 :=
    (Span.nil.passed 32000 (by decide) ⟨_, _, rfl⟩ (by rintro _ ⟨⟩; decide)).snoc 0 rfl .woken
      (by rintro _ ⟨⟩) rfl
  have hstood : Stood started.backoff.stabilityWindow.millisUp past
      [⟨32000, 0, .wake, (retried.react 32000 0 (.wake : Input Widget)).2⟩] :=
    ⟨[], _, [], rfl, rfl, 2000, by rw [List.append_nil, hopen], Nat.le_refl 32000⟩
  obtain ⟨hzero, -⟩ := quiet_clears_iff rfl opened ⟨_, _, rfl⟩ stable (by rintro _ ⟨⟩) (by decide)
  exact ⟨past, _, _, rfl, opened, ⟨_, _, rfl⟩, rfl, stable, by rintro _ ⟨⟩, by decide, hstood,
    hzero.mpr (.inr hstood)⟩

/-- The server closes every connection when its timeout of twenty-five seconds is over, and it is
opened again at once. After fifty seconds in which nothing has failed the failure still counts, and
the next one waits for four seconds. -/
theorem failure_outlives_quiet :
    ∃ (past period : List (Moment Widget)) (w' : Watcher),
      started.loop = some {} ∧ Runs started 0 past retried 2000 ∧ retried.IsStreaming ∧
        Quiet retried 2000 period w' 52000 ∧ (∀ t, w'.alarm? = some t → 52000 < t) ∧
        period.map (fun m => (m.instant, m.input.closes)) =
          [(27000, true), (27000, false), (52000, true), (52000, false)] ∧
        started.timeoutSecs = 25 ∧
        started.backoff.stabilityWindow ≤ Duration.ofMillis (52000 - 2000) ∧ w'.retries = 1 ∧
        (w'.react 52000 0 (.broken (.client .brokenBody) : Input Widget)).1.loop =
          some ⟨initialVersion, .waiting (52000 + 4000)⟩ ∧
        (started.backoff.delay 0 1).millisUp = 2000 := by
  obtain ⟨past, opened, -⟩ := run_retried
  have closed : Quiet (K := Widget) retried 2000 [⟨27000, 0, .ended, _⟩] _ 27000 :=
    (Span.nil.passed 27000 (by decide) ⟨_, _, rfl⟩ (by rintro _ ⟨⟩; decide)).snoc 0 rfl .ended
      (by rintro _ ⟨⟩) rfl
  have reopened : Quiet retried 2000 [_, ⟨27000, 0, .opened, _⟩] _ 27000 :=
    closed.snoc 0 rfl .opened (by rintro _ ⟨⟩) rfl
  have closedAgain : Quiet retried 2000 [_, _, ⟨52000, 0, .ended, _⟩] _ 52000 :=
    (reopened.passed 52000 (by decide) ⟨_, _, rfl⟩ (by rintro _ ⟨⟩; decide)).snoc 0 rfl .ended
      (by rintro _ ⟨⟩) rfl
  have reopenedAgain : Quiet retried 2000 [_, _, _, ⟨52000, 0, .opened, _⟩] _ 52000 :=
    closedAgain.snoc 0 rfl .opened (by rintro _ ⟨⟩) rfl
  exact ⟨past, [_, _, _, _], _, rfl, opened, ⟨_, _, rfl⟩, reopenedAgain,
    by rintro _ ⟨⟩; decide, rfl, rfl, by decide, rfl, rfl, by decide⟩

end Rhythms

end Watch

end Reconciler
