import Reconciler.Proofs.Backoff.Retries
import Reconciler.Proofs.Watch.Course
import Reconciler.Simulation.Widget

/-!
# When a watch is opened again

Every connection is asked for from the version that the events have left behind. The end of one asks
for the next at once. A failure asks for the next after a wait: until then nothing is asked for, and
from then on the next turn of the loop asks. The wait is what the policy prescribes for the failures
in a row, and these are told by the ends of the connections and by how long they were open
(`Tallied`).
-/

namespace Reconciler.Watch

variable {K : Type} [Entity K]

section Tally

omit [Entity K]

/-- The end of a connection that did not fail. -/
def Input.closes : Input K → Bool
  | .ended => true
  | .event e => e.isGone
  | _ => false

/-- Failures in a row, and since when a connection is open. -/
structure Tally where
  failures : Nat
  openSince : Option Nat := none

/-- A failure counts one more, and a connection that has been open long enough clears the count. -/
def Tally.note (window : Nat) (t : Tally) (m : Moment K) : Tally :=
  match m.input with
  | .refused _ | .broken _ => { failures := t.failures + 1 }
  | .ended => { t with openSince := none }
  | .event e => if e.isGone then { t with openSince := none } else t
  | .opened => { t with openSince := some m.instant }
  | .wake => if t.openSince.any (· + window ≤ m.instant) then { t with failures := 0 } else t
  | .start | .stop => t

/-- The tally of a course. -/
def tallyOf (first : Watcher) (past : List (Moment K)) : Tally :=
  past.foldl (Tally.note first.backoff.stabilityWindow.millisUp) { failures := first.retries }

theorem tallyOf_append (first : Watcher) (past : List (Moment K)) (m : Moment K) :
    tallyOf first (past ++ [m]) =
      (tallyOf first past).note first.backoff.stabilityWindow.millisUp m := by
  rw [tallyOf, List.foldl_append]
  rfl

/-- A course of a few moments has a few failures. -/
theorem failures_le (first : Watcher) (past : List (Moment K)) :
    (tallyOf first past).failures ≤ first.retries + past.length := by
  induction past using List.reverseRecOn with
  | nil => exact Nat.le_refl _
  | append_singleton past m ih =>
    have hnote : ((tallyOf first past).note first.backoff.stabilityWindow.millisUp m).failures ≤
        (tallyOf first past).failures + 1 := by
      unfold Tally.note
      split <;> try split
      all_goals simp
    rw [tallyOf_append, List.length_append, List.length_singleton]
    omega

theorem few_failures {first : Watcher} {past : List (Moment K)}
    (hshort : first.retries + past.length < 4294967296) (before : List (Moment K))
    (hbefore : before <+: past) : (tallyOf first before).failures < 4294967296 := by
  have hle := failures_le first before
  have hlength := hbefore.length_le
  omega

theorem note_of_fails {window : Nat} {t : Tally} {m : Moment K} (h : m.input.fails) :
    t.note window m = { failures := t.failures + 1 } := by
  unfold Tally.note
  split <;> simp_all [Input.fails]

end Tally

/-! ## Failures in a row -/

/-- The count of a watcher is the tally, and its phase says whether a connection is open. -/
structure Tallied (window : Nat) (t : Tally) (w : Watcher) (phase : Phase) : Prop where
  failures : w.retries = t.failures
  opened : ∀ stableAt, phase = .streaming (some stableAt) →
    ∃ since, t.openSince = some since ∧ stableAt = since + window
  stable : phase = .streaming none → t.failures = 0
  closed : (∀ stableAt, phase ≠ .streaming stableAt) → t.openSince = none

section Steps

variable {first w : Watcher} {past : List (Moment K)} {l : Loop} {window : Nat} {t : Tally}
  {phase : Phase}

omit [Entity K] in
/-- The count is a word, and one more is one more as long as it fits. -/
theorem retries_record {failures : FailureCount} {n : Nat} (hcount : failures.retries = n)
    (hfits : n + 1 < 4294967296) :
    failures.record.1.retries = n + 1 ∧ failures.record.2 = n + 1 := by
  constructor
  · rw [FailureCount.retries_record, hcount, Nat.mod_eq_of_lt hfits]
  · rw [FailureCount.waits_record, hcount]
    exact Nat.min_eq_left (Nat.le_of_lt_succ hfits)

omit [Entity K] in
/-- While no connection is open, the tally has none. -/
theorem tallied_of_not_streaming {w : Watcher} (hfailures : w.retries = t.failures)
    (hclosed : t.openSince = none) (hphase : ∀ stableAt, phase ≠ .streaming stableAt) :
    Tallied window t w phase where
  failures := hfailures
  opened _ heq := absurd heq (hphase _)
  stable heq := absurd heq (hphase _)
  closed _ := hclosed

/-- An event touches neither count nor connection, unless it closes the connection. -/
theorem Tallied.event (h : Tallied window t w l.phase) (hloop : w.loop = some l) {m : Moment K}
    {event : Event K} (hinput : m.input = .event event) (hnamed : event.IsNamed) :
    ∃ l', (w.react m.instant m.draw m.input).1.loop = some l' ∧
      Tallied window (t.note window m) (w.react m.instant m.draw m.input).1 l'.phase := by
  have hreact : (w.react m.instant m.draw m.input).1 = (w.handle l event).1 := by
    simp only [hinput, Watcher.react, hloop]
  obtain ⟨-, -, -, -, hfailures⟩ := handle_fields w l event
  have hretries : (w.handle l event).1.retries = w.retries :=
    congrArg FailureCount.retries hfailures
  refine ⟨_, hreact ▸ loop_handle hloop hnamed, ?_⟩
  rw [hreact, Tally.note, hinput]
  simp only
  split
  · exact tallied_of_not_streaming (hretries.trans h.failures) rfl fun _ => Phase.noConfusion
  · exact ⟨hretries.trans h.failures, h.opened, h.stable, h.closed⟩

/-- A failure counts one more, a connection that was open long enough clears the count, and nothing
else touches it. -/
theorem Tallied.quiet (h : Tallied window t w l.phase) (hloop : w.loop = some l)
    (hwindow : w.backoff.stabilityWindow.millisUp = window) {m : Moment K}
    (hinput : m.input.event? = none) (hawaits : Awaits l.phase m.input)
    (hfits : (t.note window m).failures < 4294967296) :
    ∃ l', (w.react m.instant m.draw m.input).1.loop = some l' ∧
      Tallied window (t.note window m) (w.react m.instant m.draw m.input).1 l'.phase := by
  have hturn := turn_of_awaits m.instant m.draw hloop hawaits hinput
  obtain ⟨version, phase⟩ := l
  obtain ⟨instant, draw, input, effects⟩ := m
  simp only at hturn hinput hawaits ⊢
  generalize (w.react instant draw input).1 = w' at hturn ⊢
  generalize (w.react instant draw input).2.filterMap Effect.request? = requests at hturn
  -- Nothing changes at a turn without a connection.
  have hwake : (∀ stableAt, phase ≠ .streaming stableAt) →
      t.note window ⟨instant, draw, .wake, effects⟩ = t := by
    intro hnone
    simp [Tally.note, h.closed hnone]
  cases hturn with
  | again => exact ⟨_, hloop, h⟩
  | first =>
    refine ⟨_, rfl, ?_⟩
    rw [hwake fun _ => Phase.noConfusion]
    exact tallied_of_not_streaming h.failures (h.closed fun _ => Phase.noConfusion)
      fun _ => Phase.noConfusion
  | early =>
    refine ⟨_, hloop, ?_⟩
    rw [hwake fun _ => Phase.noConfusion]
    exact h
  | due =>
    refine ⟨_, rfl, ?_⟩
    rw [hwake fun _ => Phase.noConfusion]
    exact tallied_of_not_streaming h.failures (h.closed fun _ => Phase.noConfusion)
      fun _ => Phase.noConfusion
  | patient =>
    refine ⟨_, hloop, ?_⟩
    rw [hwake fun _ => Phase.noConfusion]
    exact h
  | unstable hearly =>
    refine ⟨_, hloop, ?_⟩
    obtain ⟨since, hsince, rfl⟩ := h.opened _ rfl
    have hnote : t.note window ⟨instant, draw, .wake, effects⟩ = t := by
      simp [Tally.note, hsince, Nat.not_le.mpr hearly]
    rw [hnote]
    exact h
  | stable hdue =>
    refine ⟨_, rfl, ?_⟩
    obtain ⟨since, hsince, rfl⟩ := h.opened _ rfl
    have hnote : t.note window ⟨instant, draw, .wake, effects⟩ = { t with failures := 0 } := by
      simp [Tally.note, hsince, hdue]
    rw [hnote]
    exact {
      failures := rfl
      opened := fun _ heq => by cases heq
      stable := fun _ => rfl
      closed := fun hnone => absurd rfl (hnone none) }
  | settled =>
    refine ⟨_, hloop, ?_⟩
    have hzero := h.stable rfl
    have hnote : t.note window ⟨instant, draw, .wake, effects⟩ = t := by
      obtain ⟨failures, openSince⟩ := t
      obtain rfl : failures = 0 := hzero
      simp [Tally.note]
    rw [hnote]
    exact h
  | opened =>
    exact ⟨_, rfl, {
      failures := h.failures
      opened := by
        rintro _ ⟨⟩
        exact ⟨instant, rfl, by rw [hwindow]⟩
      stable := fun heq => by cases heq
      closed := fun hnone => absurd rfl (hnone _) }⟩
  | failed hfails =>
    rw [note_of_fails hfails] at hfits ⊢
    exact ⟨_, rfl, tallied_of_not_streaming (retries_record h.failures hfits).1 rfl
      fun _ => Phase.noConfusion⟩
  | ended =>
    exact ⟨_, rfl, tallied_of_not_streaming h.failures rfl fun _ => Phase.noConfusion⟩

/-- The count of a watcher is the tally of its course, as long as every count fits a word. -/
theorem Course.tallied (course : Course first past w) (hstart : first.loop = some {})
    (hfew : ∀ before, before <+: past → (tallyOf first before).failures < 4294967296) :
    ∃ l, Follows first past w l ∧
      Tallied first.backoff.stabilityWindow.millisUp (tallyOf first past) w l.phase := by
  induction course with
  | nil =>
    exact ⟨_, follows_nil hstart, tallied_of_not_streaming rfl rfl fun _ => Phase.noConfusion⟩
  | @snoc past w l input instant draw course loop awaits named ih =>
    obtain ⟨l', hfollows, htallied⟩ :=
      ih fun before hbefore => hfew before (hbefore.trans (List.prefix_append _ _))
    obtain rfl := Option.some.inj (hfollows.loop.symm.trans loop)
    obtain ⟨l₁, hnext⟩ := hfollows.snoc instant draw awaits named
    have hwindow : w.backoff.stabilityWindow.millisUp =
        first.backoff.stabilityWindow.millisUp := by rw [hfollows.backoff]
    have hfits := hfew _ (List.prefix_refl _)
    rw [tallyOf_append] at hfits ⊢
    refine ⟨l₁, hnext, ?_⟩
    cases hinput : input.event? with
    | none =>
      obtain ⟨l₂, hloop₂, h⟩ := htallied.quiet loop hwindow hinput awaits hfits
      obtain rfl := Option.some.inj (hnext.loop.symm.trans hloop₂)
      exact h
    | some event =>
      cases input with
      | event e =>
        obtain ⟨l₂, hloop₂, h⟩ := htallied.event (m := ⟨instant, draw, .event e, _⟩) loop rfl
          (named e rfl)
        obtain rfl := Option.some.inj (hnext.loop.symm.trans hloop₂)
        exact h
      | _ => cases hinput

/-! ## What is asked for -/

theorem Follows.request_eq (h : Follows first past w l) (version : String) :
    w.request version = first.request version := by
  rw [Watcher.request, Watcher.request, h.ns, h.timeoutSecs]

/-- Whatever is asked for, is asked for from the version that the events have left behind. -/
theorem Follows.requests (h : Follows first past w l) {m : Moment K}
    (hawaits : Awaits l.phase m.input)
    (heffects : m.effects = (w.react m.instant m.draw m.input).2) :
    ∀ r ∈ m.requests, r = first.request (resumeVersion (handled (past ++ [m]))) := by
  intro r hr
  rw [Moment.requests, heffects] at hr
  rw [handled_concat]
  cases hinput : m.input.event? with
  | none =>
    have hturn := turn_of_awaits m.instant m.draw h.loop hawaits hinput
    rw [Option.toList_none, List.append_nil, ← h.version, ← h.request_eq]
    generalize (w.react m.instant m.draw m.input).1 = w' at hturn
    generalize (w.react m.instant m.draw m.input).2.filterMap Effect.request? = requests at hturn hr
    obtain ⟨version, phase⟩ := l
    generalize m.input = input at hturn
    cases hturn with
    | first | due | ended => exact List.mem_singleton.mp hr
    | _ => cases hr
  | some event =>
    have hevent : m.input = .event event := by
      cases hm : m.input with
      | event e =>
        rw [hm] at hinput
        rw [Option.some.inj hinput]
      | _ => rw [hm] at hinput; cases hinput
    rw [hevent, requests_event h.loop] at hr
    split at hr
    · next hgone =>
      rw [Option.toList_some, resumeVersion_append, if_pos hgone, ← h.request_eq]
      exact List.mem_singleton.mp hr
    · cases hr

theorem Course.asked_from (course : Course first past w) (hstart : first.loop = some {})
    {before after : List (Moment K)} {m : Moment K} (hpast : past = before ++ m :: after) :
    ∀ r ∈ m.requests, r = first.request (resumeVersion (handled (before ++ [m]))) := by
  obtain ⟨w', l, hbefore, hloop, hawaits, -, heffects, -⟩ := course.at hpast
  obtain ⟨l', h⟩ := hbefore.follows hstart
  obtain rfl := Option.some.inj (h.loop.symm.trans hloop)
  exact h.requests hawaits heffects

section Ends

variable (instant draw : Nat) {input : Input K}

/-- The end of a connection asks for the next one at once. -/
theorem requests_of_closes (hloop : w.loop = some l) (hcloses : input.closes) :
    ∃ r, (w.react instant draw input).2.filterMap Effect.request? = [r] := by
  cases input with
  | ended =>
    simp only [Watcher.react, hloop]
    exact ⟨_, rfl⟩
  | event e =>
    rw [requests_event hloop, if_pos (show e.isGone = true from hcloses)]
    exact ⟨_, rfl⟩
  | _ => cases hcloses

/-- A failure asks for nothing, and sets the instant of the next attempt. -/
theorem waiting_of_fails (hloop : w.loop = some l) (hfails : input.fails) :
    (w.react instant draw input).2.filterMap Effect.request? = [] ∧
      (w.react instant draw input).1.loop = some ⟨l.version,
        .waiting (instant + (w.backoff.delay draw w.failures.record.2).millisUp)⟩ := by
  cases input with
  | refused error =>
    simp only [Watcher.react, hloop]
    exact ⟨rfl, rfl⟩
  | broken error =>
    simp only [Watcher.react, hloop]
    exact ⟨rfl, rfl⟩
  | _ => cases hfails

/-- While it waits, a loop asks for a connection exactly if it has a turn when the wait is over. -/
theorem requests_of_waiting {version : String} {resumeAt : Nat}
    (hloop : w.loop = some ⟨version, .waiting resumeAt⟩)
    (hawaits : Awaits (.waiting resumeAt) input) :
    ((w.react instant draw input).2.filterMap Effect.request? ≠ [] ↔
        input = .wake ∧ resumeAt ≤ instant) ∧
      ((w.react instant draw input).2.filterMap Effect.request? = [] →
        (w.react instant draw input).1.loop = some ⟨version, .waiting resumeAt⟩) := by
  have hinput : input.event? = none := by cases hawaits <;> rfl
  have hturn := turn_of_awaits instant draw hloop hawaits hinput
  generalize (w.react instant draw input).1 = w' at hturn ⊢
  generalize (w.react instant draw input).2.filterMap Effect.request? = requests at hturn ⊢
  cases hturn with
  | again => exact ⟨by simp, fun _ => hloop⟩
  | early hearly => exact ⟨by simpa using hearly, fun _ => hloop⟩
  | due hdue => exact ⟨by simpa using hdue, fun hnil => by cases hnil⟩
  | failed _ hconnected => rcases hconnected with heq | ⟨_, heq⟩ <;> cases heq

end Ends

/-- A loop that waits goes on waiting as long as it asks for nothing. -/
theorem Course.waits {version : String} {resumeAt : Nat} {w' : Watcher} (course : Course w past w')
    (hloop : w.loop = some ⟨version, .waiting resumeAt⟩) (hnone : ∀ m ∈ past, m.requests = []) :
    w'.loop = some ⟨version, .waiting resumeAt⟩ := by
  induction course with
  | nil => exact hloop
  | snoc instant draw course loop awaits named ih =>
    have hbefore := ih fun m hm => hnone m (List.mem_append_left _ hm)
    obtain rfl := Option.some.inj (hbefore.symm.trans loop)
    exact (requests_of_waiting instant draw hbefore awaits).2
      (hnone _ (List.mem_append_right _ (List.mem_singleton_self _)))

/-- A loop has its first turn once. -/
theorem Course.begun {w' : Watcher} (course : Course w past w') (hloop : w.loop = some l)
    (hbegun : l.phase ≠ .spawned) : ∃ l', w'.loop = some l' ∧ l'.phase ≠ .spawned := by
  induction course with
  | nil => exact ⟨l, hloop, hbegun⟩
  | @snoc past w l' input instant draw course loop awaits named ih =>
    obtain ⟨l₁, hloop₁, hbegun₁⟩ := ih
    obtain rfl := Option.some.inj (hloop₁.symm.trans loop)
    cases hinput : input.event? with
    | none =>
      have hturn := turn_of_awaits instant draw loop awaits hinput
      generalize (w.react instant draw input).1 = w' at hturn ⊢
      generalize (w.react instant draw input).2.filterMap Effect.request? = requests at hturn
      obtain ⟨version, phase⟩ := l₁
      cases hturn with
      | again | early | unstable | settled | patient => exact ⟨_, loop, hbegun₁⟩
      | first => exact absurd rfl hbegun₁
      | due | stable | opened | failed | ended => exact ⟨_, rfl, Phase.noConfusion⟩
    | some event =>
      cases input with
      | event e =>
        have hreact : (w.react instant draw (.event e)).1 = (w.handle l₁ e).1 := by
          simp only [Watcher.react, loop]
        refine ⟨_, hreact ▸ loop_handle loop (named e rfl), ?_⟩
        split
        · exact Phase.noConfusion
        · exact hbegun₁
      | _ => cases hinput

/-- What asks for a connection is no loop before its first turn. -/
theorem begun_of_requests {instant draw : Nat} {input : Input K}
    (hasked : (w.react instant draw input).2.filterMap Effect.request? ≠ []) :
    ∃ l', (w.react instant draw input).1.loop = some l' ∧ l'.phase ≠ .spawned := by
  obtain ⟨r, hr⟩ := List.exists_mem_of_ne_nil _ hasked
  obtain ⟨effect, heffect, hrequest⟩ := List.mem_filterMap.mp hr
  cases effect with
  | connect request =>
    have hconnected := Watcher.isConnected_of_connect heffect
    unfold Watcher.isConnected at hconnected
    split at hconnected
    · next version hloop => exact ⟨_, hloop, Phase.noConfusion⟩
    · next version stableAt hloop => exact ⟨_, hloop, Phase.noConfusion⟩
    · cases hconnected
  | publish => cases hrequest
  | send => cases hrequest

end Steps

/-- A watch is a fold over the events that it has handled. Over every course, from the start of the
loop on and with every count of failures in a row a word: what is asked for is asked for from the
last version that came since the start or since the server said that the version was too old; there
was one schedule without delay for each event about an entity, in order, with the trigger that the
cache gave; the cache is what a fresh one holds after the same events; and the count is the tally.
The end of a connection asks for the next at once. A failure asks for nothing, and the next is asked
for by the first turn for which the wait is over that the policy prescribes for the count. -/
theorem Course.refines_fold {first w : Watcher} {past : List (Moment K)}
    (course : Course first past w) (hstart : first.loop = some {})
    (hfew : ∀ before, before <+: past → (tallyOf first before).failures < 4294967296) :
    (∀ before m after, past = before ++ m :: after → ∀ r ∈ m.requests,
      r = first.request (resumeVersion (handled (before ++ [m])))) ∧
    List.Forall₂ IsScheduleOf (sentIn past) (announced first.cache.clear (handled past)) ∧
    ((∃ m ∈ past, m.requests ≠ []) → w.cache = cacheAfter first.cache.clear (handled past)) ∧
    w.retries = (tallyOf first past).failures ∧
    (∀ before m after, past = before ++ m :: after → m.input.closes →
      m.requests = [first.request (resumeVersion (handled (before ++ [m])))]) ∧
    (∀ before m between n after, past = before ++ m :: (between ++ n :: after) → m.input.fails →
      m.requests = [] ∧ ((∀ k ∈ between, k.requests = []) →
        (n.requests ≠ [] ↔ n.input = .wake ∧
          m.instant + (first.backoff.delay m.draw
            (tallyOf first (before ++ [m])).failures).millisUp ≤ n.instant))) := by
  obtain ⟨l, hfollows, htallied⟩ := course.tallied hstart hfew
  refine ⟨fun _ _ _ hpast => course.asked_from hstart hpast, hfollows.sent, ?_, htallied.failures,
    ?_, ?_⟩
  · rintro ⟨m, hm, hasked⟩
    obtain ⟨before, after, hpast⟩ := List.append_of_mem hm
    obtain ⟨w', -, -, -, -, -, heffects, hrest⟩ := course.at hpast
    rw [Moment.requests, heffects] at hasked
    obtain ⟨l₁, hloop₁, hbegun⟩ := begun_of_requests hasked
    obtain ⟨l₂, hloop₂, hbegun₂⟩ := hrest.begun hloop₁ hbegun
    obtain rfl := Option.some.inj (hfollows.loop.symm.trans hloop₂)
    exact (hfollows.cache.resolve_left fun hfirst => hbegun₂ hfirst.1).2
  · intro before m after hpast hcloses
    obtain ⟨w', l', -, hloop, -, -, heffects, -⟩ := course.at hpast
    obtain ⟨r, hr⟩ := requests_of_closes m.instant m.draw hloop hcloses
    rw [← heffects] at hr
    have hsingle : m.requests = [r] := hr
    have hr := course.asked_from hstart hpast r (by rw [hsingle]; exact List.mem_singleton_self r)
    rw [hsingle, hr]
  · intro before m between n after hpast hfails
    obtain ⟨w', l', hbefore, hloop, -, -, heffects, hrest⟩ := course.at hpast
    obtain ⟨l₀, hfollows₀, htallied₀⟩ := hbefore.tallied hstart fun early hearly =>
      hfew early (hearly.trans (by rw [hpast]; exact List.prefix_append _ _))
    -- The count after the failure is the one that the wait is for.
    have hfits := hfew (before ++ [m]) (by rw [hpast]; simp)
    have htally :
        (tallyOf first (before ++ [m])).failures = (tallyOf first before).failures + 1 := by
      rw [tallyOf_append, note_of_fails hfails]
    rw [htally] at hfits ⊢
    obtain ⟨-, hrecord⟩ := retries_record htallied₀.failures hfits
    obtain ⟨hnothing, hwaiting⟩ := waiting_of_fails m.instant m.draw hloop hfails
    rw [← heffects] at hnothing
    refine ⟨hnothing, fun hbetween => ?_⟩
    obtain ⟨w₂, l₂, hcourse₂, hloop₂, hawaits₂, -, heffects₂, -⟩ := hrest.at rfl
    have hstill := hcourse₂.waits hwaiting hbetween
    obtain rfl := Option.some.inj (hstill.symm.trans hloop₂)
    have hiff := (requests_of_waiting n.instant n.draw hstill hawaits₂).1
    rw [← heffects₂, hrecord, hfollows₀.backoff] at hiff
    exact hiff

section BackedOff

open Simulation (Widget)

/-- A watcher that has just been started. -/
def started : Watcher :=
  ((Watcher.ofSettings (.named "op" "pod") .empty).react 0 0 (.start : Input Widget)).1

/-- An object at version `5`. -/
def seen : Widget where
  metadata := { name := some "seen", resourceVersion := some "5" }
  fields := []

/-- A connection brings an object and is closed, the next one is refused. Two seconds later, and not
before, it is asked for again, from the version of the object. -/
theorem refines_fold_backedOff :
    ∃ (before : List (Moment Widget)) (m n : Moment Widget) (w : Watcher),
      started.loop = some {} ∧ Course started (before ++ [m, n]) w ∧
        handled (before ++ [m, n]) = [.added seen] ∧ m.input.fails ∧
        List.Forall₂ IsScheduleOf (sentIn (before ++ [m, n])) [(seen, .reconcile)] ∧
        w.cache = (started.cache.clear.upsert seen).1 ∧ w.retries = 1 ∧ m.requests = [] ∧
        (n.requests ≠ [] ↔ n.input = .wake ∧ 2000 ≤ n.instant) ∧ n.input = .wake ∧
        n.instant = 2000 ∧ ∀ r ∈ n.requests, r = started.request "5" := by
  have hnamed : (Input.event (.added seen) : Input Widget).IsNamed := by
    rintro _ ⟨⟩ _ ⟨⟩
    exact ⟨⟨none, "seen"⟩, rfl⟩
  have first : Course (K := Widget) started [⟨0, 0, .wake, _⟩] _ :=
    Course.nil.snoc 0 0 rfl .woken (by rintro _ ⟨⟩)
  have opened : Course started [_, ⟨0, 0, .opened, _⟩] _ :=
    first.snoc 0 0 rfl .opened (by rintro _ ⟨⟩)
  have told : Course started [_, _, ⟨0, 0, .event (.added seen), _⟩] _ :=
    opened.snoc 0 0 rfl .event hnamed
  have ended : Course started [_, _, _, ⟨0, 0, .ended, _⟩] _ :=
    told.snoc 0 0 rfl .ended (by rintro _ ⟨⟩)
  have refused : Course started [_, _, _, _, ⟨0, 0, .refused (.client .unreachable), _⟩] _ :=
    ended.snoc 0 0 rfl .refused (by rintro _ ⟨⟩)
  have again : Course started [_, _, _, _, _, ⟨2000, 0, .wake, _⟩] _ :=
    refused.snoc 2000 0 rfl .woken (by rintro _ ⟨⟩)
  obtain ⟨hrequests, hsent, hcache, hcount, -, hwait⟩ := again.refines_fold rfl
    (few_failures (by decide))
  obtain ⟨hnothing, hnext⟩ := hwait [_, _, _, _] _ [] _ [] rfl rfl
  exact ⟨[_, _, _, _], _, _, _, rfl, again, rfl, rfl, hsent, hcache ⟨_, List.mem_cons_self, nofun⟩,
    hcount, hnothing, hnext (List.forall_mem_nil _), rfl, rfl,
    hrequests [_, _, _, _, _] _ [] rfl⟩

end BackedOff

end Reconciler.Watch
