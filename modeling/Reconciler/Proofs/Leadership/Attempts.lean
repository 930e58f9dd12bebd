import Reconciler.Proofs.Leadership.Candidacy

/-!
# Leadership follows the attempts

A replica takes no part before it is started and after it is stopped. In between, whenever nothing
can go on, it leads exactly if the last attempt that was completed brought the lease. No two
attempts overlap; each begins when the wait after the one before is over, and the first at once. A
stop gives the lease back exactly if the replica leads, also when it interrupts an attempt, and is
complete when the release has been answered in any way.
-/

namespace Reconciler.Leadership

open Host (Operator Pipeline Program)

namespace Candidacy

variable {K Q E D R : Type} {A : Q → Type}

/-- How what is published goes with what the election has heard and done. -/
structure Follows (pr : Program K Q A E D R) (s : Settings) (d : Diary)
    (o : Operator K Q A E D R) : Prop where
  /-- What the diary says was published last is what is published. -/
  published : d.published = o.channel.current
  /-- Before the first start and after every stop there is no part to take. -/
  idle : d.isRunning = false → d.isReleasing = false → o.channel.current = .inactive
  /-- While the service runs, the last attempt decides. -/
  leader_iff : d.isRunning = true → Blocked pr o → (o.channel.current = .leader ↔ d.HasLease)
  candidate_iff : d.isRunning = true → Blocked pr o →
    (o.channel.current = .candidate ↔ ¬d.HasLease)
  /-- Starting again changes nothing. -/
  restart : d.isRunning = true → o.tellElection pr .start = o
  /-- A plan for the lease is under way exactly while an attempt or a release is awaited. -/
  underway : o.lease.isSome = (d.isAttempting || d.isReleasing)
  /-- An attempt begins when no other is under way, and exactly when it is due, -/
  attempts : ∀ (t : Nat) (earlier : Diary), (t, .did .attempt) :: earlier <:+ d →
    earlier.isRunning = true ∧ earlier.isAttempting = false ∧ earlier.due? s = some t
  /-- and none is ever overdue. -/
  punctual : d.isRunning = true → d.isAttempting = false → Blocked pr o →
    ∃ t, d.due? s = some t ∧ o.now < t
  /-- Stopping a service that leads gives the lease back at once, -/
  gives_back : ∀ (t : Nat) (earlier : Diary), (t, .heard .stop) :: earlier <:+ d →
    earlier.isRunning = true → earlier.published = .leader →
    (t, .did .release) :: (t, .heard .stop) :: earlier <:+ d
  /-- and nothing else does. -/
  releases : ∀ (t : Nat) (later : Diary), (t, .did .release) :: later <:+ d →
    ∃ earlier : Diary, later = (t, .heard .stop) :: earlier ∧ earlier.isRunning = true ∧
      earlier.published = .leader

variable {s : Settings} {d : Diary} {pr : Program K Q A E D R} {o o' : Operator K Q A E D R}

/-! ## Steps -/

/-- The election is where it was, and what was under way for the lease has at most gone on. -/
theorem Kept.relay (h : Kept s d o) (hnow : o'.now = o.now) (hchannel : o'.channel = o.channel)
    (helection : o'.election = o.election) (hnone : o.lease = none → o'.lease = none)
    (hawaits : ∀ kind, Awaits o kind → Awaits o' kind) : Kept s d o' := by
  obtain ⟨e, he, hrenew, hretry, hfits⟩ := h.fits
  refine ⟨h.orderly, hchannel ▸ h.published, e, helection.trans he, hrenew, hretry, ?_⟩
  unfold Fits at hfits ⊢
  rw [hnow, hchannel]
  split at hfits
  · exact ⟨hnone hfits.1, hfits.2⟩
  · exact ⟨hnone hfits.1, hfits.2⟩
  · exact ⟨hawaits _ hfits.1, hfits.2⟩
  · exact ⟨hnone hfits.1, hfits.2⟩
  · exact ⟨hawaits _ hfits.1, hfits.2⟩
  · exact hfits.elim

theorem Kept.turn (hpr : Steady pr) (h : Kept s d o) (hturn : o.turnElection pr = some o') :
    Kept s (turnMarks o ++ d) o' := by
  obtain ⟨e, he, ⟨hnone, hdue, rfl⟩ | ⟨job, env, hjob, hgoes⟩⟩ := turnElection_cases hturn
  · have hmarks : turnMarks o = marks o .wake := by simp only [turnMarks, hnone]
    rw [hmarks]
    exact h.wake hpr hnone he hdue
  rcases hgoes with ⟨input, hrest, rfl⟩ | ⟨q, next, job', hrest, rfl, halways⟩
  · have hmarks : turnMarks o = marks { o with env } input := by
      simp only [turnMarks, hjob, hrest]
      rfl
    have hkept : Kept s d { o with env } := h.relay rfl rfl rfl id fun _ hawaits => hawaits
    obtain ⟨e', he', -, -, hfits⟩ := h.fits
    obtain rfl := Option.some.inj (he.symm.trans he')
    rw [hmarks]
    -- What the plan ends with is what the election waits for.
    have hinput : ∀ kind, Awaits o kind → kind input := by
      rintro kind ⟨other, hother, hkind⟩
      obtain rfl := Option.some.inj (hjob.symm.trans hother)
      rw [hrest] at hkind
      exact hkind
    have hsome : o.lease ≠ none := by simp [hjob]
    cases hstage : e.stage with
    | none =>
      rw [hstage] at hfits
      exact absurd hfits.1 hsome
    | some stage =>
      rw [hstage] at hfits
      cases stage with
      | starting => exact absurd hfits.1 hsome
      | waiting resumeAt => exact absurd hfits.1 hsome
      | lost => exact hfits.elim
      | attempting leading =>
        obtain ⟨outcome, rfl⟩ := hinput _ hfits.1
        exact hkept.attempted (by simpa [he] using hstage) outcome
      | releasing =>
        obtain ⟨outcome, rfl⟩ := hinput _ hfits.1
        exact hkept.released (by simpa [IsReleasing, he] using hstage) outcome
  · have hmarks : turnMarks o = [] := by simp only [turnMarks, hjob, hrest]
    rw [hmarks]
    refine h.relay rfl rfl rfl (fun hnone => absurd (hjob.symm.trans hnone) (by simp)) ?_
    rintro kind ⟨other, hother, hkind⟩
    obtain rfl := Option.some.inj (hjob.symm.trans hother)
    exact ⟨job', rfl, halways kind hkind⟩

theorem Kept.pass (h : Kept s d o) {later : Nat} (hblocked : Blocked pr o)
    (halarm : ∀ t, alarm? o = some t → later ≤ t) : Kept s d { o with now := later } := by
  obtain ⟨e, he, hrenew, hretry, hfits⟩ := h.fits
  refine ⟨h.orderly, h.published, e, he, hrenew, hretry, ?_⟩
  cases hstage : e.stage with
  | none =>
    rw [hstage] at hfits
    exact hfits
  | some stage =>
    rw [hstage] at hfits
    cases stage with
    | starting =>
      -- The loop has its first turn before any time passes.
      have hturn := hblocked.1
      simp [Operator.turnElection, he, hfits.1, hstage] at hturn
    | attempting leading => exact hfits
    | waiting resumeAt =>
      obtain ⟨hlease, hrunning, hattempting, hreleasing, -, hrest⟩ := hfits
      have hle : later ≤ resumeAt :=
        halarm resumeAt (by simp [alarm?, hlease, he, Election.alarm?, hstage])
      exact ⟨hlease, hrunning, hattempting, hreleasing, hle, hrest⟩
    | releasing => exact hfits
    | lost => exact hfits.elim

theorem Kept.step (hpr : Steady pr) (h : Kept s d o) {more : Diary} (hstep : Step pr o more o') :
    Kept s (more ++ d) o' := by
  cases hstep with
  | started hsettled => exact h.start hsettled
  | stopped hsettled => exact h.stop hpr hsettled
  | turned hturn => exact h.turn hpr hturn
  | resumed =>
    refine h.relay rfl rfl rfl (fun hnone => by simp [hnone]) ?_
    rintro kind ⟨job, hjob, hkind⟩
    exact ⟨job.resume, by simp [hjob], hkind⟩
  | passed later hblocked hle halarm => exact h.pass hblocked halarm
  | elsewhere env pipelines stage => exact h.relay rfl rfl rfl id fun _ hawaits => hawaits

theorem Run.kept {start : Operator K Q A E D R} (hpr : Steady pr) (hrun : Run pr start d o)
    (h : Kept s [] start) : Kept s d o := by
  induction hrun with
  | nil => exact h
  | snoc _ hstep ih => exact ih.step hpr hstep

/-- An operator of given settings whose election has not been started. -/
theorem Kept.initial (s : Settings) (now : Nat) (env : E)
    (pipelines : List (Pipeline K Q A E D R)) :
    Kept s [] { now, env, pipelines, election := some (.ofSettings s) } where
  orderly := .nil
  published := rfl
  fits := ⟨_, rfl, rfl, rfl, rfl, rfl, rfl, rfl, rfl⟩

/-! ## What is published -/

/-- A service that runs, and of which nothing can go on, waits for the end of an attempt or for the
instant of the next one. -/
theorem Kept.engaged (h : Kept s d o) (hrunning : d.isRunning = true) (hblocked : Blocked pr o) :
    (∃ leading, Fits s d o (some (.attempting leading))) ∨
      ∃ resumeAt, o.now < resumeAt ∧ Fits s d o (some (.waiting resumeAt)) := by
  obtain ⟨e, he, -, -, hfits⟩ := h.fits
  cases hstage : e.stage with
  | none =>
    rw [hstage] at hfits
    exact absurd (hfits.2.1.symm.trans hrunning) (by decide)
  | some stage =>
    rw [hstage] at hfits
    cases stage with
    | starting =>
      have hturn := hblocked.1
      simp [Operator.turnElection, he, hfits.1, hstage] at hturn
    | attempting leading => exact .inl ⟨leading, hfits⟩
    | waiting resumeAt =>
      have hlater : ¬resumeAt ≤ o.now := by
        intro hdue
        have hturn := hblocked.1
        simp [Operator.turnElection, he, hfits.1, Election.alarm?, hstage, hdue] at hturn
      exact .inr ⟨resumeAt, Nat.lt_of_not_le hlater, hfits⟩
    | releasing => exact absurd (hfits.2.1.symm.trans hrunning) (by decide)
    | lost => exact hfits.elim

theorem Kept.current (h : Kept s d o) (hrunning : d.isRunning = true) (hblocked : Blocked pr o) :
    o.channel.current = .leader ∧ d.HasLease ∨ o.channel.current = .candidate ∧ ¬d.HasLease := by
  rcases h.engaged hrunning hblocked with ⟨leading, hfits⟩ | ⟨resumeAt, -, hfits⟩
  · obtain ⟨-, -, -, -, hcurrent, hlease⟩ := hfits
    cases leading with
    | false => exact .inr ⟨hcurrent, fun hheld => absurd (hlease.mp hheld) (by decide)⟩
    | true => exact .inl ⟨hcurrent, hlease.mpr rfl⟩
  · obtain ⟨-, -, -, -, -, -, t, outcome, hcompleted, hcurrent⟩ := hfits
    have hlease := hasLease_iff hcompleted
    rw [hcurrent]
    cases hacquired : Election.acquired outcome
    · have hrank : rank outcome = .candidate := by simp [rank, hacquired]
      rw [hrank] at hlease ⊢
      exact .inr ⟨rfl, fun hheld => absurd (hlease.mp hheld) (by decide)⟩
    · have hrank : rank outcome = .leader := by simp [rank, hacquired]
      rw [hrank] at hlease ⊢
      exact .inl ⟨rfl, hlease.mpr rfl⟩

theorem Kept.restart (h : Kept s d o) (hrunning : d.isRunning = true) :
    o.tellElection pr .start = o := by
  obtain ⟨e, he, -, -, hfits⟩ := h.fits
  have hsome : e.stage ≠ none := by
    intro hnone
    rw [hnone] at hfits
    exact absurd (hfits.2.1.symm.trans hrunning) (by decide)
  have hlost : e.stage ≠ some .lost := by
    intro hlost
    rw [hlost] at hfits
    exact hfits
  exact (tell_start_running pr he hsome hlost).1

theorem Kept.underway (h : Kept s d o) : o.lease.isSome = (d.isAttempting || d.isReleasing) := by
  obtain ⟨e, -, -, -, hfits⟩ := h.fits
  unfold Fits at hfits
  split at hfits
  · obtain ⟨hlease, -, hattempting, hreleasing, -⟩ := hfits
    simp [hlease, hattempting, hreleasing]
  · obtain ⟨hlease, -, hattempting, hreleasing, -⟩ := hfits
    simp [hlease, hattempting, hreleasing]
  · obtain ⟨⟨job, hlease, -⟩, -, hattempting, -⟩ := hfits
    simp [hlease, hattempting]
  · obtain ⟨hlease, -, hattempting, hreleasing, -⟩ := hfits
    simp [hlease, hattempting, hreleasing]
  · obtain ⟨⟨job, hlease, -⟩, -, -, hreleasing⟩ := hfits
    simp [hlease, hreleasing]
  · exact hfits.elim

theorem Kept.idle (h : Kept s d o) (hstopped : d.isRunning = false)
    (hsettled : d.isReleasing = false) : o.channel.current = .inactive := by
  obtain ⟨e, -, -, -, hfits⟩ := h.fits
  unfold Fits at hfits
  split at hfits
  · exact hfits.2.2.2.2
  · exact absurd (hstopped.symm.trans hfits.2.1) (by decide)
  · exact absurd (hstopped.symm.trans hfits.2.1) (by decide)
  · exact absurd (hstopped.symm.trans hfits.2.1) (by decide)
  · exact absurd (hsettled.symm.trans hfits.2.2.2) (by decide)
  · exact hfits.elim

theorem Kept.follows (pr : Program K Q A E D R) (h : Kept s d o) : Follows pr s d o where
  published := h.published
  idle := h.idle
  leader_iff hrunning hblocked := by
    rcases h.current hrunning hblocked with ⟨hcurrent, hlease⟩ | ⟨hcurrent, hlease⟩
    · simp [hcurrent, hlease]
    · simp [hcurrent, hlease]
  candidate_iff hrunning hblocked := by
    rcases h.current hrunning hblocked with ⟨hcurrent, hlease⟩ | ⟨hcurrent, hlease⟩
    · simp [hcurrent, hlease]
    · simp [hcurrent, hlease]
  restart := h.restart
  underway := h.underway
  attempts t earlier hattempt := h.orderly.entered _ _ hattempt
  punctual hrunning hattempting hblocked := by
    rcases h.engaged hrunning hblocked with ⟨leading, hfits⟩ | ⟨resumeAt, hlater, hfits⟩
    · exact absurd (hattempting.symm.trans hfits.2.2.1) (by decide)
    · exact ⟨resumeAt, hfits.2.2.2.2.2.1, hlater⟩
  gives_back := h.orderly.gives_back
  releases t later hrelease := h.orderly.entered _ _ hrelease

/-- The election of an operator of any settings is started and stopped at any time, each time after
the stop before is complete, and its attempts and releases are answered as it may be, if at all. All
along, what is published follows the attempts. -/
theorem follows_attempts {pr : Program K Q A E D R} (hpr : Steady pr) (s : Settings) (now : Nat)
    (env : E) (pipelines : List (Pipeline K Q A E D R)) {d : Diary} {o : Operator K Q A E D R}
    (hrun : Run pr { now, env, pipelines, election := some (.ofSettings s) } d o) :
    Follows pr s d o :=
  (hrun.kept hpr (.initial s now env pipelines)).follows pr

/-! ## A stop during a renewal -/

/-- A lease that the first attempt gets and no other; an attempt is answered after three
milliseconds. -/
def fleeting : Program Unit Unit (fun _ => Except Error Bool) Nat Unit Unit where
  backend := {
    call now _ asked := (asked + 1, { ready := some (now + 3), value := .ok (asked == 0) })
    watch _ _ _ env := (env, { ready := none, outcome := .ok {} }) }
  handler _ := { plan _ _ _ := .done (), conclude _ _ := none }
  attempt := (Plan.call ()).map some

theorem steady_fleeting : Steady fleeting where
  attempt _ := rfl
  release := rfl

def brisk : Settings :=
  { Settings.named "operator" "a" with renewInterval := .ofMillis 10, retryInterval := .ofMillis 4 }

/-- The replica leads after the first attempt, and is stopped as the second one begins. -/
def interrupted : Diary := [
  (13, .did (.publish .inactive)), (13, .heard (.released (.ok ()))),
  (13, .did .release), (13, .heard .stop),
  (13, .did .attempt), (13, .heard .wake),
  (3, .did (.publish .leader)), (3, .heard (.attempted (.ok true))),
  (0, .did .attempt), (0, .did (.publish .candidate)), (0, .heard .wake),
  (0, .heard .start)]

theorem follows_attempts_interrupted :
    Steady fleeting ∧
    ∃ o, Run fleeting { now := 0, env := 0, election := some (.ofSettings brisk) } interrupted o ∧
      Follows fleeting brisk interrupted o := by
  have started : Run fleeting { now := 0, env := 0, election := some (.ofSettings brisk) } _ _ :=
    Run.nil.snoc (.started (by decide))
  have begun := started.snoc (.turned rfl)
  have awaited := begun.snoc (.passed 3 ⟨rfl, rfl⟩ (by decide) fun t ht => by
    obtain rfl := Option.some.inj ht
    decide)
  have leading := awaited.snoc (.turned rfl)
  have due := leading.snoc (.passed 13 ⟨rfl, rfl⟩ (by decide) fun t ht => by
    obtain rfl := Option.some.inj ht
    decide)
  have renewing := due.snoc (.turned rfl)
  have stopped := renewing.snoc (.stopped (by decide))
  have released := stopped.snoc (.turned rfl)
  exact ⟨steady_fleeting, _, released, follows_attempts steady_fleeting brisk 0 0 [] released⟩

end Candidacy

end Reconciler.Leadership
