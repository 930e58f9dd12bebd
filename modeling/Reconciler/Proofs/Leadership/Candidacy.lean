import Reconciler.Proofs.Leadership.Diary

/-!
# What a candidacy keeps

At every stage of the election it is known what is under way for the lease, what is published, and
what the diary says about both (`Fits`). Everything that the election is told leads from one stage
to another, so it is enough to look at each input where it can come. The diary itself stays orderly:
an attempt is entered only when it is due, and a release only after the stop of a service that
leads.
-/

namespace Reconciler.Leadership

open Host (Operator Program)

namespace Candidacy

variable {K Q E D R : Type} {A : Q → Type}

/-! ## The diary -/

/-- What goes before an entry of the diary. -/
def Entered (s : Settings) : Nat × Mark → Diary → Prop
  | (t, .did .attempt), earlier =>
    earlier.isRunning = true ∧ earlier.isAttempting = false ∧ earlier.due? s = some t
  | (t, .did .release), later =>
    ∃ earlier : Diary, later = (t, .heard .stop) :: earlier ∧ earlier.isRunning = true ∧
      earlier.published = .leader
  | _, _ => True

/-- What goes before every entry, and what follows a stop. -/
structure Orderly (s : Settings) (d : Diary) : Prop where
  entered : ∀ x earlier, x :: earlier <:+ d → Entered s x earlier
  gives_back : ∀ (t : Nat) (earlier : Diary), (t, .heard .stop) :: earlier <:+ d →
    earlier.isRunning = true → earlier.published = .leader →
    (t, .did .release) :: (t, .heard .stop) :: earlier <:+ d

variable {s : Settings} {d : Diary} {t : Nat}

theorem Orderly.nil : Orderly s [] where
  entered _ _ h := absurd (List.eq_nil_of_suffix_nil h) (List.cons_ne_nil _ _)
  gives_back _ _ h := absurd (List.eq_nil_of_suffix_nil h) (List.cons_ne_nil _ _)

theorem Orderly.cons (h : Orderly s d) {mark : Mark} (hmark : Entered s (t, mark) d)
    (hstop : mark = .heard .stop → d.isRunning = true → d.published ≠ .leader) :
    Orderly s ((t, mark) :: d) where
  entered x earlier hx := by
    rcases List.suffix_cons_iff.mp hx with heq | hx
    · obtain ⟨rfl, rfl⟩ := List.cons.inj heq
      exact hmark
    · exact h.entered x earlier hx
  gives_back u earlier hu hrunning hleader := by
    rcases List.suffix_cons_iff.mp hu with heq | hu
    · obtain ⟨hentry, rfl⟩ := List.cons.inj heq
      exact absurd hleader (hstop (Prod.mk.inj hentry).2.symm hrunning)
    · exact (h.gives_back u earlier hu hrunning hleader).trans (List.suffix_cons ..)

/-- A stop of a service that leads, together with the release that it leads to. -/
theorem Orderly.cons_release (h : Orderly s d) (hrunning : d.isRunning = true)
    (hleader : d.published = .leader) :
    Orderly s ((t, .did .release) :: (t, .heard .stop) :: d) where
  entered x earlier hx := by
    rcases List.suffix_cons_iff.mp hx with heq | hx
    · obtain ⟨rfl, rfl⟩ := List.cons.inj heq
      exact ⟨d, rfl, hrunning, hleader⟩
    · rcases List.suffix_cons_iff.mp hx with heq | hx
      · obtain ⟨rfl, rfl⟩ := List.cons.inj heq
        trivial
      · exact h.entered x earlier hx
  gives_back u earlier hu hearlier hled := by
    rcases List.suffix_cons_iff.mp hu with heq | hu
    · cases heq
    · rcases List.suffix_cons_iff.mp hu with heq | hu
      · obtain ⟨hentry, rfl⟩ := List.cons.inj heq
        obtain ⟨rfl, -⟩ := Prod.mk.inj hentry
        exact List.suffix_rfl
      · exact ((h.gives_back u earlier hu hearlier hled).trans (List.suffix_cons ..)).trans
          (List.suffix_cons ..)

/-! ## The election -/

variable {pr : Program K Q A E D R} {o o' : Operator K Q A E D R}

/-- A plan for the lease is under way, which ends with an input of some kind. -/
def Awaits (o : Operator K Q A E D R) (kind : Election.Input → Prop) : Prop :=
  ∃ job, o.lease = some job ∧ job.rest.Always kind

def IsAttempted (input : Election.Input) : Prop := ∃ outcome, input = .attempted outcome

def IsReleased (input : Election.Input) : Prop := ∃ outcome, input = .released outcome

/-- What an attempt makes of a replica. -/
def rank (outcome : Except Error Bool) : Leadership :=
  if Election.acquired outcome then .leader else .candidate

/-- The diary and the operator at a stage of the election. -/
def Fits (s : Settings) (d : Diary) (o : Operator K Q A E D R) : Option Election.Stage → Prop
  | none =>
    o.lease = none ∧ d.isRunning = false ∧ d.isAttempting = false ∧ d.isReleasing = false ∧
      o.channel.current = .inactive
  | some .starting =>
    o.lease = none ∧ d.isRunning = true ∧ d.isAttempting = false ∧ d.isReleasing = false ∧
      d.completed? = none ∧ d.begun? = some o.now
  | some (.attempting leading) =>
    Awaits o IsAttempted ∧ d.isRunning = true ∧ d.isAttempting = true ∧ d.isReleasing = false ∧
      o.channel.current = (if leading then .leader else .candidate) ∧ (d.HasLease ↔ leading = true)
  | some (.waiting resumeAt) =>
    o.lease = none ∧ d.isRunning = true ∧ d.isAttempting = false ∧ d.isReleasing = false ∧
      o.now ≤ resumeAt ∧ d.due? s = some resumeAt ∧
      ∃ t outcome, d.completed? = some (t, outcome) ∧ o.channel.current = rank outcome
  | some .releasing =>
    Awaits o IsReleased ∧ d.isRunning = false ∧ d.isAttempting = false ∧ d.isReleasing = true
  | some .lost => False

structure Kept (s : Settings) (d : Diary) (o : Operator K Q A E D R) : Prop where
  orderly : Orderly s d
  published : d.published = o.channel.current
  fits : ∃ e, o.election = some e ∧ e.renewEvery = s.renewInterval.millisUp ∧
    e.retryEvery = s.retryInterval.millisUp ∧ Fits s d o e.stage

/-- An attempt is launched, which ends with its outcome. -/
theorem Steady.perform_attempt (h : Steady pr) (o : Operator K Q A E D R) :
    ∃ env job, o.performElection pr [.attempt] = { o with env, lease := some job } ∧
      job.rest.Always IsAttempted := by
  obtain ⟨env, job, hlaunch, hjob⟩ := launch_spec pr o (pr.attempt.map (·.elim .failed .attempted))
  refine ⟨env, job, hlaunch, hjob _ (h.attempt.map fun outcome hsome => ?_)⟩
  obtain ⟨held, rfl⟩ := Option.isSome_iff_exists.mp hsome
  exact ⟨held, rfl⟩

/-- A release is launched, which ends with its answer. -/
theorem Steady.perform_release (h : Steady pr) (o : Operator K Q A E D R) :
    ∃ env job, o.performElection pr [.release] = { o with env, lease := some job } ∧
      job.rest.Always IsReleased := by
  obtain ⟨env, job, hlaunch, hjob⟩ := launch_spec pr o (pr.release.map (·.elim .failed .released))
  refine ⟨env, job, hlaunch, hjob _ (h.release.map fun outcome hsome => ?_)⟩
  obtain ⟨result, rfl⟩ := Option.isSome_iff_exists.mp hsome
  exact ⟨result, rfl⟩

/-- The last completed attempt brought the lease if it made the replica a leader. -/
theorem hasLease_iff {d : Diary} {outcome : Except Error Bool}
    (h : d.completed? = some (t, outcome)) : d.HasLease ↔ (rank outcome).isLeader = true := by
  have hrank : (rank outcome).isLeader = Election.acquired outcome := by
    unfold rank
    cases Election.acquired outcome <;> rfl
  rw [hrank]
  constructor
  · rintro ⟨u, hu⟩
    obtain ⟨-, rfl⟩ := Prod.mk.inj (Option.some.inj (h.symm.trans hu))
    rfl
  · intro hacquired
    cases outcome with
    | error error => cases hacquired
    | ok held =>
      obtain rfl : held = true := hacquired
      exact ⟨t, h⟩

/-! ## What the election is told -/

/-- A service that runs is started again. -/
theorem tell_start_running (pr : Program K Q A E D R) {e : Election} (he : o.election = some e)
    (hsome : e.stage ≠ none) (hlost : e.stage ≠ some .lost) :
    o.tellElection pr .start = o ∧ marks o .start = [(o.now, .heard .start)] := by
  have hreact : e.react o.now o.channel.current .start = (e, []) := by
    simp [Election.react, hsome, hlost]
  refine ⟨?_, by simp [marks, he, hreact]⟩
  simp only [Operator.tellElection, he, hreact, if_true, Operator.performElection]
  rw [← he]

theorem Orderly.start (h : Orderly s d) : Orderly s ((t, .heard .start) :: d) :=
  h.cons trivial nofun

/-- Starting a service again leaves what its diary says. -/
theorem Fits.restart {stage : Option Election.Stage} (h : Fits s d o stage)
    (hrunning : d.isRunning = true) : Fits s ((t, .heard .start) :: d) o stage := by
  have hcompleted : Diary.completed? ((t, .heard .start) :: d) = d.completed? := if_pos hrunning
  have hbegun : Diary.begun? ((t, .heard .start) :: d) = d.begun? := if_pos hrunning
  have hdue : Diary.due? s ((t, .heard .start) :: d) = d.due? s := by
    simp only [Diary.due?, hcompleted, hbegun, Diary.published]
    rfl
  unfold Fits at h ⊢
  simpa only [hcompleted, hbegun, hdue, Diary.HasLease, Diary.isRunning, Diary.isAttempting,
    Diary.isReleasing, hrunning] using h

theorem Kept.start (h : Kept s d o) (hsettled : ¬IsReleasing o) :
    Kept s (marks o .start ++ d) (o.tellElection pr .start) := by
  obtain ⟨e, he, hrenew, hretry, hfits⟩ := h.fits
  cases hstage : e.stage with
  | none =>
    rw [hstage] at hfits
    obtain ⟨hlease, hrunning, hattempting, hreleasing, hcurrent⟩ := hfits
    have hmarks : marks o .start = [(o.now, .heard .start)] := by
      simp [marks, he, Election.react, hstage]
    have htell : o.tellElection pr .start =
        { o with election := some { e with stage := some .starting }, lease := none } := by
      simp [Operator.tellElection, he, Election.react, hstage, Operator.performElection]
    rw [hmarks, htell]
    refine ⟨h.orderly.start, h.published, _, rfl, hrenew, hretry, rfl, rfl, hattempting,
      hreleasing, ?_, ?_⟩
    · simp [Diary.completed?, hrunning]
    · simp [Diary.begun?, hrunning]
  | some stage =>
    have hrunning : d.isRunning = true ∧ e.stage ≠ some .lost := by
      rw [hstage] at hfits ⊢
      cases stage with
      | starting => exact ⟨hfits.2.1, by simp⟩
      | attempting leading => exact ⟨hfits.2.1, by simp⟩
      | waiting resumeAt => exact ⟨hfits.2.1, by simp⟩
      | releasing => exact absurd (by simp [IsReleasing, he, hstage]) hsettled
      | lost => exact hfits.elim
    obtain ⟨htell, hmarks⟩ := tell_start_running pr he (by simp [hstage]) hrunning.2
    rw [hmarks, htell]
    exact ⟨h.orderly.start, h.published, e, he, hrenew, hretry, hfits.restart hrunning.1⟩

/-- Stopping a service that runs ends its loop, whatever it is at. -/
theorem tell_stop_running (hpr : Steady pr) {e : Election} (he : o.election = some e)
    (hsome : e.stage ≠ none) (hsettled : e.stage ≠ some .releasing) :
    if o.channel.current = .leader then
      marks o .stop = [(o.now, .did .release), (o.now, .heard .stop)] ∧
        ∃ env job, o.tellElection pr .stop =
          { o with env, election := some { e with stage := some .releasing }, lease := some job } ∧
          job.rest.Always IsReleased
    else
      marks o .stop = [(o.now, .did (.publish .inactive)), (o.now, .heard .stop)] ∧
        o.tellElection pr .stop =
          { o with
            election := some { e with stage := none }
            lease := none
            channel := o.channel.publish .inactive } := by
  have hreact : e.react o.now o.channel.current .stop =
      if o.channel.current.isLeader then ({ e with stage := some .releasing }, [.release])
      else ({ e with stage := none }, [.publish .inactive]) := by
    simp only [Election.react]
    split
    · next hnone => exact absurd hnone hsome
    · next hreleasing => exact absurd hreleasing hsettled
    · rfl
  split
  · next hleader =>
    simp only [hleader, Leadership.isLeader, BEq.rfl, if_true] at hreact
    refine ⟨by simp [marks, he, hleader, hreact], ?_⟩
    obtain ⟨env, job, hlaunch, hjob⟩ := hpr.perform_release
      { o with election := some { e with stage := some .releasing }, lease := none }
    refine ⟨env, job, Eq.trans ?_ hlaunch, hjob⟩
    simp only [Operator.tellElection, he, hleader, hreact]
    rw [if_neg fun heq => hsettled heq.symm]
  · next hother =>
    have hleader : o.channel.current.isLeader = false := by
      simpa [Leadership.isLeader] using hother
    rw [hleader, if_neg (by decide)] at hreact
    refine ⟨by simp [marks, he, hreact], ?_⟩
    simp only [Operator.tellElection, he, hreact, Operator.performElection]
    rw [if_neg fun heq => hsome heq.symm]

theorem Kept.stop (hpr : Steady pr) (h : Kept s d o) (hsettled : ¬IsReleasing o) :
    Kept s (marks o .stop ++ d) (o.tellElection pr .stop) := by
  obtain ⟨e, he, hrenew, hretry, hfits⟩ := h.fits
  have hreleasing : e.stage ≠ some .releasing := fun heq =>
    hsettled (by simp [IsReleasing, he, heq])
  by_cases hnone : e.stage = none
  · have hreact : e.react o.now o.channel.current .stop = (e, []) := by
      simp [Election.react, hnone]
    have htell : o.tellElection pr .stop = o := by
      simp only [Operator.tellElection, he, hreact, if_true, Operator.performElection]
      rw [← he]
    have hmarks : marks o .stop = [(o.now, .heard .stop)] := by simp [marks, he, hreact]
    rw [hnone] at hfits
    obtain ⟨hlease, hrunning, -, hrel, hcurrent⟩ := hfits
    rw [hmarks, htell]
    refine ⟨h.orderly.cons trivial fun _ hrun => ?_, h.published, e, he, hrenew, hretry, ?_⟩
    · exact absurd (hrunning.symm.trans hrun) (by decide)
    · rw [hnone]
      exact ⟨hlease, rfl, rfl, hrel, hcurrent⟩
  · have hrunning : d.isRunning = true ∧ d.isReleasing = false := by
      cases hstage : e.stage with
      | none => exact absurd hstage hnone
      | some stage =>
        rw [hstage] at hfits
        cases stage with
        | starting => exact ⟨hfits.2.1, hfits.2.2.2.1⟩
        | attempting leading => exact ⟨hfits.2.1, hfits.2.2.2.1⟩
        | waiting resumeAt => exact ⟨hfits.2.1, hfits.2.2.2.1⟩
        | releasing => exact absurd hstage hreleasing
        | lost => exact hfits.elim
    have htold := tell_stop_running hpr he hnone hreleasing
    split at htold
    · next hleader =>
      obtain ⟨hmarks, env, job, htell, hjob⟩ := htold
      rw [hmarks, htell]
      exact ⟨h.orderly.cons_release hrunning.1 (h.published.trans hleader), h.published, _, rfl,
        hrenew, hretry, ⟨job, rfl, hjob⟩, rfl, rfl, rfl⟩
    · next hother =>
      obtain ⟨hmarks, htell⟩ := htold
      rw [hmarks, htell]
      have hstopped : Orderly s ((o.now, .heard .stop) :: d) :=
        h.orderly.cons trivial fun _ _ => by rw [h.published]; exact hother
      exact ⟨hstopped.cons trivial nofun, rfl, _, rfl, hrenew, hretry, rfl, rfl, rfl, hrunning.2,
        rfl⟩

/-- The loop begins its first attempt in its first turn. -/
theorem Kept.wake_starting (hpr : Steady pr) (h : Kept s d o) (hlease : o.lease = none)
    {e : Election} (he : o.election = some e) (hstage : e.stage = some .starting) :
    Kept s (marks o .wake ++ d) (o.tellElection pr .wake) := by
  obtain ⟨e', he', hrenew, hretry, hfits⟩ := h.fits
  obtain rfl := Option.some.inj (he.symm.trans he')
  rw [hstage] at hfits
  obtain ⟨-, hrunning, hattempting, hreleasing, hcompleted, hbegun⟩ := hfits
  have hreact : e.react o.now o.channel.current .wake =
      ({ e with stage := some (.attempting false) }, [.publish .candidate, .attempt]) := by
    simp [Election.react, hstage, Election.attempt]
  obtain ⟨env, job, hlaunch, hjob⟩ := hpr.perform_attempt
    { o with
      election := some { e with stage := some (.attempting false) }
      lease := none
      channel := o.channel.publish .candidate }
  have htell : o.tellElection pr .wake =
      { o with
        env
        election := some { e with stage := some (.attempting false) }
        lease := some job
        channel := o.channel.publish .candidate } := by
    refine Eq.trans ?_ hlaunch
    simp only [Operator.tellElection, he, hreact, hlease, ite_self]
    rfl
  have hmarks : marks o .wake =
      [(o.now, .did .attempt), (o.now, .did (.publish .candidate)), (o.now, .heard .wake)] := by
    simp [marks, he, hreact]
  have hdueNow : Diary.due? s ((o.now, .did (.publish .candidate)) :: (o.now, .heard .wake) :: d)
      = some o.now := by
    simp [Diary.due?, Diary.completed?, hcompleted, Diary.begun?, hbegun]
  have hwoken : Orderly s ((o.now, .heard .wake) :: d) := h.orderly.cons trivial nofun
  have hshown : Orderly s ((o.now, .did (.publish .candidate)) :: (o.now, .heard .wake) :: d) :=
    hwoken.cons trivial nofun
  rw [hmarks, htell]
  refine ⟨hshown.cons ⟨hrunning, hattempting, hdueNow⟩ nofun, rfl, _, rfl, hrenew, hretry,
    ⟨job, rfl, hjob⟩, hrunning, rfl, hreleasing, rfl, ?_⟩
  simp [Diary.HasLease, Diary.completed?, hcompleted]

/-- The loop begins another attempt when the wait is over. -/
theorem Kept.wake_waiting (hpr : Steady pr) (h : Kept s d o) (hlease : o.lease = none)
    {e : Election} (he : o.election = some e) {resumeAt : Nat}
    (hstage : e.stage = some (.waiting resumeAt)) (hle : resumeAt ≤ o.now) :
    Kept s (marks o .wake ++ d) (o.tellElection pr .wake) := by
  obtain ⟨e', he', hrenew, hretry, hfits⟩ := h.fits
  obtain rfl := Option.some.inj (he.symm.trans he')
  rw [hstage] at hfits
  obtain ⟨-, hrunning, hattempting, hreleasing, hnow, hdue, t, outcome, hcompleted, hcurrent⟩ :=
    hfits
  obtain rfl : resumeAt = o.now := Nat.le_antisymm hle hnow
  have hreact : e.react o.now o.channel.current .wake =
      ({ e with stage := some (.attempting o.channel.current.isLeader) }, [.attempt]) := by
    simp [Election.react, hstage, Election.attempt]
  obtain ⟨env, job, hlaunch, hjob⟩ := hpr.perform_attempt
    { o with
      election := some { e with stage := some (.attempting o.channel.current.isLeader) }
      lease := none }
  have htell : o.tellElection pr .wake =
      { o with
        env
        election := some { e with stage := some (.attempting o.channel.current.isLeader) }
        lease := some job } := by
    refine Eq.trans ?_ hlaunch
    simp only [Operator.tellElection, he, hreact, hlease, ite_self]
  have hmarks : marks o .wake = [(o.now, .did .attempt), (o.now, .heard .wake)] := by
    simp [marks, he, hreact]
  have hwoken : Orderly s ((o.now, .heard .wake) :: d) := h.orderly.cons trivial nofun
  rw [hmarks, htell]
  refine ⟨hwoken.cons ⟨hrunning, hattempting, hdue⟩ nofun, h.published, _, rfl, hrenew, hretry,
    ⟨job, rfl, hjob⟩, hrunning, rfl, hreleasing, ?_, ?_⟩
  · rw [hcurrent, rank]
    cases Election.acquired outcome <;> rfl
  · exact (hasLease_iff hcompleted).trans (by rw [hcurrent])

theorem Kept.wake (hpr : Steady pr) (h : Kept s d o) (hlease : o.lease = none) {e : Election}
    (he : o.election = some e)
    (hdue : e.stage = some .starting ∨ ∃ t, e.alarm? = some t ∧ t ≤ o.now) :
    Kept s (marks o .wake ++ d) (o.tellElection pr .wake) := by
  rcases hdue with hstage | ⟨resumeAt, halarm, hle⟩
  · exact h.wake_starting hpr hlease he hstage
  · have hstage : e.stage = some (.waiting resumeAt) := by
      unfold Election.alarm? at halarm
      split at halarm
      · next stage hwaiting => rw [hwaiting, Option.some.inj halarm]
      · cases halarm
    exact h.wake_waiting hpr hlease he hstage hle

/-- An attempt that has ended publishes what it makes of the replica, unless that is what it was. -/
theorem react_attempted {e : Election} {leading : Bool}
    (hstage : e.stage = some (.attempting leading)) {current : Leadership}
    (hcurrent : current = if leading then .leader else .candidate) (now : Nat)
    (outcome : Except Error Bool) :
    e.react now current (.attempted outcome) =
      ({ e with stage := some (.waiting (now + e.pause (rank outcome))) },
        if current = rank outcome then [] else [.publish (rank outcome)]) := by
  subst hcurrent
  cases leading <;> cases hacquired : Election.acquired outcome <;>
    simp [Election.react, hstage, Election.transition, hacquired, rank]

theorem Kept.attempted (h : Kept s d o) {leading : Bool}
    (hstage : o.election.bind (·.stage) = some (.attempting leading))
    (outcome : Except Error Bool) :
    Kept s (marks o (.attempted outcome) ++ d) (o.tellElection pr (.attempted outcome)) := by
  obtain ⟨e, he, hrenew, hretry, hfits⟩ := h.fits
  have hstage : e.stage = some (.attempting leading) := by simpa [he] using hstage
  rw [hstage] at hfits
  obtain ⟨-, hrunning, -, hreleasing, hcurrent, -⟩ := hfits
  have hreact := react_attempted hstage hcurrent o.now outcome
  have hpause : e.pause (rank outcome) =
      if rank outcome = .leader then s.renewInterval.millisUp else s.retryInterval.millisUp := by
    simp only [Election.pause, hrenew, hretry, Leadership.isLeader, beq_iff_eq]
  have hended : Orderly s ((o.now, .heard (.attempted outcome)) :: d) :=
    h.orderly.cons trivial nofun
  by_cases hsame : o.channel.current = rank outcome
  · rw [if_pos hsame] at hreact
    have hmarks : marks o (.attempted outcome) = [(o.now, .heard (.attempted outcome))] := by
      simp [marks, he, hreact]
    have htell : o.tellElection pr (.attempted outcome) =
        { o with
          election := some { e with stage := some (.waiting (o.now + e.pause (rank outcome))) }
          lease := none } := by
      simp [Operator.tellElection, he, hreact, hstage, Operator.performElection]
    rw [hmarks, htell]
    refine ⟨hended, h.published, _, rfl, hrenew, hretry, rfl, hrunning, rfl, hreleasing,
      Nat.le_add_right .., ?_, o.now, outcome, rfl, hsame⟩
    rw [hpause, ← hsame, ← h.published]
    rfl
  · rw [if_neg hsame] at hreact
    have hmarks : marks o (.attempted outcome) =
        [(o.now, .did (.publish (rank outcome))), (o.now, .heard (.attempted outcome))] := by
      simp [marks, he, hreact]
    have htell : o.tellElection pr (.attempted outcome) =
        { o with
          election := some { e with stage := some (.waiting (o.now + e.pause (rank outcome))) }
          lease := none
          channel := o.channel.publish (rank outcome) } := by
      simp [Operator.tellElection, he, hreact, hstage, Operator.performElection]
    rw [hmarks, htell]
    refine ⟨hended.cons trivial nofun, rfl, _, rfl, hrenew, hretry, rfl, hrunning, rfl, hreleasing,
      Nat.le_add_right .., ?_, o.now, outcome, rfl, rfl⟩
    rw [hpause]
    rfl

/-- A release has been answered. -/
theorem Kept.released (h : Kept s d o) (hstage : IsReleasing o) (outcome : Except Error Unit) :
    Kept s (marks o (.released outcome) ++ d) (o.tellElection pr (.released outcome)) := by
  obtain ⟨e, he, hrenew, hretry, hfits⟩ := h.fits
  have hstage : e.stage = some .releasing := by simpa [IsReleasing, he] using hstage
  rw [hstage] at hfits
  obtain ⟨-, hrunning, hattempting, -⟩ := hfits
  have hreact : e.react o.now o.channel.current (.released outcome) =
      ({ e with stage := none }, [.publish .inactive]) := by
    simp [Election.react, hstage]
  have hmarks : marks o (.released outcome) =
      [(o.now, .did (.publish .inactive)), (o.now, .heard (.released outcome))] := by
    simp [marks, he, hreact]
  have htell : o.tellElection pr (.released outcome) =
      { o with
        election := some { e with stage := none }
        lease := none
        channel := o.channel.publish .inactive } := by
    simp [Operator.tellElection, he, hreact, hstage, Operator.performElection]
  have hended : Orderly s ((o.now, .heard (.released outcome)) :: d) :=
    h.orderly.cons trivial nofun
  rw [hmarks, htell]
  exact ⟨hended.cons trivial nofun, rfl, _, rfl, hrenew, hretry, rfl, hrunning, hattempting, rfl,
    rfl⟩

end Candidacy

end Reconciler.Leadership
