import Reconciler.Host.Operator

/-!
# The diary of an election

The election of an operator hears of starts, stops, wakes and outcomes, and publishes, attempts and
releases. All of it stands in a diary with its instants, the latest first. What the diary says about
a point in time is read off by short functions: whether the service runs, whether an attempt or a
release is under way, what was published last, and how the last attempt of the current loop ended.

`Candidacy.Step` is all that can happen: calls of start and stop, none of them before an earlier
stop is complete; turns of the election; everything else about the operator; and time, which passes
only when no part of the election can go on, and stops at its alarm. The turns of an operator and
the moves of its clock are such steps (`Run.turn`, `moveTo_step`).
-/

namespace Reconciler

namespace Plan

variable {Q : Type} {A : Q → Type} {α β : Type}

/-- Whatever is answered, the plan ends with a result of which a condition holds. -/
def Always (p : α → Prop) : Plan Q A α → Prop
  | done a => p a
  | ask _ next => ∀ answer, (next answer).Always p

theorem Always.map {p : α → Prop} {q : β → Prop} {f : α → β} {plan : Plan Q A α}
    (h : plan.Always p) (himp : ∀ a, p a → q (f a)) : (plan.map f).Always q := by
  induction plan with
  | done a => exact himp a h
  | ask question next ih => exact fun answer => ih answer (h answer)

end Plan

namespace Leadership

open Host (Operator Pipeline Program)

/-! ## The diary -/

/-- What an election hears and does. -/
inductive Mark where
  | heard (input : Election.Input)
  | did (effect : Election.Effect)

/-- What an election has heard and done, and when; the latest comes first. -/
abbrev Diary : Type := List (Nat × Mark)

namespace Diary

/-- The service was started and not stopped since. -/
def isRunning : Diary → Bool
  | [] => false
  | (_, .heard .start) :: _ => true
  | (_, .heard .stop) :: _ => false
  | _ :: earlier => isRunning earlier

/-- An attempt was begun that has neither ended nor been interrupted by a stop. -/
def isAttempting : Diary → Bool
  | [] => false
  | (_, .did .attempt) :: _ => true
  | (_, .heard (.attempted _)) :: _ => false
  | (_, .heard .stop) :: _ => false
  | _ :: earlier => isAttempting earlier

/-- A release is awaited. -/
def isReleasing : Diary → Bool
  | [] => false
  | (_, .did .release) :: _ => true
  | (_, .heard (.released _)) :: _ => false
  | _ :: earlier => isReleasing earlier

/-- What was published last. -/
def published : Diary → Leadership
  | [] => .inactive
  | (_, .did (.publish state)) :: _ => state
  | _ :: earlier => published earlier

/-- When the current loop began. A start of a service that runs already begins none. -/
def begun? : Diary → Option Nat
  | [] => none
  | (t, .heard .start) :: earlier => if isRunning earlier then begun? earlier else some t
  | _ :: earlier => begun? earlier

/-- The last attempt of the current loop that was completed, and when. -/
def completed? : Diary → Option (Nat × Except Error Bool)
  | [] => none
  | (t, .heard (.attempted outcome)) :: _ => some (t, outcome)
  | (_, .heard .start) :: earlier => if isRunning earlier then completed? earlier else none
  | _ :: earlier => completed? earlier

/-- When the next attempt of the current loop is due. -/
def due? (s : Settings) (d : Diary) : Option Nat :=
  match d.completed? with
  | none => d.begun?
  | some (t, _) =>
    some (t + if d.published = .leader then s.renewInterval.millisUp else s.retryInterval.millisUp)

/-- The last attempt of the current loop that was completed brought the lease. -/
def HasLease (d : Diary) : Prop := ∃ t, d.completed? = some (t, .ok true)

end Diary

/-! ## What can happen -/

variable {K Q E D R : Type} {A : Q → Type}

namespace Candidacy

/-- Neither an attempt nor a release breaks off. -/
structure Steady (pr : Program K Q A E D R) : Prop where
  attempt : pr.attempt.Always (·.isSome = true)
  release : pr.release.Always (·.isSome = true)

/-- What the diary gets when the election hears something. -/
def marks (o : Operator K Q A E D R) (input : Election.Input) : Diary :=
  match o.election with
  | none => []
  | some e =>
    ((e.react o.now o.channel.current input).2.map fun effect => (o.now, .did effect)).reverse ++
      [(o.now, .heard input)]

/-- What the diary gets in a turn of the election. -/
def turnMarks (o : Operator K Q A E D R) : Diary :=
  match o.lease with
  | none => marks o .wake
  | some job =>
    match job.rest with
    | .done input => marks o input
    | .ask _ _ => []

/-- The last stop is not complete yet. -/
def IsReleasing (o : Operator K Q A E D R) : Prop :=
  o.election.bind (·.stage) = some .releasing

instance (o : Operator K Q A E D R) : Decidable (IsReleasing o) :=
  inferInstanceAs (Decidable (_ = _))

/-- No part of the election can go on at this instant. -/
def Blocked (pr : Program K Q A E D R) (o : Operator K Q A E D R) : Prop :=
  o.turnElection pr = none ∧ o.lease.all (!·.yields) = true

/-- The next instant at which the election can go on. -/
def alarm? (o : Operator K Q A E D R) : Option Nat :=
  match o.lease with
  | some job => job.ready
  | none => o.election.bind (·.alarm?)

/-- What can happen to the election of an operator, with what it adds to the diary. -/
inductive Step (pr : Program K Q A E D R) :
    Operator K Q A E D R → Diary → Operator K Q A E D R → Prop where
  | started {o : Operator K Q A E D R} : ¬IsReleasing o →
      Step pr o (marks o .start) (o.tellElection pr .start)
  | stopped {o : Operator K Q A E D R} : ¬IsReleasing o →
      Step pr o (marks o .stop) (o.tellElection pr .stop)
  | turned {o o' : Operator K Q A E D R} : o.turnElection pr = some o' →
      Step pr o (turnMarks o) o'
  /-- The others have had their turn. -/
  | resumed {o : Operator K Q A E D R} :
      Step pr o [] { o with lease := o.lease.map (·.resume) }
  | passed {o : Operator K Q A E D R} (later : Nat) : Blocked pr o → o.now ≤ later →
      (∀ t, alarm? o = some t → later ≤ t) → Step pr o [] { o with now := later }
  /-- The rest of the operator and everything outside go on. -/
  | elsewhere {o : Operator K Q A E D R} (env : E) (pipelines : List (Pipeline K Q A E D R))
      (stage : Host.Stage) : Step pr o [] { o with env, pipelines, stage }

inductive Run (pr : Program K Q A E D R) (start : Operator K Q A E D R) :
    Diary → Operator K Q A E D R → Prop where
  | nil : Run pr start [] start
  | snoc {d more : Diary} {o o' : Operator K Q A E D R} :
      Run pr start d o → Step pr o more o' → Run pr start (more ++ d) o'

/-! ## Turns of the election -/

section Elections

variable {pr : Program K Q A E D R} {o o' : Operator K Q A E D R}

theorem launch_spec (pr : Program K Q A E D R) (o : Operator K Q A E D R)
    (plan : Plan Q A Election.Input) :
    ∃ env job, o.launch pr plan = { o with env, lease := some job } ∧
      ∀ kind, plan.Always kind → job.rest.Always kind := by
  unfold Operator.launch
  cases plan with
  | done input => exact ⟨_, _, rfl, fun _ h => h⟩
  | ask q next => exact ⟨_, _, rfl, fun _ h => h _⟩

/-- The loop is woken, or what is under way for the lease has come to its end or goes on. -/
theorem turnElection_cases (hturn : o.turnElection pr = some o') :
    ∃ e, o.election = some e ∧
      ((o.lease = none ∧ (e.stage = some .starting ∨ ∃ t, e.alarm? = some t ∧ t ≤ o.now) ∧
          o' = o.tellElection pr .wake) ∨
        ∃ job env, o.lease = some job ∧
          ((∃ input, job.rest = .done input ∧ o' = { o with env }.tellElection pr input) ∨
            ∃ q next job', job.rest = .ask q next ∧ o' = { o with env, lease := some job' } ∧
              ∀ kind, job.rest.Always kind → job'.rest.Always kind)) := by
  unfold Operator.turnElection at hturn
  split at hturn
  · cases hturn
  · next e he =>
    refine ⟨e, he, ?_⟩
    split at hturn
    · next job hjob =>
      split at hturn
      · right
        cases hrest : job.rest with
        | done input =>
          rw [hrest] at hturn
          exact ⟨job, _, hjob, .inl ⟨input, hrest, (Option.some.inj hturn).symm⟩⟩
        | ask q next =>
          rw [hrest] at hturn
          refine ⟨job, _, hjob, .inr ⟨q, next, _, hrest, (Option.some.inj hturn).symm, ?_⟩⟩
          intro kind hkind
          rw [hrest] at hkind
          exact hkind _
      · cases hturn
    · next hnone =>
      split at hturn
      · next hdue =>
        exact .inl ⟨hnone, by simpa [Option.any_eq_true] using hdue, (Option.some.inj hturn).symm⟩
      · cases hturn

end Elections

/-! ## Turns and moves of an operator -/

section Turns

variable [Entity K] {pr : Program K Q A E D R} {start o o' : Operator K Q A E D R} {d : Diary}

/-- A turn of an operator is a step of its election or leaves the election alone. Only the last step
of stopping needs that no stop is under way. -/
theorem Run.turn (hrun : Run pr start d o) (hsettled : o.stage = .stopping 0 → ¬IsReleasing o)
    (hturn : o.turn pr = some o') : ∃ more, Run pr start (more ++ d) o' := by
  unfold Operator.turn at hturn
  split at hturn
  · next next hstop =>
    obtain rfl := Option.some.inj hturn
    unfold Operator.turnStop at hstop
    split at hstop
    · cases hstop
    · cases hstop
    · next hstage =>
      obtain rfl := Option.some.inj hstop
      have hstaged := hrun.snoc (.elsewhere o.env o.pipelines .resigning)
      exact ⟨_, hstaged.snoc (.stopped (hsettled hstage))⟩
    · next n hstage =>
      split at hstop
      · obtain rfl := Option.some.inj hstop
        exact ⟨[], hrun.snoc (.elsewhere o.env o.pipelines _)⟩
      · obtain rfl := Option.some.inj hstop
        exact ⟨[], hrun.snoc (.elsewhere _ _ _)⟩
    · split at hstop
      · obtain rfl := Option.some.inj hstop
        exact ⟨[], hrun.snoc (.elsewhere o.env o.pipelines _)⟩
      · split at hstop
        · obtain rfl := Option.some.inj hstop
          exact ⟨[], hrun.snoc (.elsewhere o.env o.pipelines _)⟩
        · cases hstop
    · split at hstop
      · obtain rfl := Option.some.inj hstop
        exact ⟨[], hrun.snoc (.elsewhere o.env o.pipelines _)⟩
      · cases hstop
  · split at hturn
    · next next helection =>
      obtain rfl := Option.some.inj hturn
      exact ⟨_, hrun.snoc (.turned helection)⟩
    · split at hturn
      · obtain rfl := Option.some.inj hturn
        exact ⟨[], hrun.snoc (.elsewhere _ _ o.stage)⟩
      · unfold Operator.resume? at hturn
        split at hturn
        · obtain rfl := Option.some.inj hturn
          have hresumed := hrun.snoc .resumed
          exact ⟨[], hresumed.snoc (.elsewhere o.env _ o.stage)⟩
        · cases hturn

theorem soonest?_le {instants : List (Option Nat)} {t : Nat} (h : some t ∈ instants) :
    ∃ u, Host.soonest? instants = some u ∧ u ≤ t := by
  -- The soonest of those seen so far is soon enough, or the instant is still to come.
  have hfold : ∀ (instants : List (Option Nat)) (first : Option Nat),
      (∃ u, first = some u ∧ u ≤ t) ∨ some t ∈ instants →
      ∃ u, instants.foldl Host.sooner? first = some u ∧ u ≤ t := by
    intro instants
    induction instants with
    | nil =>
      rintro first (hfirst | hmem)
      · exact hfirst
      · cases hmem
    | cons instant rest ih =>
      intro first hsoon
      refine ih _ ?_
      rcases hsoon with ⟨u, rfl, hle⟩ | hmem
      · cases instant with
        | none => exact .inl ⟨u, rfl, hle⟩
        | some v => exact .inl ⟨min u v, rfl, Nat.le_trans (Nat.min_le_left u v) hle⟩
      · rcases List.mem_cons.mp hmem with rfl | hrest
        · cases first with
          | none => exact .inl ⟨t, rfl, Nat.le_refl t⟩
          | some u => exact .inl ⟨min u t, rfl, Nat.min_le_right u t⟩
        · exact .inr hrest
  exact hfold instants none (.inr h)

/-- When nothing can happen to an operator, its clock may move up to its alarm. -/
theorem moveTo_step {later : Nat} (hturn : o.turn pr = none) (hle : o.now ≤ later)
    (halarm : ∀ t, o.alarm? = some t → later ≤ t) :
    Step pr o [] ((Operator.clock pr).moveTo later o) := by
  have hblocked : Blocked pr o := by
    unfold Operator.turn at hturn
    split at hturn
    · cases hturn
    · split at hturn
      · cases hturn
      · next helection =>
        split at hturn
        · cases hturn
        · refine ⟨helection, ?_⟩
          unfold Operator.resume? at hturn
          split at hturn
          · cases hturn
          · next hyields =>
            cases hlease : o.lease with
            | none => rfl
            | some job =>
              simp only [hlease, Option.any_some, Bool.or_eq_true, not_or] at hyields
              simp [hyields.1]
  refine .passed later hblocked hle fun t ht => ?_
  have hsoonest : o.alarm? = Host.soonest? (alarm? o :: o.pipelines.map (·.alarm?)) := by
    unfold Operator.alarm? alarm?
    cases o.lease <;> rfl
  obtain ⟨u, hu, hut⟩ := soonest?_le (ht ▸ List.mem_cons_self :
    some t ∈ alarm? o :: o.pipelines.map (·.alarm?))
  exact Nat.le_trans (halarm u (hsoonest.trans hu)) hut

end Turns

end Candidacy

end Leadership

end Reconciler
