import Reconciler.Leadership.Election
import Reconciler.Leadership.Elector

/-!
# What an elector asks

An errand is an attempt at the lease or a release of it. Its plan asks the server twice at most: it
reads the lease, and writes it if what it read allows that. `Plan.Sound` follows the plan along every
sequence of answers: no question is asked that may not be, given what was read, and an attempt does
not report success unless its write was accepted.

The clock is not asked over the network. It answers at once, so nothing comes between an answer of
the server and the next reading of the clock.
-/

namespace Reconciler.Leadership

/-- What an elector is about. -/
inductive Errand where
  | attempt
  | release
  deriving DecidableEq, Repr

namespace Errand

/-- The plan of an errand, which ends with an input for the election. -/
def plan (e : Elector) : Errand → LeasePlan Election.Input
  | .attempt => e.tryAcquire.map (·.elim .failed .attempted)
  | .release => e.release.map (·.elim .failed .released)

end Errand

/-- A plan up to its next question for the server. -/
def atOnce {α : Type} (now : Timestamp) : LeasePlan α → LeasePlan α
  | .ask .clock next => atOnce now (next now)
  | plan => plan

/-! ## What may be asked -/

/-- The number of changes of hands that a lease shows, zero if it shows none. -/
def transitions (lease : Lease) : Int := (lease.spec.bind (·.leaseTransitions)).getD 0

/-- What an attempt that began at an instant may write in the place of the lease that it read. -/
inductive Elector.Claims (e : Elector) (since : Timestamp) (held : Lease) : Lease → Prop where
  | renewed : held.holder? = some e.identity → e.Claims since held (e.renewed held since)
  | takenOver {n : Int} :
    (∀ holder, held.holder? = some holder →
      holder ≠ e.identity ∧ LeaseSpec.isExpired? held.spec since = some true) →
    nextCount? (transitions held) = some n → e.Claims since held (e.takenOver held since n)

/-- The questions that an errand of an elector may ask once it has read what is stored, or before. -/
def May (e : Elector) (errand : Errand) (since : Timestamp) (read : Option (Option Lease)) :
    LeaseCall → Prop
  | .clock => True
  | .get => True
  | .create lease => errand = .attempt ∧ read = some none ∧ lease = e.fresh since
  | .replace lease => errand = .attempt ∧ ∃ held, read = some (some held) ∧ e.Claims since held lease
  | .vacate _ => errand = .release ∧ ∃ held, read = some (some held) ∧
      held.holder? = some e.identity

/-- What has been read after an answer. -/
def noted (read : Option (Option Lease)) : (q : LeaseCall) → q.Answer → Option (Option Lease)
  | .get, .ok lease => some lease
  | _, _ => read

/-- The answer says that a write was accepted. -/
def granted : (q : LeaseCall) → q.Answer → Bool
  | .create _, .ok () => true
  | .replace _, .ok () => true
  | .vacate _, .ok () => true
  | _, _ => false

section Sound

variable (e : Elector) (errand : Errand) (since : Timestamp)

/-- However it is answered, the plan asks only what it may, reads the lease once, and reports that the
lease was got only if it was an attempt whose write was accepted, be it before. -/
def Sound : Bool → Option (Option Lease) → LeasePlan Election.Input → Prop
  | won, _, .done r => r = .attempted (.ok true) → errand = .attempt ∧ won = true
  | won, read, .ask q next => May e errand since read q ∧ (q = .get → read = none) ∧
      ∀ answer, Sound (won || granted q answer) (noted read q answer) (next answer)

variable {e errand since}

theorem Sound.atOnce {won : Bool} {read : Option (Option Lease)} {plan : LeasePlan Election.Input}
    (now : Timestamp) (h : Sound e errand since won read plan) :
    Sound e errand since won read (atOnce now plan) := by
  induction plan with
  | done r => exact h
  | ask q next ih =>
    cases q with
    | clock =>
      have hnext := h.2.2 now
      rw [show granted .clock now = false from rfl, Bool.or_false] at hnext
      exact ih now hnext
    | get => exact h
    | create lease => exact h
    | replace lease => exact h
    | vacate t => exact h

/-- The outcome of a write says that the lease was got only if the write was accepted. -/
theorem written_cases (outcome : Except Error Unit) :
    outcome = .ok () ∨ Elector.written outcome ≠ .ok true := by
  cases outcome with
  | ok u => exact .inl rfl
  | error err =>
    refine .inr ?_
    unfold Elector.written
    simp only
    split <;> simp

theorem sound_create :
    Sound e .attempt since false (some none) (.ask (.create (e.fresh since)) fun outcome =>
      .done (.attempted (Elector.written outcome))) := by
  refine ⟨⟨rfl, rfl, rfl⟩, nofun, fun outcome hsuccess => ?_⟩
  rcases written_cases outcome with rfl | hlost
  · exact ⟨rfl, rfl⟩
  · exact absurd (Election.Input.attempted.inj hsuccess) hlost

theorem sound_replace {held lease : Lease} (hclaims : e.Claims since held lease) :
    Sound e .attempt since false (some (some held))
      (((e.replace lease).map some).map (·.elim .failed .attempted)) := by
  unfold Elector.replace
  split
  · intro hsuccess
    cases hsuccess
  · refine ⟨⟨rfl, held, rfl, hclaims⟩, nofun, fun outcome hsuccess => ?_⟩
    rcases written_cases outcome with rfl | hlost
    · exact ⟨rfl, rfl⟩
    · exact absurd (Election.Input.attempted.inj hsuccess) hlost

/-! ## What the plans ask -/

/-- A lease that is there is renewed by its holder, taken over if it is free or has run out, and left
alone otherwise. -/
theorem step?_cases {held : Lease} {step : Elector.Step}
    (h : e.step? (some held) since = some step) :
    (step = .renew ∧ held.holder? = some e.identity) ∨
    (∃ n, Elector.nextCount? (transitions held) = some n ∧ step = .takeOver n ∧ ∀ holder,
      held.holder? = some holder →
        holder ≠ e.identity ∧ LeaseSpec.isExpired? held.spec since = some true) ∨
    step = .wait := by
  unfold Elector.step? at h
  simp only at h
  split at h
  · next holder hholder =>
    split at h
    · next hsame =>
      cases h
      exact .inl ⟨rfl, by rw [hholder, hsame]⟩
    · next hother =>
      obtain ⟨expired, hexpired, hstep⟩ := Option.bind_eq_some_iff.mp h
      cases expired with
      | false =>
        cases hstep
        exact .inr (.inr rfl)
      | true =>
        obtain ⟨n, hn, rfl⟩ := Option.map_eq_some_iff.mp hstep
        refine .inr (.inl ⟨n, hn, rfl, fun other hheld => ?_⟩)
        obtain rfl := Option.some.inj (hheld.symm.trans hholder)
        exact ⟨hother, hexpired⟩
  · next hnone =>
    obtain ⟨n, hn, rfl⟩ := Option.map_eq_some_iff.mp h
    refine .inr (.inl ⟨n, hn, rfl, fun other hheld => ?_⟩)
    rw [hnone] at hheld
    cases hheld

theorem sound_attempt (e : Elector) (now : Timestamp) :
    Sound e .attempt now false none (atOnce now (Errand.attempt.plan e)) := by
  show Sound e .attempt now false none (.ask .get _)
  refine ⟨trivial, fun _ => rfl, fun answer => ?_⟩
  rcases answer with err | _ | held
  · intro hsuccess
    cases hsuccess
  · exact sound_create
  · show Sound e .attempt now false (some (some held)) (Plan.bind _ _)
    cases hstep : e.step? (some held) now with
    | none =>
      simp only [hstep]
      intro hsuccess
      cases hsuccess
    | some step =>
      simp only [hstep]
      rcases step?_cases hstep with ⟨rfl, hours⟩ | ⟨n, hn, rfl, hfree⟩ | rfl
      · exact sound_replace (.renewed hours)
      · exact sound_replace (.takenOver hfree hn)
      · intro hsuccess
        cases hsuccess

theorem sound_release (e : Elector) (now : Timestamp) :
    Sound e .release now false none (atOnce now (Errand.release.plan e)) := by
  show Sound e .release now false none (.ask .get _)
  refine ⟨trivial, fun _ => rfl, fun answer => ?_⟩
  rcases answer with err | lease
  · intro hsuccess
    cases hsuccess
  · show Sound e .release now false (some lease) (Plan.bind _ _)
    by_cases hheld : lease.bind (·.holder?) = some e.identity
    · simp only [hheld, ne_eq, not_true_eq_false, if_false]
      refine ⟨trivial, nofun, fun read => ?_⟩
      cases hstale : e.staleTime? read with
      | none =>
        simp only [hstale]
        intro hsuccess
        cases hsuccess
      | some stale =>
        simp only [hstale]
        obtain ⟨held, rfl, hholder⟩ := Option.bind_eq_some_iff.mp hheld
        refine ⟨⟨rfl, held, rfl, hholder⟩, nofun, fun outcome hsuccess => ?_⟩
        cases hsuccess
    · simp only [hheld, ne_eq, not_false_eq_true, if_true]
      intro hsuccess
      cases hsuccess

theorem sound_plan (e : Elector) (errand : Errand) (now : Timestamp) :
    Sound e errand now false none (atOnce now (errand.plan e)) := by
  cases errand with
  | attempt => exact sound_attempt e now
  | release => exact sound_release e now

end Sound

end Reconciler.Leadership
