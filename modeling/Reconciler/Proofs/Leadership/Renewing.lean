import Reconciler.Proofs.Leadership.Succession
import Reconciler.Proofs.Time.Later

/-!
# A lease between two renewals

An elector writes how long its lease is good as a number of whole seconds, in a word of 32 bits with
a sign. `Settings.validate` compares the lengths of time themselves, so it is what is written that
has to reach from one renewal to the next: that is the case exactly if the interval of renewals is
no longer than the seconds in the word (`outlasts_renewals_iff`). Lengths of whole seconds that fit
the word are written as they are, and then a validated lease does (`outlasts_renewals_of_fits`).
-/

namespace Reconciler.Leadership

section Asking

variable {Q : Type} {A : Q → Type} {α β : Type}

/-- The question is one that the plan comes to, if it is answered in some way. -/
inductive Asks (q : Q) : Plan Q A α → Prop where
  | now (next : A q → Plan Q A α) : Asks q (.ask q next)
  | after {p : Q} {next : A p → Plan Q A α} (answer : A p) :
    Asks q (next answer) → Asks q (.ask p next)

end Asking

/-- An attempt that begins at an instant writes this, if the server answers in some way. -/
def Elector.Writes (e : Elector) (t : Timestamp) (spec : LeaseSpec) : Prop :=
  ∃ call lease, Asks call (atOnce t (Errand.attempt.plan e)) ∧
    (call = .create lease ∨ call = .replace lease) ∧ lease.spec = some spec

/-- The lease is good from the renewal at an instant up to the next one, and no longer than it lasts
without renewal. -/
structure Outlasts (s : Settings) (t : Timestamp) (spec : LeaseSpec) : Prop where
  stands : ∀ now : Timestamp, now.IsInstant → now ≤ t.later s.renewInterval →
    LeaseSpec.isExpired? (some spec) now = some false
  runsOut : ∀ now : Timestamp, now.IsInstant → t.later s.leaseDuration < now →
    LeaseSpec.isExpired? (some spec) now = some true

/-! ## What is written -/

theorem Sound.may {e : Elector} {errand : Errand} {since : Timestamp} {call : LeaseCall}
    {plan : LeasePlan Election.Input} (hasks : Asks call plan) :
    ∀ {won : Bool} {read : Option (Option Lease)}, Sound e errand since won read plan →
      ∃ read', May e errand since read' call := by
  induction hasks with
  | now next =>
    intro won read h
    exact ⟨read, h.1⟩
  | after answer hasks ih =>
    intro won read h
    exact ih (h.2.2 answer)

/-- Whatever an attempt finds, it writes its claim as of the instant at which it began. -/
theorem Elector.Writes.eq_claim {e : Elector} {t : Timestamp} {spec : LeaseSpec}
    (h : e.Writes t spec) : ∃ acquired n, spec = e.claim t acquired n := by
  obtain ⟨call, lease, hasks, hcall, hspec⟩ := h
  obtain ⟨read, hmay⟩ := Sound.may hasks (sound_attempt e t)
  rcases hcall with rfl | rfl
  · obtain ⟨-, -, rfl⟩ := hmay
    exact ⟨t, 0, (Option.some.inj hspec).symm⟩
  · obtain ⟨-, held, -, hclaims⟩ := hmay
    cases hclaims with
    | renewed hours => exact ⟨_, _, (Option.some.inj hspec).symm⟩
    | takenOver hfree => exact ⟨t, _, (Option.some.inj hspec).symm⟩

/-- Where there is no lease, an attempt creates one. -/
theorem Elector.writes_fresh (e : Elector) (t : Timestamp) : e.Writes t (e.claim t t 0) := by
  refine ⟨.create (e.fresh t), e.fresh t, ?_, .inl rfl, rfl⟩
  show Asks (LeaseCall.create (e.fresh t)) (.ask LeaseCall.get _)
  apply Asks.after (Except.ok none)
  apply Asks.now

/-! ## How long it is good -/

variable {t : Timestamp}

theorem isExpired?_claim (e : Elector) (t acquired now : Timestamp) (n : Int) :
    LeaseSpec.isExpired? (some (e.claim t acquired n)) now =
      (t.addSecs? (Elector.word32 e.leaseDuration.secs)).map fun expiry => decide (expiry < now) :=
  rfl

/-- A word never says more than the number that it was made of, if that is not negative. -/
theorem word32_le (n : Nat) : Elector.word32 n ≤ n := by
  unfold Elector.word32
  have hmod : ((n : Int)).bmod 4294967296 ≤ (n : Int) % 4294967296 := by
    rw [Int.bmod_def]
    split <;> omega
  omega

theorem outlasts_claim_iff (s : Settings) (ht : t.IsInstant) (acquired : Timestamp) (n : Int) :
    Outlasts s t ((Elector.ofSettings s).claim t acquired n) ↔
      (s.renewInterval.nanos : Int) ≤
          Elector.word32 s.leaseDuration.secs * Timestamp.perSecond ∧
        (t.addSecs? (Elector.word32 s.leaseDuration.secs)).isSome := by
  constructor
  · intro h
    -- The last instant of the interval decides.
    have hlast := h.stands _ (Timestamp.later_isInstant t s.renewInterval)
      (Timestamp.le_refl _)
    rw [isExpired?_claim] at hlast
    obtain ⟨expiry, hexpiry, hstands⟩ := Option.map_eq_some_iff.mp hlast
    refine ⟨?_, Option.isSome_of_mem hexpiry⟩
    apply (Timestamp.later_le_iff ht hexpiry _).mp
    exact of_decide_eq_false hstands
  · rintro ⟨hlong, hcalendar⟩
    obtain ⟨expiry, hexpiry⟩ := Option.isSome_iff_exists.mp hcalendar
    have hreaches : t.later s.renewInterval ≤ expiry :=
      (Timestamp.later_le_iff ht hexpiry _).mpr hlong
    have hword := word32_le s.leaseDuration.secs
    have hwithin : expiry ≤ t.later s.leaseDuration := by
      apply Timestamp.le_later ht hexpiry
      have hsecs : s.leaseDuration.secs * 1000000000 ≤ s.leaseDuration.nanos :=
        Nat.div_mul_le_self ..
      simp only [Timestamp.perSecond]
      omega
    have hclaim : ∀ now, LeaseSpec.isExpired?
        (some ((Elector.ofSettings s).claim t acquired n)) now = some (decide (expiry < now)) := by
      intro now
      rw [isExpired?_claim]
      exact congrArg (Option.map _) hexpiry
    refine ⟨fun now _ hnow => ?_, fun now _ hnow => ?_⟩
    · have hstands : ¬expiry < now := Timestamp.le_trans hnow hreaches
      rw [hclaim, decide_eq_false hstands]
    · have hpast : expiry < now := Timestamp.lt_of_le_of_lt hwithin hnow
      rw [hclaim, decide_eq_true hpast]

/-- What an attempt writes is good from one renewal to the next, and runs out in time, exactly if the
interval is no longer than the seconds that the word holds and these do not lead beyond the
calendar. -/
theorem outlasts_renewals_iff (s : Settings) (ht : t.IsInstant) {spec : LeaseSpec}
    (hwrites : (Elector.ofSettings s).Writes t spec) :
    Outlasts s t spec ↔
      (s.renewInterval.nanos : Int) ≤
          Elector.word32 s.leaseDuration.secs * Timestamp.perSecond ∧
        (t.addSecs? (Elector.word32 s.leaseDuration.secs)).isSome := by
  obtain ⟨acquired, n, rfl⟩ := hwrites.eq_claim
  exact outlasts_claim_iff s ht acquired n

/-- The settings of an operator that are not given otherwise. -/
def usual : Settings := .named Settings.defaultName "me"

theorem outlasts_renewals_iff_usual :
    usual.validate = .ok () ∧
      (Elector.ofSettings usual).Writes ⟨1704067200, 0⟩
        ((Elector.ofSettings usual).claim ⟨1704067200, 0⟩ ⟨1704067200, 0⟩ 0) ∧
      Outlasts usual ⟨1704067200, 0⟩
        ((Elector.ofSettings usual).claim ⟨1704067200, 0⟩ ⟨1704067200, 0⟩ 0) := by
  have hwrites := Elector.writes_fresh (Elector.ofSettings usual) ⟨1704067200, 0⟩
  refine ⟨by decide, hwrites, ?_⟩
  exact (outlasts_renewals_iff usual (by decide) hwrites).mpr (by decide)

/-- A lease that is to last for one second more than the word holds. -/
def everlasting : Settings :=
  { usual with
    leaseName := "l"
    leaseNamespace := "n"
    leaseDuration := .ofMillis 2_147_483_648_000
    renewInterval := .ofMillis 2_147_483_647_000 }

/-- It is validated, and has run out when it is written. -/
theorem run_out_when_written :
    everlasting.validate = .ok () ∧
      (Elector.ofSettings everlasting).Writes ⟨1704067200, 0⟩
        ((Elector.ofSettings everlasting).claim ⟨1704067200, 0⟩ ⟨1704067200, 0⟩ 0) ∧
      LeaseSpec.isExpired?
        (some ((Elector.ofSettings everlasting).claim ⟨1704067200, 0⟩ ⟨1704067200, 0⟩ 0))
        ⟨1704067200, 0⟩ = some true ∧
      ¬Outlasts everlasting ⟨1704067200, 0⟩
        ((Elector.ofSettings everlasting).claim ⟨1704067200, 0⟩ ⟨1704067200, 0⟩ 0) := by
  have hexpired : LeaseSpec.isExpired?
      (some ((Elector.ofSettings everlasting).claim ⟨1704067200, 0⟩ ⟨1704067200, 0⟩ 0))
      ⟨1704067200, 0⟩ = some true := by decide
  refine ⟨by decide, Elector.writes_fresh _ _, hexpired, fun houtlasts => ?_⟩
  have hstands := houtlasts.stands ⟨1704067200, 0⟩ (by decide) (by decide)
  rw [hexpired] at hstands
  cases hstands

/-- What is written of one and a half seconds is one, and renewals may be further apart. -/
example :
    let s := { usual with leaseDuration := .ofMillis 1500, renewInterval := .ofMillis 1200 }
    s.validate = .ok () ∧ LeaseSpec.isExpired?
      (some ((Elector.ofSettings s).claim ⟨1704067200, 0⟩ ⟨1704067200, 0⟩ 0))
      ⟨1704067201, 100_000_000⟩ = some true := by decide

/-- Validated lengths of whole seconds that fit the word do. -/
theorem outlasts_renewals_of_fits {s : Settings} (hvalid : s.validate = .ok ()) (ht : t.IsInstant)
    (hwhole : s.leaseDuration = .ofSecs s.leaseDuration.secs)
    (hfits : s.leaseDuration.secs < 2147483648)
    (hcalendar : (t.addSecs? s.leaseDuration.secs).isSome) {spec : LeaseSpec}
    (hwrites : (Elector.ofSettings s).Writes t spec) : Outlasts s t spec := by
  obtain ⟨acquired, n, rfl⟩ := hwrites.eq_claim
  have hword : IsWord (s.leaseDuration.secs : Int) := by
    unfold IsWord
    omega
  rw [outlasts_claim_iff s ht, hword.word32_eq]
  refine ⟨?_, hcalendar⟩
  have hless : s.renewInterval.nanos < s.leaseDuration.nanos := by
    by_contra hge
    have hle : s.leaseDuration ≤ s.renewInterval := Nat.le_of_not_lt hge
    unfold Settings.validate at hvalid
    rw [if_pos hle] at hvalid
    split at hvalid <;> cases hvalid
  have hnanos : s.leaseDuration.nanos = s.leaseDuration.secs * 1000000000 :=
    congrArg Duration.nanos hwhole
  simp only [Timestamp.perSecond]
  omega

end Reconciler.Leadership
