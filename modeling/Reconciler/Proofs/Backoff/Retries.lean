import Reconciler.Proofs.Backoff.Delays

/-!
# Failures in a row up to the greatest word and past it

The count of failures is a 32-bit word that starts over after its greatest value, whereas the number
that is waited for stops there. So up to `2^32 - 1` failures in a row the count is their number, the
next wait is that of the greatest word as it should be, and it leaves the count at none. The waits
after it are those after a clear.

A doubling policy shows that in its waits unless its limit is two seconds or less, so that all of
them are as long (`paced_iff`).
-/

namespace Reconciler

namespace FailureCount

/-- The greatest count. -/
def most : Nat := 4_294_967_295

variable {policy : BackoffPolicy} {cancelled : Nat → Option Nat} {n : Nat}

theorem retries_record (c : FailureCount) : c.record.1.retries = (c.retries + 1) % 4294967296 := by
  show (c.word + 1).toNat = _
  rw [UInt32.toNat_add]
  rfl

theorem waits_record (c : FailureCount) : c.record.2 = min (c.retries + 1) most := rfl

/-- The count after so many failures in a row, where the `m`-th wait may be cancelled. -/
def after (policy : BackoffPolicy) (cancelled : Nat → Option Nat) : Nat → FailureCount
  | 0 => clear
  | n + 1 => ((after policy cancelled n).waitOnError policy (cancelled (n + 1))).1

/-- The wait after the `n`-th failure in a row. -/
def nthWait (policy : BackoffPolicy) (cancelled : Nat → Option Nat) (n : Nat) : Wait :=
  ((after policy cancelled (n - 1)).waitOnError policy (cancelled n)).2

/-- How the wait after each failure and the count are to go on, up to the `n`-th failure. -/
def Counts (policy : BackoffPolicy) (cancelled : Nat → Option Nat) (n : Nat) : Prop :=
  ∀ m, 1 ≤ m → m ≤ n →
    nthWait policy cancelled m = Wait.run (policy (min m most)) (cancelled m) ∧
      (after policy cancelled m).retries = min m most

/-- No wait up to the `n`-th is shorter than one before it, if none is cancelled. -/
def Paced (policy : BackoffPolicy) (n : Nat) : Prop :=
  ∀ m k, 1 ≤ m → m ≤ k → k ≤ n →
    (nthWait policy (fun _ => none) m).millis ≤ (nthWait policy (fun _ => none) k).millis

/-! ## The count -/

/-- Recording is all that a wait does to the count, so a count is a number of failures as far as a
word can tell. -/
theorem retries_after (policy : BackoffPolicy) (cancelled : Nat → Option Nat) (n : Nat) :
    (after policy cancelled n).retries = n % 4294967296 := by
  induction n with
  | zero => rfl
  | succ n ih =>
    show (after policy cancelled n).record.1.retries = _
    rw [retries_record, ih]
    omega

theorem nthWait_succ (policy : BackoffPolicy) (cancelled : Nat → Option Nat) (n : Nat) :
    nthWait policy cancelled (n + 1) =
      Wait.run (policy (min (n % 4294967296 + 1) most)) (cancelled (n + 1)) := by
  show Wait.run (policy (after policy cancelled n).record.2) (cancelled (n + 1)) = _
  rw [waits_record, retries_after]

/-- The wait is right one failure longer than the count. -/
theorem nthWait_eq (hpos : 1 ≤ n) (hn : n ≤ 4294967296) :
    nthWait policy cancelled n = Wait.run (policy (min n most)) (cancelled n) := by
  obtain ⟨n, rfl⟩ : ∃ m, n = m + 1 := ⟨n - 1, by omega⟩
  rw [nthWait_succ, Nat.mod_eq_of_lt (by omega)]

theorem counts_iff : Counts policy cancelled n ↔ n < 4294967296 := by
  constructor
  · intro h
    rcases Nat.lt_or_ge n 4294967296 with hn | hn
    · exact hn
    -- Here the word starts over.
    · have hcount := (h 4294967296 (by decide) hn).2
      rw [retries_after] at hcount
      exact absurd hcount (by decide)
  · intro hn m hpos hm
    refine ⟨nthWait_eq hpos (by omega), ?_⟩
    rw [retries_after, Nat.mod_eq_of_lt (by omega)]
    unfold most
    omega

/-! ## The waits of the doubling policy -/

variable {c : BackoffConfig} {draw : Nat}

theorem delay_of_no_jitter (hjitter : c.jitter = .zero) (draw retries : Nat) :
    c.delay draw retries = c.floor retries := by
  have hmillis : c.jitterMillis = 0 := by
    rw [BackoffConfig.jitterMillis, hjitter]
    rfl
  rw [BackoffConfig.delay, if_pos hmillis]

theorem millis_nthWait_succ (hjitter : c.jitter = .zero) (draw n : Nat) :
    (nthWait (c.policy draw) (fun _ => none) (n + 1)).millis =
      (c.floor (min (n % 4294967296 + 1) most)).millisUp := by
  rw [nthWait_succ, BackoffConfig.policy, delay_of_no_jitter hjitter]
  rfl

/-- With a limit of two seconds or less there is nothing to double. -/
theorem floor_of_short (hshort : c.maxDelay ≤ .ofSecs 2) {retries : Nat} (hpos : 1 ≤ retries) :
    c.floor retries = c.maxDelay := by
  have hlimit : Duration.ofSecs 2 ≤ .ofSecs Duration.maxSeconds := Duration.ofSecs_mono (by decide)
  rw [BackoffConfig.floor_eq (Duration.le_trans hshort hlimit)]
  have hreached : c.maxDelay ≤ .ofSecs (Nat.pow 2 1) := hshort
  exact BackoffConfig.exactFloor_eq_maxDelay hreached hpos

/-- With a longer one the wait at the greatest count is longer than after the first failure. -/
theorem floor_one_lt_most (hlong : ¬c.maxDelay ≤ .ofSecs 2) :
    (c.floor 1).millisUp < (c.floor most).millisUp := by
  have hlimit : 2_000_000_000 < c.maxDelay.nanos := Nat.lt_of_not_le hlong
  have hfirst : (c.floor 1).nanos ≤ 2_000_000_000 := by
    rw [BackoffConfig.floor, Duration.nanos_min]
    exact Nat.min_le_left _ _
  have hsecond : 2_000_000_000 < (c.floor 2).nanos := by
    rw [BackoffConfig.floor, Duration.nanos_min]
    exact Nat.lt_min.mpr ⟨by decide, hlimit⟩
  calc (c.floor 1).millisUp < (c.floor 2).millisUp := by
        simp only [Duration.millisUp]
        omega
    _ ≤ (c.floor most).millisUp := Duration.millisUp_mono (c.floor_mono (by decide))

theorem paced_iff (hjitter : c.jitter = .zero) :
    Paced (c.policy draw) n ↔ n ≤ 4294967296 ∨ c.maxDelay ≤ .ofSecs 2 := by
  constructor
  · intro h
    rcases Nat.lt_or_ge 4294967296 n with hn | hn
    · right
      apply Decidable.byContradiction
      intro hlong
      -- The wait at the greatest count, and the one after it.
      have hle := h (4294967295 + 1) (4294967296 + 1) (by decide) (by decide) hn
      rw [millis_nthWait_succ hjitter, millis_nthWait_succ hjitter] at hle
      exact Nat.lt_irrefl _ (Nat.lt_of_lt_of_le (floor_one_lt_most hlong) hle)
    · exact .inl hn
  · intro h m k hpos hle hk
    obtain ⟨m, rfl⟩ : ∃ m', m = m' + 1 := ⟨m - 1, by omega⟩
    obtain ⟨k, rfl⟩ : ∃ k', k = k' + 1 := ⟨k - 1, by omega⟩
    rw [millis_nthWait_succ hjitter, millis_nthWait_succ hjitter]
    apply Duration.millisUp_mono
    rcases h with hn | hshort
    · apply c.floor_mono
      rw [Nat.mod_eq_of_lt (by omega), Nat.mod_eq_of_lt (by omega)]
      omega
    · have hpos : ∀ i, 1 ≤ min (i % 4294967296 + 1) most := by
        intro i
        unfold most
        omega
      rw [floor_of_short hshort (hpos m), floor_of_short hshort (hpos k)]
      exact Nat.le_refl _

/-- Each failure counts as it should as long as there are fewer of them in a row than a word has
values. Without a random part the waits of the doubling policy never get shorter in that time or one
failure longer, and only a limit of two seconds or less hides that they do after it. -/
theorem waits_grow_iff (n : Nat) :
    (∀ policy cancelled, Counts policy cancelled n ↔ n < 4294967296) ∧
      ∀ (c : BackoffConfig) (draw : Nat), c.jitter = .zero →
        (Paced (c.policy draw) n ↔ n ≤ 4294967296 ∨ c.maxDelay ≤ .ofSecs 2) :=
  ⟨fun _ _ => counts_iff, fun _ _ hjitter => paced_iff hjitter⟩

/-- The usual backoff without a random part. -/
def steady : BackoffConfig := { jitter := .zero }

theorem waits_grow_iff_steady :
    steady.jitter = .zero ∧ Counts (steady.policy 0) (fun _ => none) 4294967295 ∧
      Paced (steady.policy 0) 4294967296 := by
  have hcounts := (waits_grow_iff 4294967295).1 (steady.policy 0) fun _ => none
  have hpaced := (waits_grow_iff 4294967296).2 steady 0 rfl
  exact ⟨rfl, hcounts.mpr (by decide), hpaced.mpr (.inl (Nat.le_refl _))⟩

/-- After `2^32` failures in a row the count is none, and the next wait is two seconds, after one of
sixty. -/
theorem count_starts_over :
    (after (steady.policy 0) (fun _ => none) 4294967296).retries = 0 ∧
      min 4294967296 most = 4294967295 ∧
      (nthWait (steady.policy 0) (fun _ => none) 4294967296).millis = 60000 ∧
      (nthWait (steady.policy 0) (fun _ => none) (4294967296 + 1)).millis = 2000 := by
  have hjitter : steady.jitter = .zero := rfl
  refine ⟨?_, by decide, ?_, ?_⟩
  · rw [retries_after]
  · have hwait := millis_nthWait_succ hjitter 0 4294967295
    rwa [show 4294967295 + 1 = 4294967296 from rfl] at hwait
  · rw [millis_nthWait_succ hjitter]
    decide

end FailureCount

end Reconciler
