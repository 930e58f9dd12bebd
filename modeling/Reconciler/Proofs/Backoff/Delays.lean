import Reconciler.Backoff

/-!
# The doubling wait without bounds

The wait after so many failures is `2^retries` seconds or the limit, whichever is shorter, and a
random part. The power is computed with a bound, and so is the number of milliseconds that the
random part is drawn from. `BackoffConfig.Prescribes` says without either which waits there may be.

The bound on the power is no shorter than any limit in whole seconds, so the shorter of the two is
the same (`floor_eq`). The number of milliseconds comes out smaller where it does not fit, so that
fewer waits are drawn, none of which is new (`prescribes_delay`).
-/

namespace Reconciler

namespace Duration

theorem le_def {a b : Duration} : a ≤ b ↔ a.nanos ≤ b.nanos := Iff.rfl

theorem lt_def {a b : Duration} : a < b ↔ a.nanos < b.nanos := Iff.rfl

theorem le_trans {a b c : Duration} (h : a ≤ b) (h' : b ≤ c) : a ≤ c := Nat.le_trans h h'

theorem ofSecs_mono {s t : Nat} (h : s ≤ t) : ofSecs s ≤ ofSecs t := Nat.mul_le_mul_right _ h

theorem nanos_min (a b : Duration) : (a.min b).nanos = Min.min a.nanos b.nanos := by
  unfold min
  split <;> omega

theorem min_eq_right {a b : Duration} (h : b ≤ a) : a.min b = b := by
  rw [le_def] at h
  unfold min
  split
  · exact congrArg Duration.mk (by omega)
  · rfl

theorem min_mono {a a' b b' : Duration} (ha : a ≤ a') (hb : b ≤ b') : a.min b ≤ a'.min b' := by
  rw [le_def, nanos_min, nanos_min]
  rw [le_def] at ha hb
  omega

theorem add_ofMillis_zero (a : Duration) : a.add (ofMillis 0) = a := rfl

theorem millisUp_ofSecs (secs : Nat) : (ofSecs secs).millisUp = secs * 1000 := by
  simp only [ofSecs, millisUp]
  omega

theorem millisUp_mono {a b : Duration} (h : a ≤ b) : a.millisUp ≤ b.millisUp :=
  Nat.div_le_div_right (Nat.add_le_add_right h _)

end Duration

namespace BackoffConfig

variable {c c' : BackoffConfig} {draw retries retries' : Nat} {d : Duration}

/-- `2^retries` seconds up to the limit, however great the power. -/
def exactFloor (c : BackoffConfig) (retries : Nat) : Duration :=
  (Duration.ofSecs (Nat.pow 2 retries)).min c.maxDelay

/-- The waits that there may be after so many failures: the random part is a whole number of
milliseconds shorter than the jitter, and there is none if the jitter is no millisecond long. -/
def Prescribes (c : BackoffConfig) (retries : Nat) (d : Duration) : Prop :=
  if c.jitter < .ofMillis 1 then d = c.exactFloor retries
  else ∃ ms < c.jitter.millis, d = (c.exactFloor retries).add (.ofMillis ms)

/-! ## The power -/

theorem pow_mono (h : retries ≤ retries') : Nat.pow 2 retries ≤ Nat.pow 2 retries' :=
  Nat.pow_le_pow_right (by decide) h

/-- From 64 failures on the bounded power stays where it is. -/
theorem bounded_pow (retries : Nat) :
    Nat.min (Nat.pow 2 (Nat.min retries 64)) Duration.maxSeconds =
      min (Nat.pow 2 retries) Duration.maxSeconds := by
  rcases Nat.le_total retries 64 with h | h
  · rw [show Nat.min retries 64 = retries from Nat.min_eq_left h]
  · have hbound : Duration.maxSeconds ≤ Nat.pow 2 retries := Nat.le_trans (by decide) (pow_mono h)
    rw [show Nat.min retries 64 = 64 from Nat.min_eq_right h]
    exact (Nat.min_eq_right hbound).symm

theorem floor_mono (c : BackoffConfig) (h : retries ≤ retries') :
    c.floor retries ≤ c.floor retries' := by
  have hpow := pow_mono h
  unfold floor
  rw [bounded_pow, bounded_pow]
  apply Duration.min_mono _ (Nat.le_refl _)
  exact Duration.ofSecs_mono (by omega)

/-- No limit up to the greatest number of seconds shows that the power is bounded. -/
theorem floor_eq (h : c.maxDelay ≤ .ofSecs Duration.maxSeconds) (retries : Nat) :
    c.floor retries = c.exactFloor retries := by
  unfold floor exactFloor
  rw [bounded_pow]
  rcases Nat.le_total (Nat.pow 2 retries) Duration.maxSeconds with hpow | hpow
  · rw [Nat.min_eq_left hpow]
  · have hbelow : c.maxDelay ≤ .ofSecs (Nat.pow 2 retries) :=
      Duration.le_trans h (Duration.ofSecs_mono hpow)
    rw [Nat.min_eq_right hpow, Duration.min_eq_right h, Duration.min_eq_right hbelow]

theorem exactFloor_mono (h : retries ≤ retries') :
    c.exactFloor retries ≤ c.exactFloor retries' :=
  Duration.min_mono (Duration.ofSecs_mono (pow_mono h)) (Nat.le_refl _)

theorem exactFloor_mono_maxDelay (h : c.maxDelay ≤ c'.maxDelay) (retries : Nat) :
    c.exactFloor retries ≤ c'.exactFloor retries :=
  Duration.min_mono (Nat.le_refl _) h

/-- Once the power has come up to the limit, the limit it is. -/
theorem exactFloor_eq_maxDelay (h : c.maxDelay ≤ .ofSecs (Nat.pow 2 retries))
    (hle : retries ≤ retries') : c.exactFloor retries' = c.maxDelay := by
  apply Duration.min_eq_right
  exact Duration.le_trans h (Duration.ofSecs_mono (pow_mono hle))

/-! ## The random part -/

theorem jitterMillis_le (c : BackoffConfig) : c.jitterMillis ≤ c.jitter.millis := Nat.mod_le _ _

theorem millis_eq_zero_iff : c.jitter.millis = 0 ↔ c.jitter < .ofMillis 1 := by
  rw [Duration.lt_def]
  simp only [Duration.millis, Duration.ofMillis]
  omega

/-- Whatever is drawn, and however the jitter was narrowed, the wait may be prescribed. -/
theorem prescribes_delay (h : c.maxDelay ≤ .ofSecs Duration.maxSeconds) (draw retries : Nat) :
    c.Prescribes retries (c.delay draw retries) := by
  have hle := c.jitterMillis_le
  unfold Prescribes delay
  rw [floor_eq h]
  split
  · next hsmall =>
    rw [← millis_eq_zero_iff] at hsmall
    rw [if_pos (by omega)]
  · next hgreat =>
    rw [← millis_eq_zero_iff] at hgreat
    split
    -- Nothing is drawn if nothing is left of the jitter.
    · exact ⟨0, Nat.pos_of_ne_zero hgreat, (Duration.add_ofMillis_zero _).symm⟩
    · next hdrawn =>
      refine ⟨draw % c.jitterMillis, ?_, rfl⟩
      exact Nat.lt_of_lt_of_le (Nat.mod_lt _ (Nat.pos_of_ne_zero hdrawn)) hle

/-- A jitter whose milliseconds fit is drawn from as a whole. -/
theorem exists_draw (h : c.maxDelay ≤ .ofSecs Duration.maxSeconds)
    (hfits : c.jitter.millis < 18_446_744_073_709_551_616) (hd : c.Prescribes retries d) :
    ∃ draw, c.delay draw retries = d := by
  have hmillis : c.jitterMillis = c.jitter.millis := Nat.mod_eq_of_lt hfits
  unfold Prescribes at hd
  unfold delay
  rw [floor_eq h, hmillis]
  split at hd
  · next hsmall =>
    refine ⟨0, ?_⟩
    rw [if_pos (millis_eq_zero_iff.mpr hsmall), hd]
  · next hgreat =>
    rw [← millis_eq_zero_iff] at hgreat
    obtain ⟨ms, hms, rfl⟩ := hd
    refine ⟨ms, ?_⟩
    rw [if_neg hgreat, Nat.mod_eq_of_lt hms]

/-- The waits that there may be lie in a window as long as the jitter. -/
theorem Prescribes.window (h : c.Prescribes retries d) :
    if c.jitter < .ofMillis 1 then d = c.exactFloor retries
    else c.exactFloor retries ≤ d ∧ d < (c.exactFloor retries).add c.jitter := by
  unfold Prescribes at h
  split at h
  · next hsmall =>
    rw [if_pos hsmall]
    exact h
  · next hgreat =>
    rw [if_neg hgreat]
    obtain ⟨ms, hms, rfl⟩ := h
    simp only [Duration.millis] at hms
    simp only [Duration.le_def, Duration.lt_def, Duration.add, Duration.ofMillis]
    omega

/-- No wait is longer than the limit and the random part together. -/
theorem delay_le (c : BackoffConfig) (draw retries : Nat) :
    c.delay draw retries ≤ c.maxDelay.add c.jitter := by
  have hfloor : (c.floor retries).nanos ≤ c.maxDelay.nanos := by
    rw [floor, Duration.nanos_min]
    exact Nat.min_le_right _ _
  show (c.delay draw retries).nanos ≤ c.maxDelay.nanos + c.jitter.nanos
  unfold delay
  split
  · exact Nat.le_trans hfloor (Nat.le_add_right _ _)
  · next hjitter =>
    have hdraw := Nat.mod_lt draw (Nat.pos_of_ne_zero hjitter)
    have hmillis : c.jitterMillis ≤ c.jitter.nanos / 1_000_000 := c.jitterMillis_le
    show (c.floor retries).nanos + draw % c.jitterMillis * 1_000_000 ≤ _
    omega

/-- The doubling wait is what it would be without bounds: a whole number of milliseconds on top of
the shorter of `2^retries` seconds and the limit, in a window as long as the jitter. -/
theorem delay_exact (c : BackoffConfig) (hlimit : c.maxDelay ≤ .ofSecs Duration.maxSeconds)
    (hsum : c.maxDelay.add c.jitter ≤ .longest) (retries : Nat) :
    c.floor retries = c.exactFloor retries ∧
      (∀ draw, c.Prescribes retries (c.delay draw retries) ∧ c.delay draw retries ≤ .longest ∧
        if c.jitter < .ofMillis 1 then c.delay draw retries = c.exactFloor retries
        else c.exactFloor retries ≤ c.delay draw retries ∧
          c.delay draw retries < (c.exactFloor retries).add c.jitter) ∧
      (c.jitter.millis < 18_446_744_073_709_551_616 →
        ∀ d, c.Prescribes retries d → ∃ draw, c.delay draw retries = d) ∧
      (∀ retries', retries ≤ retries' → c.exactFloor retries ≤ c.exactFloor retries') ∧
      (∀ c' : BackoffConfig, c.maxDelay ≤ c'.maxDelay →
        c.exactFloor retries ≤ c'.exactFloor retries) ∧
      (c.maxDelay ≤ .ofSecs (Nat.pow 2 retries) →
        ∀ retries', retries ≤ retries' → c.exactFloor retries' = c.maxDelay) := by
  refine ⟨floor_eq hlimit retries, fun draw => ?_, fun hfits d hd => exists_draw hlimit hfits hd,
    fun retries' hle => exactFloor_mono hle, fun c' hle => exactFloor_mono_maxDelay hle retries,
    fun hreached retries' hle => exactFloor_eq_maxDelay hreached hle⟩
  have hprescribes := prescribes_delay hlimit draw retries
  exact ⟨hprescribes, Duration.le_trans (c.delay_le draw retries) hsum, hprescribes.window⟩

/-- Of the usual limit and a jitter of 2^64 ms, which leaves nothing to draw from. -/
theorem delay_exact_narrowed :
    let c : BackoffConfig := { jitter := .ofMillis 18_446_744_073_709_551_616 }
    c.maxDelay ≤ .ofSecs Duration.maxSeconds ∧ c.maxDelay.add c.jitter ≤ .longest ∧
      c.Prescribes 3 (c.delay 5 3) ∧ c.delay 5 3 = .ofSecs 8 ∧ c.exactFloor 7 = .ofSecs 60 := by
  intro c
  have hlimit : c.maxDelay ≤ .ofSecs Duration.maxSeconds := by decide
  have hsum : c.maxDelay.add c.jitter ≤ .longest := by decide
  have hexact := delay_exact c hlimit hsum
  refine ⟨hlimit, hsum, ((hexact 3).2.1 5).1, by decide, ?_⟩
  exact (hexact 6).2.2.2.2.2 (by decide) 7 (by decide)

end BackoffConfig

end Reconciler
