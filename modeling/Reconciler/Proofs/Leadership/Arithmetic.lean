import Reconciler.Proofs.Leadership.Contest
import Reconciler.Proofs.Leadership.Renewing
import Reconciler.Proofs.Time.Reading

/-!
# The numbers of a lease

A lease comes from a server, so its numbers are whatever fits 32 bits and its last renewal whatever
RFC 3339 can name. None of that leads beyond the calendar: an attempt compares the exact time since
the last renewal with the seconds that the lease is good for. It comes to an end unless it is to take
over a lease whose count of changes of hands is the greatest one (`Returned.isSome_step?_iff`).

What is written is a different matter: lengths of time that do not fit are cut off. A release dates
the last renewal back by a second more than the lease lasts, both as words hold them, so that the
lease has run out for all who write the same length (`frees_iff`).
-/

namespace Reconciler.Leadership

variable {e : Elector} {answer : (q : LeaseCall) → q.Answer} {lease : Lease} {t now : Timestamp}

/-- A lease as a server returns it: its numbers fit 32 bits, and its last renewal is written as
RFC 3339 has it. -/
structure Returned (lease : Lease) : Prop where
  transitions : ∀ n, lease.spec.bind (·.leaseTransitions) = some n → IsWord n
  duration : ∀ n, lease.spec.bind (·.leaseDurationSeconds) = some n → IsWord n
  renewed : ∀ t, lease.spec.bind (·.renewTime) = some t → t.IsRfc3339

/-- More time has gone by since the last renewal than the lease is good for, if it says both. -/
def Outlived (spec : Option LeaseSpec) (now : Timestamp) : Prop :=
  ∀ renewed secs, spec.bind (·.renewTime) = some renewed →
    spec.bind (·.leaseDurationSeconds) = some secs →
      secs * Timestamp.perSecond < renewed.nanosUntil now

/-! ## Attempts -/

/-- Whatever a server returns, it is known whether it has run out, exactly. -/
theorem Returned.isExpired? (h : Returned lease) (hnow : now.IsReading) :
    ∃ expired, LeaseSpec.isExpired? lease.spec now = some expired ∧
      (expired = true ↔ Outlived lease.spec now) := by
  unfold LeaseSpec.isExpired? Outlived
  cases hrenewed : lease.spec.bind (·.renewTime) with
  | none => exact ⟨true, rfl, by simp⟩
  | some renewed =>
    cases hsecs : lease.spec.bind (·.leaseDurationSeconds) with
    | none => exact ⟨true, rfl, by simp⟩
    | some secs =>
      obtain ⟨hinstant, hfirst, hlast⟩ := (h.renewed renewed hrenewed).bounds
      have hword := h.duration secs hsecs
      unfold IsWord at hword
      have hends : (renewed.addSecs? secs).isSome = true := by
        apply Timestamp.isSome_addSecs?
        · simp only [Timestamp.earliestSecs]
          omega
        · simp only [Timestamp.latestSecs]
          omega
      obtain ⟨expiry, hexpiry⟩ := Option.isSome_iff_exists.mp hends
      refine ⟨decide (expiry < now), by simp [hexpiry], ?_⟩
      rw [decide_eq_true_iff, Timestamp.addSecs?_lt_iff hinstant hnow.2 hexpiry]
      constructor
      · intro hpast renewed' secs' heq heq'
        rwa [← Option.some.inj heq, ← Option.some.inj heq']
      · intro hpast
        exact hpast renewed secs rfl rfl

theorem Returned.isWord (h : Returned lease) : IsWord (Leadership.transitions lease) := by
  unfold Leadership.transitions
  cases hn : lease.spec.bind (·.leaseTransitions) with
  | none => exact ⟨by decide, by decide⟩
  | some n => exact h.transitions n hn

theorem Returned.nextCount? (h : Returned lease)
    (hless : Leadership.transitions lease ≠ 2147483647) :
    Elector.nextCount? (Leadership.transitions lease) = some (Leadership.transitions lease + 1) := by
  have hword := h.isWord
  unfold IsWord at hword
  exact nextCount?_eq_some_iff.mpr ⟨by omega, rfl⟩

/-- The lease is another's or no one's, and may be taken. -/
structure Elector.CanTake (e : Elector) (lease : Lease) (t : Timestamp) : Prop where
  other : lease.holder? ≠ some e.identity
  free : lease.holder? = none ∨ Outlived lease.spec t

/-- A lease that may be taken is taken, unless its count has no next one. -/
theorem Returned.step?_of_canTake (h : Returned lease) (hnow : now.IsReading)
    (htake : e.CanTake lease now) : e.step? (some lease) now =
      (Elector.nextCount? (Leadership.transitions lease)).map .takeOver := by
  obtain ⟨expired, hexpired, hiff⟩ := h.isExpired? hnow
  unfold Elector.step?
  simp only
  split
  · next holder hholder =>
    have hother : holder ≠ e.identity := fun heq => htake.other (hholder.trans (congrArg some heq))
    rcases htake.free with hnone | houtlived
    · rw [hholder] at hnone
      cases hnone
    · rw [if_neg hother, hexpired, hiff.mpr houtlived]
      rfl
  · rfl

theorem Returned.step?_of_not_canTake (h : Returned lease) (hnow : now.IsReading)
    (hkeep : ¬e.CanTake lease now) :
    e.step? (some lease) now = some .renew ∨ e.step? (some lease) now = some .wait := by
  obtain ⟨expired, hexpired, hiff⟩ := h.isExpired? hnow
  unfold Elector.step?
  simp only
  split
  · next holder hholder =>
    by_cases hours : holder = e.identity
    · exact .inl (if_pos hours)
    · have hlive : expired = false := by
        refine Bool.eq_false_iff.mpr fun hpast => hkeep ⟨?_, .inr (hiff.mp hpast)⟩
        rw [hholder]
        exact fun heq => hours (Option.some.inj heq)
      rw [if_neg hours, hexpired, hlive]
      exact .inr rfl
  · next hnone => exact absurd ⟨by rw [hnone]; exact nofun, .inl hnone⟩ hkeep

/-- There is a step for every lease but one that is to change hands after the greatest count. -/
theorem Returned.isSome_step?_iff (h : Returned lease) (hnow : now.IsReading) :
    (e.step? (some lease) now).isSome = true ↔
      ¬(e.CanTake lease now ∧ Leadership.transitions lease = 2147483647) := by
  by_cases htake : e.CanTake lease now
  · rw [h.step?_of_canTake hnow htake, Option.isSome_map, not_and]
    constructor
    · intro hsome _ hmax
      rw [hmax] at hsome
      cases hsome
    · intro hless
      rw [h.nextCount? (hless htake)]
      rfl
  · refine iff_of_true ?_ fun hmax => htake hmax.1
    rcases h.step?_of_not_canTake hnow htake with hstep | hstep
    · rw [hstep]
      rfl
    · rw [hstep]
      rfl

/-- An attempt that has read a lease ends if there is a step for it. -/
theorem isSome_tryAcquire (hread : answer .get = .ok (some lease)) :
    (e.tryAcquire.answeredBy answer).isSome = (e.step? (some lease) (answer .clock)).isSome := by
  simp only [Elector.tryAcquire, Plan.answeredBy, hread]
  cases e.step? (some lease) (answer .clock) with
  | none => rfl
  | some step =>
    cases step with
    | create => rfl
    | renew =>
      rw [Plan.answeredBy_map]
      rfl
    | takeOver n =>
      rw [Plan.answeredBy_map]
      rfl
    | wait => rfl

theorem asked_of_no_step (hread : answer .get = .ok (some lease))
    (hstep : e.step? (some lease) (answer .clock) = none) :
    e.tryAcquire.asked answer = [.clock, .get] := by
  simp only [Elector.tryAcquire, Plan.asked, hread, hstep]

/-- To take a lease over, one write is asked for. -/
theorem asked_takeOver {n : Int} (hread : answer .get = .ok (some lease))
    (hversion : lease.metadata.resourceVersion.isSome = true)
    (hstep : e.step? (some lease) (answer .clock) = some (.takeOver n)) :
    e.tryAcquire.asked answer =
      [.clock, .get, .replace (e.takenOver lease (answer .clock) n)] := by
  simp only [Elector.tryAcquire, Plan.asked, hread, hstep, Plan.asked_map]
  unfold Elector.replace
  rw [if_neg]
  · rfl
  · show ¬lease.metadata.resourceVersion.isNone = true
    rw [Option.isNone_iff_eq_none]
    intro hnone
    rw [hnone] at hversion
    cases hversion

/-! ## Words -/

theorem word32_eq_iff (n : Nat) : Elector.word32 n = n ↔ n < 2147483648 := by
  constructor
  · intro heq
    have hword := isWord_word32 n
    unfold IsWord at hword
    omega
  · intro hless
    apply IsWord.word32_eq
    unfold IsWord
    omega

/-- A word of 64 bits leaves as much of a multiple of `2^32` as the number does. -/
theorem word64_emod (n : Int) : Elector.word64 n % 4294967296 = n % 4294967296 := by
  have hmod : Elector.word64 n % 18446744073709551616 = n % 18446744073709551616 :=
    Int.bmod_emod
  omega

/-- The seconds that a release dates back by are never those that the lease lasts. -/
theorem word32_ne_backdate (e : Elector) : Elector.word32 e.leaseDuration.secs ≠ e.backdate := by
  have hword : Elector.word32 e.leaseDuration.secs % 4294967296 =
      e.leaseDuration.secs % 4294967296 := Int.bmod_emod
  have hsecs := word64_emod e.leaseDuration.secs
  have hback := word64_emod (Elector.word64 e.leaseDuration.secs + 1)
  unfold Elector.backdate
  omega

/-! ## Releases -/

/-- Dating back by a second more than others see the lease last stays on the calendar, and so does
what they make of it. -/
structure Elector.DatesBack (e : Elector) (t : Timestamp) : Prop where
  longer : word32 e.leaseDuration.secs < e.backdate
  earliest : Timestamp.earliestSecs ≤ t.secs - e.backdate
  latest : t.secs - e.backdate ≤ Timestamp.latestSecs
  expiry : Timestamp.earliestSecs ≤ t.secs - e.backdate + word32 e.leaseDuration.secs

/-- A release at an instant comes to its end, and what it writes has the lease run out from then
on. -/
def Elector.Frees (e : Elector) (answer : (q : LeaseCall) → q.Answer) (lease : Lease)
    (t : Timestamp) : Prop :=
  (e.release.answeredBy answer).isSome = true ∧
    ∃ stale, e.release.asked answer = [.get, .clock, .vacate stale] ∧
      ∀ now : Timestamp, now.IsReading → t ≤ now →
        LeaseSpec.isExpired? (vacated lease stale.truncated).spec now = some true

/-- An instant outside leap seconds is dated back to where it stands so many seconds before. -/
theorem staleTime?_eq_some_iff (ht : t.IsReading) (hcalendar : t.isOnCalendar = true)
    {stale : Timestamp} : e.staleTime? t = some stale ↔
      stale = ⟨t.secs - e.backdate, t.nanos⟩ ∧ stale.isOnCalendar = true := by
  unfold Elector.staleTime?
  rw [Option.filter_eq_some_iff, Timestamp.addSecs?_eq_some_iff ht.2, ← Int.sub_eq_add_neg]
  refine and_iff_left_of_imp ?_
  rintro ⟨rfl, hon⟩
  -- From one end of the calendar to the other is not as far as an instant can be moved.
  rw [Timestamp.isOnCalendar_iff] at hcalendar hon
  simp only [Bool.and_eq_true, decide_eq_true_eq]
  simp only [Timestamp.earliestSecs, Timestamp.latestSecs, Elector.farthestMove] at *
  omega

theorem asked_release (hread : answer .get = .ok (some lease))
    (hours : lease.holder? = some e.identity) :
    e.release.asked answer = .get :: .clock ::
      ((e.staleTime? (answer .clock)).map LeaseCall.vacate).toList := by
  simp only [Elector.release, Plan.asked, hread, Option.bind_some, hours, ne_eq, not_true_eq_false,
    if_false]
  cases e.staleTime? (answer .clock) <;> rfl

theorem isSome_release (hread : answer .get = .ok (some lease))
    (hours : lease.holder? = some e.identity) :
    (e.release.answeredBy answer).isSome = (e.staleTime? (answer .clock)).isSome := by
  simp only [Elector.release, Plan.answeredBy, hread, Option.bind_some, hours, ne_eq,
    not_true_eq_false, if_false]
  cases e.staleTime? (answer .clock) <;> rfl

/-- A release of what is not held, or cannot be read, comes to its end. -/
theorem isSome_release_of_other
    (hother : ∀ lease, answer .get = .ok (some lease) → lease.holder? ≠ some e.identity) :
    (e.release.answeredBy answer).isSome = true := by
  simp only [Elector.release, Plan.answeredBy]
  generalize answer .get = read at hother
  rcases read with err | _ | lease
  · rfl
  · rfl
  · simp only [Option.bind_some, ne_eq, hother lease rfl, not_false_eq_true, if_true]
    rfl

theorem isExpired?_vacated {secs : Int}
    (hsecs : lease.spec.bind (·.leaseDurationSeconds) = some secs) (stale : Timestamp) :
    LeaseSpec.isExpired? (vacated lease stale).spec now =
      (stale.addSecs? secs).map fun expiry => decide (expiry < now) := by
  obtain ⟨spec, hspec, hsecs⟩ := Option.bind_eq_some_iff.mp hsecs
  simp only [vacated, hspec, LeaseSpec.isExpired?, Option.getD_some, Option.bind_some, hsecs]

/-- What a release writes has run out for all who write the same length exactly if it dates back by
more than the lease lasts, within the calendar. -/
theorem frees_iff (hclock : answer .clock = t) (ht : t.IsReading)
    (hcalendar : t.isOnCalendar = true) (hread : answer .get = .ok (some lease))
    (hours : lease.holder? = some e.identity)
    (hsecs : lease.spec.bind (·.leaseDurationSeconds) =
      some (Elector.word32 e.leaseDuration.secs)) :
    e.Frees answer lease t ↔ e.DatesBack t := by
  have hne := word32_ne_backdate e
  have hlast := (Timestamp.isOnCalendar_iff.mp hcalendar).2
  have hmicros : t.nanos / 1000 * 1000 < Timestamp.perSecond :=
    Nat.lt_of_le_of_lt (Nat.div_mul_le_self ..) ht.2
  unfold Elector.Frees
  rw [isSome_release hread hours, asked_release hread hours, hclock]
  constructor
  · rintro ⟨hsome, stale, hasked, hpast⟩
    obtain ⟨stale', hstale⟩ := Option.isSome_iff_exists.mp hsome
    rw [hstale] at hasked
    obtain rfl : stale' = stale := by simpa using hasked
    obtain ⟨rfl, hon⟩ := (staleTime?_eq_some_iff ht hcalendar).mp hstale
    obtain ⟨hfirst, hend⟩ := Timestamp.isOnCalendar_iff.mp hon
    -- At the instant of the release itself the lease has run out already.
    have hnow := hpast t ht (Timestamp.le_refl t)
    rw [isExpired?_vacated hsecs] at hnow
    obtain ⟨expiry, hexpiry, hbefore⟩ := Option.map_eq_some_iff.mp hnow
    obtain ⟨rfl, hon'⟩ := (Timestamp.addSecs?_eq_some_iff hmicros).mp hexpiry
    have hless := Timestamp.lt_iff.mp (of_decide_eq_true hbefore)
    have hreach := (Timestamp.isOnCalendar_iff.mp hon').1
    simp only [Timestamp.truncated] at hless hreach
    exact ⟨by omega, hfirst, hend, hreach⟩
  · intro h
    have hon : (⟨t.secs - e.backdate, t.nanos⟩ : Timestamp).isOnCalendar = true :=
      Timestamp.isOnCalendar_iff.mpr ⟨h.earliest, h.latest⟩
    have hstale := (staleTime?_eq_some_iff (e := e) ht hcalendar).mpr ⟨rfl, hon⟩
    rw [hstale]
    refine ⟨rfl, _, rfl, fun now hnow hle => ?_⟩
    have hbefore : t.secs - e.backdate + Elector.word32 e.leaseDuration.secs < t.secs := by
      have hlonger := h.longer
      omega
    have hexpiry : (⟨t.secs - e.backdate + Elector.word32 e.leaseDuration.secs,
        t.nanos / 1000 * 1000⟩ : Timestamp).isOnCalendar = true :=
      Timestamp.isOnCalendar_iff.mpr ⟨h.expiry, Int.le_trans (Int.le_of_lt hbefore) hlast⟩
    have hpast : (⟨t.secs - e.backdate + Elector.word32 e.leaseDuration.secs,
        t.nanos / 1000 * 1000⟩ : Timestamp) < now :=
      Timestamp.lt_of_lt_of_le (Timestamp.lt_iff.mpr (.inl hbefore)) hle
    rw [isExpired?_vacated hsecs, (Timestamp.addSecs?_eq_some_iff hmicros).mpr ⟨rfl, hexpiry⟩]
    exact congrArg some (decide_eq_true hpast)

/-- Lengths of time that fit the word are written as they are, and dated back by a second more. -/
theorem datesBack_of_fits (ht : t.IsReading) (hcalendar : t.isOnCalendar = true)
    (hfits : e.leaseDuration.secs < 2147483648) : e.DatesBack t := by
  have hword := (word32_eq_iff e.leaseDuration.secs).mpr hfits
  have hback : e.backdate = e.leaseDuration.secs + 1 := by
    unfold Elector.backdate Elector.word64
    rw [Int.bmod_eq_of_le (n := e.leaseDuration.secs) (by omega) (by omega)]
    rw [Int.bmod_eq_of_le (by omega) (by omega)]
  have hfirst := ht.1
  have hlast := (Timestamp.isOnCalendar_iff.mp hcalendar).2
  have hreach : Timestamp.earliestSecs ≤ t.secs - (e.leaseDuration.secs + 1) := by
    simp only [Timestamp.earliestSecs]
    omega
  constructor
  · omega
  · omega
  · omega
  · omega

/-! ## All of it -/

/-- The lease is this elector's, and says as long as one that lasts as long would write. -/
structure Elector.Holds (e : Elector) (lease : Lease) : Prop where
  ours : lease.holder? = some e.identity
  secs : lease.spec.bind (·.leaseDurationSeconds) = some (word32 e.leaseDuration.secs)

/-- Whatever lease a server returns, an attempt comes to an end unless it is to take over a lease at
the greatest count, and its comparison is exact. A take-over counts one more, or writes nothing at
the greatest count, and how long the lease lasts is written as it is if it fits the word. A release
comes to an end if the instant that it dates back to is on the calendar, and leaves a lease that has
run out exactly if it dates back far enough, as it does for all lengths that fit. -/
theorem lease_arithmetic (e : Elector) (hclock : answer .clock = t) (ht : t.IsReading)
    (hcalendar : t.isOnCalendar = true) (hread : answer .get = .ok (some lease))
    (hreturned : Returned lease) :
    ((e.tryAcquire.answeredBy answer).isSome = true ↔
        ¬(e.CanTake lease t ∧ transitions lease = 2147483647)) ∧
      (∀ now : Timestamp, now.IsReading → ∃ expired,
        LeaseSpec.isExpired? lease.spec now = some expired ∧
          (expired = true ↔ Outlived lease.spec now)) ∧
      (e.CanTake lease t → lease.metadata.resourceVersion.isSome = true →
        transitions lease ≠ 2147483647 → ∃ written,
          e.tryAcquire.asked answer = [.clock, .get, .replace written] ∧
            transitions written = transitions lease + 1) ∧
      (e.CanTake lease t → transitions lease = 2147483647 →
        e.tryAcquire.asked answer = [.clock, .get]) ∧
      (∀ spec, e.Writes t spec → (spec.leaseDurationSeconds = some (e.leaseDuration.secs : Int) ↔
        e.leaseDuration.secs < 2147483648)) ∧
      ((e.release.answeredBy answer).isSome = true ↔ (lease.holder? = some e.identity →
        Timestamp.earliestSecs ≤ t.secs - e.backdate ∧
          t.secs - e.backdate ≤ Timestamp.latestSecs)) ∧
      (e.Holds lease → (e.Frees answer lease t ↔ e.DatesBack t)) ∧
      (e.leaseDuration.secs < 2147483648 → e.DatesBack t) := by
  refine ⟨?_, fun now hnow => hreturned.isExpired? hnow, fun htake hversion hless => ?_,
    fun htake hmax => ?_, fun spec hwrites => ?_, ?_,
    fun h => frees_iff hclock ht hcalendar hread h.ours h.secs, datesBack_of_fits ht hcalendar⟩
  · rw [isSome_tryAcquire hread, hclock]
    exact hreturned.isSome_step?_iff ht
  · have hstep : e.step? (some lease) (answer .clock) = some (.takeOver (transitions lease + 1)) := by
      rw [hclock, hreturned.step?_of_canTake ht htake, hreturned.nextCount? hless]
      rfl
    exact ⟨_, asked_takeOver hread hversion hstep, rfl⟩
  · apply asked_of_no_step hread
    rw [hclock, hreturned.step?_of_canTake ht htake, hmax]
    rfl
  · obtain ⟨acquired, n, rfl⟩ := hwrites.eq_claim
    rw [← word32_eq_iff]
    exact Option.some_inj
  · by_cases hours : lease.holder? = some e.identity
    · rw [isSome_release hread hours, hclock, Option.isSome_iff_exists]
      simp only [staleTime?_eq_some_iff ht hcalendar, hours, true_imp_iff, exists_eq_left,
        Timestamp.isOnCalendar_iff]
    · refine iff_of_true (isSome_release_of_other fun other hother => ?_) (absurd · hours)
      rw [hread] at hother
      exact Option.some.inj (Except.ok.inj hother) ▸ hours

/-! ## Take-overs -/

/-- A server that returns one lease and accepts every write, at an instant. -/
def accepting (lease : Lease) (now : Timestamp) : (q : LeaseCall) → q.Answer
  | .clock => now
  | .get => .ok (some lease)
  | .create _ => Except.ok ()
  | .replace _ => Except.ok ()
  | .vacate _ => Except.ok ()

/-- A lease that no one holds, or one who renewed it at the beginning of 2020. -/
def changedHands (transitions : Int) (holder : Option String) : Lease where
  metadata := { name := some "l", ns := some "n", resourceVersion := some "42" }
  spec := some
    { holderIdentity := holder
      leaseDurationSeconds := some 15
      leaseTransitions := some transitions
      renewTime := some ⟨1577836800, 0⟩ }

theorem returned_changedHands {n : Int} (h : IsWord n) (holder : Option String) :
    Returned (changedHands n holder) := by
  refine ⟨fun m hm => ?_, fun m hm => ?_, fun renewed hrenewed => ?_⟩
  · obtain rfl : n = m := Option.some.inj hm
    exact h
  · obtain rfl : 15 = m := Option.some.inj hm
    exact ⟨by decide, by decide⟩
  · obtain rfl : ⟨1577836800, 0⟩ = renewed := Option.some.inj hrenewed
    exact ⟨"2020-01-01T00:00:00.000000Z", '2', _, rfl, rfl, by decide +kernel⟩

theorem canTake_changedHands (n : Int) {holder : Option String} (hother : holder ≠ some "me") :
    (Elector.ofSettings usual).CanTake (changedHands n holder) ⟨1704067200, 0⟩ := by
  refine ⟨hother, .inr fun renewed secs hrenewed hsecs => ?_⟩
  obtain rfl : ⟨1577836800, 0⟩ = renewed := Option.some.inj hrenewed
  obtain rfl : 15 = secs := Option.some.inj hsecs
  decide

/-- A lease that has changed hands 41 times does so once more. -/
theorem lease_arithmetic_once_more :
    usual.validate = .ok () ∧ Returned (changedHands 41 (some "other")) ∧
      (∃ written, (Elector.ofSettings usual).tryAcquire.asked
          (accepting (changedHands 41 (some "other")) ⟨1704067200, 0⟩) =
            [.clock, .get, .replace written] ∧ transitions written = 42) ∧
      (Elector.ofSettings usual).DatesBack ⟨1704067200, 0⟩ := by
  have hreading : (⟨1704067200, 0⟩ : Timestamp).IsReading := ⟨by decide, by decide⟩
  have hreturned := returned_changedHands (n := 41) ⟨by decide, by decide⟩ (some "other")
  have htake := canTake_changedHands 41 (show some "other" ≠ some "me" by decide)
  have hread : accepting (changedHands 41 (some "other")) ⟨1704067200, 0⟩ .get =
      .ok (some (changedHands 41 (some "other"))) := rfl
  obtain ⟨-, -, hcounts, -, -, -, -, hfits⟩ :=
    lease_arithmetic (Elector.ofSettings usual) rfl hreading (by decide) hread hreturned
  exact ⟨by decide, hreturned, hcounts htake rfl (by decide), hfits (by decide)⟩

/-- At the greatest count there is no next one: the attempt does not come to an end, and writes
nothing. -/
theorem no_end_at_greatest_count :
    usual.validate = .ok () ∧ Returned (changedHands 2147483647 none) ∧
      (Elector.ofSettings usual).CanTake (changedHands 2147483647 none) ⟨1704067200, 0⟩ ∧
      transitions (changedHands 2147483647 none) = 2147483647 ∧
      (Elector.ofSettings usual).tryAcquire.answeredBy
        (accepting (changedHands 2147483647 none) ⟨1704067200, 0⟩) = none ∧
      (Elector.ofSettings usual).tryAcquire.asked
        (accepting (changedHands 2147483647 none) ⟨1704067200, 0⟩) = [.clock, .get] := by
  have hreturned := returned_changedHands (n := 2147483647) ⟨by decide, by decide⟩ none
  have htake := canTake_changedHands 2147483647 (show none ≠ some "me" by decide)
  have hread : accepting (changedHands 2147483647 none) ⟨1704067200, 0⟩ .get =
      .ok (some (changedHands 2147483647 none)) := rfl
  have hstep : (Elector.ofSettings usual).step? (some (changedHands 2147483647 none))
      ⟨1704067200, 0⟩ = none := hreturned.step?_of_canTake ⟨by decide, by decide⟩ htake
  refine ⟨by decide, hreturned, htake, rfl, ?_, asked_of_no_step hread hstep⟩
  rw [← Option.not_isSome_iff_eq_none, isSome_tryAcquire hread]
  exact Option.not_isSome_iff_eq_none.mpr hstep

end Reconciler.Leadership
