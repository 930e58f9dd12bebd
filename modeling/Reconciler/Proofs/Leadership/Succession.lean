import Reconciler.Proofs.Leadership.Lineage

/-!
# Who succeeds whom

As long as nobody gives the lease back, it passes from one elector to another only once it has run
out. An attempt reads the clock first and the lease after that, so a lease that had run out when it
was read had done so before the attempt began; and it writes only on top of what it read, so nobody
has renewed the lease in between. For the same reason, of all attempts that read one version only one
succeeds.

The history is followed from the creation on: what a version says is what its task wrote, and the
instant of acquisition and the count of changes of hands come down from the version before it.
-/

namespace Reconciler.Leadership

/-! ## Words -/

/-- The number fits a word of 32 bits with a sign. -/
def IsWord (n : Int) : Prop := -2147483648 ≤ n ∧ n < 2147483648

theorem isWord_word32 (n : Int) : IsWord (Elector.word32 n) := by
  have hlow := @Int.le_bmod n 4294967296 (by decide)
  have hhigh := @Int.bmod_lt n 4294967296 (by decide)
  unfold IsWord Elector.word32
  omega

theorem IsWord.word32_eq {n : Int} (h : IsWord n) : Elector.word32 n = n := by
  obtain ⟨hlow, hhigh⟩ := h
  unfold Elector.word32
  rw [Int.bmod_eq_of_le] <;> omega

theorem nextCount?_eq_some_iff {n m : Int} :
    Elector.nextCount? n = some m ↔ n < 2147483647 ∧ m = n + 1 := by
  unfold Elector.nextCount?
  split
  · next hless => rw [Option.some_inj, eq_comm, and_iff_right hless]
  · next hmax => exact iff_of_false nofun fun h => hmax h.1

theorem IsWord.nextCount? {n m : Int} (h : IsWord n) (hnext : Elector.nextCount? n = some m) :
    IsWord m := by
  obtain ⟨hless, rfl⟩ := nextCount?_eq_some_iff.mp hnext
  unfold IsWord at *
  omega

/-! ## What a version says -/

/-- The version that an attempt made: its elector has held the lease since an instant, as the holder
after so many changes of hands. -/
structure Claimed {ι : Type} (e : Elector) (t : Task ι) (lease : Lease) (acquired : Timestamp)
    (n : Int) : Prop where
  spec : lease.spec = some (e.claim t.since.truncated acquired n)
  truncated : acquired.truncated = acquired
  word : IsWord n

theorem Claimed.transitions_eq {ι : Type} {e : Elector} {t : Task ι} {lease : Lease}
    {acquired : Timestamp} {n : Int} (h : Claimed e t lease acquired n) :
    Leadership.transitions lease = n := by
  rw [Leadership.transitions, h.spec]
  rfl

/-- One elector takes over the lease of another, which had run out before the attempt began. -/
structure TakesOver (former next : Elector) (since : Timestamp) (held lease : LeaseSpec) :
    Prop where
  before : held.holderIdentity = some former.identity
  after : lease.holderIdentity = some next.identity
  expired : ∃ renewed expiry, held.renewTime = some renewed ∧
    held.leaseDurationSeconds = some (former.leaseDuration.secs : Int) ∧
    renewed.addSecs? former.leaseDuration.secs = some expiry ∧ expiry < since
  acquired : lease.acquireTime = some since.truncated
  transitions : ∃ n, held.leaseTransitions = some n ∧
    (n < 2147483647 → lease.leaseTransitions = some (n + 1))

/-- An elector renews the lease that it holds. -/
structure Renews (e : Elector) (held lease : LeaseSpec) : Prop where
  before : held.holderIdentity = some e.identity
  after : lease.holderIdentity = some e.identity
  acquired : lease.acquireTime = held.acquireTime
  transitions : lease.leaseTransitions = held.leaseTransitions

namespace Contest

variable {ι : Type} {electors : ι → Elector} {c : Contest ι}

/-- Without a release, every version says what its attempt wrote. -/
theorem Kept.claimed (h : Kept electors c) (hattempts : ∀ t ∈ c.tasks, t.errand = .attempt)
    {v : Version} {older : List Version} (hv : v :: older <:+ c.versions) :
    ∃ t acquired n, c.tasks[v.task]? = some t ∧
      Claimed (electors t.owner) t v.lease acquired n := by
  induction older generalizing v with
  | nil =>
    obtain ⟨t, ht, -, hmade⟩ := h.made v [] hv
    have hattempt := hattempts t (List.mem_of_getElem? ht)
    generalize hlease : v.lease = lease at hmade
    cases hmade with
    | created version =>
      exact ⟨t, t.since.truncated, 0, ht, rfl, t.since.truncated_truncated,
        by decide, by decide⟩
  | cons w rest ih =>
    obtain ⟨u, acquired, n, hu, hclaimed⟩ := ih ((List.suffix_cons v _).trans hv)
    obtain ⟨t, ht, -, hmade⟩ := h.made v (w :: rest) hv
    have hattempt := hattempts t (List.mem_of_getElem? ht)
    obtain ⟨version, claim, hlease, hclaims⟩ := hmade.claims_of_attempt hattempt
    rw [hlease]
    cases hclaims with
    | renewed hours =>
      refine ⟨t, acquired, n, ht, ?_, hclaimed.truncated, hclaimed.word⟩
      simp [stamped, Elector.renewed, hclaimed.spec, Elector.claim, hclaimed.truncated]
    | takenOver hfree hnext =>
      have hword : IsWord (transitions w.lease) := hclaimed.transitions_eq ▸ hclaimed.word
      exact ⟨t, t.since.truncated, _, ht, rfl, t.since.truncated_truncated, hword.nextCount? hnext⟩

/-- Of two versions in a row, the later one takes over from the other or renews it. -/
theorem Kept.takesOver_or_renews (h : Kept electors c)
    (hid : Function.Injective fun i => (electors i).identity)
    (hfit : ∀ i, (electors i).leaseDuration.secs < 2147483648)
    (hattempts : ∀ t ∈ c.tasks, t.errand = .attempt) {v w : Version} {older : List Version}
    (hv : v :: w :: older <:+ c.versions) :
    ∃ t u held lease, c.tasks[v.task]? = some t ∧ c.tasks[w.task]? = some u ∧
      w.lease.spec = some held ∧ v.lease.spec = some lease ∧
      (t.owner ≠ u.owner ∧
          TakesOver (electors u.owner) (electors t.owner) t.since held lease ∨
        t.owner = u.owner ∧ Renews (electors t.owner) held lease) := by
  obtain ⟨u, acquired, n, hu, hclaimed⟩ := h.claimed hattempts ((List.suffix_cons v _).trans hv)
  obtain ⟨t, ht, -, hmade⟩ := h.made v (w :: older) hv
  have hattempt := hattempts t (List.mem_of_getElem? ht)
  obtain ⟨version, claim, hlease, hclaims⟩ := hmade.claims_of_attempt hattempt
  have hholder : w.lease.holder? = some (electors u.owner).identity := by
    rw [Lease.holder?, hclaimed.spec]
    rfl
  rw [hlease]
  cases hclaims with
  | renewed hours =>
    have howner : t.owner = u.owner := hid (Option.some.inj (hours.symm.trans hholder))
    refine ⟨t, u, _, _, ht, hu, hclaimed.spec, rfl, .inr ⟨howner, ?_, rfl, ?_, ?_⟩⟩
    · rw [howner]
      rfl
    · simp [Elector.claim, hclaimed.spec, hclaimed.truncated]
    · simp [Elector.claim, hclaimed.spec]
  | takenOver hfree hnext =>
    obtain ⟨hother, hexpired⟩ := hfree _ hholder
    have howner : t.owner ≠ u.owner := fun heq => hother (by rw [heq])
    have hword : IsWord ((electors u.owner).leaseDuration.secs : Int) := by
      have hsmall := hfit u.owner
      unfold IsWord
      omega
    have hsecs : ((electors u.owner).claim u.since.truncated acquired n).leaseDurationSeconds =
        some ((electors u.owner).leaseDuration.secs : Int) := by
      simp only [Elector.claim, hword.word32_eq]
    rw [hclaimed.spec] at hexpired
    obtain ⟨expiry, hexpiry, hpast⟩ := (LeaseSpec.isExpired?_iff rfl hsecs).mp hexpired
    refine ⟨t, u, _, _, ht, hu, hclaimed.spec, rfl, .inl ⟨howner, rfl, rfl, ?_, rfl, n, rfl, ?_⟩⟩
    · exact ⟨_, expiry, rfl, hsecs, hexpiry, hpast⟩
    · intro _
      obtain ⟨-, rfl⟩ := nextCount?_eq_some_iff.mp hnext
      rw [← hclaimed.transitions_eq]
      rfl

/-- Of all attempts that read the same version, or that there is none, at most one succeeds. -/
theorem Kept.eq_of_read (h : Kept electors c) {j k : Nat} {t u : Task ι}
    (ht : c.tasks[j]? = some t) (hu : c.tasks[k]? = some u) (htwon : t.Succeeded)
    (huwon : u.Succeeded) (hread : t.read = u.read) : j = k := by
  obtain ⟨hattempt, v, hv, rfl⟩ := h.succeeded ht htwon
  obtain ⟨hattempt', w, hw, rfl⟩ := h.succeeded hu huwon
  obtain ⟨older, hv⟩ := exists_older hv
  obtain ⟨older', hw⟩ := exists_older hw
  obtain ⟨t', ht', -, hmade⟩ := h.made v older hv
  obtain ⟨u', hu', -, hmade'⟩ := h.made w older' hw
  obtain rfl := Option.some.inj (ht.symm.trans ht')
  obtain rfl := Option.some.inj (hu.symm.trans hu')
  have hstored : some (older.head?.map (·.lease)) = some (older'.head?.map (·.lease)) := by
    rw [← hmade.read_of_attempt hattempt, ← hmade'.read_of_attempt hattempt', hread]
  rw [h.eq_of_older hv hw (Option.some.inj hstored)]

/-- Electors of different identities compete for a lease that is not there at first, and nobody gives
it back. Whenever the write of one is accepted on top of a version written by another, its attempt
began after that version had run out; only then do the holder and the instant of acquisition change,
and the changes of hands are counted; and of all attempts that read one version at most one
succeeds. -/
theorem live_lease_not_overwritten (hid : Function.Injective fun i => (electors i).identity)
    (hfit : ∀ i, (electors i).leaseDuration.secs < 2147483648) {now : Timestamp}
    (hnow : now.IsReading) (hrun : Run electors (initial now) c)
    (hattempts : ∀ t ∈ c.tasks, t.errand = .attempt) :
    (∀ v w older, v :: w :: older <:+ c.versions →
      ∃ t u held lease, c.tasks[v.task]? = some t ∧ c.tasks[w.task]? = some u ∧
        w.lease.spec = some held ∧ v.lease.spec = some lease ∧
        (t.owner ≠ u.owner ∧
            TakesOver (electors u.owner) (electors t.owner) t.since held lease ∨
          t.owner = u.owner ∧ Renews (electors t.owner) held lease)) ∧
    ∀ (j k : Nat) (t u : Task ι), c.tasks[j]? = some t → c.tasks[k]? = some u →
      t.Succeeded → u.Succeeded → t.read = u.read → j = k := by
  have h : Kept electors c := hrun.kept (.initial hnow)
  refine ⟨fun v w older hv => h.takesOver_or_renews hid hfit hattempts hv, ?_⟩
  intro j k t u ht hu htwon huwon hread
  exact h.eq_of_read ht hu htwon huwon hread

/-! ## A take-over -/

/-- Two electors whose leases last 15 seconds. -/
def pair (second : Bool) : Elector where
  leaseName := "lock"
  ns := "default"
  identity := if second then "b" else "a"
  fieldManager := "operator"
  leaseDuration := .ofSecs 15

theorem pair_injective : Function.Injective fun i => (pair i).identity := by
  intro i j h
  cases i <;> cases j <;> first | rfl | exact absurd h (by decide)

/-- The first elector creates the lease, and the second takes it over after twenty seconds. -/
theorem run_takenOver :
    ∃ c, Run pair (initial ⟨0, 0⟩) c ∧ (∀ t ∈ c.tasks, t.errand = .attempt) ∧
      ∃ v w, c.versions = [v, w] := by
  let accepted : Except Error Unit := .ok ()
  have began : Run pair (initial ⟨0, 0⟩) _ := .snoc .nil (.begun false .attempt)
  have read := began.turns (Asks.read (k := 0) ⟨rfl, rfl⟩)
  have created := read.turns (Asks.written (k := 0) (q := .create _) ⟨rfl, rfl⟩ accepted rfl
    (by decide : Fresh _ "1") rfl)
  have later := created.snoc (.turned (.passed (by decide : _ ≤ (⟨20, 0⟩ : Timestamp))
    ⟨by decide, by decide⟩))
  have began' := later.snoc (.begun true .attempt)
  have read' := began'.turns (Asks.read (k := 1) ⟨rfl, rfl⟩)
  have replaced := read'.turns (Asks.written (k := 1) (q := .replace _) ⟨rfl, rfl⟩ accepted rfl
    (by decide : Fresh _ "2") rfl)
  exact ⟨_, replaced, by decide, _, _, rfl⟩

/-- The second elector could take the lease over, as it had run out. -/
theorem live_lease_not_overwritten_takenOver :
    (Function.Injective fun i => (pair i).identity) ∧
    (∀ i, (pair i).leaseDuration.secs < 2147483648) ∧ (⟨0, 0⟩ : Timestamp).IsReading ∧
    ∃ c, Run pair (initial ⟨0, 0⟩) c ∧ (∀ t ∈ c.tasks, t.errand = .attempt) ∧
      ∃ v w, c.versions = [v, w] ∧
        ∃ t u held lease, c.tasks[v.task]? = some t ∧ c.tasks[w.task]? = some u ∧
          w.lease.spec = some held ∧ v.lease.spec = some lease ∧
          (t.owner ≠ u.owner ∧ TakesOver (pair u.owner) (pair t.owner) t.since held lease ∨
            t.owner = u.owner ∧ Renews (pair t.owner) held lease) := by
  have hreading : (⟨0, 0⟩ : Timestamp).IsReading := ⟨by decide, by decide⟩
  have hfit : ∀ i, (pair i).leaseDuration.secs < 2147483648 := by
    intro i
    cases i <;> decide
  obtain ⟨c, hrun, hattempts, v, w, hversions⟩ := run_takenOver
  obtain ⟨hhistory, -⟩ := live_lease_not_overwritten pair_injective hfit hreading hrun hattempts
  have hsuffix : [v, w] <:+ c.versions := ⟨[], hversions.symm⟩
  have hpair := hhistory v w [] hsuffix
  exact ⟨pair_injective, hfit, hreading, c, hrun, hattempts, v, w, hversions, hpair⟩

end Contest

end Reconciler.Leadership
