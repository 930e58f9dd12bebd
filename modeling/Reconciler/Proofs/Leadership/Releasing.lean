import Reconciler.Proofs.Leadership.Succession

/-!
# What a release takes away

A release reads the lease, sees that its elector holds it, and then clears the holder of whatever is
stored by then: unlike the writes of an attempt, this one bears no version. If somebody else has got
the lease in between, it is their lease that is cleared.

That takes a lease that has run out while it was being given back, or one that was given back by
another release as well: only then can an attempt of somebody else succeed in between.
-/

namespace Reconciler.Leadership

/-- What a write leaves as it was: who holds the lease, and since when it has been renewed last. -/
def Spared (before after : Lease) : Prop :=
  after.holder? = before.holder? ∧
    after.spec.bind (·.renewTime) = before.spec.bind (·.renewTime)

namespace Contest

variable {ι : Type} {electors : ι → Elector} {c : Contest ι}

/-- The server may apply a request of the task at a place next. -/
def Pending (c : Contest ι) (k : Nat) (q : LeaseCall) : Prop :=
  (∃ t next, c.Asks k t q next) ∨ (k, q) ∈ c.strays

/-- An elector's attempt has returned that it got the lease, which is the one stored, and it has not
run out. -/
structure HoldsLive (c : Contest ι) (i : ι) (v : Version) : Prop where
  stored : c.versions.head? = some v
  succeeded : ∃ t, c.tasks[v.task]? = some t ∧ t.owner = i ∧ t.Succeeded
  live : LeaseSpec.isExpired? v.lease.spec c.now ≠ some true

/-- An attempt of an elector took over a version that is in the history from one on: nobody held it, or
it had run out before the attempt began. -/
def TookOver (c : Contest ι) (i : ι) (since : List Version) : Prop :=
  ∃ newer v w older t, c.versions = newer ++ v :: w :: older ∧ since <:+ w :: older ∧
    c.tasks[v.task]? = some t ∧ t.owner = i ∧ t.errand = .attempt ∧
    ∀ holder, w.lease.holder? = some holder →
      LeaseSpec.isExpired? w.lease.spec t.since = some true

theorem Kept.pending_entitled (h : Kept electors c) {k : Nat} {q : LeaseCall}
    (hpending : c.Pending k q) : c.Entitled electors k q := by
  rcases hpending with ⟨t, next, hasks⟩ | hstray
  · exact h.entitled hasks
  · exact h.strays (k, q) hstray

theorem Kept.holder_of_holdsLive (h : Kept electors c) {i : ι} {v : Version}
    (hholds : c.HoldsLive i v) : v.lease.holder? = some (electors i).identity := by
  obtain ⟨t, ht, rfl, hsuccess⟩ := hholds.succeeded
  obtain ⟨hattempt, -⟩ := h.succeeded ht hsuccess
  obtain ⟨older, hv⟩ := exists_older (List.mem_of_mem_head? hholds.stored)
  obtain ⟨t', ht', -, hmade⟩ := h.made v older hv
  obtain rfl := Option.some.inj (ht.symm.trans ht')
  exact hmade.holder_of_attempt hattempt

/-- A release clears the holder, so it spares no lease that is held. -/
theorem not_spared_of_holder {lease : Lease} {holder : String} (hholder : lease.holder? = some holder)
    (version : String) (stale : Timestamp) : ¬Spared lease (stamped version (vacated lease stale)) := by
  rintro ⟨hsame, -⟩
  rw [hholder] at hsame
  cases hsame

/-- A release that may be applied has read a version that its elector held. -/
theorem Kept.read_of_vacate (h : Kept electors c) {k : Nat} {t : Task ι} {stale : Timestamp}
    (ht : c.tasks[k]? = some t) (hpending : c.Pending k (.vacate stale)) :
    ∃ since w older, c.versions = since ++ w :: older ∧ t.read = some (some w.lease) ∧
      w.lease.holder? = some (electors t.owner).identity := by
  obtain ⟨t', ht', -, held, hread, hholder⟩ := h.pending_entitled hpending
  obtain rfl := Option.some.inj (ht.symm.trans ht')
  obtain ⟨w, hw, rfl⟩ := h.read k t held ht hread
  obtain ⟨since, older, hversions⟩ := List.append_of_mem hw
  exact ⟨since, w, older, hversions, hread, hholder⟩

/-- What another elector holds by now was written after the version that the release has read. -/
theorem Kept.mem_since (h : Kept electors c)
    (hid : Function.Injective fun i => (electors i).identity) {i j : ι} (hother : j ≠ i)
    {since older : List Version} {v w : Version} (hversions : c.versions = since ++ w :: older)
    (hholder : w.lease.holder? = some (electors i).identity) (hholds : c.HoldsLive j v) :
    ∃ between, since = v :: between := by
  have hstored := hholds.stored
  rw [hversions] at hstored
  cases since with
  | nil =>
    obtain rfl : w = v := Option.some.inj hstored
    have hsame := (h.holder_of_holdsLive hholds).symm.trans hholder
    exact absurd (hid (Option.some.inj hsame)) hother
  | cons x between =>
    obtain rfl : x = v := Option.some.inj hstored
    exact ⟨between, rfl⟩

/-- If another elector has got the lease since a version, it has taken over one that was not held by
then, or had run out before its attempt began. -/
theorem Kept.tookOver (h : Kept electors c)
    (hid : Function.Injective fun i => (electors i).identity) {i j : ι} (hother : j ≠ i)
    {between older : List Version} {v w : Version}
    (hversions : c.versions = v :: between ++ w :: older)
    (hholder : w.lease.holder? = some (electors i).identity)
    (hwon : v.lease.holder? = some (electors j).identity) : c.TookOver j (w :: older) := by
  have hlost : ¬w.lease.holder? = some (electors j).identity := by
    rw [hholder]
    exact fun heq => hother (hid (Option.some.inj heq)).symm
  obtain ⟨newer, z, u, rest, heq, -, hz, hu, hsuffix⟩ := exists_adjacent
    (p := fun x : Version => ¬x.lease.holder? = some (electors j).identity) between older
    (not_not.mpr hwon) hlost
  have hz := not_not.mp hz
  rw [← hversions] at heq
  have hpair : z :: u :: rest <:+ c.versions := ⟨newer, heq.symm⟩
  obtain ⟨t, ht, -, -, hattempt, howner⟩ := h.attempt_of_holder hpair hz
  obtain ⟨t', ht', hhow⟩ := h.handover hpair (by rw [hz]; exact fun heq => hu heq.symm)
  obtain rfl := Option.some.inj (ht.symm.trans ht')
  rcases hhow with hrelease | ⟨-, hexpired⟩
  · rw [hattempt] at hrelease
    cases hrelease
  · exact ⟨newer, z, u, rest, t, heq, hsuffix, ht, hid howner, hattempt, hexpired⟩

/-- Electors of different identities compete for a lease, and a release of one of them is about to be
applied. It has read a version that its elector held. It spares the lease of every other elector
that has got it and may still count on it exactly if that has not been written since; and whoever has
got it since took over a version that was not held, or had run out before its attempt began. -/
theorem release_spares_iff (hid : Function.Injective fun i => (electors i).identity)
    {now : Timestamp} (hnow : now.IsReading) (hrun : Run electors (initial now) c) {k : Nat}
    {t : Task ι} {stale : Timestamp} (ht : c.tasks[k]? = some t)
    (hpending : c.Pending k (.vacate stale)) :
    ∃ since w older, c.versions = since ++ w :: older ∧ t.read = some (some w.lease) ∧
      w.lease.holder? = some (electors t.owner).identity ∧
      ((∀ j v lease version, j ≠ t.owner → c.HoldsLive j v →
          applied? (some v.lease) (.vacate stale) = some lease →
          Spared v.lease (stamped version lease)) ↔
        ∀ j v, j ≠ t.owner → c.HoldsLive j v → v ∉ since) ∧
      ∀ j v, j ≠ t.owner → c.HoldsLive j v → c.TookOver j (w :: older) := by
  have h : Kept electors c := hrun.kept (.initial hnow)
  obtain ⟨since, w, older, hversions, hread, hholder⟩ := h.read_of_vacate ht hpending
  refine ⟨since, w, older, hversions, hread, hholder, ⟨?_, ?_⟩, ?_⟩
  · intro hspares j v hother hholds
    exact absurd (hspares j v _ "" hother hholds rfl)
      (not_spared_of_holder (h.holder_of_holdsLive hholds) "" stale)
  · intro hnone j v lease version hother hholds
    obtain ⟨between, rfl⟩ := h.mem_since hid hother hversions hholder hholds
    exact absurd List.mem_cons_self (hnone j v hother hholds)
  · intro j v hother hholds
    obtain ⟨between, rfl⟩ := h.mem_since hid hother hversions hholder hholds
    exact h.tookOver hid hother hversions hholder (h.holder_of_holdsLive hholds)

/-! ## A release that comes late -/

/-- The first elector creates the lease, and reads it in order to give it back. Before it does, the
lease runs out, and the second elector takes it over. -/
theorem run_lateRelease :
    ∃ c t v lease, Run pair (initial ⟨0, 0⟩) c ∧ c.tasks[1]? = some t ∧ t.owner = false ∧
      c.Pending 1 (.vacate ⟨-16, 0⟩) ∧ c.HoldsLive true v ∧
      applied? (some v.lease) (.vacate ⟨-16, 0⟩) = some lease := by
  let accepted : Except Error Unit := .ok ()
  have began : Run pair (initial ⟨0, 0⟩) _ := .snoc .nil (.begun false .attempt)
  have read := began.turns (Asks.read (k := 0) ⟨rfl, rfl⟩)
  have created := read.turns (Asks.written (k := 0) (q := .create _) ⟨rfl, rfl⟩ accepted rfl
    (by decide : Fresh _ "1") rfl)
  have releasing := created.snoc (.begun false .release)
  have seen := releasing.turns (Asks.read (k := 1) ⟨rfl, rfl⟩)
  have later := seen.snoc (.turned (.passed (by decide : _ ≤ (⟨20, 0⟩ : Timestamp))
    ⟨by decide, by decide⟩))
  have began' := later.snoc (.begun true .attempt)
  have read' := began'.turns (Asks.read (k := 2) ⟨rfl, rfl⟩)
  have replaced := read'.turns (Asks.written (k := 2) (q := .replace _) ⟨rfl, rfl⟩ accepted rfl
    (by decide : Fresh _ "2") rfl)
  exact ⟨_, _, _, _, replaced, rfl, rfl, .inl ⟨_, _, rfl, rfl⟩, ⟨rfl, ⟨_, rfl, rfl, rfl⟩, by decide⟩,
    rfl⟩

/-- The late release may be applied to the lease that the second elector has got. -/
theorem release_spares_iff_lateRelease :
    (Function.Injective fun i => (pair i).identity) ∧ (⟨0, 0⟩ : Timestamp).IsReading ∧
    ∃ c t, Run pair (initial ⟨0, 0⟩) c ∧ c.tasks[1]? = some t ∧ c.Pending 1 (.vacate ⟨-16, 0⟩) ∧
      ∃ since w older, c.versions = since ++ w :: older ∧ t.read = some (some w.lease) ∧
        w.lease.holder? = some (pair t.owner).identity ∧
        ((∀ j v lease version, j ≠ t.owner → c.HoldsLive j v →
            applied? (some v.lease) (.vacate ⟨-16, 0⟩) = some lease →
            Spared v.lease (stamped version lease)) ↔
          ∀ j v, j ≠ t.owner → c.HoldsLive j v → v ∉ since) ∧
        ∀ j v, j ≠ t.owner → c.HoldsLive j v → c.TookOver j (w :: older) := by
  have hreading : (⟨0, 0⟩ : Timestamp).IsReading := ⟨by decide, by decide⟩
  obtain ⟨c, t, -, -, hrun, ht, -, hpending, -⟩ := run_lateRelease
  exact ⟨pair_injective, hreading, c, t, hrun, ht, hpending,
    release_spares_iff pair_injective hreading hrun ht hpending⟩

/-- Not every release spares a lease that another elector has got and that has not run out. -/
theorem release_clears_live_lease :
    ¬∀ (c : Contest Bool) (k : Nat) (t : Task Bool) (stale : Timestamp) (j : Bool) (v : Version)
        (lease : Lease) (version : String),
      Run pair (initial ⟨0, 0⟩) c → c.tasks[k]? = some t → c.Pending k (.vacate stale) →
      j ≠ t.owner → c.HoldsLive j v → applied? (some v.lease) (.vacate stale) = some lease →
      Spared v.lease (stamped version lease) := by
  intro hall
  obtain ⟨c, t, v, lease, hrun, ht, howner, hpending, hholds, happlied⟩ := run_lateRelease
  have hother : true ≠ t.owner := by
    rw [howner]
    decide
  obtain ⟨hsame, -⟩ := hall c 1 t _ true v lease "3" hrun ht hpending hother hholds happlied
  have hkept : Kept pair c := hrun.kept (.initial ⟨by decide, by decide⟩)
  cases happlied
  rw [hkept.holder_of_holdsLive hholds] at hsame
  cases hsame

end Contest

end Reconciler.Leadership
