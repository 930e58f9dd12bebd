import Reconciler.Proofs.Leadership.Rivals

/-!
# Two leaders at once

A replica publishes that it leads when an attempt has succeeded, and takes that back when a later one
has not, or when it is stopped. Nothing makes it look at the clock in between. So the lease may run
out under it, while an answer is awaited or because it lasts for less than its settings say: the
lease counts whole seconds. It may also be given back while the release is still awaited. Then another
replica gets the lease, and both publish that they lead.

There is no other way: of two replicas that publish that they lead, one has a lease that does not
stand any more. Between what it wrote last and what the other one wrote on top of that, the lease
changed hands, and it does so only after it has run out or after a release.
-/

namespace Reconciler.Leadership

namespace Rivals

variable {ι : Type} [DecidableEq ι] {electors : ι → Elector} {s : Rivals ι} {i j : ι}

/-- What a contender has written by the last attempt that it has seen succeed does not stand any
more: it has run out, or a release has been applied since. -/
def Lapsed (s : Rivals ι) (i : ι) : Prop :=
  ∃ v newer older, (s.contenders i).won = some v.task ∧
    s.contest.versions = newer ++ v :: older ∧
    (LeaseSpec.isExpired? v.lease.spec s.contest.now = some true ∨
      ∃ w ∈ newer, ∃ t, s.contest.tasks[w.task]? = some t ∧ t.errand = .release)

omit [DecidableEq ι] in
theorem Guarded.version_of_hasWon (h : Guarded electors s) (hwon : s.HasWon i) :
    ∃ v t, v ∈ s.contest.versions ∧ (s.contenders i).won = some v.task ∧
      s.contest.tasks[v.task]? = some t ∧ t.owner = i ∧ t.errand = .attempt := by
  obtain ⟨k, t, hwon, ht, howner, hsuccess⟩ := hwon
  obtain ⟨hattempt, v, hv, rfl⟩ := h.contest.succeeded ht hsuccess
  exact ⟨v, t, hv, hwon, ht, howner, hattempt⟩

omit [DecidableEq ι] in
/-- A lease that has run out for one who took it over had already run out as it was written before by
the same elector, and has run out now. -/
theorem Guarded.expired_of_later (h : Guarded electors s) {v w : Version}
    {older older' : List Version} {t u x : Task ι} (hv : v :: older <:+ w :: older')
    (hw : w :: older' <:+ s.contest.versions) (ht : s.contest.tasks[v.task]? = some t)
    (hu : s.contest.tasks[w.task]? = some u) (howner : t.owner = u.owner)
    (htattempt : t.errand = .attempt) (huattempt : u.errand = .attempt) {k : Nat}
    (hx : s.contest.tasks[k]? = some x)
    (hexpired : LeaseSpec.isExpired? w.lease.spec x.since = some true) :
    LeaseSpec.isExpired? v.lease.spec s.contest.now = some true := by
  have hkept := h.contest
  have horder : t.since ≤ u.since := h.oneByOne.ordered hkept hw hv hu ht howner.symm huattempt
  obtain ⟨t', ht', -, hmade⟩ := hkept.made v older (hv.trans hw)
  obtain rfl := Option.some.inj (ht.symm.trans ht')
  obtain ⟨u', hu', -, hmade'⟩ := hkept.made w older' hw
  obtain rfl := Option.some.inj (hu.symm.trans hu')
  obtain ⟨acquired, n, hspec⟩ := hmade.spec_of_attempt htattempt
  obtain ⟨acquired', n', hspec'⟩ := hmade'.spec_of_attempt huattempt
  rw [hspec', ← howner] at hexpired
  rw [hspec]
  have hbound : Timestamp.earliestSecs ≤
      Elector.word32 ((electors t.owner).leaseDuration.secs : Int) := by
    have hword := (isWord_word32 ((electors t.owner).leaseDuration.secs : Int)).1
    unfold Timestamp.earliestSecs
    omega
  exact LeaseSpec.isExpired?_mono rfl rfl rfl rfl (hkept.since _ t ht).1.truncated
    (hkept.since _ u hu).1.truncated hbound (Timestamp.truncated_mono horder)
    (hkept.since k x hx).2 hexpired

omit [DecidableEq ι] in
/-- Where another elector's attempt has written since, the lease does not stand any more. -/
theorem Guarded.lapsed_of_newer (h : Guarded electors s)
    (hid : Function.Injective fun i => (electors i).identity) (hij : i ≠ j) {v w : Version}
    {newer older : List Version} {t u : Task ι}
    (hversions : s.contest.versions = newer ++ v :: older) (hw : w ∈ newer)
    (hwon : (s.contenders i).won = some v.task) (ht : s.contest.tasks[v.task]? = some t)
    (howner : t.owner = i) (hattempt : t.errand = .attempt)
    (hu : s.contest.tasks[w.task]? = some u) (howner' : u.owner = j)
    (hattempt' : u.errand = .attempt) : s.Lapsed i := by
  have hkept := h.contest
  obtain ⟨top, between, rfl⟩ := List.append_of_mem hw
  rw [List.append_assoc] at hversions
  have hwsuffix : w :: (between ++ v :: older) <:+ s.contest.versions := ⟨top, hversions.symm⟩
  have hvsuffix : v :: older <:+ s.contest.versions :=
    (List.suffix_append (w :: between) (v :: older)).trans hwsuffix
  have hholder : v.lease.holder? = some (electors i).identity := by
    obtain ⟨t', ht', -, hmade⟩ := hkept.made v older hvsuffix
    obtain rfl := Option.some.inj (ht.symm.trans ht')
    rw [hmade.holder_of_attempt hattempt, howner]
  have hlost : w.lease.holder? ≠ some (electors i).identity := by
    obtain ⟨u', hu', -, hmade⟩ := hkept.made w _ hwsuffix
    obtain rfl := Option.some.inj (hu.symm.trans hu')
    rw [hmade.holder_of_attempt hattempt', howner']
    exact fun heq => hij (hid (Option.some.inj heq)).symm
  obtain ⟨newer', z, y, older', heq, hz, hzholder, hyholder, hsuffix⟩ := Contest.exists_adjacent
    (p := fun x : Version => x.lease.holder? = some (electors i).identity) between older hlost
    hholder
  refine ⟨v, top ++ w :: between, older, hwon, by rw [hversions, List.append_assoc], ?_⟩
  have hbelow : z :: y :: older' <:+ w :: between ++ v :: older := ⟨newer', heq.symm⟩
  have hpair : z :: y :: older' <:+ s.contest.versions := hbelow.trans hwsuffix
  obtain ⟨x, hx, hhow⟩ := hkept.handover hpair fun heq => hzholder (heq.trans hyholder)
  rcases hhow with hrelease | ⟨-, hexpired⟩
  · exact .inr ⟨z, List.mem_append_right top hz, x, hx, hrelease⟩
  · have hy : y :: older' <:+ s.contest.versions := (List.suffix_cons z _).trans hpair
    obtain ⟨r, hr, -, -, hrattempt, hsame⟩ := hkept.attempt_of_holder hy hyholder
    have hrowner : t.owner = r.owner := howner.trans (hid hsame).symm
    exact .inl (h.expired_of_later hsuffix hy ht hr hrowner hattempt hrattempt hx
      (hexpired _ hyholder))

/-- Replicas of different identities compete for one lease. If two of them publish at one instant
that they lead, one of them has a lease that does not stand any more: as it was written by the last
attempt that this replica has seen succeed, it has run out, or a release has been applied since. -/
theorem lapsed_of_both_lead {settings : ι → Settings}
    (hid : Function.Injective fun i => (settings i).identity) {now : Timestamp}
    (hnow : now.IsReading)
    (hrun : Run (fun i => .ofSettings (settings i)) (initial settings now) s) (hij : i ≠ j)
    (hi : (s.contenders i).channel.current = .leader)
    (hj : (s.contenders j).channel.current = .leader) : s.Lapsed i ∨ s.Lapsed j := by
  have h := hrun.guarded (.initial settings hnow)
  obtain ⟨v, t, hv, hwon, ht, howner, hattempt⟩ := h.version_of_hasWon (h.leads i hi)
  obtain ⟨w, u, hw, hwon', hu, howner', hattempt'⟩ := h.version_of_hasWon (h.leads j hj)
  obtain ⟨newer, older, hversions⟩ := List.append_of_mem hv
  rw [hversions] at hw
  -- The one whose version is older has lost the lease.
  rcases List.mem_append.mp hw with hnewer | hrest
  · exact .inl (h.lapsed_of_newer hid hij hversions hnewer hwon ht howner hattempt hu howner'
      hattempt')
  · rcases List.mem_cons.mp hrest with rfl | holder
    · obtain rfl := Option.some.inj (ht.symm.trans hu)
      exact absurd (howner.symm.trans howner') hij
    · obtain ⟨between, rest, rfl⟩ := List.append_of_mem holder
      have hsplit : s.contest.versions = (newer ++ v :: between) ++ w :: rest := by
        rw [hversions, List.append_assoc]
        rfl
      have hmem : v ∈ newer ++ v :: between := List.mem_append_right _ List.mem_cons_self
      exact .inr (h.lapsed_of_newer hid hij.symm hsplit hmem hwon' hu howner' hattempt' ht howner
        hattempt)

/-! ## A renewal that is never answered -/

theorem Run.turns {start : Rivals ι} (hrun : Run electors start s) {c : Contest ι}
    (hturns : Relation.ReflTransGen Contest.Turn s.contest c) :
    Run electors start { s with contest := c } := by
  induction hturns with
  | refl => exact hrun
  | tail _ hturn ih => exact ih.snoc (.turned hturn)

/-- The settings of two replicas of one operator: a lease lasts 15 seconds, and is renewed every
five. -/
def twins (second : Bool) : Settings := .named "operator" (if second then "b" else "a")

theorem twins_injective : Function.Injective fun i => (twins i).identity := by
  intro i j h
  cases i <;> cases j <;> first | rfl | exact absurd h (by decide)

theorem twins_valid (second : Bool) : (twins second).validate = .ok () := by
  cases second <;> rfl

def twinElectors (second : Bool) : Elector := .ofSettings (twins second)

/-- The first replica gets the lease at once, -/
def created : Rivals Bool :=
  { ((initial twins ⟨0, 0⟩).tell twinElectors false .start).tell twinElectors false .wake with
    contest := {
      now := ⟨0, 0⟩
      versions := [⟨stamped "1" ((twinElectors false).fresh ⟨0, 0⟩), 0⟩]
      tasks := [
        { owner := false, errand := .attempt, since := ⟨0, 0⟩, known := 0, read := some none,
          progress := .asking (.done (.attempted (.ok true))) }] } }

/-- and leads; its first renewal, after five seconds, is never answered. -/
def renewing : Rivals Bool :=
  let leading := (created.conclude false 0 (.attempted (.ok true))).tell twinElectors false
    (.attempted (.ok true))
  { leading with contest := { leading.contest with now := ⟨5, 0⟩ } }.tell twinElectors false .wake

/-- After sixteen seconds the second replica is started. -/
def challenged : Rivals Bool :=
  ({ renewing with contest := { renewing.contest with now := ⟨16, 0⟩ } }.tell twinElectors true
    .start).tell twinElectors true .wake

theorem run_challenged : Run twinElectors (initial twins ⟨0, 0⟩) challenged := by
  have awake : Run twinElectors (initial twins ⟨0, 0⟩) _ :=
    .snoc (.snoc .nil (.started false)) (.woken false)
  have read := awake.turns (Contest.Asks.read (k := 0) ⟨rfl, rfl⟩)
  have written := read.turns (Contest.Asks.written (k := 0) (q := .create _) ⟨rfl, rfl⟩
    (.ok () : Except Error Unit) rfl (by decide : Contest.Fresh _ "1") rfl)
  have hcreated : Run twinElectors (initial twins ⟨0, 0⟩) created := written
  have leading := hcreated.snoc (.concluded (i := false) rfl rfl rfl)
  have due := leading.snoc (.turned (.passed (by decide : _ ≤ (⟨5, 0⟩ : Timestamp))
    ⟨by decide, by decide⟩))
  have hrenewing : Run twinElectors (initial twins ⟨0, 0⟩) renewing := due.snoc (.woken false)
  have later := hrenewing.snoc (.turned (.passed (by decide : _ ≤ (⟨16, 0⟩ : Timestamp))
    ⟨by decide, by decide⟩))
  exact (later.snoc (.started true)).snoc (.woken true)

/-- The second replica takes the lease over, and both lead. -/
theorem run_bothLead :
    ∃ s, Run twinElectors (initial twins ⟨0, 0⟩) s ∧
      (s.contenders false).channel.current = .leader ∧
      (s.contenders true).channel.current = .leader := by
  have read := run_challenged.turns (Contest.Asks.read (k := 2) ⟨rfl, rfl⟩)
  have replaced := read.turns (Contest.Asks.written (k := 2) (q := .replace _) ⟨rfl, rfl⟩
    (.ok () : Except Error Unit) rfl (by decide : Contest.Fresh _ "2") rfl)
  exact ⟨_, replaced.snoc (.concluded (i := true) rfl rfl rfl), rfl, rfl⟩

theorem lapsed_of_both_lead_twins :
    (Function.Injective fun i => (twins i).identity) ∧ (⟨0, 0⟩ : Timestamp).IsReading ∧
    false ≠ true ∧
    ∃ s, Run (fun i => .ofSettings (twins i)) (initial twins ⟨0, 0⟩) s ∧
      (s.contenders false).channel.current = .leader ∧
      (s.contenders true).channel.current = .leader ∧ (s.Lapsed false ∨ s.Lapsed true) := by
  have hreading : (⟨0, 0⟩ : Timestamp).IsReading := ⟨by decide, by decide⟩
  obtain ⟨s, hrun, hfirst, hsecond⟩ := run_bothLead
  exact ⟨twins_injective, hreading, by decide, s, hrun, hfirst, hsecond,
    lapsed_of_both_lead twins_injective hreading hrun (by decide) hfirst hsecond⟩

/-- Settings that pass the check do not keep two replicas from leading at the same time. -/
theorem two_lead_at_once :
    ¬∀ (settings : Bool → Settings) (s : Rivals Bool),
      (Function.Injective fun i => (settings i).identity) →
      (∀ i, (settings i).validate = .ok ()) →
      Run (fun i => .ofSettings (settings i)) (initial settings ⟨0, 0⟩) s →
      ¬((s.contenders false).channel.current = .leader ∧
        (s.contenders true).channel.current = .leader) := by
  intro hall
  obtain ⟨s, hrun, hfirst, hsecond⟩ := run_bothLead
  exact hall twins s twins_injective twins_valid hrun ⟨hfirst, hsecond⟩

end Rivals

end Reconciler.Leadership
