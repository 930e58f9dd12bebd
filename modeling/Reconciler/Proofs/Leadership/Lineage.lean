import Mathlib.Data.List.Nodup
import Reconciler.Proofs.Leadership.Contest

/-!
# The history of a contested lease

The versions of a lease are its history, the latest first. Every one was made by a task, on top of
the one before it, and `Made` says how: an attempt that wrote had read exactly what it wrote on top
of, and wrote what such an attempt may. A release names no version, so of it only the holder that it
read is known, not the one that it wrote on top of.

`Contest.Kept` is what every step keeps: about the tasks, about the requests that may still be
applied, and about the history.
-/

namespace Reconciler.Leadership

/-! ## How a version was made -/

section Invariant

variable {ι : Type} {electors : ι → Elector} {c : Contest ι}

/-- A version that a task made of what was stored. An attempt had read what was stored. -/
inductive Made (e : Elector) (t : Task ι) : Lease → Option Lease → Prop where
  | created (version : String) : t.errand = .attempt → t.read = some none →
      Made e t (stamped version (e.fresh t.since)) none
  | claimed (version : String) {held lease : Lease} : t.errand = .attempt →
      t.read = some (some held) → e.Claims t.since held lease →
      Made e t (stamped version lease) (some held)
  | vacated (version : String) {read held : Lease} (renewTime : Timestamp) : t.errand = .release →
      t.read = some (some read) → read.holder? = some e.identity →
      Made e t (stamped version (vacated held renewTime)) (some held)

theorem Task.Becomes.read_eq {t t' : Task ι} (h : t.Becomes t') {stored : Option Lease}
    (hread : t.read = some stored) : t'.read = some stored := by
  rcases h.read with hnone | hsame
  · rw [hnone] at hread
    cases hread
  · rw [hsame, hread]

theorem Made.becomes {e : Elector} {t t' : Task ι} {lease : Lease} {older : Option Lease}
    (h : Made e t lease older) (ht : t.Becomes t') : Made e t' lease older := by
  cases h with
  | created version herrand hread =>
    rw [← ht.since]
    exact .created version (ht.errand.trans herrand) (ht.read_eq hread)
  | claimed version herrand hread hclaims =>
    rw [← ht.since] at hclaims
    exact .claimed version (ht.errand.trans herrand) (ht.read_eq hread) hclaims
  | vacated version renewTime herrand hread hholder =>
    exact .vacated version renewTime (ht.errand.trans herrand) (ht.read_eq hread) hholder

/-- What an attempt has written names its elector, and the instant at which it began as that of the
last renewal. -/
theorem Made.spec_of_attempt {e : Elector} {t : Task ι} {lease : Lease} {older : Option Lease}
    (h : Made e t lease older) (hattempt : t.errand = .attempt) :
    ∃ acquired n, lease.spec = some (e.claim t.since.truncated acquired n) := by
  cases h with
  | created version => exact ⟨_, _, rfl⟩
  | claimed version herrand hread hclaims =>
    cases hclaims with
    | renewed hours => exact ⟨_, _, rfl⟩
    | takenOver hfree => exact ⟨_, _, rfl⟩
  | vacated version renewTime hrelease =>
    rw [hattempt] at hrelease
    cases hrelease

theorem Made.holder_of_attempt {e : Elector} {t : Task ι} {lease : Lease} {older : Option Lease}
    (h : Made e t lease older) (hattempt : t.errand = .attempt) :
    lease.holder? = some e.identity := by
  obtain ⟨acquired, n, hspec⟩ := h.spec_of_attempt hattempt
  rw [Lease.holder?, hspec]
  rfl

theorem Made.holder_of_release {e : Elector} {t : Task ι} {lease : Lease} {older : Option Lease}
    (h : Made e t lease older) (hrelease : t.errand = .release) : lease.holder? = none := by
  cases h with
  | created version hattempt =>
    rw [hrelease] at hattempt
    cases hattempt
  | claimed version hattempt =>
    rw [hrelease] at hattempt
    cases hattempt
  | vacated version renewTime => rfl

/-- An attempt has read what it wrote on top of. -/
theorem Made.read_of_attempt {e : Elector} {t : Task ι} {lease : Lease} {older : Option Lease}
    (h : Made e t lease older) (hattempt : t.errand = .attempt) : t.read = some older := by
  cases h with
  | created version herrand hread => exact hread
  | claimed version herrand hread hclaims => exact hread
  | vacated version renewTime hrelease =>
    rw [hattempt] at hrelease
    cases hrelease

/-- An attempt wrote on top of a lease by renewing it as its holder, or by taking it over. -/
theorem Made.claims_of_attempt {e : Elector} {t : Task ι} {lease held : Lease}
    (h : Made e t lease (some held)) (hattempt : t.errand = .attempt) :
    ∃ version claim, lease = stamped version claim ∧ e.Claims t.since held claim := by
  cases h with
  | claimed version herrand hread hclaims => exact ⟨version, _, rfl, hclaims⟩
  | vacated version renewTime hrelease =>
    rw [hattempt] at hrelease
    cases hrelease

theorem May.becomes {e : Elector} {t t' : Task ι} {q : LeaseCall}
    (h : May e t.errand t.since t.read q) (ht : t.Becomes t') :
    May e t'.errand t'.since t'.read q := by
  rw [ht.errand, ht.since]
  cases q with
  | clock => trivial
  | get => trivial
  | create lease =>
    obtain ⟨herrand, hread, hlease⟩ := h
    exact ⟨herrand, ht.read_eq hread, hlease⟩
  | replace lease =>
    obtain ⟨herrand, held, hread, hclaims⟩ := h
    exact ⟨herrand, held, ht.read_eq hread, hclaims⟩
  | vacate renewTime =>
    obtain ⟨herrand, held, hread, hholder⟩ := h
    exact ⟨herrand, held, ht.read_eq hread, hholder⟩

/-- What is left of a task's plan asks only what it may, and reports success only if the task has
made a version. -/
def Task.Sound (e : Elector) (c : Contest ι) (k : Nat) (t : Task ι) : Prop :=
  ∀ plan, t.progress.plan? = some plan → ∃ won, (won = true → ∃ v ∈ c.versions, v.task = k) ∧
    Leadership.Sound e t.errand t.since won t.read plan

/-- The request of a task may be applied: it is one that the task may make. -/
def Contest.Entitled (electors : ι → Elector) (c : Contest ι) (k : Nat) (q : LeaseCall) : Prop :=
  ∃ t, c.tasks[k]? = some t ∧ May (electors t.owner) t.errand t.since t.read q

/-! ## The invariant -/

namespace Contest

/-- Whatever happens: the tasks began one after the other and have read versions that there are;
every request may be made; and every version was made by a task on top of the one before it. -/
structure Kept (electors : ι → Elector) (c : Contest ι) : Prop where
  now : c.now.IsReading
  since : ∀ (k : Nat) (t : Task ι), c.tasks[k]? = some t → t.since.IsReading ∧ t.since ≤ c.now
  ordered : ∀ (j k : Nat) (t u : Task ι), j ≤ k → c.tasks[j]? = some t → c.tasks[k]? = some u →
    t.since ≤ u.since
  known : ∀ (k : Nat) (t : Task ι), c.tasks[k]? = some t → t.known ≤ c.versions.length
  read : ∀ (k : Nat) (t : Task ι) (held : Lease), c.tasks[k]? = some t →
    t.read = some (some held) → ∃ v ∈ c.versions, v.lease = held
  sound : ∀ (k : Nat) (t : Task ι), c.tasks[k]? = some t → t.Sound (electors t.owner) c k
  strays : ∀ s ∈ c.strays, c.Entitled electors s.1 s.2
  made : ∀ (v : Version) (older : List Version), v :: older <:+ c.versions →
    ∃ t, c.tasks[v.task]? = some t ∧ t.known ≤ older.length ∧
      Made (electors t.owner) t v.lease (older.head?.map (·.lease))
  distinct : (c.versions.map Version.name).Nodup

theorem Kept.initial {now : Timestamp} (h : now.IsReading) :
    Kept electors (initial now : Contest ι) where
  now := h
  since := by simp [Contest.initial]
  ordered := by simp [Contest.initial]
  known := by simp [Contest.initial]
  read := by simp [Contest.initial]
  sound := by simp [Contest.initial]
  strays := by simp [Contest.initial]
  made := by simp [Contest.initial]
  distinct := by simp [Contest.initial]

/-- Two versions of one name are the same. -/
theorem Kept.eq_of_name (h : Kept electors c) {v w : Version} (hv : v ∈ c.versions)
    (hw : w ∈ c.versions) (hname : v.name = w.name) : v = w :=
  List.inj_on_of_nodup_map h.distinct hv hw hname

/-- Below a version there is only one history. -/
theorem Kept.older_eq (h : Kept electors c) {v : Version} {older older' : List Version}
    (hv : v :: older <:+ c.versions) (hv' : v :: older' <:+ c.versions) : older = older' := by
  have hnodup : c.versions.Nodup := h.distinct.of_map _
  -- Of two suffixes that begin with the same version, one is a suffix of the other.
  have hsame : ∀ {a b : List Version}, v :: a <:+ v :: b → v :: b <:+ c.versions → a = b := by
    intro a b hab hb
    rcases List.suffix_cons_iff.mp hab with heq | hinner
    · exact (List.cons.inj heq).2
    · have hmem : v ∈ b := hinner.subset List.mem_cons_self
      exact absurd hmem (List.nodup_cons.mp (hnodup.sublist hb.sublist)).1
  rcases List.suffix_or_suffix_of_suffix hv hv' with h₁ | h₂
  · exact hsame h₁ hv'
  · exact (hsame h₂ hv).symm

/-- On top of one lease, or of none, there is one version only. -/
theorem Kept.eq_of_older (h : Kept electors c) {v w : Version} {older older' : List Version}
    (hv : v :: older <:+ c.versions) (hw : w :: older' <:+ c.versions)
    (hsame : older.head?.map (·.lease) = older'.head?.map (·.lease)) : v = w := by
  have holder : older = older' := by
    rcases older with _ | ⟨x, rest⟩ <;> rcases older' with _ | ⟨y, rest'⟩
    · rfl
    · cases hsame
    · cases hsame
    · have hx : x :: rest <:+ c.versions := (List.suffix_cons v _).trans hv
      have hy : y :: rest' <:+ c.versions := (List.suffix_cons w _).trans hw
      have hlease : x.lease = y.lease := Option.some.inj hsame
      have hxy : x = y := h.eq_of_name (hx.subset List.mem_cons_self) (hy.subset List.mem_cons_self)
        (by rw [Version.name, Version.name, hlease])
      subst hxy
      rw [h.older_eq hx hy]
  subst holder
  have hsuffix : v :: older <:+ w :: older := List.suffix_of_suffix_length_le hv hw (Nat.le_refl _)
  exact (List.cons.inj (hsuffix.eq_of_length rfl)).1

/-- The request of a waiting task is one that it may make. -/
theorem Kept.entitled (h : Kept electors c) {k : Nat} {t : Task ι} {q : LeaseCall}
    {next : q.Answer → LeasePlan Election.Input} (hasks : c.Asks k t q next) :
    c.Entitled electors k q := by
  obtain ⟨ht, hprogress⟩ := hasks
  obtain ⟨won, -, hmay, -⟩ := h.sound k t ht (.ask q next) (by rw [hprogress]; rfl)
  exact ⟨t, ht, hmay⟩

/-- An attempt that has returned success has made a version. -/
theorem Kept.succeeded (h : Kept electors c) {k : Nat} {t : Task ι} (ht : c.tasks[k]? = some t)
    (hsuccess : t.Succeeded) : t.errand = .attempt ∧ ∃ v ∈ c.versions, v.task = k := by
  obtain ⟨won, hwon, hsound⟩ := h.sound k t ht _ (by rw [hsuccess]; rfl)
  obtain ⟨hattempt, hw⟩ := hsound rfl
  exact ⟨hattempt, hwon hw⟩

theorem exists_older {v : Version} (h : v ∈ c.versions) : ∃ older, v :: older <:+ c.versions := by
  obtain ⟨newer, older, heq⟩ := List.append_of_mem h
  exact ⟨older, newer, heq.symm⟩

/-! ## Changes of hands -/

/-- Only an attempt puts a holder into the lease, its own elector. -/
theorem Kept.attempt_of_holder (h : Kept electors c) {v : Version} {older : List Version}
    (hv : v :: older <:+ c.versions) {holder : String} (hholder : v.lease.holder? = some holder) :
    ∃ t, c.tasks[v.task]? = some t ∧ t.known ≤ older.length ∧
      Made (electors t.owner) t v.lease (older.head?.map (·.lease)) ∧ t.errand = .attempt ∧
      (electors t.owner).identity = holder := by
  obtain ⟨t, ht, hknown, hmade⟩ := h.made v older hv
  cases hattempt : t.errand with
  | attempt =>
    have hsame := hmade.holder_of_attempt hattempt
    exact ⟨t, ht, hknown, hmade, hattempt, Option.some.inj (hsame.symm.trans hholder)⟩
  | release =>
    have hnone := hmade.holder_of_release hattempt
    rw [hholder] at hnone
    cases hnone

/-- Where the holder changes from one version to the next, the lease was given back, or an attempt
took it over that began after it had run out. -/
theorem Kept.handover (h : Kept electors c) {v w : Version} {older : List Version}
    (hv : v :: w :: older <:+ c.versions) (hchange : v.lease.holder? ≠ w.lease.holder?) :
    ∃ t, c.tasks[v.task]? = some t ∧ (t.errand = .release ∨
      t.errand = .attempt ∧ ∀ holder, w.lease.holder? = some holder →
        LeaseSpec.isExpired? w.lease.spec t.since = some true) := by
  obtain ⟨t, ht, -, hmade⟩ := h.made v (w :: older) hv
  refine ⟨t, ht, ?_⟩
  cases hattempt : t.errand with
  | release => exact .inl rfl
  | attempt =>
    refine .inr ⟨rfl, fun holder hholder => ?_⟩
    obtain ⟨version, claim, hlease, hclaims⟩ := hmade.claims_of_attempt hattempt
    cases hclaims with
    | renewed hours =>
      refine absurd ?_ hchange
      rw [hmade.holder_of_attempt hattempt, hours]
    | takenOver hfree => exact (hfree holder hholder).2

/-- Of what holds of an element but not of the first one, somewhere in between is an element of which
it does not hold, right before one of which it does. -/
theorem exists_adjacent {α : Type} {p : α → Prop} {x y : α} (between rest : List α) (hx : ¬p x)
    (hy : p y) : ∃ newer a b older, x :: between ++ y :: rest = newer ++ a :: b :: older ∧
      a ∈ x :: between ∧ ¬p a ∧ p b ∧ y :: rest <:+ b :: older := by
  induction between generalizing x with
  | nil => exact ⟨[], x, y, rest, rfl, List.mem_cons_self, hx, hy, List.suffix_refl _⟩
  | cons z between ih =>
    by_cases hz : p z
    · refine ⟨[], x, z, between ++ y :: rest, rfl, List.mem_cons_self, hx, hz, ?_⟩
      exact ⟨z :: between, rfl⟩
    · obtain ⟨newer, a, b, older, heq, ha, hpa, hpb, hsuffix⟩ := ih hz
      refine ⟨x :: newer, a, b, older, ?_, List.mem_cons_of_mem x ha, hpa, hpb, hsuffix⟩
      exact congrArg (x :: ·) heq

/-! ## What a later state keeps of an earlier one -/

/-- Every task is still at its place, be it further on, and so is every version. -/
structure Grows (c c' : Contest ι) : Prop where
  tasks : ∀ (k : Nat) (t : Task ι), c.tasks[k]? = some t →
    ∃ t', c'.tasks[k]? = some t' ∧ t.Becomes t'
  versions : c.versions <:+ c'.versions

theorem Grows.of_tasks_eq {c' : Contest ι} (htasks : c'.tasks = c.tasks)
    (hversions : c.versions <:+ c'.versions) : c.Grows c' :=
  ⟨fun _ t ht => ⟨t, by rw [htasks, ht], .refl t⟩, hversions⟩

theorem Grows.put {k : Nat} {t t' : Task ι} (ht : c.tasks[k]? = some t) (hbecomes : t.Becomes t') :
    c.Grows (c.put k t') := by
  refine ⟨fun j u hu => ?_, List.suffix_refl _⟩
  simp only [Contest.put, List.getElem?_set]
  by_cases hk : k = j
  · subst hk
    obtain rfl := Option.some.inj (ht.symm.trans hu)
    have hlt : k < c.tasks.length := (List.getElem?_eq_some_iff.mp ht).1
    exact ⟨t', by rw [if_pos rfl, if_pos hlt], hbecomes⟩
  · exact ⟨u, by rw [if_neg hk, hu], .refl u⟩

theorem put_cases {j k : Nat} {t u : Task ι} (h : (c.put k t).tasks[j]? = some u) :
    (j = k ∧ u = t) ∨ (j ≠ k ∧ c.tasks[j]? = some u) := by
  simp only [Contest.put, List.getElem?_set] at h
  split at h
  · next heq =>
    split at h
    · exact .inl ⟨heq.symm, (Option.some.inj h).symm⟩
    · cases h
  · next hne => exact .inr ⟨fun heq => hne heq.symm, h⟩

theorem put_origin {j k : Nat} {t t' u : Task ι} (ht : c.tasks[k]? = some t)
    (hbecomes : t.Becomes t') (h : (c.put k t').tasks[j]? = some u) :
    ∃ u₀, c.tasks[j]? = some u₀ ∧ u₀.Becomes u := by
  rcases put_cases h with ⟨rfl, rfl⟩ | ⟨-, hu⟩
  · exact ⟨t, ht, hbecomes⟩
  · exact ⟨u, hu, .refl u⟩

theorem Entitled.grows {c' : Contest ι} {k : Nat} {q : LeaseCall} (h : c.Entitled electors k q)
    (hgrows : c.Grows c') : c'.Entitled electors k q := by
  obtain ⟨t, ht, hmay⟩ := h
  obtain ⟨t', ht', hbecomes⟩ := hgrows.tasks k t ht
  refine ⟨t', ht', ?_⟩
  rw [hbecomes.owner]
  exact hmay.becomes hbecomes

theorem Grows.refl (c : Contest ι) : c.Grows c := .of_tasks_eq rfl (List.suffix_refl _)

theorem Grows.push (v : Version) : c.Grows (c.push v) :=
  .of_tasks_eq rfl (List.suffix_cons v c.versions)

theorem Grows.begin (i : ι) (errand : Errand) : c.Grows (c.begin electors i errand) := by
  refine ⟨fun k t ht => ⟨t, ?_, .refl t⟩, List.suffix_refl _⟩
  have hlt : k < c.tasks.length := (List.getElem?_eq_some_iff.mp ht).1
  rw [← ht]
  exact List.getElem?_append_left hlt

theorem begin_cases {k : Nat} {i : ι} {errand : Errand} {t : Task ι}
    (h : (c.begin electors i errand).tasks[k]? = some t) :
    (k < c.tasks.length ∧ c.tasks[k]? = some t) ∨
    (k = c.tasks.length ∧ t =
      { owner := i, errand, since := c.now, known := c.versions.length,
        progress := .asking (atOnce c.now (errand.plan (electors i))) }) := by
  simp only [Contest.begin] at h
  rcases Nat.lt_or_ge k c.tasks.length with hlt | hge
  · rw [List.getElem?_append_left hlt] at h
    exact .inl ⟨hlt, h⟩
  · rw [List.getElem?_append_right hge] at h
    cases hk : k - c.tasks.length with
    | zero =>
      rw [hk] at h
      exact .inr ⟨by omega, (Option.some.inj h).symm⟩
    | succ n =>
      rw [hk] at h
      cases h

/-- A task that is at its end is left alone, and the request of one that waits becomes a stray. -/
theorem drop_cases (k : Nat) :
    c.drop k = c ∨
    ∃ t, c.tasks[k]? = some t ∧ t.progress.isOver = false ∧
      (c.drop k = c.put k { t with progress := .dropped } ∨
      ∃ q next, t.progress = .asking (.ask q next) ∧
        c.drop k = { c.put k { t with progress := .dropped } with
          strays := (k, q) :: c.strays }) := by
  unfold Contest.drop
  cases ht : c.tasks[k]? with
  | none => exact .inl rfl
  | some t =>
    cases hprogress : t.progress with
    | asking plan =>
      cases plan with
      | done r => exact .inl (by simp only [hprogress])
      | ask q next =>
        refine .inr ⟨t, rfl, by rw [hprogress]; rfl, .inr ⟨q, next, hprogress, ?_⟩⟩
        simp only [hprogress]
    | hearing rest =>
      refine .inr ⟨t, rfl, by rw [hprogress]; rfl, .inl ?_⟩
      simp only [hprogress]
    | dropped => exact .inl (by simp only [hprogress])

/-! ## What one step keeps -/

theorem Kept.put (h : Kept electors c) {k : Nat} {t t' : Task ι} (ht : c.tasks[k]? = some t)
    (hbecomes : t.Becomes t')
    (hread : ∀ held, t'.read = some (some held) → ∃ v ∈ c.versions, v.lease = held)
    (hsound : t'.Sound (electors t.owner) c k) : Kept electors (c.put k t') where
  now := h.now
  since j u hu := by
    obtain ⟨u₀, hu₀, hsame⟩ := put_origin ht hbecomes hu
    rw [hsame.since]
    exact h.since j u₀ hu₀
  ordered i j u w hle hu hw := by
    obtain ⟨u₀, hu₀, hsame⟩ := put_origin ht hbecomes hu
    obtain ⟨w₀, hw₀, hsame'⟩ := put_origin ht hbecomes hw
    rw [hsame.since, hsame'.since]
    exact h.ordered i j u₀ w₀ hle hu₀ hw₀
  known j u hu := by
    obtain ⟨u₀, hu₀, hsame⟩ := put_origin ht hbecomes hu
    rw [hsame.known]
    exact h.known j u₀ hu₀
  read j u held hu := by
    rcases put_cases hu with ⟨rfl, rfl⟩ | ⟨-, hu⟩
    · exact hread held
    · exact h.read j u held hu
  sound j u hu := by
    rcases put_cases hu with ⟨rfl, rfl⟩ | ⟨-, hu⟩
    · rw [hbecomes.owner]
      exact hsound
    · exact h.sound j u hu
  strays s hs := (h.strays s hs).grows (.put ht hbecomes)
  made v older hv := by
    obtain ⟨u, hu, hknown, hmade⟩ := h.made v older hv
    obtain ⟨u', hu', hsame⟩ := (Grows.put ht hbecomes).tasks v.task u hu
    rw [← hsame.known] at hknown
    rw [← hsame.owner] at hmade
    exact ⟨u', hu', hknown, hmade.becomes hsame⟩
  distinct := h.distinct

/-- What a request that may be made makes of what is stored is a version made by its task. -/
theorem Kept.made_of_applied (h : Kept electors c) {k : Nat} {t : Task ι} {q : LeaseCall}
    {lease : Lease} (version : String) (ht : c.tasks[k]? = some t)
    (hmay : May (electors t.owner) t.errand t.since t.read q)
    (happlied : applied? c.stored? q = some lease) :
    Made (electors t.owner) t (stamped version lease) c.stored? := by
  cases q with
  | clock => cases happlied
  | get => cases happlied
  | create lease' =>
    obtain ⟨herrand, hread, rfl⟩ := hmay
    simp only [applied?] at happlied
    split at happlied
    · next hnone =>
      obtain rfl := Option.some.inj happlied
      rw [Option.isNone_iff_eq_none.mp hnone]
      exact .created version herrand hread
    · cases happlied
  | replace lease' =>
    obtain ⟨herrand, held, hread, hclaims⟩ := hmay
    obtain ⟨current, hcurrent, hsome⟩ := Option.bind_eq_some_iff.mp happlied
    split at hsome
    · next hname =>
      obtain rfl := Option.some.inj hsome
      -- The lease that was read and the one that is stored are of one version.
      obtain ⟨v, hv, rfl⟩ := h.read k t held ht hread
      obtain ⟨w, hw, rfl⟩ := Option.map_eq_some_iff.mp hcurrent
      have hkept : lease'.metadata.resourceVersion = v.name := by
        cases hclaims <;> rfl
      have hsame : w = v := h.eq_of_name (List.mem_of_mem_head? hw) hv (hname.trans hkept)
      rw [hcurrent, hsame]
      exact .claimed version herrand hread hclaims
    · cases hsome
  | vacate renewTime =>
    obtain ⟨herrand, read, hread, hholder⟩ := hmay
    obtain ⟨held, hheld, rfl⟩ := Option.map_eq_some_iff.mp happlied
    rw [hheld]
    exact .vacated version renewTime herrand hread hholder

theorem Kept.push (h : Kept electors c) {k : Nat} {q : LeaseCall} {lease : Lease} {version : String}
    (hentitled : c.Entitled electors k q) (happlied : applied? c.stored? q = some lease)
    (hfresh : c.Fresh version) : Kept electors (c.push ⟨stamped version lease, k⟩) where
  now := h.now
  since := h.since
  ordered := h.ordered
  known j u hu := Nat.le_succ_of_le (h.known j u hu)
  read j u held hu hread := by
    obtain ⟨v, hv, hlease⟩ := h.read j u held hu hread
    exact ⟨v, List.mem_cons_of_mem _ hv, hlease⟩
  sound j u hu plan hplan := by
    obtain ⟨won, hwon, hsound⟩ := h.sound j u hu plan hplan
    refine ⟨won, fun hw => ?_, hsound⟩
    obtain ⟨v, hv, htask⟩ := hwon hw
    exact ⟨v, List.mem_cons_of_mem _ hv, htask⟩
  strays s hs := (h.strays s hs).grows (.push _)
  made v older hv := by
    rcases List.suffix_cons_iff.mp hv with heq | hv
    · obtain ⟨rfl, rfl⟩ := List.cons.inj heq
      obtain ⟨t, ht, hmay⟩ := hentitled
      exact ⟨t, ht, h.known k t ht, h.made_of_applied version ht hmay happlied⟩
    · exact h.made v older hv
  distinct := List.nodup_cons.mpr ⟨hfresh, h.distinct⟩

theorem Kept.stray (h : Kept electors c) {k : Nat} {q : LeaseCall}
    (hentitled : c.Entitled electors k q) :
    Kept electors { c with strays := (k, q) :: c.strays } where
  now := h.now
  since := h.since
  ordered := h.ordered
  known := h.known
  read := h.read
  sound := h.sound
  strays s hs := by
    rcases List.mem_cons.mp hs with rfl | hs
    · exact hentitled
    · exact h.strays s hs
  made := h.made
  distinct := h.distinct

theorem Kept.turn {c' : Contest ι} (h : Kept electors c) (hturn : Turn c c') : Kept electors c' := by
  cases hturn with
  | passed hle hreading =>
    exact { h with
      now := hreading
      since := fun k t ht => ⟨(h.since k t ht).1, Timestamp.le_trans (h.since k t ht).2 hle⟩ }
  | @fetched k t next hasks =>
    obtain ⟨ht, hprogress⟩ := hasks
    obtain ⟨won, hwon, -, hunread, hnext⟩ := h.sound k t ht _ (by rw [hprogress]; rfl)
    refine h.put ht ⟨rfl, rfl, rfl, rfl, .inl (hunread rfl)⟩ ?_ ?_
    · intro held hread
      obtain ⟨v, hv, hlease⟩ := Option.map_eq_some_iff.mp (Option.some.inj hread)
      exact ⟨v, List.mem_of_mem_head? hv, hlease⟩
    · rintro plan ⟨⟩
      have hrest := hnext (.ok c.stored?)
      exact ⟨_, fun hw => hwon (by simpa [granted] using hw), hrest⟩
  | @accepted k t q next answer lease version hasks happlied hfresh hgranted =>
    have hpushed := h.push (h.entitled hasks) happlied hfresh
    obtain ⟨ht, hprogress⟩ := hasks
    obtain ⟨won, hwon, -, -, hnext⟩ := h.sound k t ht _ (by rw [hprogress]; rfl)
    refine hpushed.put ht ⟨rfl, rfl, rfl, rfl, .inr rfl⟩ (fun held => hpushed.read k t held ht) ?_
    rintro plan ⟨⟩
    have hrest := hnext answer
    rw [noted_of_granted t.read hgranted] at hrest
    exact ⟨_, fun _ => ⟨_, List.mem_cons_self, rfl⟩, hrest⟩
  | @failed k t q next answer hasks hrefused =>
    have hentitled := h.entitled hasks
    obtain ⟨ht, hprogress⟩ := hasks
    obtain ⟨won, hwon, -, -, hnext⟩ := h.sound k t ht _ (by rw [hprogress]; rfl)
    have hbecomes : t.Becomes { t with progress := .hearing (next answer) } :=
      ⟨rfl, rfl, rfl, rfl, .inr rfl⟩
    refine (h.put ht hbecomes (fun held => h.read k t held ht) ?_).stray
      (hentitled.grows (.put ht hbecomes))
    rintro plan ⟨⟩
    have hrest := hnext answer
    obtain ⟨hnoted, hgranted⟩ := noted_of_refused t.read hrefused
    rw [hnoted, hgranted, Bool.or_false] at hrest
    exact ⟨won, hwon, hrest⟩
  | @heard k t rest ht hprogress =>
    obtain ⟨won, hwon, hsound⟩ := h.sound k t ht rest (by rw [hprogress]; rfl)
    refine h.put ht ⟨rfl, rfl, rfl, rfl, .inr rfl⟩ (fun held => h.read k t held ht) ?_
    rintro plan ⟨⟩
    exact ⟨won, hwon, hsound.atOnce c.now⟩
  | @strayed k q before after lease version hstrays happlied hfresh =>
    have hentitled : c.Entitled electors k q := h.strays (k, q) (by rw [hstrays]; simp)
    have hfewer : ∀ s ∈ before ++ after, s ∈ c.strays := by
      intro s hs
      rw [hstrays]
      rcases List.mem_append.mp hs with hs | hs
      · exact List.mem_append_left _ hs
      · exact List.mem_append_right _ (List.mem_cons_of_mem _ hs)
    have hkept : Kept electors { c with strays := before ++ after } :=
      { h with strays := fun s hs => h.strays s (hfewer s hs) }
    exact hkept.push hentitled happlied hfresh

theorem Kept.begin (h : Kept electors c) (i : ι) (errand : Errand) :
    Kept electors (c.begin electors i errand) where
  now := h.now
  since k t ht := by
    rcases begin_cases ht with ⟨-, hu⟩ | ⟨-, rfl⟩
    · exact h.since k t hu
    · exact ⟨h.now, Timestamp.le_refl _⟩
  ordered j k t u hle ht hu := by
    rcases begin_cases hu with ⟨hlt, hu⟩ | ⟨rfl, rfl⟩
    · rcases begin_cases ht with ⟨-, ht⟩ | ⟨rfl, -⟩
      · exact h.ordered j k t u hle ht hu
      · omega
    · rcases begin_cases ht with ⟨-, ht⟩ | ⟨-, rfl⟩
      · exact (h.since j t ht).2
      · exact Timestamp.le_refl _
  known k t ht := by
    rcases begin_cases ht with ⟨-, ht⟩ | ⟨-, rfl⟩
    · exact h.known k t ht
    · exact Nat.le_refl _
  read k t held ht hread := by
    rcases begin_cases ht with ⟨-, ht⟩ | ⟨-, rfl⟩
    · exact h.read k t held ht hread
    · cases hread
  sound k t ht := by
    rcases begin_cases ht with ⟨-, ht⟩ | ⟨-, rfl⟩
    · exact h.sound k t ht
    · rintro plan ⟨⟩
      exact ⟨false, nofun, sound_plan (electors i) errand c.now⟩
  strays s hs := (h.strays s hs).grows (.begin i errand)
  made v older hv := by
    obtain ⟨t, ht, hknown, hmade⟩ := h.made v older hv
    have hgrows : c.Grows (c.begin electors i errand) := .begin i errand
    obtain ⟨t', ht', hbecomes⟩ := hgrows.tasks v.task t ht
    rw [← hbecomes.known] at hknown
    rw [← hbecomes.owner] at hmade
    exact ⟨t', ht', hknown, hmade.becomes hbecomes⟩
  distinct := h.distinct

theorem Kept.drop (h : Kept electors c) (k : Nat) : Kept electors (c.drop k) := by
  rcases drop_cases (c := c) k with hsame | ⟨t, ht, -, heq | ⟨q, next, hprogress, heq⟩⟩
  · rw [hsame]
    exact h
  · rw [heq]
    exact h.put ht ⟨rfl, rfl, rfl, rfl, .inr rfl⟩ (fun held => h.read k t held ht) (by rintro _ ⟨⟩)
  · rw [heq]
    have hbecomes : t.Becomes { t with progress := .dropped } := ⟨rfl, rfl, rfl, rfl, .inr rfl⟩
    exact (h.put ht hbecomes (fun held => h.read k t held ht) (by rintro _ ⟨⟩)).stray
      ((h.entitled ⟨ht, hprogress⟩).grows (.put ht hbecomes))

theorem Kept.step {c' : Contest ι} (h : Kept electors c) (hstep : Step electors c c') :
    Kept electors c' := by
  cases hstep with
  | turned hturn => exact h.turn hturn
  | begun i errand => exact h.begin i errand
  | dropped k => exact h.drop k

theorem Run.kept {start : Contest ι} (hstart : Kept electors start) (hrun : Run electors start c) :
    Kept electors c := by
  induction hrun with
  | nil => exact hstart
  | snoc _ hstep ih => exact ih.step hstep

end Contest

end Invariant

end Reconciler.Leadership
