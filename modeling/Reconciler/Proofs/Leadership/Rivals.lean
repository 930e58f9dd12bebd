import Mathlib.Logic.Function.Basic
import Reconciler.Host.Operator
import Reconciler.Proofs.Leadership.Releasing

/-!
# Replicas that compete

Every replica runs an election over an elector of its own; the elections share the server and the
clock. An election has at most one errand under way. It is told what happens by its host
(`Agrees.tell`): whatever it waits for no more is dropped, and the request that was sent for it may
still reach the server.

An elector that does one errand after the other reads what is stored only after its earlier errands
are over. So what an earlier errand has read is older than anything that a later one writes
(`Contest.OneByOne`), and its versions in the history are in the order in which its errands began.
-/

namespace Reconciler.Leadership

/-! ## One errand at a time -/

namespace Contest

variable {ι : Type} {electors : ι → Elector} {c c' : Contest ι}

/-- The tasks are those from before, those that were over unchanged, and at most one version is new. -/
structure Evolves (c c' : Contest ι) : Prop where
  origin : ∀ (k : Nat) (t' : Task ι), c'.tasks[k]? = some t' →
    ∃ t, c.tasks[k]? = some t ∧ t.Becomes t' ∧ (t.progress.isOver = true → t' = t)
  kept : ∀ (k : Nat) (t : Task ι), c.tasks[k]? = some t →
    ∃ t', c'.tasks[k]? = some t' ∧ t.Becomes t' ∧ (t.progress.isOver = true → t' = t)
  versions : c'.versions = c.versions ∨
    ∃ v name, c'.versions = v :: c.versions ∧ v.name = some name ∧ c.Fresh name

theorem Evolves.of_tasks_eq (htasks : c'.tasks = c.tasks) (hversions : c'.versions = c.versions ∨
    ∃ v name, c'.versions = v :: c.versions ∧ v.name = some name ∧ c.Fresh name) :
    c.Evolves c' where
  origin k t' ht' := ⟨t', by rw [← htasks, ht'], .refl t', fun _ => rfl⟩
  kept k t ht := ⟨t, by rw [htasks, ht], .refl t, fun _ => rfl⟩
  versions := hversions

/-- A task that is not over goes on. -/
theorem Evolves.put {k : Nat} {t t' : Task ι} (ht : c.tasks[k]? = some t)
    (hunder : t.progress.isOver = false) (htasks : c'.tasks = (c.put k t').tasks)
    (hbecomes : t.Becomes t') (hversions : c'.versions = c.versions ∨
      ∃ v name, c'.versions = v :: c.versions ∧ v.name = some name ∧ c.Fresh name) :
    c.Evolves c' where
  origin j u hu := by
    rw [htasks] at hu
    rcases put_cases hu with ⟨rfl, rfl⟩ | ⟨-, hu⟩
    · exact ⟨t, ht, hbecomes, fun hover => absurd (hunder.symm.trans hover) (by decide)⟩
    · exact ⟨u, hu, .refl u, fun _ => rfl⟩
  kept j u hu := by
    rw [htasks]
    by_cases hk : j = k
    · subst hk
      obtain rfl := Option.some.inj (ht.symm.trans hu)
      have hlt : j < c.tasks.length := (List.getElem?_eq_some_iff.mp ht).1
      exact ⟨t', List.getElem?_set_self hlt, hbecomes,
        fun hover => absurd (hunder.symm.trans hover) (by decide)⟩
    · refine ⟨u, ?_, .refl u, fun _ => rfl⟩
      rw [← hu]
      exact List.getElem?_set_ne fun heq => hk heq.symm
  versions := hversions

theorem Kept.evolves_turn (h : Kept electors c) (hturn : Turn c c') : c.Evolves c' := by
  cases hturn with
  | passed => exact .of_tasks_eq rfl (.inl rfl)
  | @fetched k t next hasks =>
    obtain ⟨ht, hprogress⟩ := hasks
    obtain ⟨won, -, -, hunread, -⟩ := h.sound k t ht _ (by rw [hprogress]; rfl)
    exact .put ht (by rw [hprogress]; rfl) rfl
      ⟨rfl, rfl, rfl, rfl, .inl (hunread rfl)⟩ (.inl rfl)
  | @accepted k t q next answer lease version hasks happlied hfresh =>
    obtain ⟨ht, hprogress⟩ := hasks
    exact .put ht (by rw [hprogress]; rfl) rfl ⟨rfl, rfl, rfl, rfl, .inr rfl⟩
      (.inr ⟨_, version, rfl, rfl, hfresh⟩)
  | failed hasks =>
    obtain ⟨ht, hprogress⟩ := hasks
    exact .put ht (by rw [hprogress]; rfl) rfl ⟨rfl, rfl, rfl, rfl, .inr rfl⟩ (.inl rfl)
  | heard ht hprogress =>
    exact .put ht (by rw [hprogress]; rfl) rfl ⟨rfl, rfl, rfl, rfl, .inr rfl⟩ (.inl rfl)
  | @strayed k q before after lease version hstrays happlied hfresh =>
    exact .of_tasks_eq rfl (.inr ⟨_, version, rfl, rfl, hfresh⟩)

theorem evolves_drop (k : Nat) : c.Evolves (c.drop k) := by
  rcases drop_cases (c := c) k with hsame | ⟨t, ht, hunder, heq | ⟨q, next, -, heq⟩⟩
  · rw [hsame]
    exact .of_tasks_eq rfl (.inl rfl)
  · rw [heq]
    exact .put ht hunder rfl ⟨rfl, rfl, rfl, rfl, .inr rfl⟩ (.inl rfl)
  · rw [heq]
    exact .put ht hunder rfl ⟨rfl, rfl, rfl, rfl, .inr rfl⟩ (.inl rfl)

/-- A task that is dropped is over. -/
theorem isOver_drop {k : Nat} {t : Task ι} (ht : (c.drop k).tasks[k]? = some t) :
    t.progress.isOver = true := by
  unfold Contest.drop at ht
  split at ht
  · next hnone =>
    rw [hnone] at ht
    cases ht
  · next u hu =>
    have hput : ∀ w : Task ι, (c.put k w).tasks[k]? = some t → t = w := by
      intro w hw
      rcases put_cases hw with ⟨-, heq⟩ | ⟨hne, -⟩
      · exact heq
      · exact absurd rfl hne
    split at ht
    · rw [hput _ ht]
      rfl
    · rw [hput _ ht]
      rfl
    · next hasking hhearing =>
      obtain rfl := Option.some.inj (hu.symm.trans ht)
      cases hprogress : u.progress with
      | asking plan =>
        cases plan with
        | done r => rfl
        | ask q next => exact absurd hprogress (hasking q next)
      | hearing rest => exact absurd hprogress (hhearing rest)
      | dropped => rfl

/-- An elector begins an errand when its earlier ones are over, so what they have read was there
before anything that the later one may write. -/
def OneByOne (c : Contest ι) : Prop :=
  ∀ (j k : Nat) (t u : Task ι), j < k → c.tasks[j]? = some t → c.tasks[k]? = some u →
    t.owner = u.owner → t.progress.isOver = true ∧
      ∀ w older, w :: older <:+ c.versions → t.read = some (some w.lease) →
        older.length < u.known

theorem OneByOne.evolves (h : OneByOne c) (hkept : Kept electors c) (hevolves : c.Evolves c') :
    OneByOne c' := by
  intro j k t' u' hlt ht' hu' howner
  obtain ⟨t, ht, htbecomes, htover⟩ := hevolves.origin j t' ht'
  obtain ⟨u, hu, hubecomes, -⟩ := hevolves.origin k u' hu'
  rw [htbecomes.owner, hubecomes.owner] at howner
  obtain ⟨hover, hread⟩ := h j k t u hlt ht hu howner
  obtain rfl := htover hover
  refine ⟨hover, fun w older hw hreads => ?_⟩
  rw [hubecomes.known]
  rcases hevolves.versions with hsame | ⟨v, name, hnew, hname, hfresh⟩
  · rw [hsame] at hw
    exact hread w older hw hreads
  · rw [hnew] at hw
    rcases List.suffix_cons_iff.mp hw with heq | hw
    · -- The new version is none that could have been read.
      obtain ⟨rfl, -⟩ := List.cons.inj heq
      obtain ⟨x, hx, hlease⟩ := hkept.read j t' w.lease ht hreads
      have hxname : x.name = some name := by
        rw [← hname, Version.name, Version.name, hlease]
      exact absurd (List.mem_map.mpr ⟨x, hx, hxname⟩) hfresh
    · exact hread w older hw hreads

theorem OneByOne.begin (h : OneByOne c) {i : ι} (errand : Errand)
    (hover : ∀ (k : Nat) (t : Task ι), c.tasks[k]? = some t → t.owner = i →
      t.progress.isOver = true) : OneByOne (c.begin electors i errand) := by
  intro j k t u hlt ht hu howner
  rcases begin_cases hu with ⟨hltk, hu⟩ | ⟨rfl, rfl⟩
  · rcases begin_cases ht with ⟨-, ht⟩ | ⟨rfl, -⟩
    · exact h j k t u hlt ht hu howner
    · omega
  · rcases begin_cases ht with ⟨-, ht⟩ | ⟨rfl, -⟩
    · refine ⟨hover j t ht howner, fun w older hw _ => ?_⟩
      have hlength := hw.length_le
      simp only [List.length_cons] at hlength
      exact hlength
    · omega

/-- What an elector's attempts have written stands in the history in the order in which they
began. -/
theorem OneByOne.ordered (h : OneByOne c) (hkept : Kept electors c) {v w : Version}
    {older older' : List Version} {t u : Task ι} (hv : v :: older <:+ c.versions)
    (hw : w :: older' <:+ v :: older) (ht : c.tasks[v.task]? = some t)
    (hu : c.tasks[w.task]? = some u) (howner : t.owner = u.owner) (hattempt : t.errand = .attempt) :
    u.since ≤ t.since := by
  rcases Nat.lt_or_ge v.task w.task with hlt | hge
  · exfalso
    obtain ⟨-, hread⟩ := h v.task w.task t u hlt ht hu howner
    obtain ⟨t', ht', -, hmade⟩ := hkept.made v older hv
    obtain rfl := Option.some.inj (ht.symm.trans ht')
    obtain ⟨u', hu', hknown, -⟩ := hkept.made w older' (hw.trans hv)
    obtain rfl := Option.some.inj (hu.symm.trans hu')
    rcases List.suffix_cons_iff.mp hw with heq | hinner
    · rw [(List.cons.inj heq).1] at hlt
      omega
    · cases older with
      | nil => exact absurd hinner.length_le (by simp)
      | cons x rest =>
        have hbefore : rest.length < u.known :=
          hread x rest ((List.suffix_cons v _).trans hv) (hmade.read_of_attempt hattempt)
        have hlength := hinner.length_le
        simp only [List.length_cons] at hlength
        omega
  · exact hkept.ordered w.task v.task u t hge hu ht

end Contest

/-! ## Replicas -/

/-- The part of a replica that competes for the lease. -/
structure Contender where
  election : Election
  channel : Channel := {}
  /-- The place of the attempt or release under way. -/
  errand : Option Nat := none
  /-- The place of the last attempt that it has seen succeed. -/
  won : Option Nat := none

/-- Contenders, named by `ι`, and what they have to do with each other. -/
structure Rivals (ι : Type) where
  contest : Contest ι
  contenders : ι → Contender

namespace Rivals

variable {ι : Type} [DecidableEq ι]

def alter (s : Rivals ι) (i : ι) (f : Contender → Contender) : Rivals ι :=
  { s with contenders := Function.update s.contenders i (f (s.contenders i)) }

/-- Drop the attempt or release that a contender has under way. -/
def abandon (s : Rivals ι) (i : ι) : Rivals ι :=
  match (s.contenders i).errand with
  | none => s
  | some k => { s with contest := s.contest.drop k }.alter i fun r => { r with errand := none }

/-- Begin an errand, which takes the place of one under way. -/
def launch (electors : ι → Elector) (s : Rivals ι) (i : ι) (errand : Errand) : Rivals ι :=
  let s := s.abandon i
  { s with contest := s.contest.begin electors i errand }.alter i fun r =>
    { r with errand := some s.contest.tasks.length }

/-- Do what the election of a contender does. -/
def perform (electors : ι → Elector) (i : ι) : Rivals ι → List Election.Effect → Rivals ι
  | s, [] => s
  | s, .publish state :: rest =>
    perform electors i (s.alter i fun r => { r with channel := r.channel.publish state }) rest
  | s, .attempt :: rest => perform electors i (s.launch electors i .attempt) rest
  | s, .release :: rest => perform electors i (s.launch electors i .release) rest

/-- Something happens to the election of a contender. -/
def tell (electors : ι → Elector) (s : Rivals ι) (i : ι) (input : Election.Input) : Rivals ι :=
  let r := s.contenders i
  let (next, effects) := r.election.react s.contest.now.millis r.channel.current input
  let s := if next.stage = r.election.stage then s else s.abandon i
  perform electors i (s.alter i fun r => { r with election := next }) effects

/-- The errand of a contender has ended. -/
def conclude (s : Rivals ι) (i : ι) (k : Nat) (result : Election.Input) : Rivals ι :=
  s.alter i fun r =>
    { r with
      errand := none
      won := match result with
        | .attempted (.ok true) => some k
        | _ => r.won }

/-- What can happen. A contender is started and stopped, and woken, at any time. -/
inductive Step (electors : ι → Elector) : Rivals ι → Rivals ι → Prop where
  | turned {s : Rivals ι} {c : Contest ι} : s.contest.Turn c → Step electors s { s with contest := c }
  | started {s : Rivals ι} (i : ι) : Step electors s (s.tell electors i .start)
  | stopped {s : Rivals ι} (i : ι) : Step electors s (s.tell electors i .stop)
  | woken {s : Rivals ι} (i : ι) : Step electors s (s.tell electors i .wake)
  | concluded {s : Rivals ι} {i : ι} {k : Nat} {t : Task ι} {result : Election.Input} :
      (s.contenders i).errand = some k → s.contest.tasks[k]? = some t →
      t.progress = .asking (.done result) →
      Step electors s ((s.conclude i k result).tell electors i result)

inductive Run (electors : ι → Elector) (start : Rivals ι) : Rivals ι → Prop where
  | nil : Run electors start start
  | snoc {s s' : Rivals ι} : Run electors start s → Step electors s s' → Run electors start s'

/-- Replicas of given settings that have not been started yet; there is no lease. -/
def initial (settings : ι → Settings) (now : Timestamp) : Rivals ι where
  contest := .initial now
  contenders i := { election := .ofSettings (settings i) }

/-! ## The invariant -/

/-- A contender has seen an attempt of its own succeed. -/
def HasWon (s : Rivals ι) (i : ι) : Prop :=
  ∃ k t, (s.contenders i).won = some k ∧ s.contest.tasks[k]? = some t ∧ t.owner = i ∧ t.Succeeded

/-- Whatever happens: what the contest keeps; of an elector's tasks only the errand under way is not
over; and who publishes that it leads has seen an attempt succeed. -/
structure Guarded (electors : ι → Elector) (s : Rivals ι) : Prop where
  contest : s.contest.Kept electors
  oneByOne : s.contest.OneByOne
  settled : ∀ (k : Nat) (t : Task ι), s.contest.tasks[k]? = some t →
    (s.contenders t.owner).errand ≠ some k → t.progress.isOver = true
  own : ∀ i k, (s.contenders i).errand = some k →
    ∃ t, s.contest.tasks[k]? = some t ∧ t.owner = i
  leads : ∀ i, (s.contenders i).channel.current = .leader → s.HasWon i

variable {electors : ι → Elector} {s : Rivals ι} {i : ι}

@[simp] theorem alter_self (f : Contender → Contender) :
    (s.alter i f).contenders i = f (s.contenders i) := Function.update_self ..

@[simp] theorem alter_of_ne {j : ι} (h : j ≠ i) (f : Contender → Contender) :
    (s.alter i f).contenders j = s.contenders j := Function.update_of_ne h ..

omit [DecidableEq ι] in
theorem Guarded.initial (settings : ι → Settings) {now : Timestamp} (hnow : now.IsReading) :
    Guarded electors (initial settings now) where
  contest := .initial hnow
  oneByOne := by
    intro j k t u _ ht
    simp [Rivals.initial, Contest.initial] at ht
  settled := by simp [Rivals.initial, Contest.initial]
  own := by simp [Rivals.initial]
  leads := by
    intro i hleader
    cases hleader

omit [DecidableEq ι] in
theorem HasWon.evolves {c : Contest ι} (h : s.HasWon i) (hevolves : s.contest.Evolves c) :
    HasWon { s with contest := c } i := by
  obtain ⟨k, t, hwon, ht, howner, hsuccess⟩ := h
  obtain ⟨t', ht', -, hsame⟩ := hevolves.kept k t ht
  obtain rfl := hsame (by rw [hsuccess]; rfl)
  exact ⟨k, t', hwon, ht', howner, hsuccess⟩

omit [DecidableEq ι] in
theorem HasWon.begin (h : s.HasWon i) (j : ι) (errand : Errand) :
    HasWon { s with contest := s.contest.begin electors j errand } i := by
  obtain ⟨k, t, hwon, ht, howner, hsuccess⟩ := h
  have hlt : k < s.contest.tasks.length := (List.getElem?_eq_some_iff.mp ht).1
  exact ⟨k, t, hwon, (List.getElem?_append_left hlt).trans ht, howner, hsuccess⟩

theorem HasWon.alter (h : s.HasWon i) {j : ι} {f : Contender → Contender}
    (hf : (f (s.contenders j)).won = (s.contenders j).won) : (s.alter j f).HasWon i := by
  obtain ⟨k, t, hwon, ht, howner, hsuccess⟩ := h
  refine ⟨k, t, ?_, ht, howner, hsuccess⟩
  by_cases hij : i = j
  · subst hij
    rw [alter_self, hf, hwon]
  · rw [alter_of_ne hij, hwon]

/-- A contender changes, but begins no errand, and gives up only one that is over. -/
theorem Guarded.alter (h : Guarded electors s) {f : Contender → Contender}
    (herrand : ∀ k, (f (s.contenders i)).errand = some k → (s.contenders i).errand = some k)
    (hover : ∀ (k : Nat) (t : Task ι), (s.contenders i).errand = some k →
      (f (s.contenders i)).errand ≠ some k → s.contest.tasks[k]? = some t →
      t.progress.isOver = true)
    (hleads : (f (s.contenders i)).channel.current = .leader → (s.alter i f).HasWon i) :
    Guarded electors (s.alter i f) where
  contest := h.contest
  oneByOne := h.oneByOne
  settled k t ht hne := by
    by_cases howner : t.owner = i
    · rw [howner, alter_self] at hne
      by_cases hunder : (s.contenders i).errand = some k
      · exact hover k t hunder hne ht
      · exact h.settled k t ht (by rw [howner]; exact hunder)
    · rw [alter_of_ne howner] at hne
      exact h.settled k t ht hne
  own j k hj := by
    by_cases hji : j = i
    · subst hji
      rw [alter_self] at hj
      exact h.own j k (herrand k hj)
    · rw [alter_of_ne hji] at hj
      exact h.own j k hj
  leads j hj := by
    by_cases hji : j = i
    · subst hji
      rw [alter_self] at hj
      exact hleads hj
    · rw [alter_of_ne hji] at hj
      obtain ⟨k, t, hwon, hrest⟩ := h.leads j hj
      exact ⟨k, t, by rw [alter_of_ne hji, hwon], hrest⟩

omit [DecidableEq ι] in
theorem Guarded.evolves (h : Guarded electors s) {c : Contest ι} (hkept : c.Kept electors)
    (hevolves : s.contest.Evolves c) : Guarded electors { s with contest := c } where
  contest := hkept
  oneByOne := h.oneByOne.evolves h.contest hevolves
  settled k t' ht' hne := by
    obtain ⟨t, ht, hbecomes, hsame⟩ := hevolves.origin k t' ht'
    have hover : t.progress.isOver = true := by
      refine h.settled k t ht ?_
      rw [← hbecomes.owner]
      exact hne
    rw [hsame hover]
    exact hover
  own i k hk := by
    obtain ⟨t, ht, howner⟩ := h.own i k hk
    obtain ⟨t', ht', hbecomes, -⟩ := hevolves.kept k t ht
    exact ⟨t', ht', hbecomes.owner.trans howner⟩
  leads i hi := (h.leads i hi).evolves hevolves

theorem Guarded.abandon (h : Guarded electors s) (i : ι) :
    Guarded electors (s.abandon i) ∧ ((s.abandon i).contenders i).errand = none := by
  unfold Rivals.abandon
  split
  · next hnone => exact ⟨h, hnone⟩
  · next k hk =>
    have hdropped := h.evolves (h.contest.drop k) (Contest.evolves_drop k)
    refine ⟨hdropped.alter nofun ?_ ?_, by rw [alter_self]⟩
    · intro j t hj _ ht
      obtain rfl : k = j := Option.some.inj (hk.symm.trans hj)
      exact Contest.isOver_drop ht
    · intro hleader
      exact (hdropped.leads i hleader).alter rfl

theorem HasWon.abandon (h : s.HasWon i) (j : ι) : (s.abandon j).HasWon i := by
  unfold Rivals.abandon
  split
  · exact h
  · exact (h.evolves (Contest.evolves_drop _)).alter rfl

theorem Guarded.launch (h : Guarded electors s) (i : ι) (errand : Errand) :
    Guarded electors (s.launch electors i errand) := by
  obtain ⟨hidle, hnone⟩ := h.abandon i
  unfold Rivals.launch
  generalize s.abandon i = s at hidle hnone
  have hover : ∀ (k : Nat) (t : Task ι), s.contest.tasks[k]? = some t → t.owner = i →
      t.progress.isOver = true := by
    intro k t ht howner
    refine hidle.settled k t ht ?_
    rw [howner, hnone]
    nofun
  have hbegun : ∀ (k : Nat) (t : Task ι), s.contest.tasks[k]? = some t →
      (s.contest.begin electors i errand).tasks[k]? = some t := by
    intro k t ht
    have hlt : k < s.contest.tasks.length := (List.getElem?_eq_some_iff.mp ht).1
    exact (List.getElem?_append_left hlt).trans ht
  refine ⟨hidle.contest.begin i errand, hidle.oneByOne.begin errand hover, ?_, ?_, ?_⟩
  · intro k t ht hne
    rcases Contest.begin_cases ht with ⟨hlt, ht⟩ | ⟨rfl, rfl⟩
    · by_cases howner : t.owner = i
      · exact hover k t ht howner
      · rw [alter_of_ne howner] at hne
        exact hidle.settled k t ht hne
    · exact absurd (by rw [alter_self]) hne
  · intro j k hj
    by_cases hji : j = i
    · subst hji
      rw [alter_self] at hj
      obtain rfl := Option.some.inj hj
      exact ⟨_, List.getElem?_concat_length, rfl⟩
    · rw [alter_of_ne hji] at hj
      obtain ⟨t, ht, howner⟩ := hidle.own j k hj
      exact ⟨t, hbegun k t ht, howner⟩
  · intro j hj
    have hleader : (s.contenders j).channel.current = .leader := by
      by_cases hji : j = i
      · subst hji
        rw [alter_self] at hj
        exact hj
      · rw [alter_of_ne hji] at hj
        exact hj
    exact ((hidle.leads j hleader).begin i errand).alter rfl

theorem HasWon.launch (h : s.HasWon i) (j : ι) (errand : Errand) :
    (s.launch electors j errand).HasWon i := by
  have hbegun : HasWon { s.abandon j with
    contest := (s.abandon j).contest.begin electors j errand } i := (h.abandon j).begin j errand
  exact hbegun.alter (f := fun r => { r with errand := some (s.abandon j).contest.tasks.length }) rfl

theorem Guarded.perform (h : Guarded electors s) {effects : List Election.Effect}
    (hleader : .publish .leader ∈ effects → s.HasWon i) :
    Guarded electors (s.perform electors i effects) := by
  induction effects generalizing s with
  | nil => exact h
  | cons effect rest ih =>
    cases effect with
    | publish state =>
      refine ih (h.alter (fun _ hk => hk) (fun k t hk hne => absurd hk hne) ?_) ?_
      · rintro ⟨⟩
        exact (hleader List.mem_cons_self).alter rfl
      · intro hrest
        exact (hleader (List.mem_cons_of_mem _ hrest)).alter rfl
    | attempt =>
      refine ih (h.launch i .attempt) fun hrest => ?_
      exact (hleader (List.mem_cons_of_mem _ hrest)).launch i .attempt
    | release =>
      refine ih (h.launch i .release) fun hrest => ?_
      exact (hleader (List.mem_cons_of_mem _ hrest)).launch i .release

/-- An election publishes that it leads only when it is told that an attempt has succeeded. -/
theorem publish_leader_mem_react {e : Election} {now : Nat} {state : Leadership}
    {input : Election.Input} (h : .publish .leader ∈ (e.react now state input).2) :
    input = .attempted (.ok true) := by
  cases input with
  | attempted outcome =>
    simp only [Election.react] at h
    split at h
    · next leading hstage =>
      cases outcome with
      | ok held =>
        cases held with
        | true => rfl
        | false => cases leading <;> simp [Election.transition, Election.acquired] at h
      | error err => cases leading <;> simp [Election.transition, Election.acquired] at h
    · cases h
  | start =>
    simp only [Election.react] at h
    split at h <;> cases h
  | stop =>
    simp only [Election.react] at h
    split at h
    · cases h
    · cases h
    · split at h <;> simp at h
  | wake =>
    simp only [Election.react, Election.attempt] at h
    split at h
    · simp at h
    · split at h <;> simp at h
    · cases h
  | released outcome =>
    simp only [Election.react] at h
    split at h <;> simp at h
  | failed => cases h

theorem Guarded.tell (h : Guarded electors s) {input : Election.Input}
    (hwon : input = .attempted (.ok true) → s.HasWon i) :
    Guarded electors (s.tell electors i input) := by
  unfold Rivals.tell
  simp only
  generalize hnext : (s.contenders i).election.react s.contest.now.millis
    (s.contenders i).channel.current input = next
  have hleader : .publish .leader ∈ next.2 → s.HasWon i := by
    intro hmem
    rw [← hnext] at hmem
    exact hwon (publish_leader_mem_react hmem)
  split
  · refine Guarded.perform (h.alter (fun _ hk => hk) (fun k t hk hne => absurd hk hne) ?_) ?_
    · intro hleads
      exact (h.leads i hleads).alter rfl
    · intro hmem
      exact (hleader hmem).alter rfl
  · have habandoned := (h.abandon i).1
    refine Guarded.perform
      (habandoned.alter (fun _ hk => hk) (fun k t hk hne => absurd hk hne) ?_) ?_
    · intro hleads
      exact (habandoned.leads i hleads).alter rfl
    · intro hmem
      exact ((hleader hmem).abandon i).alter rfl

/-- When an errand has ended, it counts as an attempt that succeeded if it was one. -/
theorem Guarded.conclude (h : Guarded electors s) {k : Nat} {t : Task ι} {result : Election.Input}
    (hunder : (s.contenders i).errand = some k) (ht : s.contest.tasks[k]? = some t)
    (hdone : t.progress = .asking (.done result)) :
    Guarded electors (s.conclude i k result) ∧
      (result = .attempted (.ok true) → (s.conclude i k result).HasWon i) := by
  have hsuccess : result = .attempted (.ok true) → (s.conclude i k result).HasWon i := by
    rintro rfl
    obtain ⟨t', ht', howner⟩ := h.own i k hunder
    obtain rfl := Option.some.inj (ht.symm.trans ht')
    exact ⟨k, t, by rw [Rivals.conclude, alter_self], ht, howner, hdone⟩
  refine ⟨h.alter nofun ?_ ?_, hsuccess⟩
  · intro j u hj _ hu
    obtain rfl : k = j := Option.some.inj (hunder.symm.trans hj)
    obtain rfl := Option.some.inj (ht.symm.trans hu)
    rw [hdone]
    rfl
  · intro hleader
    by_cases hresult : result = .attempted (.ok true)
    · exact hsuccess hresult
    · refine (h.leads i hleader).alter ?_
      simp only

theorem Step.guarded {s' : Rivals ι} (h : Guarded electors s) (hstep : Step electors s s') :
    Guarded electors s' := by
  cases hstep with
  | turned hturn => exact h.evolves (h.contest.turn hturn) (h.contest.evolves_turn hturn)
  | started i => exact h.tell nofun
  | stopped i => exact h.tell nofun
  | woken i => exact h.tell nofun
  | concluded hunder ht hdone =>
    obtain ⟨hconcluded, hwon⟩ := h.conclude hunder ht hdone
    exact hconcluded.tell hwon

theorem Run.guarded {start : Rivals ι} (hstart : Guarded electors start)
    (hrun : Run electors start s) : Guarded electors s := by
  induction hrun with
  | nil => exact hstart
  | snoc _ hstep ih => exact hstep.guarded ih

/-! ## What a host does -/

section Hosts

variable {K Q : Type} {A : Q → Type} {E D R : Type} {o : Host.Operator K Q A E D R}

/-- The election of an operator and the channel that it publishes on are those of a contender. -/
structure Agrees (o : Host.Operator K Q A E D R) (s : Rivals ι) (i : ι) : Prop where
  now : o.now = s.contest.now.millis
  election : o.election = some (s.contenders i).election
  channel : o.channel = (s.contenders i).channel

omit [DecidableEq ι] in
theorem Agrees.launched (h : Agrees o s i) (pr : Host.Program K Q A E D R)
    (plan : Plan Q A Election.Input) : Agrees (o.launch pr plan) s i := by
  unfold Host.Operator.launch
  split
  · exact ⟨h.now, h.election, h.channel⟩
  · exact ⟨h.now, h.election, h.channel⟩

theorem Agrees.abandon (h : Agrees o s i) : Agrees o (s.abandon i) i := by
  unfold Rivals.abandon
  split
  · exact h
  · next k hk =>
    have hnow : (s.contest.drop k).now = s.contest.now := by
      rcases Contest.drop_cases (c := s.contest) k with hsame | ⟨t, -, -, heq | ⟨q, next, -, heq⟩⟩
      · rw [hsame]
      · rw [heq]
        rfl
      · rw [heq]
        rfl
    refine ⟨?_, ?_, ?_⟩
    · rw [h.now, ← hnow]
      rfl
    · rw [alter_self]
      exact h.election
    · rw [alter_self]
      exact h.channel

theorem Agrees.launch (h : Agrees o s i) (errand : Errand) :
    Agrees o (s.launch electors i errand) i := by
  have habandoned := h.abandon
  unfold Rivals.launch
  refine ⟨habandoned.now, ?_, ?_⟩
  · rw [alter_self]
    exact habandoned.election
  · rw [alter_self]
    exact habandoned.channel

theorem Agrees.perform (h : Agrees o s i) (pr : Host.Program K Q A E D R)
    (effects : List Election.Effect) :
    Agrees (o.performElection pr effects) (s.perform electors i effects) i := by
  induction effects generalizing o s with
  | nil => exact h
  | cons effect rest ih =>
    cases effect with
    | publish state =>
      refine ih ⟨h.now, ?_, ?_⟩
      · rw [alter_self]
        exact h.election
      · rw [alter_self, ← h.channel]
    | attempt => exact ih ((h.launch .attempt).launched pr _)
    | release => exact ih ((h.launch .release).launched pr _)

/-- What happens to the election of an operator changes it, and what it has published, as it changes
a contender. -/
theorem Agrees.tell (h : Agrees o s i) (pr : Host.Program K Q A E D R) (input : Election.Input) :
    Agrees (o.tellElection pr input) (s.tell electors i input) i := by
  unfold Host.Operator.tellElection Rivals.tell
  rw [h.election, h.now, h.channel]
  simp only
  generalize (s.contenders i).election.react s.contest.now.millis
    (s.contenders i).channel.current input = next
  split
  · refine Agrees.perform ⟨rfl, ?_, ?_⟩ pr next.2
    · rw [alter_self]
    · rw [alter_self]
  · have habandoned := h.abandon
    refine Agrees.perform ⟨h.now.symm.trans habandoned.now, ?_, ?_⟩ pr next.2
    · rw [alter_self]
    · rw [alter_self]
      exact h.channel.symm.trans habandoned.channel

end Hosts

end Rivals

end Reconciler.Leadership
