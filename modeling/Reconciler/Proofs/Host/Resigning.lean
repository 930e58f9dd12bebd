import Reconciler.Proofs.Host.Shutdown

/-!
# An election that resigns

An election that is told to stop gives the lease back if it leads, and is over at once, or when that
has been answered. While it is over it begins no attempt, whatever it hears (`react_over`). A plan
for the lease is under way only while the election waits for it (`LeaseKept`), so nothing else can
reach an election that waits for nothing.
-/

namespace Reconciler.Host

open Leadership (Channel Election)

variable {K Q E D R : Type} {A : Q → Type}

namespace Operator

/-! ## The election at the end -/

section Elections

variable {pr : Program K Q A E D R} {o o' : Operator K Q A E D R} {e : Election}
  {input : Election.Input}

/-- What a plan for the lease ends with. -/
def IsOutcome : Election.Input → Prop
  | .attempted _ => True
  | .released _ => True
  | .failed => True
  | _ => False

/-- The election waits for a plan for the lease. -/
def Waits (e : Election) : Prop :=
  (∃ leading, e.stage = some (.attempting leading)) ∨ e.stage = some .releasing

/-- The loop has ended, and a release may be awaited. -/
def IsOver (e : Election) : Prop :=
  e.stage = none ∨ e.stage = some .releasing ∨ e.stage = some .lost

/-- What an election does: it publishes, or begins an attempt, or gives the lease back. -/
theorem react_cases (e : Election) (now : Nat) (s : Leadership) (input : Election.Input) :
    (∀ effect ∈ (e.react now s input).2, ∃ state, effect = .publish state) ∨
    (input = .wake ∧ ¬IsOver e ∧ Waits (e.react now s input).1 ∧
      ∃ states : List Leadership,
        (e.react now s input).2 = states.map .publish ++ [.attempt]) ∨
    (input = .stop ∧ s = .leader ∧ (e.react now s input).1.stage = some .releasing ∧
      (e.react now s input).2 = [.release]) := by
  cases input with
  | start => left; simp only [Election.react]; split <;> simp
  | wake =>
    simp only [Election.react]
    split
    · next hstage =>
      refine .inr (.inl ⟨trivial, by simp [IsOver, hstage], .inl ⟨false, rfl⟩, [.candidate], rfl⟩)
    · next resumeAt hstage =>
      split
      · exact .inr (.inl ⟨trivial, by simp [IsOver, hstage], .inl ⟨_, rfl⟩, [], rfl⟩)
      · exact .inl (by simp)
    · exact .inl (by simp)
  | attempted outcome =>
    left
    simp only [Election.react]
    split
    · intro effect heffect
      obtain ⟨state, -, rfl⟩ := Option.map_eq_some_iff.mp (Option.mem_toList.mp heffect)
      exact ⟨state, rfl⟩
    · simp
  | stop =>
    simp only [Election.react]
    split
    · exact .inl (by simp)
    · exact .inl (by simp)
    · split
      · next hleader =>
        exact .inr (.inr ⟨trivial, by simpa [Leadership.isLeader] using hleader, rfl, rfl⟩)
      · exact .inl (by simp)
  | released outcome => left; simp only [Election.react]; split <;> simp
  | failed => left; simp [Election.react]

/-- An election that is over stays over, and only publishes. -/
theorem react_over (hover : IsOver e) (now : Nat) (s : Leadership)
    (hinput : input = .wake ∨ IsOutcome input) :
    IsOver (e.react now s input).1 ∧
      ∀ effect ∈ (e.react now s input).2, ∃ state, effect = .publish state := by
  constructor
  · rcases hinput with rfl | hinput
    · rcases hover with h | h | h <;> simp [IsOver, Election.react, h]
    · cases input with
      | start => exact hinput.elim
      | stop => exact hinput.elim
      | wake => exact hinput.elim
      | attempted outcome => rcases hover with h | h | h <;> simp [IsOver, Election.react, h]
      | released outcome => rcases hover with h | h | h <;> simp [IsOver, Election.react, h]
      | failed => rcases hover with h | h | h <;> simp [IsOver, Election.react, h]
  · rcases react_cases e now s input with h | ⟨-, hnot, -⟩ | ⟨rfl, -⟩
    · exact h
    · exact absurd hover hnot
    · rcases hinput with h | h
      · cases h
      · exact h.elim

/-- Only a stop leads to a release. -/
theorem release_not_mem_react (e : Election) (now : Nat) (s : Leadership)
    (hinput : input = .wake ∨ IsOutcome input) : .release ∉ (e.react now s input).2 := by
  intro hmem
  rcases react_cases e now s input with hpublish | ⟨-, -, -, states, heffects⟩ | ⟨rfl, -⟩
  · obtain ⟨state, hstate⟩ := hpublish _ hmem
    cases hstate
  · rw [heffects] at hmem
    simp at hmem
  · exact hinput.elim (fun heq => nomatch heq) id

/-- Only the answer to a release ends the wait for it. -/
theorem react_awaited (hstage : e.stage = some .releasing ∨ e.stage = some .lost) (now : Nat)
    (s : Leadership) (hinput : input = .wake ∨ IsOutcome input)
    (hanswer : ∀ outcome, input ≠ .released outcome) :
    (e.react now s input).1.stage = some .releasing ∨
      (e.react now s input).1.stage = some .lost := by
  cases input with
  | start => exact hinput.elim (fun heq => nomatch heq) False.elim
  | stop => exact hinput.elim (fun heq => nomatch heq) False.elim
  | released outcome => exact absurd rfl (hanswer outcome)
  | wake => rcases hstage with h | h <;> simp [Election.react, h]
  | attempted outcome => rcases hstage with h | h <;> simp [Election.react, h]
  | failed => rcases hstage with h | h <;> simp [Election.react, h]

theorem react_stop_over (e : Election) (now : Nat) (s : Leadership) :
    IsOver (e.react now s .stop).1 := by
  simp only [Election.react]
  split
  · next h => exact .inl h
  · next h => exact .inr (.inl h)
  · split
    · exact .inr (.inl rfl)
    · exact .inl rfl

/-- A plan for the lease is under way only while the election waits for it, and ends with an
outcome. -/
def LeaseKept (o : Operator K Q A E D R) : Prop :=
  ∀ job, o.lease = some job →
    job.rest.Always IsOutcome ∧ ∃ e, o.election = some e ∧ Waits e

theorem always_elim {α : Type} (plan : Plan Q A (Option α)) (f : α → Election.Input)
    (hf : ∀ a, IsOutcome (f a)) : (plan.map (·.elim .failed f)).Always IsOutcome := by
  have htrue : plan.Always fun _ => True := by
    induction plan with
    | done a => trivial
    | ask q next ih => exact fun answer => ih answer
  refine htrue.map fun outcome _ => ?_
  cases outcome with
  | none => trivial
  | some a => exact hf a

theorem performElection_publish (pr : Program K Q A E D R) (o : Operator K Q A E D R)
    {effects : List Election.Effect}
    (heffects : ∀ effect ∈ effects, ∃ state, effect = .publish state)
    (rest : List Election.Effect) :
    ∃ channel, o.performElection pr (effects ++ rest) =
      Operator.performElection pr { o with channel } rest := by
  induction effects generalizing o with
  | nil => exact ⟨o.channel, rfl⟩
  | cons effect more ih =>
    obtain ⟨state, rfl⟩ := heffects effect List.mem_cons_self
    obtain ⟨channel, hmore⟩ := ih { o with channel := o.channel.publish state }
      fun effect heffect => heffects effect (List.mem_cons_of_mem _ heffect)
    exact ⟨channel, hmore⟩

/-- What the election is told reaches its own state, the channel and what is under way for the
lease. -/
theorem tell_spec (pr : Program K Q A E D R) (he : o.election = some e) (input : Election.Input) :
    ∃ env channel lease,
      o.tellElection pr input =
        { o with env, channel, lease, election := some (e.react o.now o.channel.current input).1 } ∧
      ∀ job, lease = some job →
        o.lease = some job ∧ (e.react o.now o.channel.current input).1.stage = e.stage ∨
          job.rest.Always IsOutcome ∧ Waits (e.react o.now o.channel.current input).1 := by
  -- A plan under way is kept while the election stays where it is.
  obtain ⟨lease, hlease, htell⟩ : ∃ lease,
      (∀ job, lease = some job → o.lease = some job ∧
        (e.react o.now o.channel.current input).1.stage = e.stage) ∧
      o.tellElection pr input = Operator.performElection pr
        { o with election := some (e.react o.now o.channel.current input).1, lease }
        (e.react o.now o.channel.current input).2 := by
    refine ⟨if (e.react o.now o.channel.current input).1.stage = e.stage then o.lease else none, ?_,
      by simp only [Operator.tellElection, he]⟩
    intro job hjob
    split at hjob
    · next hsame => exact ⟨hjob, hsame⟩
    · cases hjob
  have hcases := react_cases e o.now o.channel.current input
  rw [htell]
  generalize e.react o.now o.channel.current input = reaction at hcases hlease ⊢
  obtain ⟨next, effects⟩ := reaction
  rcases hcases with hpublish | ⟨-, -, hwaits, states, rfl⟩ | ⟨-, -, hstage, rfl⟩
  · obtain ⟨channel, hperformed⟩ := performElection_publish pr
      { o with election := some next, lease } hpublish []
    rw [List.append_nil] at hperformed
    exact ⟨_, channel, _, hperformed, fun job hjob => .inl (hlease job hjob)⟩
  · have hpublish : ∀ effect ∈ states.map Election.Effect.publish,
        ∃ state, effect = .publish state := by simp
    obtain ⟨channel, hperformed⟩ := performElection_publish pr
      { o with election := some next, lease } hpublish [.attempt]
    obtain ⟨env, job, hlaunch, hjob⟩ := Leadership.Candidacy.launch_spec pr
      { o with channel, election := some next, lease }
      (pr.attempt.map (·.elim .failed .attempted))
    refine ⟨env, channel, some job, hperformed.trans hlaunch, fun job' heq => ?_⟩
    obtain rfl := Option.some.inj heq
    exact .inr ⟨hjob _ (always_elim _ _ fun _ => trivial), hwaits⟩
  · obtain ⟨env, job, hlaunch, hjob⟩ := Leadership.Candidacy.launch_spec pr
      { o with election := some next, lease } (pr.release.map (·.elim .failed .released))
    refine ⟨env, o.channel, some job, hlaunch, fun job' heq => ?_⟩
    obtain rfl := Option.some.inj heq
    exact .inr ⟨hjob _ (always_elim _ _ fun _ => trivial), .inr hstage⟩

theorem LeaseKept.tell (h : LeaseKept o) (input : Election.Input) :
    LeaseKept (o.tellElection pr input) := by
  cases he : o.election with
  | none =>
    have htell : o.tellElection pr input = o := by simp only [Operator.tellElection, he]
    rw [htell]
    exact h
  | some e =>
    obtain ⟨env, channel, lease, htell, hlease⟩ := tell_spec pr he input
    rw [htell]
    intro job hjob
    rcases hlease job hjob with ⟨hold, hsame⟩ | ⟨houtcome, hwaits⟩
    · obtain ⟨houtcome, e', he', hwaits⟩ := h job hold
      obtain rfl := Option.some.inj (he.symm.trans he')
      refine ⟨houtcome, _, rfl, ?_⟩
      unfold Waits at hwaits ⊢
      rw [hsame]
      exact hwaits
    · exact ⟨houtcome, _, rfl, hwaits⟩

end Elections

end Operator

end Reconciler.Host
