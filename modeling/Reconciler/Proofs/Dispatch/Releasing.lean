import Reconciler.Proofs.Dispatch.Finalizing

/-!
# Updates that let an entity go

While an entry is handled, the version of its entity that is held is the last one that the client
handed out (`held`). An update that leaves out a registered finalizer of that version comes directly
after a run of this finalizer on it that succeeded, and leaves out nothing else
(`release_follows_run`).
-/

namespace Reconciler.Dispatch

variable {K : Type} [Entity K]

section Held

omit [Entity K]

/-- The entity that the client handed out. -/
def Asked.brought? : Asked K → Option K
  | ⟨.get _ _, .ok found⟩ => found
  | ⟨.update _, .ok stored⟩ => some stored
  | _ => none

/-- The version of an entity that is held after calls. -/
def held (x : K) (calls : List (Asked K)) : K := calls.foldl (fun x call => call.brought?.getD x) x

end Held

section Releases

variable [LawfulEntity K] {p : Policy} {id : String} {x sent : K} {answer : Except Error K}
  {calls before after : List (Asked K)} {fit : (call : Call K) → call.Answer → Prop}

/-- The update comes directly after a run of the finalizer that it takes off. -/
def Releases (id : String) (before : List (Asked K)) (sent : K) : Prop :=
  ∃ earlier place y, before = earlier ++ [⟨.finalize place id y, Except.ok ()⟩] ∧ sent = detach y id

theorem eq_of_not_mem_detach {id' : String} (h : id ∈ remaining x)
    (hgone : id ∉ remaining (detach x id')) : id' = id := by
  by_contra hne
  refine hgone ?_
  rw [detach, remaining_withFinalizers]
  rw [remaining] at h
  cases hfinalizers : (Entity.metadata x).finalizers with
  | none => rw [hfinalizers] at h; cases h
  | some ids =>
    rw [hfinalizers] at h
    exact List.mem_filter.mpr ⟨h, by simpa using Ne.symm hne⟩

omit [LawfulEntity K] in
/-- An update is the one of a round, or comes later. -/
theorem Round.update_cases {round : Round K} {later : List (Asked K)}
    (h : round.calls ++ later = before ++ ⟨.update sent, answer⟩ :: after) :
    (before = [⟨.finalize round.place round.id round.entity, round.answer⟩] ∧
        round.update = some answer ∧ sent = detach round.entity round.id) ∨
      ∃ between, before = round.calls ++ between ∧
        later = between ++ ⟨.update sent, answer⟩ :: after := by
  cases before with
  | nil => cases h
  | cons first before =>
    obtain ⟨rfl, hrest⟩ := List.cons.inj h
    obtain ⟨place, id, x, ran, _ | stored⟩ := round
    · exact .inr ⟨before, rfl, hrest⟩
    · cases before with
      | nil =>
        obtain ⟨hcall, -⟩ := List.cons.inj hrest
        cases hcall
        exact .inl ⟨rfl, rfl, rfl⟩
      | cons second between =>
        obtain ⟨rfl, hlater⟩ := List.cons.inj hrest
        exact .inr ⟨between, rfl, hlater⟩

omit [LawfulEntity K] in
theorem Round.held_calls {round : Round K} (h : round.failure? = none)
    (between : List (Asked K)) :
    held round.entity (round.calls ++ between) = held round.next between := by
  obtain ⟨place, id, x, ran, _ | _ | stored⟩ := round
  · rfl
  · cases ran <;> cases h
  · rfl

theorem Rounds.releases {place : Nat} {ids : List String} {rounds : List (Round K)}
    (h : Rounds p place ids x rounds)
    (hsplit : rounds.flatMap Round.calls = before ++ ⟨.update sent, answer⟩ :: after)
    (hid : id ∈ remaining (held x before)) (hgone : id ∉ remaining sent) :
    Releases id before sent := by
  -- The update of a round comes directly after its run, which succeeded.
  have hown : ∀ {x : K} {id' : String} {place : Nat} {round : Round K} {before : List (Asked K)},
      round.IsTurn p place id' x →
      before = [⟨.finalize round.place round.id round.entity, round.answer⟩] →
      round.update = some answer → sent = detach round.entity round.id →
      id ∈ remaining (held x before) → Releases id before sent := by
    rintro x id' place round before hturn rfl hupdate rfl hid
    obtain ⟨hplace, hname, rfl, hiff⟩ := hturn
    obtain rfl := eq_of_not_mem_detach (x := round.entity) hid hgone
    obtain ⟨-, hanswer⟩ := hiff.mp (by rw [hupdate]; rfl)
    exact ⟨[], round.place, round.entity, by rw [hanswer]; rfl, rfl⟩
  induction h generalizing before with
  | done => cases before <;> cases hsplit
  | absent _ _ ih => exact ih hsplit hid
  | @failed place id' rest x round hmem hturn hfailure =>
    rw [List.flatMap_cons] at hsplit
    rcases Round.update_cases hsplit with ⟨hbefore, hupdate, hsent⟩ | ⟨between, -, hlater⟩
    · exact hown hturn hbefore hupdate hsent hid
    · cases between <;> cases hlater
  | @passed place id' rest x round rounds hmem hturn hfailure hrest ih =>
    rw [List.flatMap_cons] at hsplit
    rcases Round.update_cases hsplit with ⟨hbefore, hupdate, hsent⟩ | ⟨between, rfl, hlater⟩
    · exact hown hturn hbefore hupdate hsent hid
    · rw [← hturn.entity_eq, Round.held_calls hfailure] at hid
      obtain ⟨earlier, place', y, rfl, rfl⟩ := ih hlater hid
      exact ⟨round.calls ++ earlier, place', y, (List.append_assoc ..).symm, rfl⟩

omit [LawfulEntity K] in
/-- Reading an entity again comes before any update, and what was read is held from then on. -/
theorem Seen.update_cases {entry : Queue.Entry K} {own : List (Asked K)} (h : Seen entry calls x)
    (hsplit : calls ++ own = before ++ ⟨.update sent, answer⟩ :: after) :
    ∃ later, before = calls ++ later ∧ own = later ++ ⟨.update sent, answer⟩ :: after ∧
      held entry.entity before = held x later := by
  cases h with
  | given => exact ⟨before, rfl, hsplit, rfl⟩
  | reread =>
    cases before with
    | nil => cases hsplit
    | cons first later =>
      obtain ⟨rfl, hown⟩ := List.cons.inj hsplit
      exact ⟨later, rfl, hown, rfl⟩

/-- The update before a reconcile leaves nothing out. -/
theorem Tried.mem_sent {outcome : Except Error Action} (h : Tried p x calls outcome)
    (hsplit : calls = before ++ ⟨.update sent, answer⟩ :: after)
    (hid : id ∈ remaining (held x before)) : id ∈ remaining sent := by
  have hattach : ∀ ids, id ∈ remaining x → id ∈ remaining (attach x ids) := fun ids hmem => by
    rw [attach, remaining_withFinalizers]
    exact List.mem_append_left _ hmem
  cases h with
  | plain =>
    cases before with
    | nil => cases hsplit
    | cons first before => cases before <;> cases hsplit
  | unattached =>
    cases before with
    | nil =>
      cases hsplit
      exact hattach _ hid
    | cons first before => cases before <;> cases hsplit
  | attached =>
    cases before with
    | nil =>
      cases hsplit
      exact hattach _ hid
    | cons first before =>
      cases before with
      | nil => cases hsplit
      | cons second before => cases before <;> cases hsplit

/-- An update that leaves out a finalizer of the version that is held comes directly after a run of
this finalizer that succeeded, on what it is an update of. -/
theorem release_follows_run {entry : Queue.Entry K} {leading : Bool} {r : K × Verdict}
    (h : (handle p leading entry).Comes fit calls r)
    (hsplit : calls = before ++ ⟨.update sent, answer⟩ :: after)
    (hid : id ∈ remaining (held entry.entity before)) (hgone : id ∉ remaining sent) :
    Releases id before sent := by
  have hnone : calls ≠ [] := by
    rw [hsplit]
    exact List.append_ne_nil_of_right_ne_nil _ (List.cons_ne_nil _ _)
  have hsingle : ∀ call : Asked K, (∀ y, call.1 ≠ .update y) → calls ≠ [call] := by
    rintro call hcall rfl
    have hmem : ⟨.update sent, answer⟩ ∈ [call] :=
      hsplit ▸ List.mem_append_right _ List.mem_cons_self
    exact hcall sent (List.mem_singleton.mp hmem ▸ rfl)
  cases dealt_of_comes h with
  | dropped => exact absurd rfl hnone
  | skipped => exact absurd rfl hnone
  | told => exact absurd rfl (hsingle _ nofun)
  | nameless => exact absurd rfl hnone
  | gone => exact absurd rfl (hsingle _ nofun)
  | unread => exact absurd rfl (hsingle _ nofun)
  | passed hseen _ hrounds =>
    obtain ⟨later, rfl, hown, hheld⟩ := hseen.update_cases hsplit
    rw [hheld] at hid
    obtain ⟨earlier, place, y, rfl, hsent⟩ := hrounds.releases hown hid hgone
    exact ⟨_, place, y, (List.append_assoc ..).symm, hsent⟩
  | tried hseen _ _ htried =>
    obtain ⟨later, -, hown, hheld⟩ := hseen.update_cases hsplit
    rw [hheld] at hid
    exact absurd (htried.mem_sent hown hid) hgone

end Releases

end Reconciler.Dispatch
