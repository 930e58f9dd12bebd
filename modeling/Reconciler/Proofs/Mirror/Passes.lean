import Reconciler.Mirror.Controller
import Reconciler.Proofs.Dispatch.Handling

/-!
# What a reconcile of a mirror comes to

A pass over a mirror reads the source, applies the copies in the order of the targets, and writes a
status if it came to one that the mirror does not have. `Passed` lists all that a pass can be,
whatever it is answered, together with the status it came to; a pass that fails before comes to none.
-/

namespace Reconciler.Mirror

/-- A call of a pass and its answer. -/
abbrev Asked : Type := (call : Call) × call.Answer

/-- The namespaces that are to have a copy. -/
def targets (m : ConfigMirror) (own : String) : List String :=
  m.spec.targetNamespaces.filter (· != own)

/-- The calls that apply copies of a source, all with success. -/
def appliedTo (m : ConfigMirror) (source : ConfigMap) (namespaces : List String) : List Asked :=
  namespaces.map fun ns =>
    ⟨.apply ns m.spec.source (mirrorCopy source m ns), (.ok () : Except Error Unit)⟩

/-- The end of a pass that came to a status: the status is written unless the mirror has it. -/
inductive Stated (m : ConfigMirror) (s : Status) : List Asked → Prop where
  | unchanged : m.status = some s → Stated m s []
  | written (answer : Except Error Unit) : m.status ≠ some s →
      Stated m s [⟨.writeStatus { m with status := some s }, answer⟩]

/-- The calls of a pass over a mirror, and the status that it came to. -/
inductive Passed (m : ConfigMirror) : Option Status → List Asked → Prop where
  | homeless : m.metadata.ns = none → Passed m none []
  | unread {own : String} (error : Error) : m.metadata.ns = some own →
      Passed m none [⟨.source own m.spec.source, Except.error error⟩]
  | missing {own : String} {calls : List Asked} : m.metadata.ns = some own →
      Stated m (pendingStatus m (missingMessage m)) calls →
      Passed m (some (pendingStatus m (missingMessage m)))
        (⟨.source own m.spec.source, Except.ok none⟩ :: calls)
  | uncopied {own target : String} {source : ConfigMap} {done rest : List String}
      (error : Error) : m.metadata.ns = some own → targets m own = done ++ target :: rest →
      Passed m none (⟨.source own m.spec.source, Except.ok (some source)⟩ ::
        (appliedTo m source done ++
          [⟨.apply target m.spec.source (mirrorCopy source m target), Except.error error⟩]))
  | copied {own : String} {source : ConfigMap} {calls : List Asked} :
      m.metadata.ns = some own → Stated m (readyStatus m (targets m own)) calls →
      Passed m (some (readyStatus m (targets m own)))
        (⟨.source own m.spec.source, Except.ok (some source)⟩ ::
          (appliedTo m source (targets m own) ++ calls))

variable {m : ConfigMirror} {s : Status}

/-- A pass whose calls have an end. -/
abbrev Ends (plan : Steps (Except Error Action)) (post : List Asked → Prop) (past : List Asked) :
    Prop :=
  plan.Ends (fun _ _ => True) (fun calls _ => post calls) past

theorem setStatus_ends (action : Action) (past : List Asked) :
    Ends (setStatus m s action) (fun calls => ∃ own, calls = past ++ own ∧ Stated m s own) past := by
  unfold setStatus
  by_cases hsame : m.status = some s
  · rw [if_pos hsame]
    exact ⟨[], (List.append_nil past).symm, .unchanged hsame⟩
  · rw [if_neg hsame]
    intro answer _
    rcases answer with error | ⟨⟩
    · exact ⟨_, rfl, .written _ hsame⟩
    · exact ⟨_, rfl, .written _ hsame⟩

/-- What the copying of a source into the remaining targets has asked, and what came of it. -/
theorem applyCopies_ends {own : String} {source : ConfigMap} (todo : List String)
    (applied : List String) (past : List Asked) :
    (applyCopies m own source applied todo).Ends (fun _ _ => True) (fun calls r =>
      (∃ done target rest error, todo.filter (· != own) = done ++ target :: rest ∧
        r = .error error ∧ calls = past ++ (appliedTo m source done ++
          [⟨.apply target m.spec.source (mirrorCopy source m target), Except.error error⟩])) ∨
      r = .ok (applied ++ todo.filter (· != own)) ∧
        calls = past ++ appliedTo m source (todo.filter (· != own))) past := by
  induction todo generalizing applied past with
  | nil =>
    refine .inr ⟨?_, ?_⟩
    · simp
    · simp [appliedTo]
  | cons target rest ih =>
    unfold applyCopies
    by_cases hown : target = own
    · rw [if_pos hown]
      refine (ih applied past).mono fun calls r h => ?_
      rwa [List.filter_cons_of_neg (by simpa using hown)]
    · rw [if_neg hown, List.filter_cons_of_pos (by simpa using hown)]
      intro answer _
      rcases answer with error | ⟨⟩
      · exact .inl ⟨[], target, _, error, rfl, rfl, rfl⟩
      · refine (ih (applied ++ [target]) _).mono ?_
        rintro calls r (⟨done, target', rest', error, hsplit, rfl, rfl⟩ | ⟨rfl, rfl⟩)
        · refine .inl ⟨target :: done, target', rest', error, by rw [hsplit]; rfl, rfl, ?_⟩
          rw [List.append_assoc]
          rfl
        · refine .inr ⟨?_, ?_⟩
          · rw [List.append_assoc]
            rfl
          · rw [List.append_assoc]
            rfl

/-- A pass over a mirror is one of those that `Passed` lists. -/
theorem reconcile_ends (m : ConfigMirror) :
    Ends (reconcile m) (fun calls => ∃ found, Passed m found calls) [] := by
  unfold reconcile
  cases hns : m.metadata.ns with
  | none => exact ⟨none, .homeless hns⟩
  | some own =>
    intro answer _
    rcases answer with error | (_ | source)
    · exact ⟨none, .unread error hns⟩
    · refine (setStatus_ends _ _).mono ?_
      rintro calls r ⟨rest, rfl, hstated⟩
      exact ⟨_, .missing hns hstated⟩
    · refine Plan.Ends.bind ((applyCopies_ends m.spec.targetNamespaces [] _).mono ?_)
      rintro calls r (⟨done, target, rest, error, hsplit, rfl, rfl⟩ | ⟨rfl, rfl⟩)
      · exact ⟨none, .uncopied error hns hsplit⟩
      · refine (setStatus_ends _ _).mono ?_
        rintro calls r ⟨rest, rfl, hstated⟩
        rw [List.append_assoc]
        exact ⟨_, .copied hns hstated⟩

/-- The call writes a status. -/
def writesStatus : Asked → Bool
  | ⟨.writeStatus _, _⟩ => true
  | _ => false

theorem not_writes_appliedTo (m : ConfigMirror) (source : ConfigMap) (namespaces : List String) :
    (appliedTo m source namespaces).any writesStatus = false := by
  simp [appliedTo, writesStatus]

theorem Stated.writes_iff {calls : List Asked} (h : Stated m s calls) :
    calls.any writesStatus = true ↔ m.status ≠ some s := by
  cases h with
  | unchanged hsame => simp [hsame]
  | written answer hnew => simpa [writesStatus] using hnew

/-- A pass writes a status exactly if it came to one that the mirror does not have. -/
theorem Passed.writes_iff {found : Option Status} {calls : List Asked} (h : Passed m found calls) :
    calls.any writesStatus = true ↔ ∃ s, found = some s ∧ m.status ≠ some s := by
  cases h with
  | homeless => simp
  | unread => simp [writesStatus]
  | missing _ h => simpa [writesStatus] using h.writes_iff
  | uncopied => simp [writesStatus, not_writes_appliedTo]
  | copied _ h => simpa [writesStatus, not_writes_appliedTo] using h.writes_iff

end Reconciler.Mirror
