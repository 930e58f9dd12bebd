import Reconciler.Proofs.Json.Fields

/-!
# Merge patches

What RFC 7386 makes of a document and a patch: an object changes field by field, `null` takes a
field away, and any other value stands for itself. A patch says nothing about the fields it does not
name, so these stay what they were (`find?_mergeFields`).
-/

namespace Reconciler.Json

mutual

/-- A value after a merge patch. -/
def mergePatch : Json → Json → Json
  | target, .obj changes => .obj (mergeFields (target.fields?.getD []) changes)
  | _, patch => patch

/-- Fields after the changes of a merge patch, one after the other. -/
def mergeFields : List (String × Json) → List (String × Json) → List (String × Json)
  | fields, [] => fields
  | fields, (name, .null) :: rest => mergeFields (fields.filter (·.1 != name)) rest
  | fields, (name, change) :: rest =>
    mergeFields (insertField name (mergePatch ((find? name fields).getD .null) change) fields) rest

end

/-- What a merge patch makes of a field, given the change that it names for it. -/
def changedTo (before : Option Json) : Option Json → Option Json
  | none => before
  | some .null => none
  | some change => some (mergePatch (before.getD .null) change)

variable {fields changes : List (String × Json)}

theorem mergeFields_cons (fields : List (String × Json)) (name : String) (change : Json)
    (rest : List (String × Json)) :
    ∃ fields', mergeFields fields ((name, change) :: rest) = mergeFields fields' rest ∧
      (Ordered fields → Ordered fields') ∧
      ∀ key, find? key fields' =
        if key = name then changedTo (find? name fields) (some change) else find? key fields := by
  by_cases hnull : change = .null
  · subst hnull
    exact ⟨_, by rw [mergeFields], fun h => h.filter _, fun key => find?_filter key name fields⟩
  · refine ⟨_, by rw [mergeFields]; exact hnull, fun h => h.insertField _ _, fun key => ?_⟩
    rw [find?_insertField]
    have hchanged : changedTo (find? name fields) (some change) =
        some (mergePatch ((find? name fields).getD .null) change) := by
      cases change <;> first | rfl | exact absurd rfl hnull
    by_cases hkey : key = name
    · simp [hkey, hchanged]
    · simp [hkey, Ne.symm hkey]

theorem Ordered.mergeFields (h : Ordered fields) (changes : List (String × Json)) :
    Ordered (mergeFields fields changes) := by
  induction changes generalizing fields with
  | nil => rwa [Json.mergeFields]
  | cons change rest ih =>
    obtain ⟨fields', heq, hordered, -⟩ := mergeFields_cons fields change.1 change.2 rest
    rw [heq]
    exact ih (hordered h)

/-- A merge patch changes the fields that it names and leaves the others alone. -/
theorem find?_mergeFields (h : Ordered changes) (fields : List (String × Json)) (key : String) :
    find? key (mergeFields fields changes) = changedTo (find? key fields) (find? key changes) := by
  induction changes generalizing fields with
  | nil => rw [mergeFields]; rfl
  | cons change rest ih =>
    obtain ⟨name, change⟩ := change
    obtain ⟨fields', heq, -, hfind⟩ := mergeFields_cons fields name change rest
    rw [heq, ih h.tail, hfind, find?_cons]
    by_cases hkey : key = name
    · subst hkey
      rw [h.find?_tail_eq_none, if_pos rfl, if_pos rfl]
      rfl
    · rw [if_neg hkey, if_neg (Ne.symm hkey)]

end Reconciler.Json
