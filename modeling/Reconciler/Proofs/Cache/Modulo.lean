import Reconciler.Proofs.Cache.Differences

/-!
# Equality modulo paths

A comparison that ignores paths and counts a missing field as `null` is an equality of two trees that
are made alike first: `null` is put at the ignored places (`nulledAt`), and then the fields that are
`null` are dropped (`pruned`). Both go through objects only, as the comparison does, so an array is
compared as it is, with the `null`s of the objects in it.

`equalModulo_iff` says that nothing is reported exactly if the trees are equal in that sense. To
ignore one more path is to leave out what is reported at it and below (`equalModulo_cons_iff`).
-/

namespace Reconciler

namespace Json

mutual

/-- The tree with `null` at the places that paths name; `path` is where the tree stands. -/
def nulledAt (paths : List Path) (path : Path) : Json → Json
  | .obj fields => if path ∈ paths then .null else .obj (nulledFields paths path fields)
  | leaf => if path ∈ paths then .null else leaf

/-- `nulledAt` on every field's value. -/
def nulledFields (paths : List Path) (path : Path) : List (String × Json) → List (String × Json)
  | [] => []
  | (name, value) :: rest =>
    (name, nulledAt paths (path ++ [name]) value) :: nulledFields paths path rest

end

mutual

/-- The tree without the fields that are `null`, in objects that objects lead to. -/
def pruned : Json → Json
  | .obj fields => .obj (prunedFields fields)
  | leaf => leaf

/-- The fields that are not `null`, with their values `pruned`. -/
def prunedFields : List (String × Json) → List (String × Json)
  | [] => []
  | (_, .null) :: rest => prunedFields rest
  | (name, value) :: rest => (name, pruned value) :: prunedFields rest

end

/-- Two trees are equal once `null` stands at the given places and what is `null` is dropped. -/
def EqualModulo (paths : List Path) (a b : Json) : Prop :=
  same (nulledAt paths [] a).pruned (nulledAt paths [] b).pruned = true

instance (paths : List Path) (a b : Json) : Decidable (EqualModulo paths a b) :=
  inferInstanceAs (Decidable (_ = true))

variable {paths : List Path} {path : Path} {a b : Json} {left right fields : List (String × Json)}

/-! ## Putting `null` -/

theorem nulledAt_of_mem (h : path ∈ paths) (j : Json) : nulledAt paths path j = .null := by
  cases j <;> simp [nulledAt, h]

theorem nulledAt_obj (h : path ∉ paths) (fields : List (String × Json)) :
    nulledAt paths path (.obj fields) = .obj (nulledFields paths path fields) := by
  rw [nulledAt, if_neg h]

theorem nulledAt_leaf (h : path ∉ paths) {j : Json} (hleaf : ∀ fields, j ≠ .obj fields) :
    nulledAt paths path j = j := by
  cases j with
  | obj fields => exact absurd rfl (hleaf fields)
  | _ => simp [nulledAt, h]

theorem nulledAt_null (paths : List Path) (path : Path) : nulledAt paths path .null = .null := by
  by_cases h : path ∈ paths <;> simp [nulledAt]

theorem names_nulledFields (paths : List Path) (path : Path) (fields : List (String × Json)) :
    (nulledFields paths path fields).map Prod.fst = fields.map Prod.fst := by
  induction fields with
  | nil => rfl
  | cons field rest ih => rw [nulledFields, List.map_cons, ih, List.map_cons]

theorem field_nulledFields (paths : List Path) (path : Path) (fields : List (String × Json))
    (key : String) : field (.obj (nulledFields paths path fields)) key =
      nulledAt paths (path ++ [key]) (field (.obj fields) key) := by
  induction fields with
  | nil => exact (nulledAt_null paths _).symm
  | cons head rest ih =>
    obtain ⟨name, value⟩ := head
    rw [nulledFields, Diff.field_cons, Diff.field_cons, ih]
    split
    · next hname => rw [hname]
    · rfl

/-! ## Dropping `null` -/

theorem pruned_leaf {j : Json} (hleaf : ∀ fields, j ≠ .obj fields) : j.pruned = j := by
  cases j with
  | obj fields => exact absurd rfl (hleaf fields)
  | _ => rfl

theorem pruned_eq_null_iff {j : Json} : j.pruned = .null ↔ j = .null := by
  cases j <;> simp [pruned]

theorem prunedFields_cons {name : String} {value : Json} (h : value ≠ .null)
    (rest : List (String × Json)) :
    prunedFields ((name, value) :: rest) = (name, value.pruned) :: prunedFields rest := by
  cases value with
  | null => exact absurd rfl h
  | _ => rfl

theorem names_prunedFields_sublist (fields : List (String × Json)) :
    ((prunedFields fields).map Prod.fst).Sublist (fields.map Prod.fst) := by
  induction fields with
  | nil => exact .slnil
  | cons head rest ih =>
    obtain ⟨name, value⟩ := head
    by_cases hnull : value = .null
    · subst hnull
      exact ih.cons name
    · rw [prunedFields_cons hnull]
      exact ih.cons_cons name

theorem ne_null_of_mem_prunedFields {entry : String × Json} (h : entry ∈ prunedFields fields) :
    entry.2 ≠ .null := by
  induction fields with
  | nil => cases h
  | cons head rest ih =>
    obtain ⟨name, value⟩ := head
    by_cases hnull : value = .null
    · subst hnull
      exact ih h
    · rw [prunedFields_cons hnull] at h
      rcases List.mem_cons.mp h with rfl | hrest
      · exact fun heq => hnull (pruned_eq_null_iff.mp heq)
      · exact ih hrest

theorem field_prunedFields (h : Ordered fields) (key : String) :
    field (.obj (prunedFields fields)) key = (field (.obj fields) key).pruned := by
  induction fields with
  | nil => rfl
  | cons head rest ih =>
    obtain ⟨name, value⟩ := head
    rw [Diff.field_cons]
    by_cases hnull : value = .null
    · subst hnull
      rw [show prunedFields ((name, .null) :: rest) = prunedFields rest from rfl, ih h.tail]
      split
      · next hname =>
        rw [field, ← hname, h.find?_tail_eq_none]
        rfl
      · rfl
    · rw [prunedFields_cons hnull, Diff.field_cons, ih h.tail]
      split <;> rfl

/-! ## Equal objects -/

theorem same_null_iff : same a .null = true ↔ a = .null := by
  cases a <;> simp [same]

theorem null_same_iff : same .null b = true ↔ b = .null := by
  cases b <;> simp [same]

theorem not_same_of_objects (h : ¬∃ left right, a = .obj left ∧ b = .obj right)
    (hobject : (∃ fields, a = .obj fields) ∨ ∃ fields, b = .obj fields) : same a b = false := by
  cases a <;> cases b <;> simp_all [same]

theorem Ordered.field_head_lt {name key : String} {value : Json}
    (h : Ordered ((name, value) :: fields)) (hkey : key < name) :
    field (.obj ((name, value) :: fields)) key = .null := by
  refine Diff.field_of_forall_ne fun entry hmem heq => ?_
  rcases List.mem_cons.mp hmem with rfl | hrest
  · exact hkey.ne' heq
  · exact ((List.pairwise_cons.mp h).1 entry hrest).not_gt (heq ▸ hkey)

/-- Objects in order without fields that are `null` are equal by what can be looked up. -/
theorem sameFields_iff (hleft : Ordered left) (hright : Ordered right)
    (hleft' : ∀ entry ∈ left, entry.2 ≠ .null) (hright' : ∀ entry ∈ right, entry.2 ≠ .null) :
    sameFields left right = true ↔
      ∀ key, same (field (.obj left) key) (field (.obj right) key) = true := by
  induction left generalizing right with
  | nil =>
    cases right with
    | nil => simp [sameFields, field, same]
    | cons head' rest' =>
      obtain ⟨name', w⟩ := head'
      refine iff_of_false (by simp [sameFields]) fun h => ?_
      have hhead := h name'
      rw [Diff.field_cons, if_pos rfl] at hhead
      exact hright' _ List.mem_cons_self (null_same_iff.mp hhead)
  | cons head rest ih =>
    obtain ⟨name, v⟩ := head
    have hv : v ≠ .null := hleft' _ List.mem_cons_self
    have hhere : field (.obj ((name, v) :: rest)) name = v := by rw [Diff.field_cons, if_pos rfl]
    cases right with
    | nil =>
      refine iff_of_false (by simp [sameFields]) fun h => ?_
      have hhead := h name
      rw [hhere] at hhead
      exact hv (same_null_iff.mp hhead)
    | cons head' rest' =>
      obtain ⟨name', w⟩ := head'
      have hw : w ≠ .null := hright' _ List.mem_cons_self
      have hhere' : field (.obj ((name', w) :: rest')) name' = w := by
        rw [Diff.field_cons, if_pos rfl]
      rcases lt_trichotomy name name' with hlt | rfl | hgt
      · refine iff_of_false (by simp [sameFields, hlt.ne]) fun h => hv ?_
        have hhead := h name
        rw [hhere, hright.field_head_lt hlt] at hhead
        exact same_null_iff.mp hhead
      · rw [sameFields, Bool.and_eq_true, Bool.and_eq_true, beq_self_eq_true,
          ih hleft.tail hright.tail (fun entry hmem => hleft' entry (List.mem_cons_of_mem _ hmem))
            fun entry hmem => hright' entry (List.mem_cons_of_mem _ hmem)]
        have hnone : field (.obj rest) name = .null := by
          rw [field, hleft.find?_tail_eq_none]
          rfl
        have hnone' : field (.obj rest') name = .null := by
          rw [field, hright.find?_tail_eq_none]
          rfl
        constructor
        · rintro ⟨⟨-, hhead⟩, hrest⟩ key
          rw [Diff.field_cons, Diff.field_cons]
          split
          · exact hhead
          · exact hrest key
        · intro h
          refine ⟨⟨rfl, ?_⟩, fun key => ?_⟩
          · have hhead := h name
            rwa [hhere, hhere'] at hhead
          · by_cases hkey : name = key
            · subst hkey
              rw [hnone, hnone']
              rfl
            · have hkeyed := h key
              rwa [Diff.field_cons, Diff.field_cons, if_neg hkey, if_neg hkey] at hkeyed
      · refine iff_of_false (by simp [sameFields, hgt.ne']) fun h => hw ?_
        have hhead := h name'
        rw [hhere', hleft.field_head_lt hgt] at hhead
        exact null_same_iff.mp hhead

end Json

/-! ## Nothing to report -/

namespace Diff

open Json

variable {paths : List Path} {path : Path} {a b : Json} {left right : List (String × Json)}

/-- What is compared of the fields of an object that is not ignored. -/
theorem field_masked (hpath : path ∉ paths) (h : Ordered left) (key : String) :
    field (nulledAt paths path (.obj left)).pruned key =
      (nulledAt paths (path ++ [key]) (field (.obj left) key)).pruned := by
  have hnulled : Ordered (nulledFields paths path left) := by
    rw [Ordered, ← List.pairwise_map (f := Prod.fst), names_nulledFields, List.pairwise_map]
    exact h
  rw [nulledAt_obj hpath, pruned, field_prunedFields hnulled, field_nulledFields]

theorem ordered_masked (h : Ordered left) : Ordered (prunedFields (nulledFields paths path left)) := by
  have hsublist := names_prunedFields_sublist (nulledFields paths path left)
  rw [names_nulledFields] at hsublist
  rw [Ordered, ← List.pairwise_map (f := Prod.fst)]
  exact (List.pairwise_map.mpr h).sublist hsublist

theorem same_masked_objects_iff (hpath : path ∉ paths) (hleft : Ordered left)
    (hright : Ordered right) :
    same (nulledAt paths path (.obj left)).pruned (nulledAt paths path (.obj right)).pruned = true ↔
      ∀ key, same (nulledAt paths (path ++ [key]) (field (.obj left) key)).pruned
        (nulledAt paths (path ++ [key]) (field (.obj right) key)).pruned = true := by
  simp only [← field_masked hpath hleft, ← field_masked hpath hright]
  rw [nulledAt_obj hpath, nulledAt_obj hpath, pruned, pruned, same]
  exact sameFields_iff (ordered_masked hleft) (ordered_masked hright)
    (fun _ => ne_null_of_mem_prunedFields) fun _ => ne_null_of_mem_prunedFields

/-- Nothing is reported below a place exactly if the trees there are equal modulo the ignored
paths. -/
theorem same_masked_iff (ha : a.Tidy) (hb : b.Tidy) :
    same (nulledAt paths path a).pruned (nulledAt paths path b).pruned = true ↔
      ∀ p, p ∉ diffAt paths path a b := by
  induction hheight : a.height using Nat.strong_induction_on generalizing a b path with
  | _ n ih =>
    by_cases hpath : path ∈ paths
    · rw [nulledAt_of_mem hpath, nulledAt_of_mem hpath]
      refine iff_of_true rfl fun p hp => ?_
      obtain ⟨below, -, -, hunignored⟩ := (mem_diffAt ha hb).mp hp
      exact hunignored [] List.nil_prefix (by rwa [List.append_nil])
    by_cases hobjects : ∃ left right, a = .obj left ∧ b = .obj right
    · obtain ⟨left, right, rfl, rfl⟩ := hobjects
      have hfield : ∀ key, same (nulledAt paths (path ++ [key]) (field (.obj left) key)).pruned
          (nulledAt paths (path ++ [key]) (field (.obj right) key)).pruned = true ↔
            ∀ p, p ∉ diffAt paths (path ++ [key]) (field (.obj left) key) (field (.obj right) key) :=
        fun key => ih _ (hheight ▸ height_field_lt left key) (ha.field key) (hb.field key) rfl
      rw [same_masked_objects_iff hpath ha.1 hb.1]
      simp only [hfield, mem_diffAt_objects ha.1 hb.1, DiffersUnder, not_and, not_exists]
      exact ⟨fun h p _ key => h key p, fun h key p => h p hpath key⟩
    · -- Where one side is no object, the values are compared as they are; an object that is made
      -- alike stays an object, and equals no other value.
      have hleaf : ∀ p, p ∈ diffAt paths path a b ↔ p = path ∧ same a b = false := fun p => by
        rw [diffAt_of_not_objects hobjects, mem_leaf]
        simp [hpath]
      have hsame : same (nulledAt paths path a).pruned (nulledAt paths path b).pruned = same a b := by
        by_cases hobject : (∃ fields, a = .obj fields) ∨ ∃ fields, b = .obj fields
        · rw [not_same_of_objects hobjects hobject]
          have hmade : ∀ j : Json, (∃ fields, (nulledAt paths path j).pruned = .obj fields) ↔
              ∃ fields, j = .obj fields := fun j => by
            cases j <;> simp [nulledAt, hpath, pruned]
          refine not_same_of_objects ?_ ?_
          · rintro ⟨left, right, hleft, hright⟩
            obtain ⟨left, rfl⟩ := (hmade a).mp ⟨_, hleft⟩
            obtain ⟨right, rfl⟩ := (hmade b).mp ⟨_, hright⟩
            exact hobjects ⟨_, _, rfl, rfl⟩
          · exact hobject.imp (hmade a).mpr (hmade b).mpr
        · simp only [not_or, not_exists] at hobject
          rw [nulledAt_leaf hpath hobject.1, nulledAt_leaf hpath hobject.2, pruned_leaf hobject.1,
            pruned_leaf hobject.2]
      rw [hsame]
      simp only [hleaf, not_and, Bool.not_eq_false, forall_eq]

/-- Nothing is reported exactly if the trees are equal modulo the ignored paths. -/
theorem equalModulo_iff (ha : a.Tidy) (hb : b.Tidy) :
    EqualModulo paths a b ↔ diffPaths paths a b = [] := by
  rw [EqualModulo, same_masked_iff ha hb, ← List.eq_nil_iff_forall_not_mem]
  rfl

theorem mem_diffPaths (ha : a.Tidy) (hb : b.Tidy) {p : Path} :
    p ∈ diffPaths paths a b ↔ Differs a b p ∧ Unignored paths [] p := by
  rw [diffPaths, mem_diffAt ha hb]
  simp only [List.nil_append, exists_eq_left']

theorem mem_diffPaths_cons (ha : a.Tidy) (hb : b.Tidy) {q p : Path} :
    p ∈ diffPaths (q :: paths) a b ↔ p ∈ diffPaths paths a b ∧ ¬q <+: p := by
  rw [mem_diffPaths ha hb, mem_diffPaths ha hb, and_assoc]
  refine and_congr_right fun _ => ⟨fun hunignored => ⟨fun part hpart hmem => ?_, fun hq => ?_⟩, ?_⟩
  · exact hunignored part hpart (List.mem_cons_of_mem _ hmem)
  · exact hunignored q hq List.mem_cons_self
  · rintro ⟨hunignored, hq⟩ part hpart hmem
    rcases List.mem_cons.mp hmem with rfl | hmem
    · exact hq hpart
    · exact hunignored part hpart hmem

/-- The trees are equal modulo one more path exactly if all that is reported is at it or below. -/
theorem equalModulo_cons_iff (ha : a.Tidy) (hb : b.Tidy) (q : Path) :
    EqualModulo (q :: paths) a b ↔ ∀ p ∈ diffPaths paths a b, q <+: p := by
  rw [equalModulo_iff ha hb, List.eq_nil_iff_forall_not_mem]
  simp only [mem_diffPaths_cons ha hb, not_and, not_not]

end Diff

end Reconciler
