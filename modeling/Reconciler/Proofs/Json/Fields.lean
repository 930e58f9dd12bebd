import Mathlib.Data.List.Induction
import Mathlib.Data.String.Basic
import Reconciler.Json.Basic

/-!
# Fields of objects

A canonical object lists its fields in increasing order of their names (`Json.Ordered`). What can be
looked up decides such a list, and everything that builds an object builds such a list. Looking up
what was put in its place needs no order, so `find?_insertField` holds of every list of fields.
-/

namespace Reconciler.Json

/-- The fields stand in increasing order of their names, so none is there twice. -/
def Ordered (fields : List (String × Json)) : Prop := fields.Pairwise fun a b => a.1 < b.1

instance (fields : List (String × Json)) : Decidable (Ordered fields) :=
  inferInstanceAs (Decidable (fields.Pairwise fun a b => a.1 < b.1))

variable {fields left right : List (String × Json)} {key name : String} {value v : Json}

/-! ## Looking up -/

@[simp] theorem find?_nil (key : String) : find? key [] = none := rfl

theorem find?_cons (key name : String) (value : Json) (rest : List (String × Json)) :
    find? key ((name, value) :: rest) = if name = key then some value else find? key rest := rfl

theorem mem_of_find? (h : find? key fields = some value) : (key, value) ∈ fields := by
  induction fields with
  | nil => cases h
  | cons field rest ih =>
    obtain ⟨name, w⟩ := field
    rw [find?_cons] at h
    split at h
    · next heq =>
      obtain rfl := Option.some.inj h
      simp [heq]
    · exact List.mem_cons_of_mem _ (ih h)

theorem find?_eq_none (h : ∀ field ∈ fields, field.1 ≠ key) : find? key fields = none := by
  cases hfound : find? key fields with
  | none => rfl
  | some value => exact absurd rfl (h _ (mem_of_find? hfound))

theorem find?_ne_none {field : String × Json} (h : field ∈ fields) :
    find? field.1 fields ≠ none := by
  induction fields with
  | nil => cases h
  | cons head rest ih =>
    rw [find?_cons]
    split
    · simp
    · next hne =>
      rcases List.mem_cons.mp h with rfl | hrest
      · exact absurd rfl hne
      · exact ih hrest

/-- A field that is put in its place hides the others of its name. -/
theorem find?_insertField (key name : String) (value : Json) (fields : List (String × Json)) :
    find? key (insertField name value fields) =
      if name = key then some value else find? key fields := by
  induction fields with
  | nil => rfl
  | cons field rest ih =>
    obtain ⟨other, w⟩ := field
    simp only [insertField]
    by_cases hbefore : name < other
    · rw [if_pos hbefore, find?_cons]
    · rw [if_neg hbefore]
      by_cases heq : name = other
      · subst heq
        by_cases hkey : name = key <;> simp [find?_cons, hkey]
      · rw [if_neg heq, find?_cons, ih, find?_cons]
        by_cases hkey : name = key
        · subst hkey
          rw [if_neg (Ne.symm heq), if_pos rfl, if_pos rfl]
        · simp [hkey]

theorem find?_append (key : String) (left right : List (String × Json)) :
    find? key (left ++ right) = (find? key left).or (find? key right) := by
  induction left with
  | nil => rfl
  | cons field rest ih =>
    rw [List.cons_append, find?_cons, find?_cons, ih]
    split <;> rfl

theorem find?_filter (key name : String) (fields : List (String × Json)) :
    find? key (fields.filter (·.1 != name)) =
      if key = name then none else find? key fields := by
  induction fields with
  | nil => simp
  | cons field rest ih =>
    obtain ⟨other, w⟩ := field
    by_cases hother : other = name
    · subst hother
      rw [List.filter_cons_of_neg (by simp), ih, find?_cons]
      by_cases hkey : key = other <;> simp [hkey, eq_comm]
    · by_cases hkey : key = name
      · subst hkey
        simp [hother, find?_cons, ih]
      · simp [hother, find?_cons, ih, hkey]

/-! ## Distinct names -/

theorem find?_tail_eq_none (h : (((key, value) :: fields).map Prod.fst).Nodup) :
    find? key fields = none :=
  find?_eq_none fun field hmem heq =>
    (List.nodup_cons.mp h).1 (List.mem_map.mpr ⟨field, hmem, heq⟩)

theorem find?_of_mem (h : (fields.map Prod.fst).Nodup) (hmem : (key, value) ∈ fields) :
    find? key fields = some value := by
  induction fields with
  | nil => cases hmem
  | cons field rest ih =>
    obtain ⟨hnew, hrest⟩ := List.nodup_cons.mp h
    rcases List.mem_cons.mp hmem with rfl | hmem
    · rw [find?_cons, if_pos rfl]
    · rw [find?_cons, if_neg, ih hrest hmem]
      rintro rfl
      exact hnew (List.mem_map.mpr ⟨_, hmem, rfl⟩)

/-- Where no name is there twice, the order of the fields does not matter. -/
theorem find?_perm (h : (right.map Prod.fst).Nodup) (hperm : left.Perm right) (key : String) :
    find? key left = find? key right := by
  cases hfind : find? key left with
  | some value => exact (find?_of_mem h (hperm.mem_iff.mp (mem_of_find? hfind))).symm
  | none =>
    refine (find?_eq_none fun field hmem heq => ?_).symm
    exact find?_ne_none (hperm.mem_iff.mpr hmem) (heq ▸ hfind)

/-! ## Order -/

theorem mem_insertField {field : String × Json} (h : field ∈ insertField key value fields) :
    field = (key, value) ∨ field ∈ fields := by
  induction fields with
  | nil => exact .inl (List.mem_singleton.mp h)
  | cons head rest ih =>
    obtain ⟨other, w⟩ := head
    simp only [insertField] at h
    split at h
    · exact List.mem_cons.mp h
    · split at h
      · rcases List.mem_cons.mp h with rfl | hrest
        · exact .inl rfl
        · exact .inr (List.mem_cons_of_mem _ hrest)
      · rcases List.mem_cons.mp h with rfl | hrest
        · exact .inr List.mem_cons_self
        · rcases ih hrest with rfl | hmem
          · exact .inl rfl
          · exact .inr (List.mem_cons_of_mem _ hmem)

theorem Ordered.nil : Ordered [] := List.Pairwise.nil

theorem Ordered.tail {field : String × Json} (h : Ordered (field :: fields)) : Ordered fields :=
  (List.pairwise_cons.mp h).2

theorem Ordered.nodup (h : Ordered fields) : (fields.map Prod.fst).Nodup :=
  List.pairwise_map.mpr (List.Pairwise.imp (fun hlt => ne_of_lt hlt) h)

theorem Ordered.find?_tail_eq_none (h : Ordered ((key, value) :: fields)) :
    find? key fields = none :=
  Json.find?_tail_eq_none h.nodup

theorem Ordered.find?_of_mem (h : Ordered fields) (hmem : (key, value) ∈ fields) :
    find? key fields = some value :=
  Json.find?_of_mem h.nodup hmem

theorem Ordered.insertField (h : Ordered fields) (key : String) (value : Json) :
    Ordered (insertField key value fields) := by
  induction fields with
  | nil => exact List.pairwise_singleton _ _
  | cons head rest ih =>
    obtain ⟨other, w⟩ := head
    obtain ⟨hhead, hrest⟩ := List.pairwise_cons.mp h
    simp only [Json.insertField]
    by_cases hbefore : key < other
    · rw [if_pos hbefore]
      refine List.pairwise_cons.mpr ⟨?_, h⟩
      intro field hmem
      rcases List.mem_cons.mp hmem with rfl | hmem
      · exact hbefore
      · exact hbefore.trans (hhead field hmem)
    · rw [if_neg hbefore]
      by_cases heq : key = other
      · rw [if_pos heq]
        exact List.pairwise_cons.mpr ⟨fun field hmem => heq ▸ hhead field hmem, hrest⟩
      · rw [if_neg heq]
        refine List.pairwise_cons.mpr ⟨?_, ih hrest⟩
        intro field hmem
        rcases mem_insertField hmem with rfl | hmem
        · exact lt_of_le_of_ne (not_lt.mp hbefore) (Ne.symm heq)
        · exact hhead field hmem

theorem Ordered.filter (h : Ordered fields) (keep : String × Json → Bool) :
    Ordered (fields.filter keep) :=
  List.Pairwise.filter _ h

/-- Ordered fields are decided by what can be looked up. -/
theorem Ordered.eq_of_find? (hleft : Ordered left) (hright : Ordered right)
    (h : ∀ key, find? key left = find? key right) : left = right := by
  induction left generalizing right with
  | nil =>
    cases right with
    | nil => rfl
    | cons field rest =>
      obtain ⟨name, w⟩ := field
      simpa [find?_cons] using h name
  | cons head rest ih =>
    obtain ⟨name, v⟩ := head
    cases right with
    | nil => simpa [find?_cons] using h name
    | cons head' rest' =>
      obtain ⟨other, w⟩ := head'
      have hname : name = other := by
        have hin : (name, v) ∈ (other, w) :: rest' :=
          mem_of_find? (by rw [← h name, find?_cons, if_pos rfl])
        have hin' : (other, w) ∈ (name, v) :: rest :=
          mem_of_find? (by rw [h other, find?_cons, if_pos rfl])
        rcases List.mem_cons.mp hin with heq | hmem
        · exact congrArg Prod.fst heq
        rcases List.mem_cons.mp hin' with heq | hmem'
        · exact (congrArg Prod.fst heq).symm
        · exact absurd ((List.pairwise_cons.mp hright).1 _ hmem)
            ((List.pairwise_cons.mp hleft).1 _ hmem').asymm
      subst hname
      have hvalue : v = w := by simpa [find?_cons] using h name
      subst hvalue
      refine congrArg _ (ih hleft.tail hright.tail ?_)
      intro key
      by_cases hkey : name = key
      · subst hkey
        rw [hleft.find?_tail_eq_none, hright.find?_tail_eq_none]
      · simpa [find?_cons, hkey] using h key

/-! ## Building objects -/

/-- Putting fields in their places one after the other: the last of equal names counts. -/
theorem find?_foldl_insertField (key : String) (more fields : List (String × Json)) :
    find? key (more.foldl (fun acc kv => insertField kv.1 kv.2 acc) fields) =
      (find? key more.reverse).or (find? key fields) := by
  induction more using List.reverseRecOn with
  | nil => simp
  | append_singleton more field ih =>
    obtain ⟨name, value⟩ := field
    rw [List.foldl_append, List.reverse_append]
    simp only [List.foldl_cons, List.foldl_nil, List.reverse_singleton, List.singleton_append]
    rw [find?_insertField, find?_cons, ih]
    by_cases hkey : name = key <;> simp [hkey]

theorem ordered_orderFields (fields : List (String × Json)) : Ordered (orderFields fields) := by
  induction fields using List.reverseRecOn with
  | nil => exact .nil
  | append_singleton fields field ih =>
    rw [orderFields, List.foldl_append]
    exact ih.insertField field.1 field.2

theorem mem_orderFields {field : String × Json} (h : field ∈ orderFields fields) :
    field ∈ fields := by
  induction fields using List.reverseRecOn with
  | nil => cases h
  | append_singleton fields last ih =>
    rw [orderFields, List.foldl_append] at h
    rcases mem_insertField h with rfl | hmem
    · exact List.mem_append_right _ List.mem_cons_self
    · exact List.mem_append_left _ (ih hmem)

theorem find?_orderFields (key : String) (fields : List (String × Json)) :
    find? key (orderFields fields) = find? key fields.reverse := by
  rw [orderFields, find?_foldl_insertField, find?_nil, Option.or_none]

theorem find?_reverse (h : (fields.map Prod.fst).Nodup) (key : String) :
    find? key fields.reverse = find? key fields :=
  find?_perm h (List.reverse_perm fields) key

/-- Fields that are in order stay as they are. -/
theorem Ordered.orderFields_eq (h : Ordered fields) : orderFields fields = fields :=
  (ordered_orderFields fields).eq_of_find? h fun key => by
    rw [find?_orderFields, find?_reverse h.nodup]

theorem names_present_sublist (fields : List (String × Option Json)) :
    ((fields.filterMap fun (k, v) => v.map (k, ·)).map Prod.fst).Sublist
      (fields.map Prod.fst) := by
  induction fields with
  | nil => exact .slnil
  | cons field rest ih =>
    obtain ⟨name, _ | value⟩ := field
    · exact ih.cons name
    · exact ih.cons_cons name

/-- What the fields that are present have at a name. -/
theorem find?_present {fields : List (String × Option Json)} (h : (fields.map Prod.fst).Nodup)
    (key : String) : find? key (fields.filterMap fun (k, v) => v.map (k, ·)) =
      (fields.lookup key).join := by
  induction fields with
  | nil => rfl
  | cons field rest ih =>
    obtain ⟨name, w⟩ := field
    obtain ⟨hnew, hrest⟩ := List.nodup_cons.mp h
    rw [List.lookup_cons]
    by_cases hkey : key = name
    · subst hkey
      cases w with
      | some value => simp [find?_cons]
      | none =>
        simp only [List.filterMap_cons, Option.map_none, beq_self_eq_true, Option.join_some]
        refine find?_eq_none fun field hmem heq => hnew ?_
        exact (names_present_sublist rest).subset (List.mem_map.mpr ⟨field, hmem, heq⟩)
    · rw [beq_false_of_ne hkey]
      cases w with
      | some value => simpa [find?_cons, Ne.symm hkey] using ih hrest
      | none => simpa using ih hrest

/-- What an object of the fields that are present has at a name. -/
theorem find?_orderFields_present {fields : List (String × Option Json)}
    (h : (fields.map Prod.fst).Nodup) (key : String) :
    find? key (orderFields (fields.filterMap fun (k, v) => v.map (k, ·))) =
      (fields.lookup key).join := by
  rw [find?_orderFields, find?_reverse ((names_present_sublist fields).nodup h), find?_present h]

end Reconciler.Json
