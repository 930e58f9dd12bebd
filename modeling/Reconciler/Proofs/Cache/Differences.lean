import Mathlib.Data.List.TakeWhile
import Reconciler.Cache.Diff
import Reconciler.Proofs.Json.Fields

/-!
# What is reported as a difference

Two trees differ at a place if objects lead there on both sides, the values there differ, and they
are not both objects (`Differs`); a missing field counts as `null`. Of trees whose objects list their
fields in order (`Json.Tidy`), exactly the places are reported that no ignored path leads to
(`mem_diffAt`).
-/

namespace Reconciler

namespace Json

/-! ## Equality by value -/

mutual

theorem same_refl : ∀ j : Json, same j j = true
  | .null => rfl
  | .bool b => beq_self_eq_true b
  | .int n => beq_self_eq_true n
  | .float x => by simp [same, Binary64.sameValue]
  | .str s => beq_self_eq_true s
  | .arr items => by rw [same]; exact sameItems_refl items
  | .obj fields => by rw [same]; exact sameFields_refl fields

theorem sameItems_refl : ∀ items : List Json, sameItems items items = true
  | [] => rfl
  | item :: rest => by rw [sameItems, same_refl item, sameItems_refl rest]; rfl

theorem sameFields_refl : ∀ fields : List (String × Json), sameFields fields fields = true
  | [] => rfl
  | (name, value) :: rest => by
    rw [sameFields, same_refl value, sameFields_refl rest, beq_self_eq_true]
    rfl

end

/-- Lists of texts are equal by value only if they are equal. -/
theorem eq_of_same_ofStrings {a b : List String} (h : same (ofStrings a) (ofStrings b) = true) :
    a = b := by
  simp only [ofStrings, same] at h
  induction a generalizing b with
  | nil =>
    cases b with
    | nil => rfl
    | cons text rest => simp [sameItems] at h
  | cons text rest ih =>
    cases b with
    | nil => simp [sameItems] at h
    | cons text' rest' =>
      simp only [List.map_cons, sameItems, same, Bool.and_eq_true, beq_iff_eq] at h
      rw [h.1, ih h.2]

/-! ## Trees in order -/

mutual

/-- Every object lists its fields in order. -/
def Tidy : Json → Prop
  | .arr items => TidyItems items
  | .obj fields => Ordered fields ∧ TidyFields fields
  | .null => True
  | .bool _ => True
  | .int _ => True
  | .float _ => True
  | .str _ => True

/-- `Tidy` of every item. -/
def TidyItems : List Json → Prop
  | [] => True
  | item :: rest => Tidy item ∧ TidyItems rest

/-- `Tidy` of every field's value. -/
def TidyFields : List (String × Json) → Prop
  | [] => True
  | (_, value) :: rest => Tidy value ∧ TidyFields rest

end

theorem tidyFields_iff {fields : List (String × Json)} :
    TidyFields fields ↔ ∀ field ∈ fields, field.2.Tidy := by
  induction fields with
  | nil => simp [TidyFields]
  | cons field rest ih => rw [TidyFields, ih, List.forall_mem_cons]

theorem tidyItems_iff {items : List Json} : TidyItems items ↔ ∀ item ∈ items, item.Tidy := by
  induction items with
  | nil => simp [TidyItems]
  | cons item rest ih => rw [TidyItems, ih, List.forall_mem_cons]

theorem tidy_ofStrings (texts : List String) : (ofStrings texts).Tidy := by
  refine tidyItems_iff.mpr fun item hmem => ?_
  obtain ⟨text, -, rfl⟩ := List.mem_map.mp hmem
  trivial

/-- An object of tidy fields that are present is tidy. -/
theorem tidy_ofPresent {fields : List (String × Option Json)}
    (h : ∀ field ∈ fields, ∀ value, field.2 = some value → value.Tidy) : (ofPresent fields).Tidy := by
  refine ⟨ordered_orderFields _, tidyFields_iff.mpr fun field hmem => ?_⟩
  obtain ⟨⟨name, value⟩, hfield, heq⟩ := List.mem_filterMap.mp (mem_orderFields hmem)
  obtain ⟨value, rfl, rfl⟩ := Option.map_eq_some_iff.mp heq
  exact h _ hfield value rfl

theorem TidyFields.find? {fields : List (String × Json)} {key : String} {value : Json}
    (h : TidyFields fields) (hfind : find? key fields = some value) : Tidy value := by
  induction fields with
  | nil => cases hfind
  | cons field rest ih =>
    rw [find?_cons] at hfind
    split at hfind
    · exact Option.some.inj hfind ▸ h.1
    · exact ih h.2 hfind

theorem Tidy.field {fields : List (String × Json)} (h : Tidy (.obj fields)) (key : String) :
    Tidy (field (.obj fields) key) := by
  simp only [Json.field]
  cases hfind : Json.find? key fields with
  | none => exact trivial
  | some value => exact TidyFields.find? h.2 hfind

end Json

namespace Diff

open Json (Ordered find? field same)

variable {ignored : List Path} {path p : Path} {key : String} {a b : Json}
  {left right : List (String × Json)}

theorem mem_leaf : p ∈ leaf ignored path a b ↔ p = path ∧ path ∉ ignored ∧ same a b = false := by
  unfold leaf
  by_cases hignored : path ∈ ignored
  · simp [hignored]
  · cases hsame : same a b <;> simp [hignored]

/-- Values of which one is no object are compared as they are. -/
theorem diffAt_of_not_objects (h : ¬ ∃ left right, a = .obj left ∧ b = .obj right) :
    diffAt ignored path a b = leaf ignored path a b := by
  cases a <;> cases b <;> first | rfl | exact absurd ⟨_, _, rfl, rfl⟩ h

theorem diffAt_null (a : Json) : diffAt ignored path a .null = leaf ignored path a .null :=
  diffAt_of_not_objects fun ⟨_, _, _, h⟩ => nomatch h

theorem null_diffAt (b : Json) : diffAt ignored path .null b = leaf ignored path .null b := rfl

theorem not_mem_diffAt_null : p ∉ diffAt ignored path .null .null := by
  rw [null_diffAt, mem_leaf]
  exact fun h => nomatch h.2.2

theorem field_cons (key name : String) (value : Json) (rest : List (String × Json)) :
    field (.obj ((name, value) :: rest)) key =
      if name = key then value else field (.obj rest) key := by
  simp only [field, Json.find?_cons]
  split <;> rfl

/-- Two lists of fields differ under some name. -/
def DiffersUnder (ignored : List Path) (path p : Path) (left right : List (String × Json)) : Prop :=
  ∃ key, p ∈ diffAt ignored (path ++ [key]) (field (.obj left) key) (field (.obj right) key)

theorem mem_onlyRight (h : Ordered right) :
    p ∈ onlyRight ignored path right ↔ DiffersUnder ignored path p [] right := by
  simp only [onlyRight, List.mem_flatMap, DiffersUnder]
  constructor
  · rintro ⟨⟨key, w⟩, hmem, hp⟩
    refine ⟨key, ?_⟩
    rwa [show field (.obj []) key = .null from rfl, field, h.find?_of_mem hmem]
  · rintro ⟨key, hp⟩
    simp only [field] at hp
    cases hfind : find? key right with
    | none => rw [hfind] at hp; exact absurd hp not_mem_diffAt_null
    | some w =>
      rw [hfind] at hp
      exact ⟨(key, w), Json.mem_of_find? hfind, hp⟩

theorem field_of_forall_ne {fields : List (String × Json)} (h : ∀ field ∈ fields, field.1 ≠ key) :
    field (.obj fields) key = .null := by
  rw [field, Json.find?_eq_none h]
  rfl

/-- The fields before a name and those from it on differ apart from each other. -/
theorem differsUnder_split {bound : String} {before rest : List (String × Json)}
    (hbefore : ∀ field ∈ before, field.1 < bound) (hrest : ∀ field ∈ rest, ¬ field.1 < bound)
    (hleft : ∀ field ∈ left, ¬ field.1 < bound) :
    DiffersUnder ignored path p left (before ++ rest) ↔
      DiffersUnder ignored path p [] before ∨ DiffersUnder ignored path p left rest := by
  -- Below the bound only `before` has fields, and from it on it has none.
  have hbelow : ∀ {key}, key < bound → ∀ {fields : List (String × Json)},
      (∀ field ∈ fields, ¬ field.1 < bound) → find? key fields = none :=
    fun hkey _ h => Json.find?_eq_none fun field hmem heq => h field hmem (heq ▸ hkey)
  have habove : ∀ {key}, ¬ key < bound → find? key before = none :=
    fun hkey => Json.find?_eq_none fun field hmem heq => hkey (heq ▸ hbefore field hmem)
  constructor
  · rintro ⟨key, hp⟩
    by_cases hkey : key < bound
    · refine .inl ⟨key, ?_⟩
      simpa only [field, Json.find?_nil, Json.find?_append, hbelow hkey hleft,
        hbelow hkey hrest, Option.or_none, Option.getD_none] using hp
    · refine .inr ⟨key, ?_⟩
      simpa only [field, Json.find?_append, habove hkey, Option.none_or] using hp
  · rintro (⟨key, hp⟩ | ⟨key, hp⟩)
    · by_cases hkey : key < bound
      · refine ⟨key, ?_⟩
        simpa only [field, Json.find?_nil, Json.find?_append, hbelow hkey hleft,
          hbelow hkey hrest, Option.or_none, Option.getD_none] using hp
      · simp only [field, Json.find?_nil, habove hkey, Option.getD_none] at hp
        exact absurd hp not_mem_diffAt_null
    · by_cases hkey : key < bound
      · simp only [field, hbelow hkey hleft, hbelow hkey hrest, Option.getD_none] at hp
        exact absurd hp not_mem_diffAt_null
      · refine ⟨key, ?_⟩
        simpa only [field, Json.find?_append, habove hkey, Option.none_or] using hp

/-- A first field differs by itself, the others apart from it. -/
theorem differsUnder_cons {k : String} {v : Json} {right rest : List (String × Json)}
    (hleft : ∀ field ∈ left, field.1 ≠ k) (hrest : ∀ field ∈ rest, field.1 ≠ k)
    (hsame : ∀ key, key ≠ k → field (.obj right) key = field (.obj rest) key) :
    DiffersUnder ignored path p ((k, v) :: left) right ↔
      p ∈ diffAt ignored (path ++ [k]) v (field (.obj right) k) ∨
        DiffersUnder ignored path p left rest := by
  constructor
  · rintro ⟨key, hp⟩
    rw [field_cons] at hp
    by_cases hkey : k = key
    · subst hkey
      exact .inl (by simpa using hp)
    · rw [if_neg hkey, hsame key (Ne.symm hkey)] at hp
      exact .inr ⟨key, hp⟩
  · rintro (hp | ⟨key, hp⟩)
    · exact ⟨k, by rwa [field_cons, if_pos rfl]⟩
    · by_cases hkey : k = key
      · subst hkey
        rw [field_of_forall_ne hleft, field_of_forall_ne hrest] at hp
        exact absurd hp not_mem_diffAt_null
      · exact ⟨key, by rwa [field_cons, if_neg hkey, hsame key (Ne.symm hkey)]⟩

theorem not_lt_of_dropWhile (h : Ordered right) (bound : String) :
    ∀ field ∈ right.dropWhile fun kv => kv.1 < bound, ¬ field.1 < bound := by
  have hordered : Ordered (right.dropWhile fun kv => kv.1 < bound) :=
    List.Pairwise.sublist (List.dropWhile_sublist _) h
  have hhead := List.head?_dropWhile_not (fun kv : String × Json => decide (kv.1 < bound)) right
  cases hdrop : right.dropWhile fun kv => kv.1 < bound with
  | nil => nofun
  | cons first more =>
    rw [hdrop] at hordered hhead
    replace hhead : ¬ first.1 < bound := by simpa using hhead
    intro field hmem
    rcases List.mem_cons.mp hmem with rfl | hmem
    · exact hhead
    · exact fun hlt => hhead (((List.pairwise_cons.mp hordered).1 field hmem).trans hlt)

/-- Fields in order differ as what can be looked up under a name does. -/
theorem mem_diffFields (hleft : Ordered left) (hright : Ordered right) :
    p ∈ diffFields ignored path left right ↔ DiffersUnder ignored path p left right := by
  induction left generalizing right with
  | nil => rw [diffFields, mem_onlyRight hright]
  | cons head left ih =>
    obtain ⟨k, v⟩ := head
    obtain ⟨hfirst, hordered⟩ := List.pairwise_cons.mp hleft
    have hsplit := List.takeWhile_append_dropWhile
      (p := fun kv : String × Json => decide (kv.1 < k)) (l := right)
    have hbefore : ∀ field ∈ right.takeWhile fun kv => kv.1 < k, field.1 < k :=
      fun field hmem => by simpa using List.mem_takeWhile_imp hmem
    have hrest := not_lt_of_dropWhile hright k
    have hrestOrdered : Ordered (right.dropWhile fun kv => kv.1 < k) :=
      List.Pairwise.sublist (List.dropWhile_sublist _) hright
    have hleft' : ∀ field ∈ (k, v) :: left, ¬ field.1 < k := by
      intro field hmem
      rcases List.mem_cons.mp hmem with rfl | hmem
      · exact lt_irrefl k
      · exact (hfirst field hmem).asymm
    have hne : ∀ field ∈ left, field.1 ≠ k := fun field hmem => (hfirst field hmem).ne'
    rw [diffFields]
    conv_rhs => rw [← hsplit]
    rw [differsUnder_split hbefore hrest hleft', List.mem_append,
      mem_onlyRight (List.Pairwise.sublist (List.takeWhile_sublist _) hright)]
    refine or_congr Iff.rfl ?_
    generalize right.dropWhile (fun kv => decide (kv.1 < k)) = rest at hrest hrestOrdered
    have habsent : ∀ {rest : List (String × Json)}, Ordered rest → (∀ field ∈ rest, field.1 ≠ k) →
        (p ∈ leaf ignored (path ++ [k]) v .null ++ diffFields ignored path left rest ↔
          DiffersUnder ignored path p ((k, v) :: left) rest) := by
      intro rest hrestOrdered hmissing
      rw [List.mem_append, differsUnder_cons hne hmissing fun _ _ => rfl, ← ih hordered hrestOrdered,
        field_of_forall_ne hmissing, diffAt_null]
    cases rest with
    | nil => exact habsent .nil nofun
    | cons first more =>
      obtain ⟨l, w⟩ := first
      obtain ⟨hmore, hmoreOrdered⟩ := List.pairwise_cons.mp hrestOrdered
      by_cases hl : l = k
      · subst hl
        have hmissing : ∀ field ∈ more, field.1 ≠ l := fun field hmem => (hmore field hmem).ne'
        simp only [if_true]
        rw [List.mem_append, ih hordered hmoreOrdered,
          differsUnder_cons hne hmissing fun key hkey => by rw [field_cons, if_neg (Ne.symm hkey)],
          field_cons, if_pos rfl]
      · simp only [if_neg hl]
        refine habsent hrestOrdered fun field hmem heq => ?_
        rcases List.mem_cons.mp hmem with rfl | hmem
        · exact hl heq
        · have hlt : l < k := lt_of_lt_of_eq (hmore field hmem) heq
          exact hrest (l, w) List.mem_cons_self hlt

/-- Objects differ as their fields do. -/
theorem mem_diffAt_objects (hleft : Ordered left) (hright : Ordered right) :
    p ∈ diffAt ignored path (.obj left) (.obj right) ↔
      path ∉ ignored ∧ DiffersUnder ignored path p left right := by
  rw [diffAt]
  by_cases hignored : path ∈ ignored
  · simp [hignored]
  · simp [hignored, mem_diffFields hleft hright]

mutual

/-- A tree does not differ from itself, in order or not. -/
theorem diffAt_self : ∀ (path : Path) (a : Json), diffAt ignored path a a = []
  | path, .obj fields => by
    rw [diffAt, diffFields_self path fields]
    split <;> rfl
  | _, .null => by simp [diffAt, leaf, Json.same_refl]
  | _, .bool _ => by simp [diffAt, leaf, Json.same_refl]
  | _, .int _ => by simp [diffAt, leaf, Json.same_refl]
  | _, .float _ => by simp [diffAt, leaf, Json.same_refl]
  | _, .str _ => by simp [diffAt, leaf, Json.same_refl]
  | _, .arr _ => by simp [diffAt, leaf, Json.same_refl]

theorem diffFields_self : ∀ (path : Path) (fields : List (String × Json)),
    diffFields ignored path fields fields = []
  | _, [] => rfl
  | path, (name, value) :: rest => by
    simp only [diffFields, List.takeWhile_cons, List.dropWhile_cons, lt_irrefl, decide_false,
      Bool.false_eq_true, if_false, if_true, diffAt_self (path ++ [name]) value,
      diffFields_self path rest]
    rfl

end

/-! ## Places -/

/-- Two trees differ at a place: objects lead there, and the values there differ and are not both
objects. -/
inductive Differs : Json → Json → Path → Prop where
  | here {a b : Json} : (¬ ∃ left right, a = .obj left ∧ b = .obj right) → same a b = false →
      Differs a b []
  | under {left right : List (String × Json)} {rest : Path} (key : String) :
      Differs (field (.obj left) key) (field (.obj right) key) rest →
      Differs (.obj left) (.obj right) (key :: rest)

/-- No ignored path leads from one place to another below it. -/
def Unignored (ignored : List Path) (path below : Path) : Prop :=
  ∀ part, part <+: below → path ++ part ∉ ignored

theorem unignored_nil : Unignored ignored path [] ↔ path ∉ ignored := by
  constructor
  · intro h
    simpa using h [] List.nil_prefix
  · intro h part hpart
    rwa [List.prefix_nil.mp hpart, List.append_nil]

theorem unignored_cons {rest : Path} : Unignored ignored path (key :: rest) ↔
    path ∉ ignored ∧ Unignored ignored (path ++ [key]) rest := by
  constructor
  · intro h
    refine ⟨by simpa using h [] List.nil_prefix, fun part hpart => ?_⟩
    rw [List.append_assoc]
    exact h (key :: part) (List.cons_prefix_cons.mpr ⟨rfl, hpart⟩)
  · rintro ⟨hpath, hrest⟩ part hpart
    cases part with
    | nil => rwa [List.append_nil]
    | cons key' part =>
      obtain ⟨rfl, hpart'⟩ := List.cons_prefix_cons.mp hpart
      simpa using hrest part hpart'

theorem height_field_lt (fields : List (String × Json)) (key : String) :
    (field (.obj fields) key).height < (Json.obj fields).height := by
  have hle : ∀ fields : List (String × Json), (field (.obj fields) key).height ≤
      Json.heightFields fields := by
    intro fields
    induction fields with
    | nil => exact Nat.zero_le _
    | cons head rest ih =>
      obtain ⟨name, value⟩ := head
      rw [field_cons, Json.heightFields]
      split
      · exact Nat.le_max_left _ _
      · exact ih.trans (Nat.le_max_right _ _)
  rw [Json.height]
  exact Nat.lt_succ_of_le (hle fields)

/-- What is reported are the places where the trees differ and that no ignored path leads to. -/
theorem mem_diffAt (ha : a.Tidy) (hb : b.Tidy) : p ∈ diffAt ignored path a b ↔
    ∃ below, p = path ++ below ∧ Differs a b below ∧ Unignored ignored path below := by
  induction hheight : a.height using Nat.strong_induction_on generalizing a b path with
  | _ n ih =>
    by_cases hobjects : ∃ left right, a = .obj left ∧ b = .obj right
    · obtain ⟨left, right, rfl, rfl⟩ := hobjects
      have hfield : ∀ key, p ∈ diffAt ignored (path ++ [key]) (field (.obj left) key)
          (field (.obj right) key) ↔ ∃ below, p = path ++ [key] ++ below ∧
            Differs (field (.obj left) key) (field (.obj right) key) below ∧
            Unignored ignored (path ++ [key]) below :=
        fun key => ih _ (hheight ▸ height_field_lt left key) (ha.field key) (hb.field key) rfl
      rw [mem_diffAt_objects ha.1 hb.1]
      constructor
      · rintro ⟨hpath, key, hp⟩
        obtain ⟨below, rfl, hdiffers, hunignored⟩ := (hfield key).mp hp
        exact ⟨key :: below, by simp, .under key hdiffers, unignored_cons.mpr ⟨hpath, hunignored⟩⟩
      · rintro ⟨below, rfl, hdiffers, hunignored⟩
        cases hdiffers with
        | here hnot _ => exact absurd ⟨_, _, rfl, rfl⟩ hnot
        | under key hdiffers =>
          obtain ⟨hpath, hrest⟩ := unignored_cons.mp hunignored
          exact ⟨hpath, key, (hfield key).mpr ⟨_, by simp, hdiffers, hrest⟩⟩
    · rw [diffAt_of_not_objects hobjects, mem_leaf]
      constructor
      · rintro ⟨rfl, hpath, hsame⟩
        exact ⟨[], by simp, .here hobjects hsame, unignored_nil.mpr hpath⟩
      · rintro ⟨below, rfl, hdiffers, hunignored⟩
        cases hdiffers with
        | here _ hsame => exact ⟨by simp, unignored_nil.mp hunignored, hsame⟩
        | under key _ => exact absurd ⟨_, _, rfl, rfl⟩ hobjects

end Diff

end Reconciler
