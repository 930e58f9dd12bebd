import Mathlib.Data.List.Basic
import Mathlib.Data.List.Pairwise
import Mathlib.Data.List.Sort
import Reconciler.Proofs.Cache.Modulo
import Reconciler.Proofs.Text.ByteOrder

/-!
# The least places at which two trees differ

A comparison goes down as long as both sides are objects, so it reports a place only if the values
there differ and nothing could be said of a place below. A place is reported once, and before all
that come after it name by name, in the order of their bytes.

`Json.DifferAt` says this of a place by what stands there and above, without going down the trees,
and `Diff.Tells` says of a list that it holds these places in order. There is only one such list
(`Diff.Tells.unique`), so what else is to be said of the report follows from which places are in it.
-/

namespace Reconciler

/-- The first names that differ decide, in the order of their bytes. -/
def Path.Before : Path → Path → Prop := List.Lex fun s t => Text.bytes s < Text.bytes t

theorem Path.before_iff {p q : Path} : p.Before q ↔ p < q := by
  have horder : (fun s t => Text.bytes s < Text.bytes t) = fun s t : String => s < t := by
    funext s t
    exact propext Text.bytes_lt_iff
  unfold Path.Before
  rw [horder]
  exact Iff.rfl

namespace Json

/-! ## Places -/

/-- The value at a place, `null` where there is none. -/
def valueAt (j : Json) (p : Path) : Json := p.foldl field j

def IsObject (j : Json) : Prop := ∃ fields, j = .obj fields

/-- Two trees differ at a place to which objects lead on both sides, and not both have an object
there. -/
structure DifferAt (a b : Json) (p : Path) : Prop where
  above : ∀ part, part <+: p → part ≠ p → (a.valueAt part).IsObject ∧ (b.valueAt part).IsObject
  values : same (a.valueAt p) (b.valueAt p) = false
  leaf : ¬((a.valueAt p).IsObject ∧ (b.valueAt p).IsObject)

/-! ## Equality by value has no direction -/

mutual

theorem same_comm : ∀ a b : Json, same a b = same b a
  | .null, b => by cases b <;> rfl
  | .bool x, b => by cases b <;> first | rfl | exact BEq.comm
  | .int x, b => by cases b <;> first | rfl | exact BEq.comm
  | .str x, b => by cases b <;> first | rfl | exact BEq.comm
  | .float x, b => by
    cases b with
    | float y =>
      simp only [same, Binary64.sameValue]
      rw [BEq.comm (a := x), Bool.and_comm]
    | _ => rfl
  | .arr items, b => by
    cases b with
    | arr items' =>
      rw [same, same]
      exact sameItems_comm items items'
    | _ => rfl
  | .obj fields, b => by
    cases b with
    | obj fields' =>
      rw [same, same]
      exact sameFields_comm fields fields'
    | _ => rfl

theorem sameItems_comm : ∀ items items' : List Json, sameItems items items' = sameItems items' items
  | [], [] => rfl
  | [], _ :: _ => rfl
  | _ :: _, [] => rfl
  | item :: rest, item' :: rest' => by
    rw [sameItems, sameItems, same_comm item item', sameItems_comm rest rest']

theorem sameFields_comm :
    ∀ fields fields' : List (String × Json), sameFields fields fields' = sameFields fields' fields
  | [], [] => rfl
  | [], _ :: _ => rfl
  | _ :: _, [] => rfl
  | (name, value) :: rest, (name', value') :: rest' => by
    rw [sameFields, sameFields, same_comm value value', sameFields_comm rest rest',
      BEq.comm (a := name)]

end

end Json

namespace Diff

open Json (DifferAt IsObject Ordered Tidy TidyFields field find? same valueAt)

variable {ignored : List Path} {path p q : Path} {key : String} {a b : Json}
  {left right : List (String × Json)}

/-! ## Which places are reported -/

theorem differAt_nil :
    DifferAt a b [] ↔ same a b = false ∧ ¬(a.IsObject ∧ b.IsObject) := by
  constructor
  · intro h
    exact ⟨h.values, h.leaf⟩
  · rintro ⟨hvalues, hleaf⟩
    refine ⟨fun part hpart hne => ?_, hvalues, hleaf⟩
    exact absurd (List.prefix_nil.mp hpart) hne

theorem differAt_cons {rest : Path} : DifferAt a b (key :: rest) ↔
    a.IsObject ∧ b.IsObject ∧ DifferAt (a.field key) (b.field key) rest := by
  constructor
  · intro h
    have hhere := h.above [] List.nil_prefix (by simp)
    refine ⟨hhere.1, hhere.2, fun part hpart hne => ?_, h.values, h.leaf⟩
    apply h.above (key :: part)
    · exact List.cons_prefix_cons.mpr ⟨rfl, hpart⟩
    · simpa using hne
  · rintro ⟨ha, hb, h⟩
    refine ⟨fun part hpart hne => ?_, h.values, h.leaf⟩
    cases part with
    | nil => exact ⟨ha, hb⟩
    | cons key' part =>
      obtain ⟨rfl, hpart'⟩ := List.cons_prefix_cons.mp hpart
      exact h.above part hpart' (by simpa using hne)

/-- Going down both trees comes to a place exactly if it stands as it should. -/
theorem differs_iff : Differs a b p ↔ DifferAt a b p := by
  induction p generalizing a b with
  | nil =>
    rw [differAt_nil]
    constructor
    · rintro ⟨hleaf, hvalues⟩
      exact ⟨hvalues, fun ⟨⟨left, ha⟩, right, hb⟩ => hleaf ⟨left, right, ha, hb⟩⟩
    · rintro ⟨hvalues, hleaf⟩
      exact .here (fun ⟨left, right, ha, hb⟩ => hleaf ⟨⟨left, ha⟩, right, hb⟩) hvalues
  | cons key rest ih =>
    rw [differAt_cons, ← ih]
    constructor
    · intro h
      cases h with
      | under key hbelow => exact ⟨⟨_, rfl⟩, ⟨_, rfl⟩, hbelow⟩
    · rintro ⟨⟨left, rfl⟩, ⟨right, rfl⟩, hbelow⟩
      exact .under key hbelow

theorem differAt_comm : DifferAt a b p ↔ DifferAt b a p := by
  have hswap : ∀ {a b : Json}, DifferAt a b p → DifferAt b a p := fun h =>
    ⟨fun part hpart hne => (h.above part hpart hne).symm, Json.same_comm _ _ ▸ h.values,
      fun hobjects => h.leaf hobjects.symm⟩
  exact ⟨hswap, hswap⟩

/-- Below a place where two trees differ there is no other. -/
theorem eq_of_prefix (hp : DifferAt a b p) (hq : DifferAt a b q) (h : p <+: q) : p = q := by
  by_contra hne
  exact hp.leaf (hq.above p h hne)

/-! ## In which order -/

/-- What lies under an earlier name comes before what lies under a later one. -/
theorem lt_of_under {k l : String} (h : k < l) (hp : path ++ [k] <+: p) (hq : path ++ [l] <+: q) :
    p < q := by
  obtain ⟨below, rfl⟩ := hp
  obtain ⟨below', rfl⟩ := hq
  rw [List.append_assoc, List.append_assoc]
  apply List.Lex.append_left
  exact .rel h

theorem prefix_of_mem_leaf (h : p ∈ leaf ignored path a b) : path <+: p := by
  obtain ⟨rfl, -⟩ := mem_leaf.mp h
  exact List.prefix_refl p

theorem prefix_of_mem_diffAt (ha : a.Tidy) (hb : b.Tidy) (h : p ∈ diffAt ignored path a b) :
    path <+: p := by
  obtain ⟨below, rfl, -⟩ := (mem_diffAt ha hb).mp h
  exact List.prefix_append _ _

theorem pairwise_leaf : (leaf ignored path a b).Pairwise (· < ·) := by
  unfold leaf
  split
  · exact .nil
  · exact List.pairwise_singleton _ _

theorem exists_name_of_mem_onlyRight (h : p ∈ onlyRight ignored path right) :
    ∃ field ∈ right, path ++ [field.1] <+: p := by
  obtain ⟨field, hmem, hp⟩ := List.mem_flatMap.mp h
  exact ⟨field, hmem, prefix_of_mem_leaf hp⟩

/-- What is reported of two lists of fields lies under a name of one of them. -/
theorem exists_name_of_mem_diffFields (hleft : Tidy (.obj left)) (hright : Tidy (.obj right))
    (h : p ∈ diffFields ignored path left right) :
    ∃ field ∈ left ++ right, path ++ [field.1] <+: p := by
  obtain ⟨key, hp⟩ := (mem_diffFields hleft.1 hright.1).mp h
  have hunder := prefix_of_mem_diffAt (hleft.field key) (hright.field key) hp
  by_contra hnone
  push Not at hnone
  -- Without that name, `null` would be compared with `null`.
  have hmissing : ∀ fields : List (String × Json), fields ⊆ left ++ right →
      Json.field (.obj fields) key = .null := by
    intro fields hsub
    apply field_of_forall_ne
    rintro entry hmem rfl
    exact hnone entry (hsub hmem) hunder
  rw [hmissing left (List.subset_append_left _ _),
    hmissing right (List.subset_append_right _ _)] at hp
  exact not_mem_diffAt_null hp

theorem pairwise_onlyRight (h : Ordered right) :
    (onlyRight ignored path right).Pairwise (· < ·) := by
  unfold onlyRight
  rw [List.pairwise_flatMap]
  refine ⟨fun field _ => pairwise_leaf, ?_⟩
  apply List.Pairwise.imp _ h
  intro first second hlt p hp q hq
  exact lt_of_under hlt (prefix_of_mem_leaf hp) (prefix_of_mem_leaf hq)

/-- A place lies under a name from `key` on. -/
def LiesFrom (path : Path) (key : String) (p : Path) : Prop :=
  ∃ name, key ≤ name ∧ path ++ [name] <+: p

theorem pairwise_onlyRight_append {rest : List Path} (h : Ordered right)
    (hbefore : ∀ field ∈ right, field.1 < key) (hrest : rest.Pairwise (· < ·))
    (hfrom : ∀ p ∈ rest, LiesFrom path key p) :
    (onlyRight ignored path right ++ rest).Pairwise (· < ·) := by
  refine List.pairwise_append.mpr ⟨pairwise_onlyRight h, hrest, fun p hp q hq => ?_⟩
  obtain ⟨field, hmem, hunder⟩ := exists_name_of_mem_onlyRight hp
  obtain ⟨name, hle, hunder'⟩ := hfrom q hq
  exact lt_of_under ((hbefore field hmem).trans_le hle) hunder hunder'

/-- What is reported under a first name, and then of the fields with later names. -/
theorem pairwise_append_diffFields {first : List Path} (hleft : Tidy (.obj left))
    (hright : Tidy (.obj right)) (hlater : ∀ field ∈ left ++ right, key < field.1)
    (hunder : ∀ p ∈ first, path ++ [key] <+: p) (hfirst : first.Pairwise (· < ·))
    (hrest : (diffFields ignored path left right).Pairwise (· < ·)) :
    (first ++ diffFields ignored path left right).Pairwise (· < ·) ∧
      ∀ p ∈ first ++ diffFields ignored path left right, LiesFrom path key p := by
  constructor
  · refine List.pairwise_append.mpr ⟨hfirst, hrest, fun p hp q hq => ?_⟩
    obtain ⟨field, hmem, hprefix⟩ := exists_name_of_mem_diffFields hleft hright hq
    exact lt_of_under (hlater field hmem) (hunder p hp) hprefix
  · intro p hp
    rcases List.mem_append.mp hp with hp | hp
    · exact ⟨key, le_rfl, hunder p hp⟩
    · obtain ⟨field, hmem, hprefix⟩ := exists_name_of_mem_diffFields hleft hright hp
      exact ⟨field.1, (hlater field hmem).le, hprefix⟩

theorem pairwise_diffFields (hleft : Tidy (.obj left)) (hright : Tidy (.obj right))
    (hvalues : ∀ field ∈ left, ∀ w : Json, w.Tidy →
      (diffAt ignored (path ++ [field.1]) field.2 w).Pairwise (· < ·)) :
    (diffFields ignored path left right).Pairwise (· < ·) := by
  induction left generalizing right with
  | nil => exact pairwise_onlyRight hright.1
  | cons head left ih =>
    obtain ⟨k, v⟩ := head
    obtain ⟨hk, hordered⟩ := List.pairwise_cons.mp hleft.1
    obtain ⟨hvalue, hvalues⟩ := List.forall_mem_cons.mp hvalues
    have hleft' : Tidy (.obj left) := ⟨hordered, hleft.2.2⟩
    have hbefore : ∀ field ∈ right.takeWhile fun kv => kv.1 < k, field.1 < k :=
      fun field hmem => by simpa using List.mem_takeWhile_imp hmem
    have hnotlt := not_lt_of_dropWhile hright.1 k
    have htidy : Tidy (.obj (right.dropWhile fun kv => kv.1 < k)) := by
      have hsublist := List.dropWhile_sublist (l := right) fun kv => kv.1 < k
      refine ⟨List.Pairwise.sublist hsublist hright.1, Json.tidyFields_iff.mpr fun field hmem => ?_⟩
      exact Json.tidyFields_iff.mp hright.2 field (hsublist.subset hmem)
    rw [diffFields]
    generalize right.dropWhile (fun kv => decide (kv.1 < k)) = rest at hnotlt htidy
    -- First the names that only the right side has, then `k`, then the later ones.
    suffices h : ∀ {reported : List Path},
        (reported.Pairwise (· < ·) ∧ ∀ p ∈ reported, LiesFrom path k p) →
          (onlyRight ignored path (right.takeWhile fun kv => kv.1 < k) ++ reported).Pairwise
            (· < ·) by
      apply h
      have hfrom : ∀ {first : List Path} {rest : List (String × Json)}, Tidy (.obj rest) →
          (∀ field ∈ rest, k < field.1) → (∀ p ∈ first, path ++ [k] <+: p) →
          first.Pairwise (· < ·) →
          (first ++ diffFields ignored path left rest).Pairwise (· < ·) ∧
            ∀ p ∈ first ++ diffFields ignored path left rest, LiesFrom path k p := by
        intro first rest hrest hlater hunder hfirst
        refine pairwise_append_diffFields hleft' hrest ?_ hunder hfirst (ih hleft' hrest hvalues)
        exact fun field hmem => (List.mem_append.mp hmem).elim (hk field) (hlater field)
      have habsent : ∀ p ∈ leaf ignored (path ++ [k]) v .null, path ++ [k] <+: p :=
        fun p hp => prefix_of_mem_leaf hp
      cases rest with
      | nil => exact hfrom htidy nofun habsent pairwise_leaf
      | cons first more =>
        obtain ⟨l, w⟩ := first
        obtain ⟨hmore, hmoreOrdered⟩ := List.pairwise_cons.mp htidy.1
        by_cases hl : l = k
        · subst hl
          simp only [if_true]
          refine hfrom ⟨hmoreOrdered, htidy.2.2⟩ hmore ?_ (hvalue w htidy.2.1)
          exact fun p hp => prefix_of_mem_diffAt hleft.2.1 htidy.2.1 hp
        · simp only [if_neg hl]
          have hle : k ≤ l := not_lt.mp (hnotlt (l, w) List.mem_cons_self)
          have hlt : k < l := lt_of_le_of_ne hle (Ne.symm hl)
          refine hfrom htidy ?_ habsent pairwise_leaf
          exact List.forall_mem_cons.mpr ⟨hlt, fun field hmem => hlt.trans (hmore field hmem)⟩
    rintro reported ⟨hpairwise, hreported⟩
    apply pairwise_onlyRight_append _ hbefore hpairwise hreported
    exact List.Pairwise.sublist (List.takeWhile_sublist _) hright.1

/-- The report goes forward, in the order of names and places. -/
theorem pairwise_diffAt (ha : a.Tidy) (hb : b.Tidy) :
    (diffAt ignored path a b).Pairwise (· < ·) := by
  induction hheight : a.height using Nat.strong_induction_on generalizing a b path with
  | _ n ih =>
    by_cases hobjects : ∃ left right, a = .obj left ∧ b = .obj right
    · obtain ⟨left, right, rfl, rfl⟩ := hobjects
      rw [diffAt]
      split
      · exact .nil
      · apply pairwise_diffFields ha hb
        rintro ⟨name, value⟩ hmem w hw
        have hfield : field (.obj left) name = value := by
          rw [field, ha.1.find?_of_mem hmem]
          rfl
        apply ih value.height _ _ hw rfl
        · rw [← hheight, ← hfield]
          exact height_field_lt left name
        · exact hfield ▸ ha.field name
    · rw [diffAt_of_not_objects hobjects]
      exact pairwise_leaf

/-! ## The whole report -/

/-- In ascending order, the places where two trees differ and that no ignored path leads to. -/
structure Tells (ignored : List Path) (a b : Json) (paths : List Path) : Prop where
  ascending : paths.Pairwise Path.Before
  mem_iff : ∀ p, p ∈ paths ↔ (∀ part, part <+: p → part ∉ ignored) ∧ DifferAt a b p

namespace Tells

variable {paths paths' : List Path}

theorem pairwise_lt (h : Tells ignored a b paths) : paths.Pairwise (· < ·) :=
  h.ascending.imp Path.before_iff.mp

theorem nodup (h : Tells ignored a b paths) : paths.Nodup :=
  h.pairwise_lt.imp fun hlt => hlt.ne

theorem unique (h : Tells ignored a b paths) (h' : Tells ignored a b paths') : paths = paths' := by
  apply h.pairwise_lt.eq_of_mem_iff h'.pairwise_lt
  intro p
  rw [h.mem_iff, h'.mem_iff]

theorem swap (h : Tells ignored a b paths) : Tells ignored b a paths := by
  refine ⟨h.ascending, fun p => ?_⟩
  rw [h.mem_iff, differAt_comm]

/-- To ignore one more path takes out what is at it and below. -/
theorem ignore (h : Tells ignored a b paths) {ignored' : List Path}
    (hmem : ∀ part, part ∈ ignored' ↔ part = q ∨ part ∈ ignored) :
    Tells ignored' a b (paths.filter fun p => ¬q <+: p) := by
  refine ⟨h.ascending.filter _, fun p => ?_⟩
  have hpart : (∀ part, part <+: p → part ∉ ignored') ↔
      (∀ part, part <+: p → part ∉ ignored) ∧ ¬q <+: p := by
    constructor
    · intro hnone
      refine ⟨fun part hprefix hin => ?_, fun hq => ?_⟩
      · exact hnone part hprefix ((hmem part).mpr (.inr hin))
      · exact hnone q hq ((hmem q).mpr (.inl rfl))
    · rintro ⟨hnone, hq⟩ part hprefix hin
      rcases (hmem part).mp hin with rfl | hin
      · exact hq hprefix
      · exact hnone part hprefix hin
  rw [List.mem_filter, h.mem_iff, hpart, decide_eq_true_iff]
  tauto

end Tells

theorem tells_diffPaths (ha : a.Tidy) (hb : b.Tidy) :
    Tells ignored a b (diffPaths ignored a b) := by
  refine ⟨(pairwise_diffAt ha hb).imp Path.before_iff.mpr, fun p => ?_⟩
  rw [mem_diffPaths ha hb, differs_iff, and_comm]
  rfl

/-- A comparison tells the least places at which two trees differ, each once and in order, whichever
tree comes first. One more ignored path takes out what is at it and below. -/
theorem diffPaths_least (ha : a.Tidy) (hb : b.Tidy) (ignored : List Path) :
    Tells ignored a b (diffPaths ignored a b) ∧ (diffPaths ignored a b).Nodup ∧
      (∀ p ∈ diffPaths ignored a b, ∀ q ∈ diffPaths ignored a b, p <+: q → p = q) ∧
      diffPaths ignored b a = diffPaths ignored a b ∧
      ∀ (q : Path) (ignored' : List Path), (∀ part, part ∈ ignored' ↔ part = q ∨ part ∈ ignored) →
        diffPaths ignored' a b = (diffPaths ignored a b).filter fun p => ¬q <+: p := by
  have htells : Tells ignored a b _ := tells_diffPaths ha hb
  refine ⟨htells, htells.nodup, fun p hp q hq hprefix => ?_, ?_, fun q ignored' hmem => ?_⟩
  · exact eq_of_prefix ((htells.mem_iff p).mp hp).2 ((htells.mem_iff q).mp hq).2 hprefix
  · exact (tells_diffPaths hb ha).unique htells.swap
  · exact (tells_diffPaths ha hb).unique (htells.ignore hmem)

/-- A field of one side, `null` on the other side, is no difference; a field with another value and
one that has become an object are. -/
theorem diffPaths_least_three :
    Json.Tidy (.obj [("a", .null), ("b", .obj [("x", .int 1)]), ("c", .int 1)]) ∧
      Json.Tidy (.obj [("b", .obj [("x", .int 2)]), ("c", .obj [("y", .null)])]) ∧
      diffPaths [] (.obj [("a", .null), ("b", .obj [("x", .int 1)]), ("c", .int 1)])
        (.obj [("b", .obj [("x", .int 2)]), ("c", .obj [("y", .null)])]) =
          [["b", "x"], ["c"]] ∧
      diffPaths [["b"]] (.obj [("a", .null), ("b", .obj [("x", .int 1)]), ("c", .int 1)])
        (.obj [("b", .obj [("x", .int 2)]), ("c", .obj [("y", .null)])]) = [["c"]] := by
  have ha : Json.Tidy (.obj [("a", .null), ("b", .obj [("x", .int 1)]), ("c", .int 1)]) :=
    ⟨by decide, trivial, ⟨by decide, trivial, trivial⟩, trivial, trivial⟩
  have hb : Json.Tidy (.obj [("b", .obj [("x", .int 2)]), ("c", .obj [("y", .null)])]) :=
    ⟨by decide, ⟨by decide, trivial, trivial⟩, ⟨by decide, trivial, trivial⟩, trivial⟩
  have hall := diffPaths_least ha hb []
  have hpaths : diffPaths [] (.obj [("a", .null), ("b", .obj [("x", .int 1)]), ("c", .int 1)])
      (.obj [("b", .obj [("x", .int 2)]), ("c", .obj [("y", .null)])]) = [["b", "x"], ["c"]] := by
    decide +kernel
  refine ⟨ha, hb, hpaths, ?_⟩
  rw [hall.2.2.2.2 ["b"] [["b"]] (by simp), hpaths]
  decide

end Diff

end Reconciler
