import Reconciler.Proofs.Cache.Snapshots
import Reconciler.Proofs.Mirror.Echoes

/-!
# What is read is written in order

The tree meant by a text lists the fields of every object in order, and so do the entries of metadata
that are only handed on. A mirror that was read from any text is therefore written as a tree in order,
as a cache needs it (`ConfigMirror.isTidy_of_read`).
-/

namespace Reconciler

namespace Json

/-! ## Trees -/

variable {fields : List (String × Json)}

theorem TidyFields.insertField (h : TidyFields fields) (key : String) {value : Json}
    (hvalue : value.Tidy) : TidyFields (insertField key value fields) := by
  refine tidyFields_iff.mpr fun field hmem => ?_
  rcases mem_insertField hmem with rfl | hmem
  · exact hvalue
  · exact tidyFields_iff.mp h field hmem

theorem TidyFields.orderFields (h : TidyFields fields) : TidyFields (orderFields fields) :=
  tidyFields_iff.mpr fun field hmem => tidyFields_iff.mp h field (mem_orderFields hmem)

theorem TidyFields.filter (h : TidyFields fields) (keep : String × Json → Bool) :
    TidyFields (fields.filter keep) :=
  tidyFields_iff.mpr fun field hmem => tidyFields_iff.mp h field (List.mem_of_mem_filter hmem)

mutual

theorem tidy_canonical : ∀ j : Json, j.canonical.Tidy
  | .arr items => tidyItems_canonicalItems items
  | .obj fields =>
    ⟨ordered_orderFields _, TidyFields.orderFields (tidyFields_canonicalFields fields)⟩
  | .null => trivial
  | .bool _ => trivial
  | .int _ => trivial
  | .float _ => trivial
  | .str _ => trivial

theorem tidyItems_canonicalItems : ∀ items : List Json, TidyItems (canonicalItems items)
  | [] => trivial
  | item :: rest => ⟨tidy_canonical item, tidyItems_canonicalItems rest⟩

theorem tidyFields_canonicalFields :
    ∀ fields : List (String × Json), TidyFields (canonicalFields fields)
  | [] => trivial
  | (_, value) :: rest => ⟨tidy_canonical value, tidyFields_canonicalFields rest⟩

end

theorem tidy_ofMap (pairs : List (String × String)) : (ofMap .str pairs).Tidy := by
  refine ⟨ordered_orderFields _, TidyFields.orderFields (tidyFields_iff.mpr fun field hmem => ?_)⟩
  obtain ⟨pair, -, rfl⟩ := List.mem_map.mp hmem
  trivial

/-! ## What readers yield -/

namespace Reader

variable {α β : Type} {r : Reader α} {P : α → Prop}

/-- All that a reader makes of a document has a property. -/
def Yields (r : Reader α) (P : α → Prop) : Prop :=
  ∀ depth doc a, r depth doc = .ok a → P a

theorem map_eq_ok {f : α → β} {depth : Nat} {doc : Document} {b : β} :
    r.map f depth doc = .ok b ↔ ∃ a, r depth doc = .ok a ∧ f a = b := by
  rw [Reader.map]
  cases r depth doc <;> simp [Except.map]

theorem yields_map {f : α → β} {Q : β → Prop} (h : ∀ a, Q (f a)) : (r.map f).Yields Q := by
  intro depth doc b hb
  obtain ⟨a, -, rfl⟩ := map_eq_ok.mp hb
  exact h a

theorem Yields.nullable (h : r.Yields P) : r.nullable.Yields fun o => ∀ a, o = some a → P a := by
  rintro depth doc o ho a rfl
  simp only [Reader.nullable] at ho
  split at ho
  · cases ho
  · obtain ⟨a', ha, heq⟩ := map_eq_ok.mp ho
    exact Option.some.inj heq ▸ h _ _ _ ha

theorem Yields.items (h : r.Yields P) {depth : Nat} {docs : List Document} {values : List α}
    (hvalues : docs.mapM (r depth) = .ok values) : ∀ a ∈ values, P a := by
  induction docs generalizing values with
  | nil =>
    obtain rfl := Except.ok.inj hvalues
    exact List.forall_mem_nil _
  | cons doc rest ih =>
    rw [List.mapM_cons] at hvalues
    cases hread : r depth doc with
    | error fault => rw [hread] at hvalues; cases hvalues
    | ok value =>
      cases hrest : rest.mapM (r depth) with
      | error fault => rw [hread, hrest] at hvalues; cases hvalues
      | ok more =>
        rw [hread, hrest] at hvalues
        obtain rfl := Except.ok.inj hvalues
        exact List.forall_mem_cons.mpr ⟨h _ _ _ hread, ih hrest⟩

theorem Yields.list (h : r.Yields P) : r.list.Yields fun items => ∀ a ∈ items, P a := by
  intro depth doc values hvalues
  unfold Reader.list at hvalues
  split at hvalues
  · cases hvalues
  · next depth docs closing =>
    cases hitems : docs.mapM (r depth) with
    | error fault => rw [hitems] at hvalues; cases hvalues
    | ok read =>
      rw [hitems] at hvalues
      cases closing with
      | error fault => cases hvalues
      | ok _ => exact Except.ok.inj hvalues ▸ h.items hitems
  · exact absurd hvalues (mismatch_ne_ok _ _)

theorem yields_tidy_tree : tree.Yields Tidy := yields_map tidy_canonical

end Reader

/-! ## Entries that are handed on -/

/-- The fields of an entry are in order. -/
def Entry.IsTidy (entry : Entry) : Prop := (Json.obj entry).Tidy

namespace Field

variable {name : String} {r : Reader Json} {entry entry' : Entry} {depth : Nat} {doc : Document}

theorem kept_keeps (hr : r.Yields Tidy) (h : entry.IsTidy)
    (hread : (kept name r).read entry depth doc = .ok entry') : entry'.IsTidy := by
  obtain ⟨value, hvalue, rfl⟩ := read_ofSetter.mp hread
  cases value with
  | some value => exact ⟨h.1.insertField _ _, h.2.insertField _ (hr.nullable _ _ _ hvalue _ rfl)⟩
  | none => exact ⟨h.1.filter _, h.2.filter _⟩

theorem always_keeps (h : entry.IsTidy)
    (hread : (always name).read entry depth doc = .ok entry') : entry'.IsTidy := by
  obtain ⟨value, -, rfl⟩ := read_ofSetter.mp hread
  exact ⟨h.1.insertField _ _, h.2.insertField _ trivial⟩

end Field

theorem yields_tidy_entry {r : Record Entry} {always : List String} (hothers : r.others = none)
    (h : ∀ field ∈ r.fields, (∃ name reads, Reader.Yields reads Tidy ∧ field = .kept name reads) ∨
      ∃ name, field = .always name) : (r.entry always).Yields Tidy := by
  intro depth doc value hvalue
  obtain ⟨entry, hentry, rfl⟩ := Reader.map_eq_ok.mp hvalue
  refine Record.reader_keeps (P := Entry.IsTidy) hothers ?_ ⟨ordered_orderFields _, ?_⟩ hentry
  · intro field hmem entry entry' depth doc htidy hread
    rcases h field hmem with ⟨name, reads, hreads, rfl⟩ | ⟨name, rfl⟩
    · exact Field.kept_keeps hreads htidy hread
    · exact Field.always_keeps htidy hread
  · refine TidyFields.orderFields (tidyFields_iff.mpr fun field hmem => ?_)
    obtain ⟨name, -, rfl⟩ := List.mem_map.mp hmem
    trivial

end Json

/-! ## Metadata -/

namespace Metadata

theorem yields_tidy_managedEntry : managedEntry.Yields Json.Tidy := by
  have htext : (Json.Reader.str.map .str).Yields Json.Tidy := Json.Reader.yields_map fun _ => trivial
  have htime : (instant.map fun t => .str t.toSeconds).Yields Json.Tidy :=
    Json.Reader.yields_map fun _ => trivial
  refine Json.yields_tidy_entry (by exact rfl) ?_
  simp only [Json.Record.lenient, List.forall_mem_cons]
  exact ⟨.inl ⟨_, _, htext, rfl⟩, .inl ⟨_, _, htext, rfl⟩,
    .inl ⟨_, _, Json.Reader.yields_tidy_tree, rfl⟩, .inl ⟨_, _, htext, rfl⟩,
    .inl ⟨_, _, htext, rfl⟩, .inl ⟨_, _, htext, rfl⟩, .inl ⟨_, _, htime, rfl⟩,
    List.forall_mem_nil _⟩

theorem yields_tidy_ownerEntry : ownerEntry.Yields Json.Tidy := by
  refine Json.yields_tidy_entry (by exact rfl) ?_
  intro field hmem
  rcases List.mem_append.mp hmem with hmem | hmem
  · obtain ⟨name, -, rfl⟩ := List.mem_map.mp hmem
    exact .inr ⟨name, rfl⟩
  · obtain ⟨name, -, rfl⟩ := List.mem_map.mp hmem
    have hflag : (Json.Reader.bool.map .bool).Yields Json.Tidy :=
      Json.Reader.yields_map fun _ => trivial
    exact .inl ⟨name, _, hflag, rfl⟩

/-- The entries that are handed on are trees in order. -/
structure IsTidy (m : Metadata) : Prop where
  managedFields : ∀ entries, m.managedFields = some entries → ∀ j ∈ entries, j.Tidy
  ownerReferences : ∀ entries, m.ownerReferences = some entries → ∀ j ∈ entries, j.Tidy

theorem isTidy_default : IsTidy {} := ⟨by rintro _ ⟨⟩, by rintro _ ⟨⟩⟩

theorem isTidy_of_read {m : Metadata} {depth : Nat} {doc : Json.Document}
    (h : reader depth doc = .ok m) : m.IsTidy := by
  -- All fields but two leave the entries as they are.
  have hspares : ∀ {α : Type} {name : String} {reads : Json.Reader α}
      {set : Metadata → Option α → Metadata},
      (∀ m a, (set m a).managedFields = m.managedFields ∧
        (set m a).ownerReferences = m.ownerReferences) →
      ∀ {m m' : Metadata} {depth : Nat} {doc : Json.Document}, m.IsTidy →
        (Json.Field.lenient name reads set).read m depth doc = .ok m' → m'.IsTidy := by
    intro α name reads set hset m m' depth doc hm hread
    obtain ⟨a, -, rfl⟩ := Json.Field.read_ofSetter.mp hread
    exact ⟨(hset m a).1 ▸ hm.managedFields, (hset m a).2 ▸ hm.ownerReferences⟩
  refine Json.Record.reader_keeps (P := IsTidy) rfl ?_ isTidy_default h
  simp only [shape, Json.Record.lenient, List.forall_mem_cons]
  refine ⟨?_, ?_, ?_, ?_, ?_, ?_, ?_, ?_, ?managed, ?_, ?_, ?owners, ?_, ?_, ?_,
    List.forall_mem_nil _⟩
  case managed =>
    intro m m' depth doc hm hread
    obtain ⟨entries, hentries, rfl⟩ := Json.Field.read_ofSetter.mp hread
    exact ⟨yields_tidy_managedEntry.list.nullable _ _ _ hentries, hm.ownerReferences⟩
  case owners =>
    intro m m' depth doc hm hread
    obtain ⟨entries, hentries, rfl⟩ := Json.Field.read_ofSetter.mp hread
    exact ⟨hm.managedFields, yields_tidy_ownerEntry.list.nullable _ _ _ hentries⟩
  all_goals
    refine hspares ?_
    exact fun _ _ => ⟨rfl, rfl⟩

theorem IsTidy.toJson {m : Metadata} (h : m.IsTidy) : m.toJson.Tidy := by
  have htext : ∀ s : Option String, ∀ j, s.map Json.str = some j → j.Tidy := by
    rintro (_ | s) j ⟨⟩
    trivial
  have hint : ∀ n : Option Int, ∀ j, n.map Json.int = some j → j.Tidy := by
    rintro (_ | n) j ⟨⟩
    trivial
  have htime : ∀ t : Option Timestamp, ∀ j, (t.map fun t => Json.str t.toSeconds) = some j →
      j.Tidy := by
    rintro (_ | t) j ⟨⟩
    trivial
  have hmap : ∀ pairs : Option (List (String × String)), ∀ j,
      pairs.map (Json.ofMap .str) = some j → j.Tidy := by
    rintro (_ | pairs) j ⟨⟩
    exact Json.tidy_ofMap pairs
  have hentries : ∀ entries : Option (List Json),
      (∀ items, entries = some items → ∀ j ∈ items, j.Tidy) → ∀ j,
        entries.map Json.arr = some j → j.Tidy := by
    rintro (_ | entries) hitems j ⟨⟩
    exact Json.tidyItems_iff.mpr (hitems entries rfl)
  refine Json.tidy_ofPresent ?_
  simp only [List.forall_mem_cons]
  refine ⟨hmap _, htime _, hint _, htime _, ?_, htext _, hint _, hmap _, hentries _ h.managedFields,
    htext _, htext _, hentries _ h.ownerReferences, htext _, htext _, htext _, List.forall_mem_nil _⟩
  intro j hj
  obtain ⟨texts, -, rfl⟩ := Option.map_eq_some_iff.mp hj
  exact Json.tidy_ofStrings texts

end Metadata

/-! ## Mirrors -/

namespace Mirror.ConfigMirror

theorem tidy_toJson {m : ConfigMirror} (h : m.metadata.IsTidy) : m.toJson.Tidy := by
  refine Json.tidy_ofPresent ?_
  simp only [List.forall_mem_cons, Option.some.injEq, forall_eq']
  refine ⟨trivial, trivial, h.toJson, ?_, ?_, List.forall_mem_nil _⟩
  · refine ⟨Json.ordered_orderFields _, Json.TidyFields.orderFields ?_⟩
    exact ⟨trivial, Json.tidy_ofStrings _, trivial, trivial⟩
  · intro j hj
    obtain ⟨s, -, rfl⟩ := Option.map_eq_some_iff.mp hj
    exact s.tidy_toJson

/-- A mirror that was read is written as a tree in order. -/
theorem isTidy_of_read {m : ConfigMirror} {depth : Nat} {doc : Json.Document}
    (h : reader depth doc = .ok m) : Entity.IsTidy m := by
  intro tree htree
  obtain rfl := Except.ok.inj htree
  exact tidy_toJson (owns_metadata.keeps rfl Metadata.isTidy_of_read Metadata.isTidy_default h)

end Mirror.ConfigMirror

end Reconciler
