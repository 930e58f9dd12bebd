import Reconciler.Proofs.Json.Reading

/-!
# What is read of a text and what the text means

A text that is read as a value can be read as a tree as well (`Reader.tree`), and the two have to
agree. What a reader makes of a document is compared with the tree that the document means: a reader
*retains* the tree if what it read is written as that tree again (`Reader.Retains`), but for what it
is known to change. Maps retain what their values do, and so does every part of a record
(`Record.Owns.retains`). Names may be given twice: the last one counts, for the tree and for those who
read it.
-/

namespace Reconciler.Json

theorem bind_eq_ok {ε α β : Type} {x : Except ε α} {f : α → Except ε β} {b : β} :
    x.bind f = .ok b ↔ ∃ a, x = .ok a ∧ f a = .ok b := by
  cases x <;> simp [Except.bind]

/-! ## Fields under a change -/

/-- The object with every field changed; other values stay as they are. -/
def mapFields (change : Json → Json) : Json → Json
  | .obj fields => .obj (fields.map fun (name, value) => (name, change value))
  | j => j

theorem mapFields_id (j : Json) : mapFields id j = j := by
  cases j with
  | obj fields => exact congrArg Json.obj (List.map_id fields)
  | _ => rfl

theorem find?_map (change : Json → Json) (key : String) (fields : List (String × Json)) :
    find? key (fields.map fun (name, value) => (name, change value)) =
      (find? key fields).map change := by
  induction fields with
  | nil => rfl
  | cons field rest ih =>
    rw [List.map_cons, find?_cons, find?_cons, ih]
    split <;> rfl

theorem insertField_eq_insertPair (key : String) (value : Json) (fields : List (String × Json)) :
    insertField key value fields = Reader.insertPair (key, value) fields := by
  induction fields with
  | nil => rfl
  | cons field rest ih => simp only [insertField, Reader.insertPair, ih]

/-- Pairs are put in their places as the fields that they are written as. -/
theorem map_insertPair {α : Type} (write : α → Json) (name : String) (a : α)
    (values : List (String × α)) :
    (Reader.insertPair (name, a) values).map (fun (key, value) => (key, write value)) =
      insertField name (write a) (values.map fun (key, value) => (key, write value)) := by
  induction values with
  | nil => rfl
  | cons pair rest ih =>
    obtain ⟨key, b⟩ := pair
    simp only [Reader.insertPair, insertField, List.map_cons]
    by_cases hbefore : name < key
    · rw [if_pos hbefore, if_pos hbefore]
      rfl
    · rw [if_neg hbefore, if_neg hbefore]
      by_cases heq : name = key
      · rw [if_pos heq, if_pos heq]
        rfl
      · rw [if_neg heq, if_neg heq, List.map_cons, ih]

theorem canonicalFields_eq (fields : List (String × Json)) :
    canonicalFields fields = fields.map fun (name, value) => (name, value.canonical) := by
  induction fields with
  | nil => rfl
  | cons field rest ih => exact congrArg _ ih

theorem map_orderFields (change : Json → Json) (fields : List (String × Json)) :
    (orderFields fields).map (fun (name, value) => (name, change value)) =
      orderFields (fields.map fun (name, value) => (name, change value)) := by
  induction fields using List.reverseRecOn with
  | nil => rfl
  | append_singleton fields field ih =>
    rw [List.map_append, orderFields, orderFields, List.foldl_append, List.foldl_append]
    have hlast := map_insertPair change field.1 field.2 (orderFields fields)
    rw [← insertField_eq_insertPair] at hlast
    exact hlast.trans (congrArg _ ih)

/-- The tree meant by an object, changed, is that of the changed fields. -/
theorem mapFields_canonical_obj (change : Json → Json) (fields : List (String × Json)) :
    mapFields change (canonical (.obj fields)) =
      .obj (orderFields (fields.map fun (name, v) => (name, change v.canonical))) := by
  rw [canonical, canonicalFields_eq, mapFields, map_orderFields, List.map_map]
  rfl

/-- The tree meant by an object has at a name what was given last. -/
theorem field_canonical (fields : List (String × Json)) (key : String) :
    (canonical (.obj fields)).field key =
      ((find? key fields.reverse).map canonical).getD .null := by
  rw [canonical, field, find?_orderFields, canonicalFields_eq, ← List.map_reverse, find?_map]

/-! ## Readers -/

namespace Reader

variable {α : Type} {r : Reader α} {write : α → Json} {meant : Json → Json} {depth : Nat}
  {doc : Document} {a : α} {v : Json}

/-- What is read of a document is written as the tree that the document means, but for a change. -/
structure Retains (r : Reader α) (write : α → Json) (meant : Json → Json) : Prop where
  written : ∀ {depth : Nat} {doc : Document} {a : α} {v : Json}, r depth doc = .ok a →
    doc.whole depth = .ok v → write a = meant v.canonical

/-- A value without parts is the tree itself. -/
theorem eq_of_scalar {j : Json} (h : scalar depth doc = .ok j) (hwhole : doc.whole depth = .ok v) :
    v = j := by
  have hsame : doc.whole depth = scalar depth doc := by
    cases doc with
    | absent => cases h
    | text leaf => cases depth <;> rfl
    | atom leaf => cases depth <;> rfl
    | array items closing => cases h
    | object fields closing => cases h
  exact Except.ok.inj (hwhole.symm.trans (hsame.trans h))

theorem retains_str (h : ∀ text, meant (.str text) = .str text) : str.Retains .str meant := by
  constructor
  intro depth doc text v hread hwhole
  obtain ⟨j, hj, htext⟩ := refine_eq_ok hread
  obtain rfl := eq_of_scalar hj hwhole
  cases v <;> cases htext
  exact (h text).symm

theorem retains_bool : bool.Retains .bool id := by
  constructor
  intro depth doc b v hread hwhole
  obtain ⟨j, hj, hb⟩ := refine_eq_ok hread
  obtain rfl := eq_of_scalar hj hwhole
  cases v <;> cases hb
  rfl

theorem whole_of_isNull (hnull : isNull doc = true) (hwhole : doc.whole depth = .ok v) :
    v = .null := by
  unfold isNull at hnull
  split at hnull
  · cases depth <;> exact (Except.ok.inj hwhole).symm
  · cases hnull

theorem Retains.nullable (h : r.Retains write meant) {write' : Option α → Json}
    (hnone : write' none = meant .null) (hsome : ∀ a, write' (some a) = write a) :
    r.nullable.Retains write' meant := by
  constructor
  intro depth doc o v hread hwhole
  unfold Reader.nullable at hread
  split at hread
  · next hisNull =>
    obtain rfl := whole_of_isNull hisNull hwhole
    obtain rfl := Except.ok.inj hread
    exact hnone
  · cases hr : r depth doc with
    | error fault =>
      rw [hr] at hread
      cases hread
    | ok a =>
      rw [hr] at hread
      obtain rfl := Except.ok.inj hread
      exact (hsome a).trans (h.written hr hwhole)

theorem Retains.map {β : Type} {f : α → β} {write' : β → Json}
    (h : r.Retains (fun a => write' (f a)) meant) : (r.map f).Retains write' meant := by
  constructor
  intro depth doc b v hread hwhole
  unfold Reader.map at hread
  cases hr : r depth doc with
  | error fault =>
    rw [hr] at hread
    cases hread
  | ok a =>
    rw [hr] at hread
    obtain rfl := Except.ok.inj hread
    exact h.written hr hwhole

/-- What is read of a text is written as the tree that the text means. -/
theorem Retains.run? (h : r.Retains write meant) {text : String} {j : Json}
    (hread : r.run? text = some a) (htree : tree.run? text = some j) : write a = meant j := by
  obtain ⟨v, hv, rfl⟩ : ∃ v, (Document.ofText text).1.whole depthLimit = .ok v ∧ v.canonical = j := by
    have hdoc := read_of_run? htree
    unfold tree Reader.map at hdoc
    cases hv : raw depthLimit (Document.ofText text).1 with
    | error fault =>
      rw [hv] at hdoc
      cases hdoc
    | ok v =>
      rw [hv] at hdoc
      exact ⟨v, hv, Except.ok.inj hdoc⟩
  exact h.written (read_of_run? hread) hv

/-! ### Maps -/

theorem wholeFields_cons {key : Leaf String} {fields : List (Leaf String × Document)}
    {values : List (String × Json)}
    (h : Document.wholeFields depth ((key, doc) :: fields) = .ok values) :
    ∃ name value rest, key.value = .ok name ∧ doc.whole depth = .ok value ∧
      Document.wholeFields depth fields = .ok rest ∧ values = (name, value) :: rest := by
  obtain ⟨name, hname, h⟩ := bind_eq_ok.mp h
  obtain ⟨value, hvalue, h⟩ := bind_eq_ok.mp h
  obtain ⟨rest, hrest, h⟩ := bind_eq_ok.mp h
  exact ⟨name, value, rest, hname, hvalue, hrest, (Except.ok.inj h).symm⟩

theorem whole_object {fields : List (Leaf String × Document)} {closing : Except ParseFault Unit}
    (h : (Document.object fields closing).whole (depth + 1) = .ok v) :
    ∃ raws, Document.wholeFields depth fields = .ok raws ∧ v = .obj raws := by
  obtain ⟨raws, hraws, h⟩ := bind_eq_ok.mp h
  obtain ⟨_, -, h⟩ := bind_eq_ok.mp h
  exact ⟨raws, hraws, (Except.ok.inj h).symm⟩

theorem Retains.pairs (h : r.Retains write meant) {fields : List (Leaf String × Document)}
    {acc values : List (String × α)} {raws : List (String × Json)}
    (hread : Reader.pairs r depth acc fields = .ok values)
    (hwhole : Document.wholeFields depth fields = .ok raws) :
    values.map (fun (name, a) => (name, write a)) =
      (raws.map fun (name, v) => (name, meant v.canonical)).foldl
        (fun acc kv => insertField kv.1 kv.2 acc) (acc.map fun (name, a) => (name, write a)) := by
  induction fields generalizing acc raws with
  | nil =>
    obtain rfl := Except.ok.inj hread
    obtain rfl := Except.ok.inj hwhole
    rfl
  | cons field rest ih =>
    obtain ⟨key, doc⟩ := field
    obtain ⟨name, v, more, hkey, hv, hmore, rfl⟩ := wholeFields_cons hwhole
    obtain ⟨name', hkey', hread⟩ := bind_eq_ok.mp hread
    obtain ⟨a, ha, hread⟩ := bind_eq_ok.mp hread
    obtain rfl := Except.ok.inj (hkey.symm.trans hkey')
    rw [ih hread hmore, map_insertPair, h.written ha hv]
    rfl

/-- A map is retained if its values are. -/
theorem Retains.dict (h : r.Retains write meant) :
    r.dict.Retains (Json.ofMap write) (mapFields meant) := by
  constructor
  intro depth doc values v hread hwhole
  rcases doc with _ | leaf | leaf | ⟨items, closing⟩ | ⟨fields, closing⟩
  · cases depth <;> cases hread
  · cases depth <;> exact absurd hread (mismatch_ne_ok (.text leaf) values)
  · cases depth <;> exact absurd hread (mismatch_ne_ok (.atom leaf) values)
  · cases depth <;> cases hread
  · cases depth with
    | zero => cases hread
    | succ depth =>
      obtain ⟨raws, hraws, rfl⟩ := whole_object hwhole
      obtain ⟨pairs, hpairs, hread⟩ := bind_eq_ok.mp hread
      obtain ⟨_, -, hread⟩ := bind_eq_ok.mp hread
      obtain rfl := Except.ok.inj hread
      have hvalues : pairs.map (fun (name, a) => (name, write a)) =
          orderFields (raws.map fun (name, v) => (name, meant v.canonical)) := h.pairs hpairs hraws
      rw [ofMap, ofFields, hvalues, (ordered_orderFields _).orderFields_eq, mapFields_canonical_obj]

end Reader

/-! ## Records -/

namespace Record

variable {σ α : Type} {r : Record σ} {depth : Nat} {s s' start : σ} {seen seen' : List String}
  {name : String} {reads : Reader α} {part : σ → α} {write : α → Json} {meant : Json → Json}

/-- A part becomes what its field reads of the last value that is given to it. -/
theorem Owns.last (h : r.Owns name reads part) (hothers : r.others = none)
    {fields : List (Leaf String × Document)} {raws : List (String × Json)}
    (hfill : r.fill depth seen s fields = .ok (seen', s'))
    (hwhole : Document.wholeFields depth fields = .ok raws) :
    (find? name raws.reverse = none ∧ part s' = part s) ∨
      ∃ doc v, find? name raws.reverse = some v ∧ doc.whole depth = .ok v ∧
        reads depth doc = .ok (part s') := by
  induction fields generalizing seen s raws with
  | nil =>
    obtain ⟨-, rfl⟩ := Prod.mk.inj (Except.ok.inj hfill)
    obtain rfl := Except.ok.inj hwhole
    exact .inl ⟨rfl, rfl⟩
  | cons field rest ih =>
    obtain ⟨key, doc⟩ := field
    obtain ⟨other, v, more, hkey, hv, hmore, rfl⟩ := Reader.wholeFields_cons hwhole
    obtain ⟨other', hkey', hfill⟩ := bind_eq_ok.mp hfill
    obtain ⟨next, hstep, hfill⟩ := bind_eq_ok.mp hfill
    obtain rfl := Except.ok.inj (hkey.symm.trans hkey')
    rw [List.reverse_cons, find?_append]
    rcases ih hfill hmore with ⟨hnone, hkept⟩ | ⟨doc', v', hlast, hv', hread⟩
    · rw [hnone, Option.none_or, find?_cons, find?_nil]
      by_cases hname : other = name
      · subst hname
        refine .inr ⟨doc, v, if_pos rfl, hv, ?_⟩
        rw [hkept]
        rcases step_cases hothers hstep with ⟨field, hmem, hown, hread⟩ | ⟨hunknown, -⟩
        · exact (h.serves field hmem).own hown hread
        · obtain ⟨field, hmem, hown⟩ := h.listed
          exact absurd hown (hunknown field hmem)
      · refine .inl ⟨if_neg hname, hkept.trans ?_⟩
        rcases step_cases hothers hstep with ⟨field, hmem, rfl, hread⟩ | ⟨-, rfl⟩
        · exact (h.serves field hmem).other hname hread
        · rfl
    · exact .inr ⟨doc', v', by rw [hlast, Option.some_or], hv', hread⟩

/-- A part of a record is retained if what its field reads is. -/
theorem Owns.retains (h : r.Owns name reads part) (hothers : r.others = none)
    (hpositional : r.positional = false) (hreads : reads.Retains write meant)
    (hstart : write (part start) = meant .null) :
    (r.reader start).Retains (fun s => write (part s)) fun j => meant (j.field name) := by
  constructor
  intro depth doc s v hread hwhole
  rcases doc with _ | leaf | leaf | ⟨items, closing⟩ | ⟨fields, closing⟩
  · cases depth <;> cases hread
  · cases depth <;> exact absurd hread (Reader.mismatch_ne_ok (.text leaf) s)
  · cases depth <;> exact absurd hread (Reader.mismatch_ne_ok (.atom leaf) s)
  · cases depth with
    | zero => cases hread
    | succ depth =>
      simp only [reader, hpositional] at hread
      cases hread
  · cases depth with
    | zero => cases hread
    | succ depth =>
      obtain ⟨raws, hraws, rfl⟩ := Reader.whole_object hwhole
      obtain ⟨⟨seen, last⟩, hfill, hread⟩ := bind_eq_ok.mp hread
      obtain ⟨_, -, hread⟩ := bind_eq_ok.mp hread
      split at hread
      · obtain rfl := Except.ok.inj hread
        simp only [field_canonical]
        rcases h.last hothers hfill hraws with ⟨hnone, hkept⟩ | ⟨doc, v, hlast, hv, hdoc⟩
        · rw [hnone, hkept, hstart]
          rfl
        · rw [hlast]
          exact hreads.written hdoc hv
      · cases hread

end Record

end Reconciler.Json
