import Reconciler.Json.Record
import Reconciler.Proofs.Json.Fields

/-!
# Reading the objects of trees

A record is filled in the order of the text. Where no name is given twice, that order does not
matter: what each part of the record becomes is decided by the field that alone reads it
(`Record.Owns`), and reading succeeds if every part can be read. A field that is left out leaves its
part what it was by default (`Reader.given`).
-/

namespace Reconciler.Json

namespace Document

mutual

/-- Every tree can be passed over. -/
theorem passOver_ofJson : ∀ j : Json, (ofJson j).passOver = .ok ()
  | .null => rfl
  | .bool _ => rfl
  | .int _ => rfl
  | .float _ => rfl
  | .str _ => rfl
  | .arr items => by
    rw [ofJson, passOver, passItems_ofItems items]
    rfl
  | .obj fields => by
    rw [ofJson, passOver, passFields_ofFields fields]
    rfl

theorem passItems_ofItems : ∀ items : List Json, passItems (ofItems items) = .ok ()
  | [] => rfl
  | item :: rest => by
    rw [ofItems, passItems, passOver_ofJson item, passItems_ofItems rest]
    rfl

theorem passFields_ofFields : ∀ fields : List (String × Json), passFields (ofFields fields) = .ok ()
  | [] => rfl
  | (name, value) :: rest => by
    rw [ofFields, passFields, passOver_ofJson value, passFields_ofFields rest]
    rfl

end

end Document

theorem intWithin?_eq_some {low high n : Int} {j : Json} :
    j.intWithin? low high = some n ↔ j = .int n ∧ low ≤ n ∧ n ≤ high := by
  cases j with
  | int m =>
    by_cases hbounds : low ≤ m ∧ m ≤ high
    · simp only [intWithin?, if_pos hbounds, Option.some.injEq, Json.int.injEq]
      exact ⟨by rintro rfl; exact ⟨rfl, hbounds⟩, fun h => h.1⟩
    · simp only [intWithin?, if_neg hbounds, Json.int.injEq, reduceCtorEq, false_iff]
      rintro ⟨rfl, h⟩
      exact hbounds h
  | _ => simp [intWithin?]

namespace Reader

variable {α β : Type}

/-- What is read from a field that may be left out. -/
def given (r : Reader α) (default : α) (depth : Nat) : Option Json → Except ParseFault α
  | none => .ok default
  | some value => r depth (.ofJson value)

theorem isNull_ofJson (j : Json) : isNull (.ofJson j) = true ↔ j = .null := by
  cases j <;> simp [Document.ofJson, isNull, Leaf.sound]

theorem nullable_ofJson (r : Reader α) (depth : Nat) {j : Json} (h : j ≠ .null) :
    r.nullable depth (.ofJson j) = (r depth (.ofJson j)).map some := by
  rw [nullable, if_neg (by rwa [isNull_ofJson])]

theorem str_ofJson (text : String) (depth : Nat) : str depth (.ofJson (.str text)) = .ok text := rfl

theorem int64_ofJson {n : Int} (h : (Json.int n).int64? = some n) (depth : Nat) :
    int64 depth (.ofJson (.int n)) = .ok n := by
  simp only [int64, refine, scalar, Document.ofJson, Leaf.sound, h]

theorem refine_eq_ok {f : α → Option β} {r : Reader α} {b : β} {depth : Nat} {doc : Document}
    (h : r.refine f depth doc = .ok b) : ∃ a, r depth doc = .ok a ∧ f a = some b := by
  unfold refine at h
  split at h
  · cases h
  · next a ha =>
    split at h
    · next b' hb =>
      obtain rfl := Except.ok.inj h
      exact ⟨a, ha, hb⟩
    · cases h

/-- A number that was read is one of 64 bits. -/
theorem int64_fits {n : Int} {depth : Nat} {doc : Document} (h : int64 depth doc = .ok n) :
    (Json.int n).int64? = some n := by
  obtain ⟨j, -, hj⟩ := refine_eq_ok h
  obtain ⟨rfl, -⟩ := intWithin?_eq_some.mp hj
  exact hj

theorem nat64_ofJson {n : Nat} (h : n < 2 ^ 64) (depth : Nat) :
    nat64 depth (.ofJson (.int n)) = .ok n := by
  have hword : (Json.int n).nat64? = some n := by
    rw [nat64?, intWithin?_eq_some.mpr ⟨rfl, by omega, by omega⟩]
    rfl
  simp only [nat64, refine, scalar, Document.ofJson, Leaf.sound, hword]

/-- A natural number that was read is one of 64 bits. -/
theorem nat64_fits {n : Nat} {depth : Nat} {doc : Document} (h : nat64 depth doc = .ok n) :
    n < 2 ^ 64 := by
  obtain ⟨j, -, hj⟩ := refine_eq_ok h
  obtain ⟨k, hk, rfl⟩ := Option.map_eq_some_iff.mp hj
  obtain ⟨-, hlow, hhigh⟩ := intWithin?_eq_some.mp hk
  omega

theorem strings_ofJson (texts : List String) (depth : Nat) :
    str.list (depth + 1) (.ofJson (.ofStrings texts)) = .ok texts := by
  have hitems : (Document.ofItems (texts.map .str)).mapM (str depth) = .ok texts := by
    induction texts with
    | nil => rfl
    | cons text rest ih =>
      rw [List.map_cons, Document.ofItems, List.mapM_cons, ih]
      rfl
  have heq : str.list (depth + 1) (.ofJson (.ofStrings texts)) =
      ((Document.ofItems (texts.map .str)).mapM (str depth)).bind fun values => .ok values := rfl
  rw [heq, hitems]
  rfl

/-- What is read from a text is read from its document. -/
theorem read_of_run? {r : Reader α} {text : String} {a : α} (h : r.run? text = some a) :
    r depthLimit (Document.ofText text).1 = .ok a := by
  rcases hdoc : Document.ofText text with ⟨doc, rest⟩
  simp only [run?, run, hdoc] at h
  cases hread : r depthLimit doc with
  | error fault =>
    rw [hread] at h
    cases h
  | ok b =>
    simp only [hread, bind, Except.bind] at h
    split at h
    · exact congrArg Except.ok (Option.some.inj h)
    · cases h

/-- A value of another type is never what was asked for. -/
theorem mismatch_ne_ok (doc : Document) (a : α) : mismatch doc ≠ .ok a := by
  intro h
  rcases doc with _ | ⟨⟨_ | _, _⟩⟩ | ⟨⟨_ | _, _⟩⟩ | _ | _ <;> cases h

end Reader

namespace Field

variable {σ α : Type} {name : String} {presence : Presence} {reads : Reader α} {part : σ → α}

theorem read_ofSetter {set : σ → α → σ} {s s' : σ} {depth : Nat} {doc : Document} :
    (ofSetter name presence reads set).read s depth doc = .ok s' ↔
      ∃ a, reads depth doc = .ok a ∧ set s a = s' := by
  simp only [ofSetter, Reader.map]
  cases reads depth doc <;> simp [Except.map]

/-- What is changed after reading may be changed in the setter. -/
theorem ofSetter_map {β : Type} {f : β → α} {reads : Reader β} {set : σ → α → σ} :
    ofSetter name presence (reads.map f) set =
      ofSetter name presence reads fun s b => set s (f b) := by
  unfold ofSetter
  congr 1
  funext s depth doc
  simp only [Reader.map]
  cases reads depth doc <;> rfl

/-- A field whose value can be read can be read into any record. -/
theorem read_given {default a : α} {depth : Nat} {fields : List (String × Json)}
    {set : σ → α → σ} (h : reads.given default depth (find? name fields) = .ok a) :
    ∀ value, find? (ofSetter name presence reads set).name fields = some value →
      ∀ s, ∃ s', (ofSetter name presence reads set).read s depth (.ofJson value) = .ok s' := by
  intro value hfind s
  rw [show find? name fields = some value from hfind] at h
  exact ⟨set s a, read_ofSetter.mpr ⟨a, h, rfl⟩⟩

/-- What a field does for a part of a record: the field of the part's name sets it to what it reads,
the others leave it alone. -/
inductive Serves (name : String) (reads : Reader α) (part : σ → α) : Field σ → Prop where
  | sets {presence : Presence} {set : σ → α → σ} (h : ∀ s a, part (set s a) = a) :
    Serves name reads part (ofSetter name presence reads set)
  | spares {other : String} {presence : Presence} {β : Type} {reads' : Reader β} {set : σ → β → σ}
      (hname : other ≠ name) (h : ∀ s b, part (set s b) = part s) :
    Serves name reads part (ofSetter other presence reads' set)

variable {field : Field σ} {s s' : σ} {depth : Nat} {doc : Document}

theorem Serves.own (h : field.Serves name reads part) (hname : field.name = name)
    (hread : field.read s depth doc = .ok s') : reads depth doc = .ok (part s') := by
  cases h with
  | sets hset =>
    obtain ⟨a, ha, rfl⟩ := read_ofSetter.mp hread
    rw [ha, hset]
  | spares hother => exact absurd hname hother

theorem Serves.other (h : field.Serves name reads part) (hname : field.name ≠ name)
    (hread : field.read s depth doc = .ok s') : part s' = part s := by
  cases h with
  | sets => exact absurd rfl hname
  | spares _ hset =>
    obtain ⟨b, -, rfl⟩ := read_ofSetter.mp hread
    exact hset s b

end Field

namespace Record

variable {σ α : Type} {r : Record σ} {depth : Nat} {s s' : σ} {seen seen' : List String}
  {fields : List (String × Json)}

theorem fill_cons (r : Record σ) (depth : Nat) (seen : List String) (s : σ) (name : String)
    (value : Json) (rest : List (String × Json)) :
    r.fill depth seen s (Document.ofFields ((name, value) :: rest)) =
      (r.step depth seen s name (.ofJson value)).bind fun s =>
        r.fill depth (name :: seen) s (Document.ofFields rest) := rfl

/-- A field of a name that nobody reads is passed over. -/
theorem step_unknown (hothers : r.others = none) {name : String}
    (h : ∀ field ∈ r.fields, field.name ≠ name) (value : Json) :
    r.step depth seen s name (.ofJson value) = .ok s := by
  have hfind : r.fields.find? (·.name == name) = none :=
    List.find?_eq_none.mpr fun field hmem => by simpa using h field hmem
  rw [step, hfind, hothers]
  simp only [Document.passOver_ofJson]
  rfl

/-- What a step that succeeds does: it reads a field, or passes over one that it does not know. -/
theorem step_cases (hothers : r.others = none) {name : String} {value : Document}
    (h : r.step depth seen s name value = .ok s') :
    (∃ field ∈ r.fields, field.name = name ∧ field.read s depth value = .ok s') ∨
      (∀ field ∈ r.fields, field.name ≠ name) ∧ s' = s := by
  cases hfind : r.fields.find? (·.name == name) with
  | none =>
    have hunknown : ∀ field ∈ r.fields, field.name ≠ name := fun field hmem => by
      simpa using List.find?_eq_none.mp hfind field hmem
    simp only [step, hfind, hothers] at h
    cases hpass : value.passOver with
    | error fault => rw [hpass] at h; cases h
    | ok _ =>
      rw [hpass] at h
      exact .inr ⟨hunknown, (Except.ok.inj h).symm⟩
  | some field =>
    refine .inl ⟨field, List.mem_of_find?_eq_some hfind, by simpa using List.find?_some hfind, ?_⟩
    simp only [step, hfind] at h
    split at h
    · cases h
    · exact h

/-! ## The parts of a record -/

/-- A part of a record that the field of a name reads, and no other field touches. -/
structure Owns (r : Record σ) (name : String) (reads : Reader α) (part : σ → α) : Prop where
  listed : ∃ field ∈ r.fields, field.name = name
  serves : ∀ field ∈ r.fields, field.Serves name reads part

/-- A part becomes what its field says. -/
theorem Owns.fill {name : String} {reads : Reader α} {part : σ → α} (h : r.Owns name reads part)
    (hothers : r.others = none) (hdistinct : (fields.map Prod.fst).Nodup)
    (hfill : r.fill depth seen s (Document.ofFields fields) = .ok (seen', s')) :
    reads.given (part s) depth (find? name fields) = .ok (part s') := by
  induction fields generalizing seen s with
  | nil =>
    obtain ⟨-, rfl⟩ := Prod.mk.inj (Except.ok.inj hfill)
    rfl
  | cons field rest ih =>
    obtain ⟨key, value⟩ := field
    rw [fill_cons] at hfill
    cases hstep : r.step depth seen s key (.ofJson value) with
    | error fault => rw [hstep] at hfill; cases hfill
    | ok next =>
      rw [hstep] at hfill
      have hrest := ih (List.nodup_cons.mp hdistinct).2 hfill
      rw [find?_cons]
      by_cases hkey : key = name
      · subst hkey
        rw [find?_tail_eq_none hdistinct] at hrest
        rw [if_pos rfl, ← Except.ok.inj hrest]
        rcases step_cases hothers hstep with ⟨field, hmem, hname, hread⟩ | ⟨hunknown, -⟩
        · exact (h.serves field hmem).own hname hread
        · obtain ⟨field, hmem, hname⟩ := h.listed
          exact absurd hname (hunknown field hmem)
      · rw [if_neg hkey]
        have hkept : part next = part s := by
          rcases step_cases hothers hstep with ⟨field, hmem, rfl, hread⟩ | ⟨-, rfl⟩
          · exact (h.serves field hmem).other hkey hread
          · rfl
        rwa [hkept] at hrest

/-- Reading goes through if every field that is there can be read. -/
theorem fill_ok (hothers : r.others = none) (hdistinct : (fields.map Prod.fst).Nodup)
    (hread : ∀ field ∈ r.fields, ∀ value, find? field.name fields = some value →
      ∀ s, ∃ s', field.read s depth (.ofJson value) = .ok s')
    (seen : List String) (hseen : ∀ name ∈ seen, find? name fields = none) (s : σ) :
    ∃ s', r.fill depth seen s (Document.ofFields fields) =
      .ok ((fields.map Prod.fst).reverse ++ seen, s') := by
  induction fields generalizing seen s with
  | nil => exact ⟨s, rfl⟩
  | cons field rest ih =>
    obtain ⟨key, value⟩ := field
    have hnew : key ∉ seen := fun hmem => by simpa [find?_cons] using hseen key hmem
    have hstep : ∃ next, r.step depth seen s key (.ofJson value) = .ok next := by
      cases hfind : r.fields.find? (·.name == key) with
      | none =>
        exact ⟨s, step_unknown hothers
          (fun field hmem => by simpa using List.find?_eq_none.mp hfind field hmem) value⟩
      | some field =>
        have hname : field.name = key := by simpa using List.find?_some hfind
        obtain ⟨next, hnext⟩ := hread field (List.mem_of_find?_eq_some hfind) value
          (by rw [hname, find?_cons, if_pos rfl]) s
        refine ⟨next, ?_⟩
        simp only [step, hfind]
        rwa [if_neg (by simp [hnew])]
    obtain ⟨next, hnext⟩ := hstep
    obtain ⟨s', hs'⟩ := ih (List.nodup_cons.mp hdistinct).2
      (fun field hmem v hfind => hread field hmem v (by
        rw [find?_cons, if_neg, hfind]
        rintro rfl
        rw [find?_tail_eq_none hdistinct] at hfind
        cases hfind))
      (key :: seen) (fun name hmem => by
        rcases List.mem_cons.mp hmem with rfl | hmem
        · exact find?_tail_eq_none hdistinct
        · have hnone := hseen name hmem
          rw [find?_cons] at hnone
          split at hnone
          · cases hnone
          · exact hnone) next
    refine ⟨s', ?_⟩
    rw [fill_cons, hnext]
    simpa [Except.bind] using hs'

theorem fill_seen (h : r.fill depth seen s (Document.ofFields fields) = .ok (seen', s')) :
    seen' = (fields.map Prod.fst).reverse ++ seen := by
  induction fields generalizing seen s with
  | nil => exact (Prod.mk.inj (Except.ok.inj h)).1.symm
  | cons field rest ih =>
    rw [fill_cons] at h
    cases hstep : r.step depth seen s field.1 (.ofJson field.2) with
    | error fault => rw [hstep] at h; cases h
    | ok next =>
      rw [hstep] at h
      simpa using ih h

/-- No field that must be there is missing. -/
def Covered (r : Record σ) (fields : List (String × Json)) : Prop :=
  ∀ field ∈ r.fields, field.presence = .required → ∃ value, find? field.name fields = some value

theorem isComplete_iff :
    r.isComplete ((fields.map Prod.fst).reverse ++ []) = true ↔ r.Covered fields := by
  have hnames : ∀ name, name ∈ fields.map Prod.fst ↔ ∃ value, find? name fields = some value := by
    intro name
    constructor
    · intro hmem
      cases hfind : find? name fields with
      | some value => exact ⟨value, rfl⟩
      | none =>
        obtain ⟨field, hfield, rfl⟩ := List.mem_map.mp hmem
        exact absurd hfind (find?_ne_none hfield)
    · rintro ⟨value, hfind⟩
      exact List.mem_map.mpr ⟨_, mem_of_find? hfind, rfl⟩
  rw [List.append_nil, isComplete, List.all_eq_true]
  refine forall_congr' fun field => forall_congr' fun _ => ?_
  rw [Bool.or_eq_true, bne_iff_ne, List.contains_iff_mem, List.mem_reverse, hnames, ne_eq,
    Decidable.imp_iff_not_or]

/-- Reading an object is filling the record from fields among which none is missing that must be
there. -/
theorem reader_obj (start : σ) :
    r.reader start (depth + 1) (.ofJson (.obj fields)) = .ok s ↔
      (∃ seen, r.fill depth [] start (Document.ofFields fields) = .ok (seen, s)) ∧
        r.Covered fields := by
  have heq : r.reader start (depth + 1) (.ofJson (.obj fields)) =
      (r.fill depth [] start (Document.ofFields fields)).bind fun p =>
        if r.isComplete p.1 then .ok p.2 else .error .malformed := rfl
  rw [heq]
  cases hfill : r.fill depth [] start (Document.ofFields fields) with
  | error fault => simp [Except.bind]
  | ok p =>
    obtain ⟨seen, last⟩ := p
    rw [← isComplete_iff, ← fill_seen hfill]
    simp only [Except.bind, Except.ok.injEq, Prod.mk.injEq, exists_and_right, exists_eq', true_and]
    by_cases hcomplete : r.isComplete seen = true <;> simp [hcomplete]

/-- Where the fields of an object decide what a record has to be, they decide what is read: it is
read if they let every field be read and none is missing. -/
theorem reader_obj_iff {R : σ → Prop} {start : σ} (hothers : r.others = none)
    (hdistinct : (fields.map Prod.fst).Nodup)
    (hparts : ∀ {seen : List String} {s : σ},
      r.fill depth [] start (Document.ofFields fields) = .ok (seen, s) → r.Covered fields → R s)
    (hunique : ∀ {s s' : σ}, R s → R s' → s = s') (hcovered : R s → r.Covered fields)
    (hread : R s → ∀ field ∈ r.fields, ∀ value, find? field.name fields = some value →
      ∀ s, ∃ s', field.read s depth (.ofJson value) = .ok s') :
    r.reader start (depth + 1) (.ofJson (.obj fields)) = .ok s ↔ R s := by
  rw [reader_obj]
  constructor
  · rintro ⟨⟨seen, hfill⟩, hcovered⟩
    exact hparts hfill hcovered
  · intro h
    obtain ⟨s', hfill⟩ :=
      fill_ok hothers hdistinct (hread h) [] (List.forall_mem_nil _) start
    obtain rfl := hunique h (hparts hfill (hcovered h))
    exact ⟨⟨_, hfill⟩, hcovered h⟩

/-! ## What every reading keeps -/

variable {P : σ → Prop} {start : σ} {doc : Document}

theorem fill_keeps (hothers : r.others = none)
    (h : ∀ field ∈ r.fields, ∀ {s s' : σ} {depth : Nat} {doc : Document}, P s →
      field.read s depth doc = .ok s' → P s') (hs : P s) {fields : List (Leaf String × Document)}
    (hfill : r.fill depth seen s fields = .ok (seen', s')) : P s' := by
  induction fields generalizing seen s with
  | nil =>
    obtain ⟨-, rfl⟩ := Prod.mk.inj (Except.ok.inj hfill)
    exact hs
  | cons field rest ih =>
    obtain ⟨⟨_ | name, passed⟩, value⟩ := field
    · cases hfill
    have heq : r.fill depth seen s ((⟨.ok name, passed⟩, value) :: rest) =
        (r.step depth seen s name value).bind fun s => r.fill depth (name :: seen) s rest := rfl
    rw [heq] at hfill
    cases hstep : r.step depth seen s name value with
    | error fault => rw [hstep] at hfill; cases hfill
    | ok next =>
      rw [hstep] at hfill
      refine ih ?_ hfill
      cases hfind : r.fields.find? (·.name == name) with
      | some field =>
        simp only [step, hfind] at hstep
        split at hstep
        · cases hstep
        · exact h field (List.mem_of_find?_eq_some hfind) hs hstep
      | none =>
        simp only [step, hfind, hothers] at hstep
        cases hpass : value.passOver with
        | error fault => rw [hpass] at hstep; cases hstep
        | ok _ =>
          rw [hpass] at hstep
          exact Except.ok.inj hstep ▸ hs

theorem fillInOrder_keeps {closing : Except ParseFault Unit} {fields : List (Field σ)}
    (h : ∀ field ∈ fields, ∀ {s s' : σ} {depth : Nat} {doc : Document}, P s →
      field.read s depth doc = .ok s' → P s') (hs : P s) {items : List Document}
    (hfill : fillInOrder depth closing s fields items = .ok s') : P s' := by
  induction fields generalizing s items with
  | nil =>
    cases items with
    | cons item rest => cases hfill
    | nil =>
      cases closing with
      | error fault => cases hfill
      | ok _ => exact Except.ok.inj hfill ▸ hs
  | cons field rest ih =>
    cases items with
    | nil =>
      cases closing with
      | error fault => cases hfill
      | ok _ =>
        have heq : fillInOrder depth (.ok ()) s (field :: rest) [] =
            if (field :: rest).all (·.presence == .optional) then .ok s else .error .malformed := rfl
        rw [heq] at hfill
        split at hfill
        · exact Except.ok.inj hfill ▸ hs
        · cases hfill
    | cons item items =>
      have heq : fillInOrder depth closing s (field :: rest) (item :: items) =
          (field.read s depth item).bind fun s => fillInOrder depth closing s rest items := rfl
      rw [heq] at hfill
      cases hread : field.read s depth item with
      | error fault => rw [hread] at hfill; cases hfill
      | ok next =>
        rw [hread] at hfill
        exact ih (fun field hmem => h field (List.mem_cons_of_mem _ hmem))
          (h field List.mem_cons_self hs hread) hfill

/-- What the defaults have and every field keeps, all that is read has. -/
theorem reader_keeps (hothers : r.others = none)
    (h : ∀ field ∈ r.fields, ∀ {s s' : σ} {depth : Nat} {doc : Document}, P s →
      field.read s depth doc = .ok s' → P s') (hstart : P start)
    (hread : r.reader start depth doc = .ok s) : P s := by
  rcases doc with _ | leaf | leaf | ⟨items, closing⟩ | ⟨fields, closing⟩
  · cases depth <;> exact absurd hread (Reader.mismatch_ne_ok .absent s)
  · cases depth <;> exact absurd hread (Reader.mismatch_ne_ok (.text leaf) s)
  · cases depth <;> exact absurd hread (Reader.mismatch_ne_ok (.atom leaf) s)
  · cases depth with
    | zero => cases hread
    | succ depth =>
      simp only [reader] at hread
      split at hread
      · exact fillInOrder_keeps h hstart hread
      · cases hread
  · cases depth with
    | zero => cases hread
    | succ depth =>
      have heq : r.reader start (depth + 1) (.object fields closing) =
          (r.fill depth [] start fields).bind fun p =>
            closing.bind fun _ =>
              if r.isComplete p.1 then .ok p.2 else .error .malformed := rfl
      rw [heq] at hread
      cases hfill : r.fill depth [] start fields with
      | error fault => rw [hfill] at hread; cases hread
      | ok p =>
        rw [hfill] at hread
        cases closing with
        | error fault => cases hread
        | ok _ =>
          simp only [Except.bind] at hread
          split at hread
          · exact Except.ok.inj hread ▸ fill_keeps hothers h hstart hfill
          · cases hread

/-- A part is what its field reads, or the default. -/
theorem Owns.keeps {name : String} {reads : Reader α} {part : σ → α} {Q : α → Prop}
    (h : r.Owns name reads part) (hothers : r.others = none)
    (hreads : ∀ {depth : Nat} {doc : Document} {a : α}, reads depth doc = .ok a → Q a)
    (hstart : Q (part start)) (hread : r.reader start depth doc = .ok s) : Q (part s) := by
  refine reader_keeps (P := fun s => Q (part s)) hothers ?_ hstart hread
  intro field hmem s s' depth doc hs hfield
  by_cases hname : field.name = name
  · exact hreads ((h.serves field hmem).own hname hfield)
  · rwa [(h.serves field hmem).other hname hfield]

end Record

end Reconciler.Json
