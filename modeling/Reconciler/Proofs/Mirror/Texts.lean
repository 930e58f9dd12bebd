import Reconciler.Proofs.Json.Printing
import Reconciler.Proofs.Mirror.Statuses

/-!
# Specs and statuses as text

A spec or a status is written as an object of its fields, without a list of copies that is empty and
without a generation or message that is missing. Reading restores what was left out, so the text is
read as what was written, in whatever order its fields stand (`Spec.run?_render`,
`Status.run?_render`). What was read from any text at all has numbers of 64 bits, so it can be
written and read again (`texts_round_trip`).
-/

namespace Reconciler.Mirror

open Json (Reader find?)
open Json.Record (Owns)

variable {fields : List (String × Json)} {depth : Nat}

/-! ## Specs -/

namespace Spec

theorem owns_source : Owns shape "source" Reader.str Spec.source where
  listed := ⟨_, List.mem_cons_self, rfl⟩
  serves := by
    simp only [shape, Json.Record.strict, List.forall_mem_cons]
    exact ⟨.sets fun _ _ => rfl, .spares (by decide) fun _ _ => rfl,
      .spares (by decide) fun _ _ => rfl, List.forall_mem_nil _⟩

theorem owns_targetNamespaces :
    Owns shape "targetNamespaces" Reader.str.list Spec.targetNamespaces where
  listed := ⟨_, .tail _ List.mem_cons_self, rfl⟩
  serves := by
    simp only [shape, Json.Record.strict, List.forall_mem_cons]
    exact ⟨.spares (by decide) fun _ _ => rfl, .sets fun _ _ => rfl,
      .spares (by decide) fun _ _ => rfl, List.forall_mem_nil _⟩

theorem owns_resyncSeconds : Owns shape "resyncSeconds" Reader.nat64 Spec.resyncSeconds where
  listed := ⟨_, .tail _ (.tail _ List.mem_cons_self), rfl⟩
  serves := by
    simp only [shape, Json.Record.strict, List.forall_mem_cons]
    exact ⟨.spares (by decide) fun _ _ => rfl, .spares (by decide) fun _ _ => rfl,
      .sets fun _ _ => rfl, List.forall_mem_nil _⟩

/-- The parts of a spec as the fields of an object give them. -/
structure ReadFrom (depth : Nat) (fields : List (String × Json)) (s : Spec) : Prop where
  source : ∃ value, find? "source" fields = some value ∧
    Reader.str depth (.ofJson value) = .ok s.source
  targetNamespaces : Reader.str.list.given [] depth (find? "targetNamespaces" fields) =
    .ok s.targetNamespaces
  resyncSeconds : Reader.nat64.given defaultResyncSeconds depth (find? "resyncSeconds" fields) =
    .ok s.resyncSeconds

theorem ReadFrom.unique {s s' : Spec} (h : ReadFrom depth fields s)
    (h' : ReadFrom depth fields s') : s = s' := by
  obtain ⟨source, hsource, hreadSource⟩ := h.source
  obtain ⟨source', hsource', hreadSource'⟩ := h'.source
  obtain rfl := Option.some.inj (hsource.symm.trans hsource')
  have h₁ := Except.ok.inj (hreadSource.symm.trans hreadSource')
  have h₂ := Except.ok.inj (h.targetNamespaces.symm.trans h'.targetNamespaces)
  have h₃ := Except.ok.inj (h.resyncSeconds.symm.trans h'.resyncSeconds)
  cases s
  cases s'
  simp_all

theorem ReadFrom.congr {fields' : List (String × Json)} {s : Spec} (h : ReadFrom depth fields' s)
    (hsame : ∀ key, find? key fields = find? key fields') : ReadFrom depth fields s :=
  ⟨by simpa only [hsame] using h.source, by simpa only [hsame] using h.targetNamespaces,
    by simpa only [hsame] using h.resyncSeconds⟩

theorem reader_obj (h : (fields.map Prod.fst).Nodup) {s : Spec} :
    reader (depth + 1) (.ofJson (.obj fields)) = .ok s ↔ ReadFrom depth fields s := by
  refine Json.Record.reader_obj_iff rfl h (fun hfill hcovered => ?_) ReadFrom.unique
    (fun hread => ?_) (fun hread => ?_)
  · obtain ⟨source, hsource⟩ := hcovered _ List.mem_cons_self rfl
    have hreadSource := owns_source.fill rfl h hfill
    rw [show find? "source" fields = some source from hsource] at hreadSource
    exact ⟨⟨source, hsource, hreadSource⟩, owns_targetNamespaces.fill rfl h hfill,
      owns_resyncSeconds.fill rfl h hfill⟩
  · obtain ⟨source, hsource, -⟩ := hread.source
    simp only [Json.Record.Covered, shape, Json.Record.strict, List.forall_mem_cons]
    refine ⟨fun _ => ⟨source, hsource⟩, fun h => ?_, fun h => ?_, List.forall_mem_nil _⟩
    · cases h
    · cases h
  · obtain ⟨source, hsource, hreadSource⟩ := hread.source
    have hgivenSource : Reader.str.given "" depth (find? "source" fields) = .ok s.source := by
      rw [hsource]
      exact hreadSource
    simp only [shape, Json.Record.strict, List.forall_mem_cons]
    exact ⟨Json.Field.read_given hgivenSource, Json.Field.read_given hread.targetNamespaces,
      Json.Field.read_given hread.resyncSeconds, List.forall_mem_nil _⟩

variable {s : Spec}

/-- The interval of a spec that was read is a number of 64 bits. -/
theorem fitsWord {doc : Json.Document} (h : reader depth doc = .ok s) : s.resyncSeconds < 2 ^ 64 :=
  owns_resyncSeconds.keeps (Q := (· < 2 ^ 64)) rfl Reader.nat64_fits (by decide) h

theorem names_fields (s : Spec) : (s.fields.map Prod.fst).Nodup := by
  simp [Spec.fields]

theorem readFrom_fields (hfits : s.resyncSeconds < 2 ^ 64) :
    ReadFrom (depth + 1) s.fields s where
  source := ⟨_, rfl, Reader.str_ofJson s.source _⟩
  targetNamespaces := Reader.strings_ofJson s.targetNamespaces depth
  resyncSeconds := Reader.nat64_ofJson hfits _

theorem plain_fields (hfits : s.resyncSeconds < 2 ^ 64) : Json.Parser.PlainFields s.fields :=
  ⟨trivial, Json.Parser.plain_ofStrings s.targetNamespaces, by
    constructor <;> omega, trivial⟩

/-- The text of a spec is read as the spec, in whatever order the fields stand. -/
theorem run?_render (hfits : s.resyncSeconds < 2 ^ 64) (hperm : fields.Perm s.fields) :
    reader.run? (Json.obj fields).render = some s := by
  have hnames : (fields.map Prod.fst).Nodup := (hperm.map _).nodup_iff.mpr s.names_fields
  have hread : reader Json.depthLimit (.ofJson (.obj fields)) = .ok s :=
    (reader_obj hnames).mpr
      ((readFrom_fields hfits).congr fun key => Json.find?_perm s.names_fields hperm key)
  exact Reader.run?_render_obj (Json.Parser.plainFields_perm hperm (plain_fields hfits)) hread

end Spec

/-! ## Statuses -/

namespace Status

variable {s : Status}

/-- The generation of a status that was read is a number of 64 bits. -/
theorem fitsWord {doc : Json.Document} (h : reader depth doc = .ok s) :
    FitsWord s.observedGeneration :=
  owns_observedGeneration.keeps rfl fitsWord_of_read (by exact fitsWord_none) h

theorem names_fields (s : Status) : (s.fields.map Prod.fst).Nodup :=
  (Json.names_present_sublist s.present).nodup s.names_present

theorem find?_fields (s : Status) (key : String) :
    find? key s.fields = (s.present.lookup key).join :=
  Json.find?_present s.names_present key

theorem readFrom_fields (hfits : FitsWord s.observedGeneration) :
    ReadFrom (depth + 1) s.fields s where
  phase := by
    rw [s.find?_fields]
    exact Phase.reader_name s.phase _
  mirrored := by
    rw [s.find?_fields]
    show Reader.str.list.given [] _
      (if s.mirrored.isEmpty then none else some (.ofStrings s.mirrored)) = _
    split
    · next hempty => rw [List.isEmpty_iff.mp hempty]; rfl
    · exact Reader.strings_ofJson s.mirrored depth
  observedGeneration := by
    rw [s.find?_fields]
    show Reader.int64.nullable.given none _ (s.observedGeneration.map .int) = _
    cases hgeneration : s.observedGeneration with
    | none => rfl
    | some n =>
      refine (Reader.nullable_ofJson Reader.int64 _ (j := .int n) nofun).trans ?_
      rw [Reader.int64_ofJson (hfits n hgeneration)]
      rfl
  message := by
    rw [s.find?_fields]
    show Reader.str.nullable.given none _ (s.message.map .str) = _
    cases s.message <;> rfl

theorem plain_fields (hfits : FitsWord s.observedGeneration) :
    Json.Parser.PlainFields s.fields := by
  refine Json.Parser.plainFields_present ?_
  simp only [present, List.forall_mem_cons]
  refine ⟨?_, ?_, ?_, ?_, List.forall_mem_nil _⟩
  · rintro value ⟨⟩
    trivial
  · intro value h
    split at h
    · cases h
    · cases h
      exact Json.Parser.plain_ofStrings s.mirrored
  · intro value h
    obtain ⟨n, hgeneration, rfl⟩ := Option.map_eq_some_iff.mp h
    obtain ⟨-, hlow, hhigh⟩ := Json.intWithin?_eq_some.mp (hfits n hgeneration)
    exact ⟨hlow, by omega⟩
  · intro value h
    obtain ⟨text, -, rfl⟩ := Option.map_eq_some_iff.mp h
    trivial

/-- The text of a status is read as the status, in whatever order the fields stand. -/
theorem run?_render (hfits : FitsWord s.observedGeneration) (hperm : fields.Perm s.fields) :
    reader.run? (Json.obj fields).render = some s := by
  have hnames : (fields.map Prod.fst).Nodup := (hperm.map _).nodup_iff.mpr s.names_fields
  have hread : reader Json.depthLimit (.ofJson (.obj fields)) = .ok s :=
    (reader_obj hnames).mpr
      ((readFrom_fields hfits).congr fun key => Json.find?_perm s.names_fields hperm key)
  exact Reader.run?_render_obj (Json.Parser.plainFields_perm hperm (plain_fields hfits)) hread

end Status

/-! ## Writing and reading -/

/-- Every spec and every status whose numbers are of 64 bits is read again from its text, and from
that of its fields in any other order. And whatever text was read as one, in whatever form, the text
that is written for it is read as the same, and written as the same text again. -/
theorem texts_round_trip :
    (∀ s : Spec, s.resyncSeconds < 2 ^ 64 → Spec.reader.run? s.text = some s ∧
      ∀ fields, fields.Perm s.fields → Spec.reader.run? (Json.obj fields).render = some s) ∧
    (∀ s : Status, FitsWord s.observedGeneration → Status.reader.run? s.text = some s ∧
      ∀ fields, fields.Perm s.fields → Status.reader.run? (Json.obj fields).render = some s) ∧
    (∀ (text : String) (s : Spec), Spec.reader.run? text = some s →
      Spec.reader.run? s.text = some s ∧
        (Spec.reader.run? s.text).map Spec.text = some s.text) ∧
    (∀ (text : String) (s : Status), Status.reader.run? text = some s →
      Status.reader.run? s.text = some s ∧
        (Status.reader.run? s.text).map Status.text = some s.text) := by
  have hspec : ∀ s : Spec, s.resyncSeconds < 2 ^ 64 → Spec.reader.run? s.text = some s :=
    fun s hfits => Spec.run?_render hfits (.refl s.fields)
  have hstatus : ∀ s : Status, FitsWord s.observedGeneration →
      Status.reader.run? s.text = some s :=
    fun s hfits => Status.run?_render hfits (.refl s.fields)
  refine ⟨fun s hfits => ⟨hspec s hfits, fun fields => Spec.run?_render hfits⟩,
    fun s hfits => ⟨hstatus s hfits, fun fields => Status.run?_render hfits⟩,
    fun text s hread => ?_, fun text s hread => ?_⟩
  · have hagain := hspec s (Spec.fitsWord (Reader.read_of_run? hread))
    exact ⟨hagain, by rw [hagain]; rfl⟩
  · have hagain := hstatus s (Status.fitsWord (Reader.read_of_run? hread))
    exact ⟨hagain, by rw [hagain]; rfl⟩

section Forms

/-- A spec in another order than it is written in, with a field that is unknown and without one that
has a default. -/
def shuffled : String :=
  " \x7b\"resyncSeconds\":18446744073709551615, \"x\":[0.5], \"source\":\"a\\u0001\"\x7d"

/-- A status as an array, without its last field. -/
def listed : String := "[\x7b\"Ready\":null\x7d, [\"team-a\"], null]"

def shuffledSpec : Spec := { source := "a\x01", resyncSeconds := 18_446_744_073_709_551_615 }

def listedStatus : Status := { phase := .ready, mirrored := ["team-a"] }

theorem texts_round_trip_forms :
    shuffledSpec.resyncSeconds < 2 ^ 64 ∧ FitsWord listedStatus.observedGeneration ∧
    Spec.reader.run? shuffled = some shuffledSpec ∧
    Spec.reader.run? shuffledSpec.text = some shuffledSpec ∧
    Status.reader.run? listed = some listedStatus ∧
    Status.reader.run? listedStatus.text = some listedStatus ∧
    listedStatus.text = "\x7b\"phase\":\"Ready\",\"mirrored\":[\"team-a\"]\x7d" := by
  have hspec : Spec.reader.run? shuffled = some shuffledSpec := by decide +kernel
  have hstatus : Status.reader.run? listed = some listedStatus := by decide +kernel
  obtain ⟨-, -, hagain, hagain'⟩ := texts_round_trip
  exact ⟨by decide, fitsWord_none, hspec, (hagain shuffled shuffledSpec hspec).1, hstatus,
    (hagain' listed listedStatus hstatus).1, by decide +kernel⟩

end Forms

end Reconciler.Mirror
