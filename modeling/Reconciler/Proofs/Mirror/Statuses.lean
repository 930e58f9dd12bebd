import Reconciler.Mirror.ConfigMirror
import Reconciler.Proofs.Json.Reading

/-!
# Statuses as trees

Which fields a status is written with, and what a status or a mirror is read as from the tree of an
object: every part from its own field, whatever else the object holds.
-/

namespace Reconciler.Mirror

open Json (Ordered Reader find?)
open Json.Record (Owns)

variable {fields : List (String × Json)} {depth : Nat}

theorem Phase.reader_name (phase : Phase) (depth : Nat) :
    Phase.reader depth (.ofJson (.str phase.name)) = .ok phase := by
  cases phase <;> rfl

/-! ## Reading -/

namespace Status

theorem owns_phase : Owns shape "phase" Phase.reader Status.phase where
  listed := ⟨_, List.mem_cons_self, rfl⟩
  serves := by
    simp only [shape, Json.Record.strict, List.forall_mem_cons]
    exact ⟨.sets fun _ _ => rfl, .spares (by decide) fun _ _ => rfl,
      .spares (by decide) fun _ _ => rfl, .spares (by decide) fun _ _ => rfl, List.forall_mem_nil _⟩

theorem owns_mirrored : Owns shape "mirrored" Reader.str.list Status.mirrored where
  listed := ⟨_, .tail _ List.mem_cons_self, rfl⟩
  serves := by
    simp only [shape, Json.Record.strict, List.forall_mem_cons]
    exact ⟨.spares (by decide) fun _ _ => rfl, .sets fun _ _ => rfl,
      .spares (by decide) fun _ _ => rfl, .spares (by decide) fun _ _ => rfl, List.forall_mem_nil _⟩

theorem owns_observedGeneration :
    Owns shape "observedGeneration" Reader.int64.nullable Status.observedGeneration where
  listed := ⟨_, .tail _ (.tail _ List.mem_cons_self), rfl⟩
  serves := by
    simp only [shape, Json.Record.strict, List.forall_mem_cons]
    exact ⟨.spares (by decide) fun _ _ => rfl, .spares (by decide) fun _ _ => rfl,
      .sets fun _ _ => rfl, .spares (by decide) fun _ _ => rfl, List.forall_mem_nil _⟩

theorem owns_message : Owns shape "message" Reader.str.nullable Status.message where
  listed := ⟨_, .tail _ (.tail _ (.tail _ List.mem_cons_self)), rfl⟩
  serves := by
    simp only [shape, Json.Record.strict, List.forall_mem_cons]
    exact ⟨.spares (by decide) fun _ _ => rfl, .spares (by decide) fun _ _ => rfl,
      .spares (by decide) fun _ _ => rfl, .sets fun _ _ => rfl, List.forall_mem_nil _⟩

/-- The parts of a status as the fields of an object give them. -/
structure ReadFrom (depth : Nat) (fields : List (String × Json)) (s : Status) : Prop where
  phase : Phase.reader.given .pending depth (find? "phase" fields) = .ok s.phase
  mirrored : Reader.str.list.given [] depth (find? "mirrored" fields) = .ok s.mirrored
  observedGeneration : Reader.int64.nullable.given none depth
    (find? "observedGeneration" fields) = .ok s.observedGeneration
  message : Reader.str.nullable.given none depth (find? "message" fields) = .ok s.message

theorem ReadFrom.unique {s s' : Status} (h : ReadFrom depth fields s)
    (h' : ReadFrom depth fields s') : s = s' := by
  have hphase := Except.ok.inj (h.phase.symm.trans h'.phase)
  have hmirrored := Except.ok.inj (h.mirrored.symm.trans h'.mirrored)
  have hgeneration := Except.ok.inj (h.observedGeneration.symm.trans h'.observedGeneration)
  have hmessage := Except.ok.inj (h.message.symm.trans h'.message)
  cases s
  cases s'
  simp_all

theorem ReadFrom.congr {fields' : List (String × Json)} {s : Status} (h : ReadFrom depth fields' s)
    (hsame : ∀ key, find? key fields = find? key fields') : ReadFrom depth fields s :=
  ⟨by simpa only [hsame] using h.phase, by simpa only [hsame] using h.mirrored,
    by simpa only [hsame] using h.observedGeneration, by simpa only [hsame] using h.message⟩

theorem reader_obj (h : (fields.map Prod.fst).Nodup) {s : Status} :
    reader (depth + 1) (.ofJson (.obj fields)) = .ok s ↔ ReadFrom depth fields s := by
  refine Json.Record.reader_obj_iff rfl h (fun hfill _ => ?_) ReadFrom.unique (fun _ => ?_)
    (fun hread => ?_)
  · exact ⟨owns_phase.fill rfl h hfill, owns_mirrored.fill rfl h hfill,
      owns_observedGeneration.fill rfl h hfill, owns_message.fill rfl h hfill⟩
  · simp only [Json.Record.Covered, shape, Json.Record.strict, List.forall_mem_cons]
    exact ⟨nofun, nofun, nofun, nofun, List.forall_mem_nil _⟩
  · simp only [shape, Json.Record.strict, List.forall_mem_cons]
    exact ⟨Json.Field.read_given hread.phase, Json.Field.read_given hread.mirrored,
      Json.Field.read_given hread.observedGeneration, Json.Field.read_given hread.message,
      List.forall_mem_nil _⟩

/-! ## Writing -/

/-- The fields that a status is written with. -/
def written (s : Status) : List (String × Json) := s.toJson.fields?.getD []

theorem toJson_eq (s : Status) : s.toJson = .obj s.written := rfl

theorem ordered_written (s : Status) : Ordered s.written := Json.ordered_orderFields _

theorem names_present (s : Status) : (s.present.map Prod.fst).Nodup := by
  simp [present]

/-- What a status is written with at a name. -/
theorem find?_written (s : Status) (key : String) :
    find? key s.written = (s.present.lookup key).join :=
  Json.find?_orderFields_present s.names_present key

theorem find?_phase_written (s : Status) :
    find? "phase" s.written = some (.str s.phase.name) := by
  rw [find?_written]
  rfl

theorem find?_mirrored_written (s : Status) : find? "mirrored" s.written =
    if s.mirrored.isEmpty then none else some (.ofStrings s.mirrored) := by
  rw [find?_written]
  rfl

theorem find?_observedGeneration_written (s : Status) :
    find? "observedGeneration" s.written = s.observedGeneration.map .int := by
  rw [find?_written]
  rfl

theorem find?_message_written (s : Status) : find? "message" s.written = s.message.map .str := by
  rw [find?_written]
  rfl

end Status

/-! ## Mirrors -/

namespace ConfigMirror

theorem owns_metadata : Owns shape "metadata" Metadata.reader ConfigMirror.metadata where
  listed := ⟨_, List.mem_cons_self, rfl⟩
  serves := by
    simp only [shape, Json.Record.strict, List.forall_mem_cons]
    exact ⟨.sets fun _ _ => rfl, .spares (by decide) fun _ _ => rfl,
      .spares (by decide) fun _ _ => rfl, List.forall_mem_nil _⟩

theorem owns_spec : Owns shape "spec" Spec.reader ConfigMirror.spec where
  listed := ⟨_, .tail _ List.mem_cons_self, rfl⟩
  serves := by
    simp only [shape, Json.Record.strict, List.forall_mem_cons]
    exact ⟨.spares (by decide) fun _ _ => rfl, .sets fun _ _ => rfl,
      .spares (by decide) fun _ _ => rfl, List.forall_mem_nil _⟩

theorem owns_status : Owns shape "status" Status.reader.nullable ConfigMirror.status where
  listed := ⟨_, .tail _ (.tail _ List.mem_cons_self), rfl⟩
  serves := by
    simp only [shape, Json.Record.strict, List.forall_mem_cons]
    exact ⟨.spares (by decide) fun _ _ => rfl, .spares (by decide) fun _ _ => rfl,
      .sets fun _ _ => rfl, List.forall_mem_nil _⟩

/-- The parts of a mirror as the fields of an object give them. -/
structure ReadFrom (depth : Nat) (fields : List (String × Json)) (m : ConfigMirror) : Prop where
  metadata : ∃ value, find? "metadata" fields = some value ∧
    Metadata.reader depth (.ofJson value) = .ok m.metadata
  spec : ∃ value, find? "spec" fields = some value ∧
    Spec.reader depth (.ofJson value) = .ok m.spec
  status : Status.reader.nullable.given none depth (find? "status" fields) = .ok m.status

theorem ReadFrom.unique {m m' : ConfigMirror} (h : ReadFrom depth fields m)
    (h' : ReadFrom depth fields m') : m = m' := by
  obtain ⟨metadata, hmetadata, hreadMetadata⟩ := h.metadata
  obtain ⟨spec, hspec, hreadSpec⟩ := h.spec
  obtain ⟨metadata', hmetadata', hreadMetadata'⟩ := h'.metadata
  obtain ⟨spec', hspec', hreadSpec'⟩ := h'.spec
  obtain rfl := Option.some.inj (hmetadata.symm.trans hmetadata')
  obtain rfl := Option.some.inj (hspec.symm.trans hspec')
  have h₁ := Except.ok.inj (hreadMetadata.symm.trans hreadMetadata')
  have h₂ := Except.ok.inj (hreadSpec.symm.trans hreadSpec')
  have h₃ := Except.ok.inj (h.status.symm.trans h'.status)
  cases m
  cases m'
  simp_all

theorem reader_obj (h : (fields.map Prod.fst).Nodup) {m : ConfigMirror} :
    reader (depth + 1) (.ofJson (.obj fields)) = .ok m ↔ ReadFrom depth fields m := by
  refine Json.Record.reader_obj_iff rfl h (fun hfill hcovered => ?_) ReadFrom.unique
    (fun hread => ?_) (fun hread => ?_)
  · obtain ⟨metadata, hmetadata⟩ := hcovered _ List.mem_cons_self rfl
    obtain ⟨spec, hspec⟩ := hcovered _ (.tail _ List.mem_cons_self) rfl
    have hreadMetadata := owns_metadata.fill rfl h hfill
    have hreadSpec := owns_spec.fill rfl h hfill
    rw [show find? "metadata" fields = some metadata from hmetadata] at hreadMetadata
    rw [show find? "spec" fields = some spec from hspec] at hreadSpec
    exact ⟨⟨metadata, hmetadata, hreadMetadata⟩, ⟨spec, hspec, hreadSpec⟩,
      owns_status.fill rfl h hfill⟩
  · obtain ⟨metadata, hmetadata, -⟩ := hread.metadata
    obtain ⟨spec, hspec, -⟩ := hread.spec
    simp only [Json.Record.Covered, shape, Json.Record.strict, List.forall_mem_cons]
    exact ⟨fun _ => ⟨metadata, hmetadata⟩, fun _ => ⟨spec, hspec⟩, nofun, List.forall_mem_nil _⟩
  · obtain ⟨metadata, hmetadata, hreadMetadata⟩ := hread.metadata
    obtain ⟨spec, hspec, hreadSpec⟩ := hread.spec
    have hgivenMetadata : Metadata.reader.given {} depth (find? "metadata" fields) =
        .ok m.metadata := by rw [hmetadata]; exact hreadMetadata
    have hgivenSpec : Spec.reader.given { source := "" } depth (find? "spec" fields) =
        .ok m.spec := by rw [hspec]; exact hreadSpec
    simp only [shape, Json.Record.strict, List.forall_mem_cons]
    exact ⟨Json.Field.read_given hgivenMetadata, Json.Field.read_given hgivenSpec,
      Json.Field.read_given hread.status, List.forall_mem_nil _⟩

end ConfigMirror

/-! ## Generations -/

/-- A generation, if there is one, is a number of 64 bits. -/
def FitsWord (generation : Option Int) : Prop :=
  ∀ n, generation = some n → (Json.int n).int64? = some n

theorem fitsWord_none : FitsWord none := by
  rintro n ⟨⟩

theorem fitsWord_of_read {generation : Option Int} {doc : Json.Document}
    (h : Reader.int64.nullable depth doc = .ok generation) : FitsWord generation := by
  rintro n rfl
  simp only [Reader.nullable] at h
  split at h
  · cases h
  · cases hread : Reader.int64 depth doc with
    | error fault => rw [hread] at h; cases h
    | ok k =>
      rw [hread] at h
      obtain rfl : k = n := Option.some.inj (Except.ok.inj h)
      exact Reader.int64_fits hread

theorem owns_generation : Owns Metadata.shape "generation" Reader.int64.nullable
    Metadata.generation where
  listed := ⟨_, .tail _ (.tail _ (.tail _ (.tail _ (.tail _ (.tail _ List.mem_cons_self))))), rfl⟩
  serves := by
    simp only [Metadata.shape, Json.Record.lenient, List.forall_mem_cons]
    refine ⟨?_, ?_, ?_, ?_, ?_, ?_, .sets fun _ _ => rfl, ?_⟩
    all_goals (try refine ⟨?_, ?_, ?_, ?_, ?_, ?_, ?_, ?_, List.forall_mem_nil _⟩)
    all_goals exact .spares (by decide) fun _ _ => rfl

theorem Metadata.fitsWord {m : Metadata} {doc : Json.Document}
    (h : Metadata.reader depth doc = .ok m) : FitsWord m.generation :=
  owns_generation.keeps rfl fitsWord_of_read (by exact fitsWord_none) h

/-- The generation of a mirror that was read is a number of 64 bits. -/
theorem ConfigMirror.fitsWord {m : ConfigMirror} {doc : Json.Document}
    (h : ConfigMirror.reader depth doc = .ok m) : FitsWord m.metadata.generation :=
  owns_metadata.keeps (Q := fun metadata => FitsWord metadata.generation) rfl Metadata.fitsWord
    (by exact fitsWord_none) h

end Reconciler.Mirror
