import Reconciler.Cache.Basic
import Reconciler.Proofs.Cache.Differences

/-!
# Echoes of writes

A watch brings back what the operator wrote. The server has stored the object as it was sent, but for
its version and the list of who manages its fields (`Echo`). If the cache holds the version that the
write was based on, the echo of a change of the finalizers is told by just that (`upsert_refinalized`),
and the echo of a write of the status by what differs below the status (`upsert_statusWritten`).

An entity is written as an object in which its metadata is one field, and only that field depends on
it (`WrittenAs`).
-/

namespace Reconciler

open Json (Ordered find? field)
open Diff (Differs)

variable {K : Type} [Entity K]

/-- An entity is written as an object of its metadata and other fields, whatever its metadata is. -/
structure WrittenAs (e : K) (rest : List (String × Json)) : Prop where
  ordered : Ordered rest
  with_metadata : Entity.withMetadata e (Entity.metadata e) = e
  metadata_with : ∀ m, Entity.metadata (Entity.withMetadata e m) = m
  with_with : ∀ m m', Entity.withMetadata (Entity.withMetadata e m) m' = Entity.withMetadata e m'
  encode_with : ∀ m, Entity.encode (Entity.withMetadata e m) =
    .ok (.obj (Json.insertField "metadata" m.toJson rest))

namespace WrittenAs

variable {e : K} {rest : List (String × Json)}

theorem encode (h : WrittenAs e rest) : Entity.encode e =
    .ok (.obj (Json.insertField "metadata" (Entity.metadata e).toJson rest)) := by
  rw [← h.encode_with, h.with_metadata]

/-- An entity with other metadata has the same other fields. -/
theorem withMetadata (h : WrittenAs e rest) (m : Metadata) :
    WrittenAs (Entity.withMetadata e m) rest where
  ordered := h.ordered
  with_metadata := by rw [h.metadata_with, h.with_with]
  metadata_with m' := by rw [h.with_with, h.metadata_with]
  with_with m' m'' := by rw [h.with_with, h.with_with, h.with_with]
  encode_with m' := by rw [h.with_with, h.encode_with]

end WrittenAs

/-- What a server has stored of an object that was sent. -/
inductive Echo (sent : K) : K → Prop where
  | mk (resourceVersion : Option String) (managedFields : Option (List Json)) : Echo sent
      (Entity.withMetadata sent { Entity.metadata sent with resourceVersion, managedFields })

theorem WrittenAs.metadata_withFinalizers {e : K} {rest : List (String × Json)}
    (h : WrittenAs e rest) (finalizers : Option (List String)) :
    Entity.metadata (Entity.withFinalizers e finalizers) = { Entity.metadata e with finalizers } :=
  h.metadata_with _

theorem Echo.writtenAs {sent stored : K} {rest : List (String × Json)} (h : Echo sent stored)
    (hsent : WrittenAs sent rest) : WrittenAs stored rest := by
  obtain ⟨resourceVersion, managedFields⟩ := h
  exact hsent.withMetadata _

theorem Echo.metadata_eq {sent stored : K} {rest : List (String × Json)} (h : Echo sent stored)
    (hsent : WrittenAs sent rest) : ∃ resourceVersion managedFields, Entity.metadata stored =
      { Entity.metadata sent with resourceVersion, managedFields } := by
  obtain ⟨resourceVersion, managedFields⟩ := h
  exact ⟨_, _, hsent.metadata_with _⟩

/-- The cache compares as by default and has an entity for its snapshot. -/
structure Cache.Holds (c : Cache) (e : K) : Prop where
  ignored : c.ignored = Cache.empty.ignored
  snapshot : ∃ tree, Entity.encode e = .ok tree ∧
    c.find? (Cache.keyOf (Entity.metadata e)) = some tree

/-- An entity that can be written is the snapshot once it has been seen. -/
theorem Cache.Holds.upsert {c : Cache} {x y : K} {rest : List (String × Json)} (h : c.Holds x)
    (hy : WrittenAs y rest) : (c.upsert y).1.Holds y where
  ignored := by
    simp only [Cache.upsert, hy.encode]
    exact h.ignored
  snapshot := ⟨_, hy.encode, by simp [Cache.upsert, hy.encode, Cache.find?, Cache.insert]⟩

/-! ## Metadata -/

namespace Metadata

/-- The fields that metadata is written with. -/
def written (m : Metadata) : List (String × Json) := m.toJson.fields?.getD []

theorem toJson_eq (m : Metadata) : m.toJson = .obj m.written := rfl

theorem ordered_written (m : Metadata) : Ordered m.written := Json.ordered_orderFields _

/-- Other finalizers, another version and other managers leave the other fields alone. -/
theorem find?_written_with (m : Metadata) (finalizers : Option (List String))
    (resourceVersion : Option String) (managedFields : Option (List Json)) {key : String}
    (hfinalizers : key ≠ "finalizers") (hversion : key ≠ "resourceVersion")
    (hmanagers : key ≠ "managedFields") :
    find? key { m with finalizers, resourceVersion, managedFields }.written =
      find? key m.written := by
  refine (Json.find?_orderFields_present (by simp) key).trans
    (Eq.trans ?_ (Json.find?_orderFields_present (by simp) key).symm)
  simp only [List.lookup_cons, beq_false_of_ne hfinalizers, beq_false_of_ne hversion,
    beq_false_of_ne hmanagers]

theorem find?_finalizers_written (m : Metadata) :
    find? "finalizers" m.written = m.finalizers.map Json.ofStrings := by
  refine (Json.find?_orderFields_present (by simp) "finalizers").trans ?_
  rfl

end Metadata

/-! ## Classification -/

theorem Cache.empty_ignored : Cache.empty.ignored =
    [["metadata", "resourceVersion"], ["metadata", "managedFields"]] := rfl

theorem Diff.diffAt_of_ignored {ignored : List Path} {path : Path} (h : path ∈ ignored)
    (a b : Json) : Diff.diffAt ignored path a b = [] := by
  have hcontains : ignored.contains path = true := by simpa using h
  unfold Diff.diffAt
  split <;> first | exact if_pos hcontains | exact if_pos (by rw [hcontains]; rfl)

theorem Change.ofPaths_finalizers {paths : List Path}
    (h : ∀ p, p ∈ paths ↔ p = ["metadata", "finalizers"]) : Change.ofPaths paths = .finalizers := by
  have hmem : ["metadata", "finalizers"] ∈ paths := (h _).mpr rfl
  have hne : paths ≠ [] := List.ne_nil_of_mem hmem
  have hstatus : ¬ paths.all (List.isPrefixOf ["status"] ·) = true := fun hall =>
    absurd (List.all_eq_true.mp hall _ hmem) (by decide)
  have hfinalizers : paths.all (List.isPrefixOf ["metadata", "finalizers"] ·) = true :=
    List.all_eq_true.mpr fun p hp => by rw [(h p).mp hp]; rfl
  rw [Change.ofPaths, if_neg hne, if_neg hstatus, if_pos hfinalizers]

theorem Change.ofPaths_status {paths : List Path} (h : ∀ p ∈ paths, ∃ below, p = "status" :: below) :
    Change.ofPaths paths = if paths = [] then .other else .status := by
  have hstatus : paths.all (List.isPrefixOf ["status"] ·) = true :=
    List.all_eq_true.mpr fun p hp => by
      obtain ⟨below, rfl⟩ := h p hp
      simp [List.isPrefixOf]
  rw [Change.ofPaths, if_pos hstatus]

namespace Cache

variable {c : Cache} {x y : K} {rest rest' : List (String × Json)}

/-- The change of an entity whose snapshot is another version of it. -/
theorem upsert_snd (hc : c.Holds x) (hx : WrittenAs x rest) (hy : WrittenAs y rest')
    (hkey : keyOf (Entity.metadata y) = keyOf (Entity.metadata x)) :
    (c.upsert y).2 = Change.ofPaths (diffPaths empty.ignored
      (.obj (Json.insertField "metadata" (Entity.metadata x).toJson rest))
      (.obj (Json.insertField "metadata" (Entity.metadata y).toJson rest'))) := by
  obtain ⟨tree, htree, hfind⟩ := hc.snapshot
  obtain rfl := Except.ok.inj (hx.encode.symm.trans htree)
  simp only [upsert, hy.encode, hkey, hfind, hc.ignored]

/-- What is reported of two versions of an entity is reported of their metadata or of another
field. -/
theorem mem_diffPaths (hx : WrittenAs x rest) (hy : WrittenAs y rest') {m m' : Metadata} {p : Path} :
    p ∈ diffPaths empty.ignored (.obj (Json.insertField "metadata" m.toJson rest))
        (.obj (Json.insertField "metadata" m'.toJson rest')) ↔
      (p ∈ Diff.diffAt empty.ignored ["metadata"] m.toJson m'.toJson) ∨
        ∃ key, key ≠ "metadata" ∧
          p ∈ Diff.diffAt empty.ignored [key] (field (.obj rest) key) (field (.obj rest') key) := by
  have hfield : ∀ (value : Json) (fields : List (String × Json)) (key : String),
      field (.obj (Json.insertField "metadata" value fields)) key =
        if "metadata" = key then value else field (.obj fields) key := by
    intro value fields key
    rw [field, Json.find?_insertField]
    split <;> rfl
  rw [diffPaths, Diff.mem_diffAt_objects (hx.ordered.insertField _ _) (hy.ordered.insertField _ _)]
  simp only [Diff.DiffersUnder, hfield, List.nil_append]
  constructor
  · rintro ⟨-, key, hp⟩
    by_cases hkey : "metadata" = key
    · subst hkey
      exact .inl (by simpa using hp)
    · exact .inr ⟨key, Ne.symm hkey, by simpa [hkey] using hp⟩
  · rintro (hp | ⟨key, hkey, hp⟩)
    · exact ⟨by decide, "metadata", by simpa using hp⟩
    · exact ⟨by decide, key, by simpa [Ne.symm hkey] using hp⟩

theorem same_finalizers_iff {a b : Option (List String)} :
    Json.same ((a.map Json.ofStrings).getD .null) ((b.map Json.ofStrings).getD .null) = true ↔
      a = b := by
  constructor
  · intro h
    cases a <;> cases b
    · rfl
    · cases h
    · cases h
    · exact congrArg some (Json.eq_of_same_ofStrings h)
  · rintro rfl
    exact Json.same_refl _

/-- Metadata that the server has stored, with other finalizers or the same, differs in these
alone. -/
theorem mem_diffAt_metadata (m : Metadata) (finalizers : Option (List String))
    (resourceVersion : Option String) (managedFields : Option (List Json)) (p : Path) :
    p ∈ Diff.diffAt empty.ignored ["metadata"] m.toJson
        ({ m with finalizers, resourceVersion, managedFields } : Metadata).toJson ↔
      finalizers ≠ m.finalizers ∧ p = ["metadata", "finalizers"] := by
  rw [Metadata.toJson_eq, Metadata.toJson_eq,
    Diff.mem_diffAt_objects m.ordered_written (Metadata.ordered_written _)]
  have hfinalizers : p ∈ Diff.diffAt empty.ignored (["metadata"] ++ ["finalizers"])
      (field (.obj m.written) "finalizers")
      (field (.obj { m with finalizers, resourceVersion, managedFields }.written) "finalizers") ↔
        finalizers ≠ m.finalizers ∧ p = ["metadata", "finalizers"] := by
    rw [field, field, Metadata.find?_finalizers_written, Metadata.find?_finalizers_written,
      Diff.diffAt_of_not_objects (by
        rintro ⟨left, right, hleft, -⟩
        cases hm : m.finalizers <;> rw [hm] at hleft <;> cases hleft),
      Diff.mem_leaf, ← Bool.not_eq_true, same_finalizers_iff, empty_ignored]
    constructor
    · rintro ⟨rfl, -, hne⟩
      exact ⟨fun h => hne h.symm, rfl⟩
    · rintro ⟨hne, rfl⟩
      exact ⟨rfl, by simp, fun h => hne h.symm⟩
  constructor
  · rintro ⟨-, key, hp⟩
    by_cases hkey : key = "finalizers"
    · subst hkey
      exact hfinalizers.mp hp
    by_cases hversion : key = "resourceVersion"
    · subst hversion
      rw [Diff.diffAt_of_ignored (by rw [empty_ignored]; simp)] at hp
      cases hp
    by_cases hmanagers : key = "managedFields"
    · subst hmanagers
      rw [Diff.diffAt_of_ignored (by rw [empty_ignored]; simp)] at hp
      cases hp
    have hsame := Metadata.find?_written_with m finalizers resourceVersion managedFields hkey
      hversion hmanagers
    simp only [field, hsame, Diff.diffAt_self, List.not_mem_nil] at hp
  · intro hp
    exact ⟨by rw [empty_ignored]; simp, "finalizers", hfinalizers.mpr hp⟩

/-- The echo of a write of other finalizers. -/
theorem upsert_refinalized (hc : c.Holds x) (hx : WrittenAs x rest)
    {finalizers : Option (List String)} (hne : finalizers ≠ (Entity.metadata x).finalizers)
    (hecho : Echo (Entity.withFinalizers x finalizers) y) : (c.upsert y).2 = .finalizers := by
  have hsent := hx.withMetadata { Entity.metadata x with finalizers }
  have hy := hecho.writtenAs hsent
  obtain ⟨resourceVersion, managedFields, hmetadata⟩ := hecho.metadata_eq hsent
  rw [hx.metadata_withFinalizers] at hmetadata
  rw [upsert_snd hc hx hy (by rw [hmetadata]; rfl), hmetadata]
  refine Change.ofPaths_finalizers fun p => ?_
  rw [mem_diffPaths hx hy, mem_diffAt_metadata]
  simp only [Diff.diffAt_self, List.not_mem_nil, and_false, exists_false, or_false,
    and_iff_right hne]

/-! ## Statuses -/

/-- The server has stored an entity with another status, and what it changes on every write. -/
structure StatusWritten (x y : K) (rest rest' : List (String × Json)) : Prop where
  based : WrittenAs x rest
  stored : WrittenAs y rest'
  metadata : ∃ resourceVersion managedFields, Entity.metadata y =
    { Entity.metadata x with resourceVersion, managedFields }
  others : ∀ key, key ≠ "status" → Json.find? key rest' = Json.find? key rest

/-- What is reported of an entity with another status: the places below the status that differ. -/
theorem mem_diffPaths_statusWritten (hw : StatusWritten x y rest rest')
    (hold : (field (.obj rest) "status").Tidy) (hnew : (field (.obj rest') "status").Tidy) (p : Path) :
    p ∈ diffPaths empty.ignored
        (.obj (Json.insertField "metadata" (Entity.metadata x).toJson rest))
        (.obj (Json.insertField "metadata" (Entity.metadata y).toJson rest')) ↔
      ∃ below, p = "status" :: below ∧
        Differs (field (.obj rest) "status") (field (.obj rest') "status") below := by
  obtain ⟨resourceVersion, managedFields, hmetadata⟩ := hw.metadata
  have hmeta := mem_diffAt_metadata (Entity.metadata x) (Entity.metadata x).finalizers
    resourceVersion managedFields p
  have hunignored : ∀ below, Diff.Unignored empty.ignored ["status"] below := by
    intro below part _
    rw [empty_ignored]
    simp
  rw [mem_diffPaths hw.based hw.stored, hmetadata, hmeta]
  constructor
  · rintro (⟨hne, -⟩ | ⟨key, hkey, hp⟩)
    · exact absurd rfl hne
    · by_cases hstatus : key = "status"
      · subst hstatus
        obtain ⟨below, rfl, hdiffers, -⟩ := (Diff.mem_diffAt hold hnew).mp hp
        exact ⟨below, rfl, hdiffers⟩
      · simp only [field, hw.others key hstatus, Diff.diffAt_self, List.not_mem_nil] at hp
  · rintro ⟨below, rfl, hdiffers⟩
    exact .inr ⟨"status", by decide,
      (Diff.mem_diffAt hold hnew).mpr ⟨below, rfl, hdiffers, hunignored below⟩⟩

/-- The echo of a write of the status is a change of the status, unless no place differs. -/
theorem upsert_statusWritten (hc : c.Holds x) (hw : StatusWritten x y rest rest')
    (hold : (field (.obj rest) "status").Tidy) (hnew : (field (.obj rest') "status").Tidy) :
    (∃ below, Differs (field (.obj rest) "status") (field (.obj rest') "status") below) ∧
        (c.upsert y).2 = .status ∨
      (¬∃ below, Differs (field (.obj rest) "status") (field (.obj rest') "status") below) ∧
        (c.upsert y).2 = .other := by
  obtain ⟨resourceVersion, managedFields, hmetadata⟩ := hw.metadata
  have hmem := mem_diffPaths_statusWritten hw hold hnew
  rw [upsert_snd hc hw.based hw.stored (by rw [hmetadata]; rfl), Change.ofPaths_status fun p hp => by
    obtain ⟨below, rfl, -⟩ := (hmem p).mp hp
    exact ⟨below, rfl⟩]
  split
  · next hnil =>
    refine .inr ⟨?_, rfl⟩
    rintro ⟨below, hdiffers⟩
    exact List.ne_nil_of_mem ((hmem _).mpr ⟨below, rfl, hdiffers⟩) hnil
  · next hne =>
    obtain ⟨p, hp⟩ := List.exists_mem_of_ne_nil _ hne
    obtain ⟨below, -, hdiffers⟩ := (hmem p).mp hp
    exact .inl ⟨⟨below, hdiffers⟩, rfl⟩

end Cache

end Reconciler
