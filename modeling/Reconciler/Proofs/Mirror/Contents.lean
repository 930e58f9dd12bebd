import Reconciler.Object.ConfigMap
import Reconciler.Proofs.Json.Meaning

/-!
# The content of a ConfigMap

A ConfigMap that is read from a text has the name and the content of the tree that the text means
(`ConfigMap.readFrom_of_run?`). Bytes are the texts that they are written in; only `null` is another
way to write that there are none.
-/

namespace Reconciler

open Json (Reader mapFields)
open Json.Record (Owns)

namespace Metadata

theorem owns_name : Owns shape "name" Reader.str.nullable name where
  listed := ⟨.lenient "name" Reader.str fun m name => { m with name },
    by simp [shape, Json.Record.lenient], rfl⟩
  serves := by
    simp only [shape, Json.Record.lenient, List.forall_mem_cons]
    refine ⟨?_, ?_, ?_, ?_, ?_, ?_, ?_, ?_, ?_, ?name, ?_, ?_, ?_, ?_, ?_, List.forall_mem_nil _⟩
    case name => exact .sets fun _ _ => rfl
    all_goals
      refine .spares (by decide) ?_
      exact fun _ _ => rfl

theorem retains_name :
    reader.Retains (fun m => (m.name.map .str).getD .null) fun tree => tree.field "name" := by
  have hname : Reader.str.nullable.Retains (fun name => (name.map .str).getD .null) id :=
    (Reader.retains_str fun _ => rfl).nullable rfl fun _ => rfl
  exact owns_name.retains rfl rfl hname rfl

end Metadata

namespace ConfigMap

/-! ## Reading -/

theorem owns_binaryData : Owns shape "binaryData" bytes.dict.nullable binaryData where
  listed := ⟨_, .tail _ (.tail _ List.mem_cons_self), rfl⟩
  serves := by
    simp only [shape, typed, Json.Record.lenient, List.forall_mem_cons]
    exact ⟨.spares (by decide) fun _ _ => rfl, .spares (by decide) fun _ _ => rfl,
      .sets fun _ _ => rfl, .spares (by decide) fun _ _ => rfl, .spares (by decide) fun _ _ => rfl,
      .spares (by decide) fun _ _ => rfl, List.forall_mem_nil _⟩

theorem owns_data : Owns shape "data" Reader.str.dict.nullable data where
  listed := ⟨_, .tail _ (.tail _ (.tail _ List.mem_cons_self)), rfl⟩
  serves := by
    simp only [shape, typed, Json.Record.lenient, List.forall_mem_cons]
    exact ⟨.spares (by decide) fun _ _ => rfl, .spares (by decide) fun _ _ => rfl,
      .spares (by decide) fun _ _ => rfl, .sets fun _ _ => rfl, .spares (by decide) fun _ _ => rfl,
      .spares (by decide) fun _ _ => rfl, List.forall_mem_nil _⟩

theorem owns_immutable : Owns shape "immutable" Reader.bool.nullable immutable where
  listed := ⟨_, .tail _ (.tail _ (.tail _ (.tail _ List.mem_cons_self))), rfl⟩
  serves := by
    simp only [shape, typed, Json.Record.lenient, List.forall_mem_cons]
    exact ⟨.spares (by decide) fun _ _ => rfl, .spares (by decide) fun _ _ => rfl,
      .spares (by decide) fun _ _ => rfl, .spares (by decide) fun _ _ => rfl, .sets fun _ _ => rfl,
      .spares (by decide) fun _ _ => rfl, List.forall_mem_nil _⟩

/-- Missing metadata is empty metadata, so the part is what the field reads, changed. -/
theorem owns_metadata :
    Owns shape "metadata" (Metadata.reader.nullable.map (·.getD {})) metadata where
  listed := ⟨_, .tail _ (.tail _ (.tail _ (.tail _ (.tail _ List.mem_cons_self)))), rfl⟩
  serves := by
    have hown : Json.Field.lenient "metadata" Metadata.reader
        (fun (c : ConfigMap) (m : Option Metadata) => { c with metadata := m.getD {} }) =
          Json.Field.ofSetter "metadata" .optional (Metadata.reader.nullable.map (·.getD {}))
            fun c metadata => { c with metadata } := by
        rw [Json.Field.ofSetter_map]
        rfl
    simp only [shape, typed, Json.Record.lenient, List.forall_mem_cons, hown]
    exact ⟨.spares (by decide) fun _ _ => rfl, .spares (by decide) fun _ _ => rfl,
      .spares (by decide) fun _ _ => rfl, .spares (by decide) fun _ _ => rfl,
      .spares (by decide) fun _ _ => rfl, .sets fun _ _ => rfl, List.forall_mem_nil _⟩

/-- Bytes that are `null` are the empty text. -/
def orEmpty : Json → Json
  | .null => .str ""
  | j => j

theorem retains_bytes : bytes.Retains .str orEmpty := by
  constructor
  intro depth doc text v hread hwhole
  obtain ⟨given, hgiven, htext⟩ := Reader.refine_eq_ok hread
  have hbytes : Reader.str.nullable.Retains (fun given => .str (given.getD "")) orEmpty :=
    (Reader.retains_str fun _ => rfl).nullable rfl fun _ => rfl
  rw [← hbytes.written hgiven hwhole]
  simp only at htext
  split at htext
  · exact congrArg Json.str (Option.some.inj htext).symm
  · cases htext

/-- What the tree of a ConfigMap says, as it is read: `null` is no bytes. -/
structure ReadFrom (tree : Json) (c : ConfigMap) : Prop where
  name : (tree.field "metadata").field "name" = (c.metadata.name.map .str).getD .null
  data : tree.field "data" = (c.data.map (Json.ofMap .str)).getD .null
  binaryData : mapFields orEmpty (tree.field "binaryData") =
    (c.binaryData.map (Json.ofMap .str)).getD .null
  immutable : tree.field "immutable" = (c.immutable.map .bool).getD .null

/-- A ConfigMap that is read from a text is read from the tree that the text means. -/
theorem readFrom_of_run? {text : String} {tree : Json} {c : ConfigMap}
    (hread : reader.run? text = some c) (htree : Reader.tree.run? text = some tree) :
    ReadFrom tree c where
  name := by
    have hmetadata : (Metadata.reader.nullable.map (·.getD {})).Retains
        (fun m => (m.name.map .str).getD .null) fun tree => tree.field "name" :=
      (Metadata.retains_name.nullable rfl fun _ => rfl).map
    exact ((owns_metadata.retains rfl rfl hmetadata rfl).run? hread htree).symm
  data := by
    have hdata : Reader.str.dict.nullable.Retains
        (fun data => (data.map (Json.ofMap .str)).getD .null) (mapFields id) :=
      (Reader.retains_str fun _ => rfl).dict.nullable rfl fun _ => rfl
    have hsame := (owns_data.retains rfl rfl hdata rfl).run? hread htree
    rw [Json.mapFields_id] at hsame
    exact hsame.symm
  binaryData := by
    have hbytes : bytes.dict.nullable.Retains
        (fun bytes => (bytes.map (Json.ofMap .str)).getD .null) (mapFields orEmpty) :=
      retains_bytes.dict.nullable rfl fun _ => rfl
    exact ((owns_binaryData.retains rfl rfl hbytes rfl).run? hread htree).symm
  immutable := by
    have himmutable : Reader.bool.nullable.Retains (fun b => (b.map .bool).getD .null) id :=
      Reader.retains_bool.nullable rfl fun _ => rfl
    exact ((owns_immutable.retains rfl rfl himmutable rfl).run? hread htree).symm

end ConfigMap

end Reconciler
