import Reconciler.Proofs.Dispatch.Settling
import Reconciler.Proofs.Mirror.Statuses

/-!
# Echoes of what the mirror's operator writes

A status of a ConfigMirror is written without `null`, so two statuses that are not equal differ at a
place that a comparison of trees sees. The echo of every change of a mirror's status is told as one,
and nothing is done for it.
-/

namespace Reconciler.Mirror

open Json (find? field)
open Diff (Differs)

namespace ConfigMirror

/-- The fields of a mirror other than its metadata. -/
def others (m : ConfigMirror) : List (String × Json) :=
  Json.orderFields ([
    ("apiVersion", some (.str resource.apiVersion)),
    ("kind", some (.str resource.kind)),
    ("spec", some m.spec.toJson),
    ("status", m.status.map Status.toJson)].filterMap fun (k, v) => v.map (k, ·))

theorem find?_others (m : ConfigMirror) (key : String) : find? key m.others = ([
    ("apiVersion", some (.str resource.apiVersion)),
    ("kind", some (.str resource.kind)),
    ("spec", some m.spec.toJson),
    ("status", m.status.map Status.toJson)].lookup key).join :=
  Json.find?_orderFields_present (by simp) key

theorem toJson_eq (m : ConfigMirror) :
    m.toJson = .obj (Json.insertField "metadata" m.metadata.toJson m.others) := by
  refine congrArg Json.obj ((Json.ordered_orderFields _).eq_of_find?
    ((Json.ordered_orderFields _).insertField _ _) fun key => ?_)
  rw [Json.find?_insertField, find?_others]
  refine (Json.find?_orderFields_present (by simp) key).trans ?_
  by_cases hkey : "metadata" = key
  · subst hkey
    rfl
  · rw [if_neg hkey]
    simp only [List.lookup_cons, beq_false_of_ne (Ne.symm hkey)]

theorem writtenAs (m : ConfigMirror) : WrittenAs m m.others where
  ordered := Json.ordered_orderFields _
  with_metadata := rfl
  metadata_with _ := rfl
  with_with _ _ := rfl
  encode_with metadata := congrArg Except.ok (toJson_eq { m with metadata })

theorem field_status (m : ConfigMirror) :
    field (.obj m.others) "status" = (m.status.map Status.toJson).getD .null := by
  rw [field, find?_others]
  rfl

end ConfigMirror

/-! ## Statuses that differ -/

namespace Status

variable {old s : Status}

/-- Two statuses differ at the place of a part that is written differently. -/
theorem differs_at {key : String} {a b : Option Json} (ha : find? key old.written = a)
    (hb : find? key s.written = b) (hleaf : (a.getD .null).fields? = none)
    (hsame : Json.same (a.getD .null) (b.getD .null) = false) :
    Differs old.toJson s.toJson [key] := by
  rw [toJson_eq, toJson_eq]
  refine .under key (.here ?_ ?_)
  · rintro ⟨left, right, hleft, -⟩
    rw [field, ha] at hleft
    rw [hleft] at hleaf
    cases hleaf
  · rw [field, field, ha, hb]
    exact hsame

theorem differs_of_ne (h : old ≠ s) : ∃ below, Differs old.toJson s.toJson below := by
  by_cases hphase : old.phase = s.phase
  swap
  · refine ⟨_, differs_at old.find?_phase_written s.find?_phase_written rfl ?_⟩
    cases hold : old.phase <;> cases hnew : s.phase <;>
      first | rfl | exact absurd (hold.trans hnew.symm) hphase
  by_cases hmirrored : old.mirrored = s.mirrored
  swap
  · refine ⟨_, differs_at old.find?_mirrored_written s.find?_mirrored_written ?_ ?_⟩
    · split <;> rfl
    · cases hold : old.mirrored with
      | nil =>
        cases hnew : s.mirrored with
        | nil => exact absurd (hold.trans hnew.symm) hmirrored
        | cons ns rest => rfl
      | cons ns rest =>
        cases hnew : s.mirrored with
        | nil => rfl
        | cons ns' rest' =>
          rw [← Bool.not_eq_true]
          intro hsame
          exact hmirrored (hold.trans ((Json.eq_of_same_ofStrings hsame).trans hnew.symm))
  by_cases hgeneration : old.observedGeneration = s.observedGeneration
  swap
  · refine ⟨_, differs_at old.find?_observedGeneration_written s.find?_observedGeneration_written
      ?_ ?_⟩
    · cases old.observedGeneration <;> rfl
    · cases hold : old.observedGeneration <;> cases hnew : s.observedGeneration <;>
        simp_all [Json.same]
  by_cases hmessage : old.message = s.message
  swap
  · refine ⟨_, differs_at old.find?_message_written s.find?_message_written ?_ ?_⟩
    · cases old.message <;> rfl
    · cases hold : old.message <;> cases hnew : s.message <;> simp_all [Json.same]
  cases old
  cases s
  simp_all

theorem tidy_toJson (s : Status) : s.toJson.Tidy := by
  refine Json.tidy_ofPresent ?_
  simp only [present, List.forall_mem_cons]
  refine ⟨?_, ?_, ?_, ?_, List.forall_mem_nil _⟩
  · rintro value ⟨⟩
    trivial
  · intro value h
    split at h
    · cases h
    · cases h
      exact Json.tidy_ofStrings _
  · intro value h
    obtain ⟨n, -, rfl⟩ := Option.map_eq_some_iff.mp h
    trivial
  · intro value h
    obtain ⟨text, -, rfl⟩ := Option.map_eq_some_iff.mp h
    trivial

end Status

/-- The echo of a change of a mirror's status is told as that, and nothing is done for it. -/
theorem status_echo_settles (p : Dispatch.Policy) {c : Cache} {m : ConfigMirror} (hc : c.Holds m)
    {s : Status} (hnew : m.status ≠ some s) {echo : ConfigMirror}
    (hecho : ∃ resourceVersion managedFields, echo =
      { m with metadata := { m.metadata with resourceVersion, managedFields }, status := some s }) :
    (c.upsert echo).2 = .status ∧ Dispatch.Idle p (Dispatch.entryOf c echo) := by
  obtain ⟨resourceVersion, managedFields, rfl⟩ := hecho
  have htidy : ∀ m : ConfigMirror, (field (.obj m.others) "status").Tidy := by
    intro m
    rw [m.field_status]
    cases m.status with
    | none => trivial
    | some s => exact s.tidy_toJson
  generalize hecho : ({ m with
    metadata := { m.metadata with resourceVersion, managedFields }, status := some s } :
      ConfigMirror) = echo
  have hwritten : Cache.StatusWritten m echo m.others echo.others := by
    refine ⟨m.writtenAs, echo.writtenAs, ⟨resourceVersion, managedFields, by rw [← hecho]; rfl⟩, ?_⟩
    intro key hkey
    rw [← hecho, ConfigMirror.find?_others, ConfigMirror.find?_others]
    simp only [List.lookup_cons, beq_false_of_ne hkey, List.lookup_nil]
  refine (Dispatch.status_settles hc hwritten (htidy m) (htidy echo)).1 ?_
  rw [m.field_status, echo.field_status, ← hecho]
  cases hold : m.status with
  | none => exact ⟨[], .here (fun ⟨_, _, h, _⟩ => nomatch h) rfl⟩
  | some old => exact Status.differs_of_ne fun heq => hnew (hold.trans (congrArg some heq))

end Reconciler.Mirror
