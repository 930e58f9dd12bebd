import Reconciler.Http.MirrorClient
import Reconciler.Proofs.Json.MergePatch
import Reconciler.Proofs.Mirror.Passes
import Reconciler.Proofs.Mirror.Statuses

/-!
# Statuses on the server

The server keeps a mirror as an object (`Stored`), and carries out a write of the status as a merge
patch, of which it takes the status. A status is written without the parts that it does not have, so
the patch says nothing about them, and they stay what they were: what is stored afterwards is the
status written *atop* the one before (`Status.atop`).

A run is made of the writes of passes over mirrors that were read at any time, and of whatever else
happens to the object apart from its status. The mirrors are read with room for three containers one
inside another beyond any `depth`; a text grants 127, and a line of a watch 126.
-/

namespace Reconciler.Mirror

open Json (Ordered Reader find?)
open Http (EntityClient)

variable {depth : Nat}

/-! ## One status over another -/

namespace Status

/-- A status with the parts that it does not have taken from another. -/
def atop (s old : Status) : Status where
  phase := s.phase
  mirrored := if s.mirrored.isEmpty then old.mirrored else s.mirrored
  observedGeneration := s.observedGeneration.or old.observedGeneration
  message := s.message.or old.message

/-- Another status has no part that this one lacks. -/
structure Covers (s old : Status) : Prop where
  mirrored : s.mirrored = [] → old.mirrored = []
  observedGeneration : s.observedGeneration = none → old.observedGeneration = none
  message : s.message = none → old.message = none

instance (s old : Status) : Decidable (s.Covers old) :=
  decidable_of_iff ((s.mirrored = [] → old.mirrored = []) ∧
    (s.observedGeneration = none → old.observedGeneration = none) ∧
    (s.message = none → old.message = none))
    ⟨fun h => ⟨h.1, h.2.1, h.2.2⟩, fun h => ⟨h.mirrored, h.observedGeneration, h.message⟩⟩

theorem atop_eq_self_iff (s old : Status) : s.atop old = s ↔ s.Covers old := by
  obtain ⟨phase, mirrored, generation, message⟩ := s
  constructor
  · intro h
    simp only [atop, mk.injEq, true_and] at h
    refine ⟨?_, ?_, ?_⟩
    · rintro rfl
      exact h.1
    · rintro rfl
      exact h.2.1
    · rintro rfl
      exact h.2.2
  · rintro ⟨hmirrored, hgeneration, hmessage⟩
    simp only [atop, mk.injEq, true_and]
    refine ⟨?_, ?_, ?_⟩
    · cases mirrored with
      | nil => exact hmirrored rfl
      | cons ns rest => rfl
    · cases generation with
      | none => exact hgeneration rfl
      | some n => rfl
    · cases message with
      | none => exact hmessage rfl
      | some text => rfl

theorem covers_atop (s new old : Status) :
    s.Covers (new.atop old) ↔ s.Covers new ∧ s.Covers old := by
  have hmirrored : (new.atop old).mirrored = [] ↔ new.mirrored = [] ∧ old.mirrored = [] := by
    cases hnew : new.mirrored <;> simp [atop, hnew]
  have hgeneration : (new.atop old).observedGeneration = none ↔
      new.observedGeneration = none ∧ old.observedGeneration = none := Option.or_eq_none_iff
  have hmessage : (new.atop old).message = none ↔ new.message = none ∧ old.message = none :=
    Option.or_eq_none_iff
  constructor
  · intro h
    exact ⟨⟨fun e => (hmirrored.mp (h.mirrored e)).1,
        fun e => (hgeneration.mp (h.observedGeneration e)).1,
        fun e => (hmessage.mp (h.message e)).1⟩,
      ⟨fun e => (hmirrored.mp (h.mirrored e)).2,
        fun e => (hgeneration.mp (h.observedGeneration e)).2,
        fun e => (hmessage.mp (h.message e)).2⟩⟩
  · rintro ⟨hnew, hold⟩
    exact ⟨fun e => hmirrored.mpr ⟨hnew.mirrored e, hold.mirrored e⟩,
      fun e => hgeneration.mpr ⟨hnew.observedGeneration e, hold.observedGeneration e⟩,
      fun e => hmessage.mpr ⟨hnew.message e, hold.message e⟩⟩

/-- What is stored after a series of writes. -/
def afterWrites (first : Status) (written : List Status) : Status :=
  written.foldl (fun old s => s.atop old) first

theorem covers_afterWrites (s first : Status) (written : List Status) :
    s.Covers (afterWrites first written) ↔ s.Covers first ∧ ∀ old ∈ written, s.Covers old := by
  induction written using List.reverseRecOn with
  | nil => simp [afterWrites]
  | append_singleton written last ih =>
    rw [afterWrites, List.foldl_append]
    simp only [List.foldl_cons, List.foldl_nil, covers_atop, List.forall_mem_append,
      List.forall_mem_singleton]
    rw [← afterWrites, ih]
    exact ⟨fun ⟨hlast, hfirst, hrest⟩ => ⟨hfirst, hrest, hlast⟩,
      fun ⟨hfirst, hrest, hlast⟩ => ⟨hlast, hfirst, hrest⟩⟩

/-- A merge patch of a status stores it over the one before. -/
theorem ReadFrom.merge {parts : List (String × Json)} {old s : Status}
    (h : ReadFrom (depth + 1) parts old) (hfits : FitsWord s.observedGeneration) :
    ReadFrom (depth + 1) (Json.mergeFields parts s.written) (s.atop old) := by
  have hfind := Json.find?_mergeFields s.ordered_written parts
  refine ⟨?_, ?_, ?_, ?_⟩
  · rw [hfind, find?_phase_written]
    exact Phase.reader_name s.phase _
  · rw [hfind, find?_mirrored_written]
    cases hmirrored : s.mirrored with
    | nil => simpa [atop, hmirrored, Json.changedTo] using h.mirrored
    | cons ns rest =>
      simp only [List.isEmpty_cons, Bool.false_eq_true, if_false, atop, hmirrored]
      exact Reader.strings_ofJson _ depth
  · rw [hfind, find?_observedGeneration_written]
    cases hgeneration : s.observedGeneration with
    | none => simpa [atop, hgeneration, Json.changedTo] using h.observedGeneration
    | some n =>
      simp only [Option.map_some, atop, hgeneration, Option.some_or]
      refine (Reader.nullable_ofJson _ _ (j := .int n) nofun).trans ?_
      rw [Reader.int64_ofJson (hfits n hgeneration)]
      rfl
  · rw [hfind, find?_message_written]
    cases hmessage : s.message with
    | none => simpa [atop, hmessage, Json.changedTo] using h.message
    | some text =>
      simp only [Option.map_some, atop, hmessage, Option.some_or]
      rfl

end Status

/-! ## Mirrors on the server -/

/-- A mirror as the server keeps it, and as it is read. The schema of the type lets the status be an
object, `null` or missing. -/
structure Stored (depth : Nat) where
  fields : List (String × Json)
  ordered : Ordered fields
  status : find? "status" fields = none ∨ find? "status" fields = some .null ∨
    ∃ parts, find? "status" fields = some (.obj parts) ∧ Ordered parts
  mirror : ConfigMirror
  read : ConfigMirror.reader (depth + 3) (.ofJson (.obj fields)) = .ok mirror

namespace Stored

/-- The fields of the status, none if there is no status. -/
def parts (o : Stored depth) : List (String × Json) :=
  (((find? "status" o.fields).getD .null).fields?).getD []

/-- The status as it is read, the defaults if there is none. -/
def standing (o : Stored depth) : Status := o.mirror.status.getD {}

theorem readFrom (o : Stored depth) : ConfigMirror.ReadFrom (depth + 2) o.fields o.mirror :=
  (ConfigMirror.reader_obj o.ordered.nodup).mp o.read

theorem status_of_parts (o : Stored depth) {parts : List (String × Json)} {s : Status}
    (hfind : find? "status" o.fields = some (.obj parts)) (hordered : Ordered parts)
    (hread : Status.ReadFrom (depth + 1) parts s) : o.mirror.status = some s := by
  have hstatus := o.readFrom.status
  rw [hfind] at hstatus
  have hparts : Status.reader (depth + 2) (.ofJson (.obj parts)) = .ok s :=
    (Status.reader_obj hordered.nodup).mpr hread
  have heq := (Reader.nullable_ofJson Status.reader (depth + 2) (j := .obj parts) nofun).symm.trans
    hstatus
  rw [hparts] at heq
  exact (Except.ok.inj heq).symm

theorem ordered_parts (o : Stored depth) : Ordered o.parts := by
  rcases o.status with h | h | ⟨parts, h, hordered⟩
  · simpa [Stored.parts, h, Json.fields?] using Ordered.nil
  · simpa [Stored.parts, h, Json.fields?] using Ordered.nil
  · simpa [Stored.parts, h, Json.fields?] using hordered

theorem read_parts (o : Stored depth) : Status.ReadFrom (depth + 1) o.parts o.standing := by
  have hnone : Status.ReadFrom (depth + 1) [] {} := ⟨rfl, rfl, rfl, rfl⟩
  have hstatus := o.readFrom.status
  rcases o.status with h | h | ⟨parts, h, hordered⟩
  · rw [h] at hstatus
    have hmissing : o.mirror.status = none := (Except.ok.inj hstatus).symm
    simpa [Stored.parts, standing, h, hmissing, Json.fields?] using hnone
  · rw [h] at hstatus
    have hmissing : o.mirror.status = none := (Except.ok.inj hstatus).symm
    simpa [Stored.parts, standing, h, hmissing, Json.fields?] using hnone
  · rw [h] at hstatus
    replace hstatus : Status.reader.nullable (depth + 2) (.ofJson (.obj parts)) =
      .ok o.mirror.status := hstatus
    rw [Reader.nullable_ofJson Status.reader (depth + 2) (j := .obj parts) nofun] at hstatus
    cases hread : Status.reader (depth + 2) (.ofJson (.obj parts)) with
    | error fault => rw [hread] at hstatus; cases hstatus
    | ok s =>
      rw [hread] at hstatus
      have hsome : o.mirror.status = some s := (Except.ok.inj hstatus).symm
      have hparts : o.parts = parts := by simp [Stored.parts, h, Json.fields?]
      rw [hparts, standing, hsome]
      exact (Status.reader_obj hordered.nodup).mp hread

end Stored

/-- The status of an object after a merge patch. -/
def patchedStatus (fields : List (String × Json)) (change : Json) : Option Json :=
  find? "status" (((Json.mergePatch (.obj fields) change).fields?).getD [])

/-- The server carries out a request on the status of an object: a merge patch, of which it takes the
status. What else changes is its own affair. -/
structure CarriesOut (request : Http.Request) (before after : Stored depth) : Prop where
  patches : request.method = .patch
  carried : ∃ change, request.content = some ("application/merge-patch+json", change) ∧
    find? "status" after.fields = patchedStatus before.fields change

/-- The statuses that the controller writes for a mirror. -/
inductive Proposes (m : ConfigMirror) : Status → Prop where
  | ready (mirrored : List String) : Proposes m (readyStatus m mirrored)
  | pending (message : String) : Proposes m (pendingStatus m message)

/-- A status is written with success for a mirror that was read. -/
inductive Writes (c : EntityClient) (s : Status) (before after : Stored depth) : Prop where
  | mk {m : ConfigMirror} {atDepth : Nat} {doc : Json.Document} {request : Http.Request}
      {next : Http.Reply → Http.Exchange (Except Error Unit)} {reply : Http.Reply}
      (read : ConfigMirror.reader atDepth doc = .ok m) (proposes : Proposes m s)
      (asks : Http.MirrorClient.settle c (.writeStatus { m with status := some s }) =
        .ask (.send request) next)
      (succeeds : next reply = .done (.ok ()))
      (carriesOut : CarriesOut request before after)

/-- What happens to a mirror on the server, with the statuses that were written in order. -/
inductive Run (c : EntityClient) (first : Stored depth) : List Status → Stored depth → Prop where
  | nil : Run c first [] first
  | changed {written : List Status} {before after : Stored depth} : Run c first written before →
      find? "status" after.fields = find? "status" before.fields → Run c first written after
  | wrote {written : List Status} {s : Status} {before after : Stored depth} :
      Run c first written before → Writes c s before after → Run c first (written ++ [s]) after

/-! ## What a write stores -/

theorem encode_status (m : ConfigMirror) (s : Status) :
    ({ m with status := some s } : ConfigMirror).toJson.field "status" = s.toJson := by
  refine (congrArg (Option.getD · Json.null)
    (Json.find?_orderFields_present ?_ "status")).trans rfl
  simp

theorem statusChange_eq (m : ConfigMirror) (s : Status) :
    EntityClient.statusChange ({ m with status := some s } : ConfigMirror).toJson =
      .obj [("status", s.toJson)] := by
  rw [EntityClient.statusChange, encode_status]
  rfl

/-- The request that writes the status of a mirror. -/
def statusRequest (address : Http.Address) (s : Status) : Http.Request where
  method := .patch
  address
  content := some ("application/merge-patch+json", .obj [("status", s.toJson)])

/-- The address of the status of a mirror, if there is one. -/
def statusAddress (c : EntityClient) (m : ConfigMirror) (name : String) : Option Http.Address :=
  Http.Address.ofText? (Http.Api.named (c.root m.metadata.ns) name ++ "/status" ++ "?")
    (Http.Api.byManager (some c.fieldManager))

section Asking

variable {c : EntityClient} {m : ConfigMirror} {s : Status} {name : String}

theorem writeStatus_eq (hname : m.metadata.name = some name) :
    Http.MirrorClient.settle c (.writeStatus { m with status := some s }) =
      Http.MirrorClient.done (EntityClient.lift (Http.Api.exchange (do
        Http.Api.checkName name
        Http.Api.checkManager (some c.fieldManager) .patchManager
        Http.Api.requestAt .patch (statusAddress c m name)
          (some ("application/merge-patch+json", .obj [("status", s.toJson)])))
        (Http.Api.readAs ConfigMirror.reader))) := by
  rw [← statusChange_eq m s]
  simp only [Http.MirrorClient.settle, EntityClient.updateStatus, EntityClient.withName]
  simp only [Entity.metadata, hname]
  rfl

/-- A write of a status, if it asks anything of the server, asks for a merge patch of it. -/
theorem writeStatus_asks {request : Http.Request}
    {next : Http.Reply → Http.Exchange (Except Error Unit)}
    (h : Http.MirrorClient.settle c (.writeStatus { m with status := some s }) =
      .ask (.send request) next) :
    ∃ name address, m.metadata.name = some name ∧ statusAddress c m name = some address ∧
      request = statusRequest address s := by
  cases hname : m.metadata.name with
  | none =>
    simp only [Http.MirrorClient.settle, EntityClient.updateStatus, EntityClient.withName] at h
    simp only [Entity.metadata, hname] at h
    cases h
  | some name =>
    rw [writeStatus_eq hname] at h
    cases hcheck : Http.Api.checkName name with
    | error fault => rw [hcheck] at h; cases h
    | ok _ =>
      cases hmanager : Http.Api.checkManager (some c.fieldManager) .patchManager with
      | error fault => rw [hcheck, hmanager] at h; cases h
      | ok _ =>
        rw [hcheck, hmanager] at h
        cases haddress : statusAddress c m name with
        | none => rw [haddress] at h; cases h
        | some address =>
          rw [haddress] at h
          injection h with hquestion _
          injection hquestion with hrequest
          exact ⟨name, address, rfl, haddress, hrequest.symm⟩

/-- A mirror that has an address has its status written there, and the write succeeds if a mirror
comes back. -/
theorem writeStatus_sends {address : Http.Address} (hname : m.metadata.name = some name)
    (hcheck : Http.Api.checkName name = .ok ())
    (hmanager : Http.Api.checkManager (some c.fieldManager) .patchManager = .ok ())
    (haddress : statusAddress c m name = some address) :
    ∃ next, Http.MirrorClient.settle c (.writeStatus { m with status := some s }) =
        .ask (.send (statusRequest address s)) next ∧
      ∀ reply stored, Http.Api.readAs ConfigMirror.reader reply = .ok stored →
        next reply = .done (.ok ()) := by
  refine ⟨fun reply => .done (((Http.Api.readAs ConfigMirror.reader reply).mapError .client).map
    fun _ => ()), ?_, ?_⟩
  · rw [writeStatus_eq hname, hcheck, hmanager, haddress]
    rfl
  · intro reply stored hread
    simp only [hread]
    rfl

end Asking

/-- The status that a merge patch of one leaves behind. -/
theorem patchedStatus_eq (fields : List (String × Json)) (s : Status) :
    patchedStatus fields (.obj [("status", s.toJson)]) =
      some (.obj (Json.mergeFields (((find? "status" fields).getD .null).fields?.getD [])
        s.written)) := by
  have hmerged : Json.mergePatch (.obj fields) (.obj [("status", s.toJson)]) =
      .obj (Json.mergeFields fields [("status", s.toJson)]) := by
    rw [Json.mergePatch]
    rfl
  rw [patchedStatus, hmerged]
  refine (Json.find?_mergeFields (List.pairwise_singleton _ _) fields "status").trans ?_
  rw [Json.find?_cons, if_pos rfl, Status.toJson_eq]
  simp only [Json.changedTo, Json.mergePatch]

/-- A mirror after a write of a status that nothing else comes between. -/
def Stored.patched (before : Stored depth) (s : Status) (hfits : FitsWord s.observedGeneration) :
    Stored depth where
  fields := Json.insertField "status" (.obj (Json.mergeFields before.parts s.written)) before.fields
  ordered := before.ordered.insertField _ _
  status := .inr (.inr ⟨_, by rw [Json.find?_insertField, if_pos rfl],
    before.ordered_parts.mergeFields _⟩)
  mirror := { before.mirror with status := some (s.atop before.standing) }
  read := by
    obtain ⟨metadata, hmetadata, hreadMetadata⟩ := before.readFrom.metadata
    obtain ⟨spec, hspec, hreadSpec⟩ := before.readFrom.spec
    refine (ConfigMirror.reader_obj (before.ordered.insertField _ _).nodup).mpr
      ⟨⟨metadata, ?_, hreadMetadata⟩, ⟨spec, ?_, hreadSpec⟩, ?_⟩
    · rw [Json.find?_insertField, if_neg (by decide), hmetadata]
    · rw [Json.find?_insertField, if_neg (by decide), hspec]
    · rw [Json.find?_insertField, if_pos rfl]
      refine (Reader.nullable_ofJson _ _ (j := .obj _) nofun).trans ?_
      rw [(Status.reader_obj (before.ordered_parts.mergeFields _).nodup).mpr
        (before.read_parts.merge hfits)]
      rfl

/-- Whatever is stored, the server can carry out a write of a status, after which the mirror reads
as before but for the status. -/
theorem Stored.carriesOut_patched (before : Stored depth) (address : Http.Address) {s : Status}
    (hfits : FitsWord s.observedGeneration) :
    CarriesOut (statusRequest address s) before (before.patched s hfits) := by
  refine ⟨rfl, _, rfl, ?_⟩
  rw [patchedStatus_eq]
  exact (Json.find?_insertField ..).trans (if_pos rfl)

/-- A write stores the status over the one before. -/
theorem Writes.status {c : EntityClient} {s : Status} {before after : Stored depth}
    (h : Writes c s before after) : after.mirror.status = some (s.atop before.standing) := by
  obtain ⟨read, proposes, asks, -, -, change, hcontent, hstatus⟩ := h
  obtain ⟨name, address, -, -, rfl⟩ := writeStatus_asks asks
  obtain ⟨-, rfl⟩ := Prod.mk.inj (Option.some.inj hcontent)
  rw [patchedStatus_eq] at hstatus
  have hfits : FitsWord s.observedGeneration := by
    cases proposes <;> exact ConfigMirror.fitsWord read
  exact after.status_of_parts hstatus (before.ordered_parts.mergeFields _)
    (before.read_parts.merge hfits)

theorem Stored.status_congr {before after : Stored depth}
    (h : find? "status" after.fields = find? "status" before.fields) :
    after.mirror.status = before.mirror.status := by
  have hafter := after.readFrom.status
  rw [h, before.readFrom.status] at hafter
  exact (Except.ok.inj hafter).symm

variable {c : EntityClient} {first last : Stored depth} {written : List Status} {s : Status}

/-- What is stored in the course of a run. -/
theorem Run.status (run : Run c first written last) :
    last.standing = Status.afterWrites first.standing written ∧
      (written ≠ [] → last.mirror.status.isSome = true) := by
  induction run with
  | nil => exact ⟨rfl, fun h => absurd rfl h⟩
  | changed _ hsame ih =>
    rw [Stored.standing, Stored.status_congr hsame]
    exact ih
  | @wrote written s before after _ hwrites ih =>
    rw [Stored.standing, hwrites.status, ih.1, Status.afterWrites, Status.afterWrites,
      List.foldl_append]
    exact ⟨rfl, fun _ => rfl⟩

/-- After the writes of a run, the last status is stored over the ones before it. It is what is
stored, and the next pass over the mirror that comes to it writes nothing, exactly if no status
before it, the first one stored included, had a part that it does not have. -/
theorem status_stored_iff (run : Run c first (written ++ [s]) last) :
    last.mirror.status = some (s.atop (Status.afterWrites first.standing written)) ∧
      (last.mirror.status = some s ↔
        s.Covers first.standing ∧ ∀ old ∈ written, s.Covers old) ∧
      (reconcile last.mirror).Ends (fun _ _ => True) (fun calls _ =>
        ∃ found, Passed last.mirror found calls ∧ (found = some s →
          (calls.any writesStatus = false ↔
            s.Covers first.standing ∧ ∀ old ∈ written, s.Covers old))) [] := by
  obtain ⟨hstanding, hsome⟩ := run.status
  have hstatus : last.mirror.status =
      some (s.atop (Status.afterWrites first.standing written)) := by
    obtain ⟨stored, hstored⟩ := Option.isSome_iff_exists.mp (hsome (by simp))
    rw [hstored]
    rw [Stored.standing, hstored, Status.afterWrites, List.foldl_append] at hstanding
    exact congrArg some hstanding
  have hiff : last.mirror.status = some s ↔
      s.Covers first.standing ∧ ∀ old ∈ written, s.Covers old := by
    rw [hstatus, Option.some.injEq, Status.atop_eq_self_iff, Status.covers_afterWrites]
  refine ⟨hstatus, hiff, (reconcile_ends last.mirror).mono ?_⟩
  rintro calls - ⟨found, hpassed⟩
  refine ⟨found, hpassed, ?_⟩
  rintro rfl
  rw [← hiff, ← Bool.not_eq_true, hpassed.writes_iff]
  simp

/-! ## A message that stays

A mirror waits for its source, which then appears. The status that says so has no message, and the
old one stays. -/

/-- A mirror as it was created. -/
def created : Stored 124 where
  fields := [
    ("metadata", .obj [("generation", .int 1), ("name", .str "shared"),
      ("namespace", .str "platform")]),
    ("spec", .obj [("source", .str "app"), ("targetNamespaces", .arr [.str "team-a"])])]
  ordered := by decide
  status := .inl rfl
  mirror := {
    metadata := { generation := some 1, name := some "shared", ns := some "platform" }
    spec := { source := "app", targetNamespaces := ["team-a"] } }
  read := by rfl

/-- The status of the mirror while its source is missing. -/
def sourceMissing : Status := pendingStatus created.mirror (missingMessage created.mirror)

/-- The status of the mirror once the copy is there. -/
def sourceCopied : Status := readyStatus created.mirror ["team-a"]

/-- The mirror after the first write. -/
def waiting : Stored 124 := created.patched sourceMissing (ConfigMirror.fitsWord created.read)

/-- The mirror after the second write. -/
def copied : Stored 124 := waiting.patched sourceCopied (ConfigMirror.fitsWord created.read)

/-- The client of the operator. -/
def operatorClient : EntityClient := Http.MirrorClient.mirrors "kubeops-operator"

/-- An answer that brings a mirror. -/
def storedReply : Http.Reply :=
  .answered 200 { text := "\x7b\"metadata\":\x7b\x7d,\"spec\":\x7b\"source\":\"app\"\x7d\x7d" }

theorem writes_created {s : Status} (proposes : Proposes created.mirror s)
    (hfits : FitsWord s.observedGeneration) (before : Stored 124) :
    Writes operatorClient s before (before.patched s hfits) := by
  obtain ⟨stored, hstored⟩ := Option.isSome_iff_exists.mp (show
    (Http.Api.readAs ConfigMirror.reader storedReply).toOption.isSome = true by decide +kernel)
  have hreply : Http.Api.readAs ConfigMirror.reader storedReply = .ok stored := by
    cases hread : Http.Api.readAs ConfigMirror.reader storedReply with
    | error fault => rw [hread] at hstored; cases hstored
    | ok m => rw [hread] at hstored; exact congrArg _ (Option.some.inj hstored)
  obtain ⟨address, haddress⟩ : ∃ address, statusAddress operatorClient created.mirror "shared" =
    some address := ⟨_, if_pos (by decide +kernel)⟩
  obtain ⟨next, hasks, hnext⟩ := writeStatus_sends (s := s) (m := created.mirror) rfl
    (by decide +kernel) (by decide +kernel) haddress
  exact .mk created.read proposes hasks (hnext _ _ hreply) (before.carriesOut_patched address hfits)

theorem run_copied : Run operatorClient created [sourceMissing, sourceCopied] copied :=
  .wrote (.wrote .nil (writes_created (.pending _) _ created)) (writes_created (.ready _) _ waiting)

/-- The second write was carried out, and what is stored is not what was written: the message stays.
A further pass that finds the copy in place writes the same status again, as does every other. -/
theorem message_outlives_pending :
    Writes operatorClient sourceCopied waiting copied ∧
      copied.mirror.status ≠ some sourceCopied ∧
      (∃ calls, Passed copied.mirror (some sourceCopied) calls) ∧
      ∀ calls, Passed copied.mirror (some sourceCopied) calls → calls.any writesStatus = true := by
  have hdiffers : copied.mirror.status ≠ some sourceCopied := by decide
  refine ⟨writes_created (.ready _) _ waiting, hdiffers, ?_, ?_⟩
  · exact ⟨_, @Passed.copied copied.mirror "platform" {} _ rfl (.written (.ok ()) hdiffers)⟩
  · intro calls hpassed
    exact hpassed.writes_iff.mpr ⟨_, rfl, hdiffers⟩

/-- The general statement at that run. -/
theorem status_stored_iff_copied :
    Run operatorClient created [sourceMissing, sourceCopied] copied ∧
      copied.mirror.status = some (sourceCopied.atop sourceMissing) ∧
      (copied.mirror.status = some sourceCopied ↔
        sourceCopied.Covers {} ∧ ∀ old ∈ [sourceMissing], sourceCopied.Covers old) :=
  have h := @status_stored_iff 124 operatorClient created copied [sourceMissing] sourceCopied run_copied
  ⟨run_copied, h.1, h.2.1⟩

end Reconciler.Mirror
