import Reconciler.Proofs.Mirror.Contents
import Reconciler.Proofs.Mirror.Labels
import Reconciler.Proofs.Mirror.Requests

/-!
# What a pass over a mirror sends

A pass over a mirror reads the source, applies copies of what it read, and may write a status. What
came of it is told by a `Pass`: the answer for the source, the copies with their answers, and the
status that was written. `Orderly` states how these belong together, and what the pass comes to. What
is sent has the content of what the server replied (`Pass.Sent`).

No ConfigMap is written in the mirror's own namespace, where the source is: not one whose metadata
say so, and, where namespaces are names without the marks of an address, none at an address there. A
target with such marks can lead back to the source (`marks_lead_back`).
-/

namespace Reconciler.Mirror

open Http (Request Question)
open Http.MirrorClient (configMaps)

/-! ## Passes -/

/-- What a pass over a mirror in a namespace came to. -/
structure Pass where
  /-- The answer for the source. -/
  found : Except Error (Option ConfigMap)
  /-- The namespaces that copies were applied in, with the answers. -/
  copies : List (String × Except Error Unit) := []
  /-- The status that was written, with the answer. -/
  stated : Option (Status × Except Error Unit) := none

namespace Pass

/-- The namespaces that copies were applied in. -/
def namespaces (p : Pass) : List String := p.copies.map Prod.fst

/-- Every copy that was applied is there. -/
def Succeeded (p : Pass) : Prop := ∀ copy ∈ p.copies, copy.2 = .ok ()

/-- The calls that apply copies of a source. -/
def applied (m : ConfigMirror) (source : ConfigMap) (copies : List (String × Except Error Unit)) :
    List Asked :=
  copies.map fun (ns, answer) => ⟨.apply ns m.spec.source (mirrorCopy source m ns), answer⟩

/-- The call that writes a status. -/
def written (m : ConfigMirror) : Option (Status × Except Error Unit) → List Asked
  | none => []
  | some (s, answer) => [⟨.writeStatus { m with status := some s }, answer⟩]

/-- The calls of the pass, in order. -/
def calls (p : Pass) (m : ConfigMirror) (own : String) : List Asked :=
  ⟨.source own m.spec.source, p.found⟩ :: ((match p.found with
    | .ok (some source) => applied m source p.copies
    | _ => []) ++ written m p.stated)

/-- The status that the pass comes to. -/
inductive Reaches (p : Pass) (m : ConfigMirror) : Status → Prop where
  | missing : p.found = .ok none → Reaches p m (pendingStatus m (missingMessage m))
  | copied (source : ConfigMap) : p.found = .ok (some source) → p.Succeeded →
      Reaches p m (readyStatus m p.namespaces)

/-- How the parts of a pass belong together, and its result. -/
structure Orderly (p : Pass) (m : ConfigMirror) (own : String) (r : Except Error Action) :
    Prop where
  /-- Only a source that is there is copied. -/
  sourced : p.copies ≠ [] → ∃ source, p.found = .ok (some source)
  /-- Copies go to the targets other than the mirror's own namespace, in order. -/
  inOrder : p.namespaces <+: targets m own
  /-- They go to all of these, up to the first failure. -/
  complete : (∃ source, p.found = .ok (some source)) → p.Succeeded → p.namespaces = targets m own
  stops : ∀ done copy rest, p.copies = done ++ copy :: rest → rest ≠ [] → copy.2 = .ok ()
  /-- The status that the pass comes to is written exactly if the mirror does not have it. -/
  stated : ∀ s, (∃ answer, p.stated = some (s, answer)) ↔ p.Reaches m s ∧ m.status ≠ some s
  /-- A failure ends the pass, with that error and without a status. -/
  unread : ∀ error, p.found = .error error → p.stated = none ∧ r = .error error
  failed : ∀ ns error, (ns, .error error) ∈ p.copies → p.stated = none ∧ r = .error error
  unwritten : ∀ s error, p.stated = some (s, .error error) → r = .error error

end Pass

/-! ## Every way through a reconcile -/

section Ways

variable {m : ConfigMirror} {own : String} {source : ConfigMap}
  {fit : (call : Call) → call.Answer → Prop} {calls : List Asked}

/-- Copies that are applied up to the first failure. -/
inductive UpToFailure : List String → List (String × Except Error Unit) → Except Error Unit →
    Prop where
  | all : UpToFailure [] [] (.ok ())
  | failed (target : String) (rest : List String) (error : Error) :
      UpToFailure (target :: rest) [(target, .error error)] (.error error)
  | next (target : String) {rest : List String} {copies : List (String × Except Error Unit)}
      {outcome : Except Error Unit} : UpToFailure rest copies outcome →
      UpToFailure (target :: rest) ((target, .ok ()) :: copies) outcome

namespace UpToFailure

variable {todo : List String} {copies : List (String × Except Error Unit)}
  {outcome : Except Error Unit}

theorem prefix_todo (h : UpToFailure todo copies outcome) : copies.map Prod.fst <+: todo := by
  induction h with
  | all => exact List.prefix_refl []
  | failed target rest error => exact ⟨rest, rfl⟩
  | next target _ ih => exact List.cons_prefix_cons.mpr ⟨rfl, ih⟩

theorem eq_todo (h : UpToFailure todo copies outcome) (hok : ∀ copy ∈ copies, copy.2 = .ok ()) :
    copies.map Prod.fst = todo ∧ outcome = .ok () := by
  induction h with
  | all => exact ⟨rfl, rfl⟩
  | failed target rest error => cases hok _ List.mem_cons_self
  | next target _ ih =>
    obtain ⟨hrest, houtcome⟩ := ih fun copy hmem => hok copy (List.mem_cons_of_mem _ hmem)
    exact ⟨congrArg (target :: ·) hrest, houtcome⟩

theorem ok_of_outcome (h : UpToFailure todo copies outcome) (hok : outcome = .ok ()) :
    ∀ copy ∈ copies, copy.2 = .ok () := by
  induction h with
  | all => exact List.forall_mem_nil _
  | failed => cases hok
  | next target _ ih => exact List.forall_mem_cons.mpr ⟨rfl, ih hok⟩

theorem outcome_of_error (h : UpToFailure todo copies outcome) {ns : String} {error : Error}
    (hmem : (ns, .error error) ∈ copies) : outcome = .error error := by
  induction h with
  | all => cases hmem
  | failed target rest error' =>
    obtain ⟨-, heq⟩ := Prod.mk.inj (List.mem_singleton.mp hmem)
    exact heq.symm
  | next target _ ih =>
    rcases List.mem_cons.mp hmem with heq | hmem
    · cases heq
    · exact ih hmem

theorem ok_before_last (h : UpToFailure todo copies outcome)
    {done rest : List (String × Except Error Unit)} {copy : String × Except Error Unit}
    (hsplit : copies = done ++ copy :: rest) (hrest : rest ≠ []) : copy.2 = .ok () := by
  induction h generalizing done with
  | all => cases List.append_eq_nil_iff.mp hsplit.symm |>.2
  | failed target rest' error =>
    cases done with
    | nil => exact absurd (List.cons.inj hsplit).2.symm hrest
    | cons first more => cases List.append_eq_nil_iff.mp (List.cons.inj hsplit).2.symm |>.2
  | next target _ ih =>
    cases done with
    | nil => rw [← (List.cons.inj hsplit).1]
    | cons first more => exact ih (List.cons.inj hsplit).2

end UpToFailure

theorem comes_applyCopies {todo applied : List String} {r : Except Error (List String)}
    (h : (applyCopies m own source applied todo).Comes fit calls r) :
    ∃ copies outcome, UpToFailure (todo.filter (· != own)) copies outcome ∧
      calls = Pass.applied m source copies ∧
      r = outcome.map fun _ => applied ++ copies.map Prod.fst := by
  induction todo generalizing applied calls with
  | nil =>
    obtain ⟨rfl, rfl⟩ := Plan.comes_done.mp h
    refine ⟨[], .ok (), .all, rfl, ?_⟩
    simp [Except.map]
  | cons target rest ih =>
    unfold applyCopies at h
    by_cases hown : target = own
    · rw [if_pos hown] at h
      rw [List.filter_cons_of_neg (by simpa using hown)]
      exact ih h
    · rw [if_neg hown] at h
      rw [List.filter_cons_of_pos (by simpa using hown)]
      obtain ⟨answer, later, rfl, -, hlater⟩ := Plan.comes_ask.mp h
      rcases answer with error | ⟨⟩
      · obtain ⟨rfl, rfl⟩ := Plan.comes_done.mp hlater
        exact ⟨[(target, .error error)], .error error, .failed target _ error, rfl, rfl⟩
      · obtain ⟨copies, outcome, hcopies, rfl, rfl⟩ := ih hlater
        refine ⟨(target, .ok ()) :: copies, outcome, .next target hcopies, rfl, ?_⟩
        simp only [List.map_cons, List.append_assoc, List.singleton_append]

theorem comes_setStatus {s : Status} {action : Action} {r : Except Error Action}
    (h : (setStatus m s action).Comes fit calls r) :
    ∃ stated, calls = Pass.written m stated ∧
      (∀ s', (∃ answer, stated = some (s', answer)) ↔ s' = s ∧ m.status ≠ some s') ∧
      ∀ s' error, stated = some (s', .error error) → r = .error error := by
  unfold setStatus at h
  by_cases hsame : m.status = some s
  · rw [if_pos hsame] at h
    obtain ⟨rfl, rfl⟩ := Plan.comes_done.mp h
    refine ⟨none, rfl, fun s' => ⟨?_, ?_⟩, ?_⟩
    · rintro ⟨answer, ⟨⟩⟩
    · rintro ⟨rfl, hnew⟩
      exact absurd hsame hnew
    · rintro s' error ⟨⟩
  · rw [if_neg hsame] at h
    obtain ⟨answer, later, rfl, -, hlater⟩ := Plan.comes_ask.mp h
    have hstated : ∀ s', (∃ answer', some (s, answer) = some (s', answer')) ↔
        s' = s ∧ m.status ≠ some s' := by
      intro s'
      constructor
      · rintro ⟨_, ⟨⟩⟩
        exact ⟨rfl, hsame⟩
      · rintro ⟨rfl, -⟩
        exact ⟨answer, rfl⟩
    rcases answer with error | ⟨⟩
    · obtain ⟨rfl, rfl⟩ := Plan.comes_done.mp hlater
      refine ⟨some (s, .error error), rfl, hstated, ?_⟩
      rintro _ _ ⟨⟩
      rfl
    · obtain ⟨rfl, rfl⟩ := Plan.comes_done.mp hlater
      refine ⟨some (s, .ok ()), rfl, hstated, ?_⟩
      rintro s' error ⟨⟩

/-- A pass that found no source applies no copies. -/
theorem orderly_of_no_source {found : Except Error (Option ConfigMap)}
    {stated : Option (Status × Except Error Unit)} {r : Except Error Action}
    (hfound : ∀ source, found ≠ .ok (some source))
    (hstated : ∀ s, (∃ answer, stated = some (s, answer)) ↔
      (Pass.mk found [] stated).Reaches m s ∧ m.status ≠ some s)
    (hunread : ∀ error, found = .error error → stated = none ∧ r = .error error)
    (hunwritten : ∀ s error, stated = some (s, .error error) → r = .error error) :
    (Pass.mk found [] stated).Orderly m own r where
  sourced h := absurd rfl h
  inOrder := List.nil_prefix
  complete := fun ⟨source, hsource⟩ => absurd hsource (hfound source)
  stops _ _ _ hsplit := absurd hsplit.symm (by simp)
  stated := hstated
  unread := hunread
  failed _ _ hmem := absurd hmem List.not_mem_nil
  unwritten := hunwritten

/-- A pass that found the source applies copies up to the first failure. -/
theorem orderly_of_source {copies : List (String × Except Error Unit)}
    {stated : Option (Status × Except Error Unit)} {outcome : Except Error Unit}
    {r : Except Error Action} (hcopies : UpToFailure (targets m own) copies outcome)
    (hfailed : ∀ error, outcome = .error error → stated = none ∧ r = .error error)
    (hstated : outcome = .ok () → ∀ s, (∃ answer, stated = some (s, answer)) ↔
      s = readyStatus m (copies.map Prod.fst) ∧ m.status ≠ some s)
    (hunwritten : ∀ s error, stated = some (s, .error error) → r = .error error) :
    (Pass.mk (.ok (some source)) copies stated).Orderly m own r where
  sourced _ := ⟨source, rfl⟩
  inOrder := hcopies.prefix_todo
  complete _ hok := (hcopies.eq_todo hok).1
  stops _ _ _ hsplit hrest := hcopies.ok_before_last hsplit hrest
  stated s := by
    constructor
    · intro hwritten
      cases outcome with
      | error error =>
        obtain ⟨answer, hanswer⟩ := hwritten
        rw [(hfailed error rfl).1] at hanswer
        cases hanswer
      | ok _ =>
        obtain ⟨rfl, hnew⟩ := (hstated rfl s).mp hwritten
        exact ⟨.copied source rfl (hcopies.ok_of_outcome rfl), hnew⟩
    · rintro ⟨hreaches, hnew⟩
      cases hreaches with
      | missing hmissing => cases hmissing
      | copied _ _ hok => exact (hstated (hcopies.eq_todo hok).2 _).mpr ⟨rfl, hnew⟩
  unread _ := nofun
  failed _ _ hmem := hfailed _ (hcopies.outcome_of_error hmem)
  unwritten := hunwritten

/-- Nothing else comes of a mirror with a namespace than an orderly pass. -/
theorem orderly_of_comes {r : Except Error Action} (hns : m.metadata.ns = some own)
    (h : (reconcile m).Comes fit calls r) :
    ∃ p : Pass, calls = p.calls m own ∧ p.Orderly m own r := by
  simp only [reconcile, hns] at h
  obtain ⟨answer, later, rfl, -, hlater⟩ := Plan.comes_ask.mp h
  rcases answer with error | (_ | source)
  · -- The source could not be read.
    obtain ⟨rfl, rfl⟩ := Plan.comes_done.mp hlater
    refine ⟨⟨.error error, [], none⟩, rfl, orderly_of_no_source ?_ (fun s => ⟨?_, ?_⟩) ?_ ?_⟩
    · rintro source ⟨⟩
    · rintro ⟨answer, ⟨⟩⟩
    · rintro ⟨⟨⟨⟩⟩ | ⟨_, ⟨⟩, -⟩, -⟩
    · rintro _ ⟨⟩
      exact ⟨rfl, rfl⟩
    · rintro s e ⟨⟩
  · -- There is no source.
    obtain ⟨stated, rfl, hstated, hunwritten⟩ := comes_setStatus hlater
    have hreaches : ∀ s, (Pass.mk (.ok none) [] stated).Reaches m s ↔
        s = pendingStatus m (missingMessage m) := by
      intro s
      constructor
      · intro h
        cases h with
        | missing => rfl
        | copied _ hsource => cases hsource
      · rintro rfl
        exact .missing rfl
    refine ⟨⟨.ok none, [], stated⟩, rfl, orderly_of_no_source ?_ (fun s => ?_) ?_ hunwritten⟩
    · rintro source ⟨⟩
    · rw [hstated, hreaches]
    · rintro error ⟨⟩
  · -- The copies are applied, and a status is written only if none failed.
    obtain ⟨first, rest, copied, rfl, hfirst, hrest⟩ := Plan.comes_bind.mp hlater
    obtain ⟨copies, outcome, hcopies, rfl, rfl⟩ := comes_applyCopies hfirst
    rcases outcome with error | ⟨⟩
    · obtain ⟨rfl, rfl⟩ := Plan.comes_done.mp hrest
      refine ⟨⟨.ok (some source), copies, none⟩, rfl,
        orderly_of_source hcopies ?_ ?_ ?_⟩
      · rintro _ ⟨⟩
        exact ⟨rfl, rfl⟩
      · rintro ⟨⟩
      · rintro s e ⟨⟩
    · obtain ⟨stated, rfl, hstated, hunwritten⟩ := comes_setStatus hrest
      refine ⟨⟨.ok (some source), copies, stated⟩, rfl,
        orderly_of_source hcopies ?_ (fun _ => hstated) hunwritten⟩
      rintro error ⟨⟩

end Ways

/-! ## Requests -/

/-- A name without the marks of an address. -/
def IsPart (s : String) : Prop := ∀ c ∈ s.toList, c ≠ '/' ∧ c ≠ '?' ∧ c ≠ '#'

/-- The request changes something among the ConfigMaps of a namespace, as its address says. -/
def ChangesIn (request : Request) (ns : String) : Prop :=
  request.method ≠ .get ∧ (configMaps ns).toList <+: request.address.path.toList

/-- The call changes no ConfigMap of a namespace. -/
def Call.Spares (own : String) : Call → Prop
  | .apply ns _ _ => ns ≠ own ∧ IsPart ns
  | .delete ns _ => ns ≠ own ∧ IsPart ns
  | _ => True

instance (request : Request) (ns : String) : Decidable (ChangesIn request ns) :=
  inferInstanceAs (Decidable (_ ∧ _))

/-- The tree of a ConfigMap for a namespace with the content of a source, the two labels of a mirror's
copies, and nothing else. -/
structure IsCopy (source : ConfigMap) (m : ConfigMirror) (ns : String) (body : Json) : Prop where
  kind : body.field "kind" = .str "ConfigMap"
  data : body.field "data" = (source.data.map (Json.ofMap .str)).getD .null
  binaryData : body.field "binaryData" = (source.binaryData.map (Json.ofMap .str)).getD .null
  immutable : body.field "immutable" = (source.immutable.map .bool).getD .null
  metadata : body.field "metadata" = .obj [
    ("labels", .obj [(managedByLabel, .str managedByValue), (mirrorLabel, .str (mirrorId m))]),
    ("name", .str source.metadata.anyName), ("namespace", .str ns)]
  else_null : ∀ key ∉ ["apiVersion", "kind", "metadata", "data", "binaryData", "immutable"],
    body.field key = .null

section Requests

variable {m : ConfigMirror} {own ns name manager : String} {source : ConfigMap}
  {address : Http.Address} {query : List (String × String)}

theorem field_toJson (map : ConfigMap) (key : String) : map.toJson.field key = (([
    ("apiVersion", some (.str ResourceType.configMap.apiVersion)),
    ("kind", some (.str ResourceType.configMap.kind)),
    ("metadata", some map.metadata.toJson),
    ("data", map.data.map (Json.ofMap .str)),
    ("binaryData", map.binaryData.map (Json.ofMap .str)),
    ("immutable", map.immutable.map .bool)].lookup key).join).getD .null :=
  congrArg (Option.getD · Json.null) (Json.find?_orderFields_present (by simp) key)

theorem isCopy_mirrorCopy (source : ConfigMap) (m : ConfigMirror) (ns : String) :
    IsCopy source m ns (mirrorCopy source m ns).toJson where
  kind := by
    rw [field_toJson]
    rfl
  data := by
    rw [field_toJson]
    rfl
  binaryData := by
    rw [field_toJson]
    rfl
  immutable := by
    rw [field_toJson]
    rfl
  metadata := by
    have hlabels : ∀ a b : Json, Json.orderFields [(managedByLabel, a), (mirrorLabel, b)] =
        [(managedByLabel, a), (mirrorLabel, b)] := fun a b => by
      refine Json.Ordered.orderFields_eq (List.pairwise_pair.mpr ?_)
      show managedByLabel < mirrorLabel
      decide
    have hfields : ∀ a b c : Json,
        Json.orderFields [("labels", a), ("name", b), ("namespace", c)] =
          [("labels", a), ("name", b), ("namespace", c)] := fun a b c => by
      refine Json.Ordered.orderFields_eq ?_
      simp only [Json.Ordered, List.pairwise_cons, List.mem_cons, List.not_mem_nil, or_false,
        forall_eq_or_imp, forall_eq]
      exact ⟨⟨by decide, by decide⟩, by decide, nofun, .nil⟩
    rw [field_toJson]
    refine congrArg Json.obj ((hfields _ _ _).trans ?_)
    rw [← hlabels]
    rfl
  else_null key hkey := by
    simp only [List.mem_cons, List.not_mem_nil, or_false, not_or] at hkey
    obtain ⟨hversion, hkind, hmetadata, hdata, hbinary, himmutable⟩ := hkey
    rw [field_toJson]
    simp only [List.lookup_cons, beq_false_of_ne hversion, beq_false_of_ne hkind,
      beq_false_of_ne hmetadata, beq_false_of_ne hdata, beq_false_of_ne hbinary,
      beq_false_of_ne himmutable, List.lookup_nil]
    rfl

theorem path_of_ofText? {text : String} (h : Http.Address.ofText? text query = some address) :
    address.path.toList = text.toList.takeWhile fun c => c != '?' && c != '#' := by
  simp only [Http.Address.ofText?] at h
  split at h
  · rw [← Option.some.inj h]
    simp
  · cases h

/-- The beginning of a text that has no mark in it begins the path. -/
theorem prefix_path {start text : String} (h : Http.Address.ofText? text query = some address)
    (htext : start.toList <+: text.toList) (hstart : ∀ c ∈ start.toList, c ≠ '?' ∧ c ≠ '#') :
    start.toList <+: address.path.toList := by
  obtain ⟨rest, hrest⟩ := htext
  rw [path_of_ofText? h, ← hrest, List.takeWhile_append_of_pos]
  · exact List.prefix_append _ _
  · intro c hc
    simp [hstart c hc]

theorem configMaps_toList (ns : String) : (configMaps ns).toList =
    "/api/v1/namespaces/".toList ++ ns.toList ++ '/' :: "configmaps".toList := by
  have htext : configMaps ns = "/api/v1/namespaces/" ++ ns ++ "/" ++ "configmaps" := rfl
  rw [htext]
  simp

/-- An address among the ConfigMaps of one namespace is not one among those of another. -/
theorem eq_of_prefix_configMaps {path : List Char} (hns : IsPart ns) (hown : IsPart own)
    (h : (configMaps ns).toList <+: path) (h' : (configMaps own).toList <+: path) : ns = own := by
  obtain ⟨rest, hrest⟩ := h
  obtain ⟨rest', hrest'⟩ := h'
  have hsame := hrest.trans hrest'.symm
  simp only [configMaps_toList, List.append_assoc, List.cons_append] at hsame
  have hmark : ∀ {s : String}, IsPart s → '/' ∉ s.toList := fun hpart hmem =>
    (hpart _ hmem).1 rfl
  exact String.toList_inj.mp
    (Text.parts_unique (List.append_cancel_left hsame) (hmark hns) (hmark hown)).1

theorem configMaps_plain (hns : IsPart ns) : ∀ c ∈ (configMaps ns).toList, c ≠ '?' ∧ c ≠ '#' := by
  rw [configMaps_toList]
  simp only [List.forall_mem_append, List.forall_mem_cons]
  exact ⟨⟨by simp, fun c hc => (hns c hc).2⟩, by decide, by simp⟩

/-- A request for a call about other namespaces changes nothing in this one. -/
theorem StandsFor.not_changesIn {call : Call} {request : Request}
    (h : StandsFor (Http.MirrorClient.mirrors manager) call request) (hcall : call.Spares own)
    (hown : IsPart own) : ¬ChangesIn request own := by
  rintro ⟨hmethod, hpath⟩
  have hother : ∀ {ns name text : String} {query : List (String × String)} {address : Http.Address},
      ns ≠ own ∧ IsPart ns →
      Http.Address.ofText? (Http.Api.named (configMaps ns) name ++ text) query = some address →
      (configMaps own).toList <+: address.path.toList → False := by
    rintro ns name text query address ⟨hne, hns⟩ haddress hpath
    have hstart : (configMaps ns).toList <+:
        (Http.Api.named (configMaps ns) name ++ text).toList := by
      simp [Http.Api.named, List.append_assoc]
    exact hne (eq_of_prefix_configMaps hns hown
      (prefix_path haddress hstart (configMaps_plain hns)) hpath)
  cases h with
  | source => exact hmethod rfl
  | select => exact hmethod rfl
  | apply haddress => exact hother hcall haddress hpath
  | delete haddress => exact hother hcall haddress hpath
  | @writeStatus m name address hname haddress =>
    have hapis : "/apis".toList <+: address.path.toList := by
      refine prefix_path haddress ?_ (by simp)
      cases hns : m.metadata.ns with
      | none =>
        have htext : (Http.MirrorClient.mirrors manager).root none =
          "/apis" ++ "/kubeops.dev/v1alpha1/configmirrors" := rfl
        rw [htext]
        simp [Http.Api.named, List.append_assoc]
      | some ns =>
        have htext : (Http.MirrorClient.mirrors manager).root (some ns) =
          "/apis" ++ "/kubeops.dev/v1alpha1/namespaces/" ++ ns ++ "/" ++ "configmirrors" := rfl
        rw [htext]
        simp [Http.Api.named, List.append_assoc]
    have hapi : "/api/".toList <+: address.path.toList := by
      refine List.IsPrefix.trans ?_ hpath
      rw [configMaps_toList, List.append_assoc]
      exact List.IsPrefix.trans (by decide) (List.prefix_append _ _)
    exact absurd (List.prefix_of_prefix_length_le hapis hapi (by decide)) (by decide)

end Requests

/-! ## What is sent -/

/-- What is sent in a pass over a mirror in a namespace. -/
structure Pass.Sent (p : Pass) (m : ConfigMirror) (own manager : String)
    (asked : List ((q : Question) × q.Answer)) : Prop where
  /-- One request for each call, or none if the call fails before. -/
  sends : Sends (Http.MirrorClient.mirrors manager) (p.calls m own) asked
  /-- A source is what the reply to the first request says. -/
  read : ∀ source, p.found = .ok (some source) → ∃ request status body later,
    asked = ⟨.send request, .answered status body⟩ :: later ∧
      ConfigMap.reader.run? body.text = some source ∧
      ∀ tree, Json.Reader.tree.run? body.text = some tree → ConfigMap.ReadFrom tree source
  /-- A ConfigMap that is written is a copy of the source that was read, for another namespace. -/
  copies : ∀ request reply, ⟨.send request, reply⟩ ∈ asked → ∀ type body,
    request.content = some (type, body) → body.field "kind" = .str "ConfigMap" →
      ∃ source ns, p.found = .ok (some source) ∧ ns ∈ p.namespaces ∧ ns ≠ own ∧
        IsCopy source m ns body
  /-- It is written at an address elsewhere. -/
  elsewhere : IsPart own → (∀ ns ∈ p.namespaces, IsPart ns) → ∀ request reply,
    ⟨.send request, reply⟩ ∈ asked → ¬ChangesIn request own

namespace Pass

variable {p : Pass} {m : ConfigMirror} {own manager : String} {r : Except Error Action}

theorem mem_calls {call : Asked} (h : call ∈ p.calls m own) :
    call.1 = .source own m.spec.source ∨
      (∃ source ns, p.found = .ok (some source) ∧ ns ∈ p.namespaces ∧
        call.1 = .apply ns m.spec.source (mirrorCopy source m ns)) ∨
      ∃ s, call.1 = .writeStatus { m with status := some s } := by
  rcases List.mem_cons.mp h with rfl | h
  · exact .inl rfl
  rcases List.mem_append.mp h with h | h
  · obtain ⟨_ | _ | source, copies, stated⟩ := p
    · cases h
    · cases h
    · obtain ⟨⟨ns, answer⟩, hmem, rfl⟩ := List.mem_map.mp h
      exact .inr (.inl ⟨source, ns, rfl, List.mem_map.mpr ⟨_, hmem, rfl⟩, rfl⟩)
  · obtain ⟨found, copies, _ | ⟨s, answer⟩⟩ := p
    · cases h
    · obtain rfl := List.mem_singleton.mp h
      exact .inr (.inr ⟨s, rfl⟩)

/-- Copies go to other namespaces than the mirror's own. -/
theorem Orderly.ne_own (h : p.Orderly m own r) {ns : String} (hns : ns ∈ p.namespaces) :
    ns ≠ own := by
  have htarget := h.inOrder.subset hns
  simpa using (List.mem_filter.mp htarget).2

theorem Orderly.sent (h : p.Orderly m own r) {asked : List ((q : Question) × q.Answer)}
    (hsends : Sends (Http.MirrorClient.mirrors manager) (p.calls m own) asked) :
    p.Sent m own manager asked where
  sends := hsends
  read source hfound := by
    rw [calls, hfound] at hsends
    cases hsends with
    | refused _ herror => exact absurd rfl herror
    | sent hsettle =>
      obtain ⟨request, status, body, hsent, hread⟩ := comes_source hsettle
      cases hsent
      exact ⟨_, status, body, _, rfl, hread, fun _ => ConfigMap.readFrom_of_run? hread⟩
  copies request reply hmem type body hcontent hkind := by
    obtain ⟨call, hcall, hstands⟩ := hsends.stands hmem
    rcases mem_calls hcall with heq | ⟨source, ns, hfound, hns, heq⟩ | ⟨s, heq⟩
    · rw [heq] at hstands
      cases hstands
      cases hcontent
    · rw [heq] at hstands
      cases hstands
      obtain ⟨-, rfl⟩ := Prod.mk.inj (Option.some.inj hcontent)
      exact ⟨source, ns, hfound, hns, h.ne_own hns, isCopy_mirrorCopy source m ns⟩
    · rw [heq] at hstands
      cases hstands
      obtain ⟨-, rfl⟩ := Prod.mk.inj (Option.some.inj hcontent)
      cases hkind
  elsewhere hown hparts request reply hmem := by
    obtain ⟨call, hcall, hstands⟩ := hsends.stands hmem
    refine hstands.not_changesIn ?_ hown
    rcases mem_calls hcall with heq | ⟨source, ns, -, hns, heq⟩ | ⟨s, heq⟩
    · rw [heq]
      trivial
    · rw [heq]
      exact ⟨h.ne_own hns, hparts ns hns⟩
    · rw [heq]
      trivial

end Pass

/-- Whatever the server answers, a reconcile of a mirror with a namespace is an orderly pass: it
writes copies of the source that the server replied with, and, where namespaces are without the marks
of an address, no ConfigMap beside the source. -/
theorem reconcile_writes_copies {m : ConfigMirror} {own manager : String}
    (hns : m.metadata.ns = some own) {asked : List ((q : Question) × q.Answer)}
    {r : Except Error Action}
    (h : (Http.MirrorClient.dispatch (Http.MirrorClient.mirrors manager) (.reconcile m)).Comes
      (fun _ _ => True) asked r) :
    ∃ p : Pass, p.Orderly m own r ∧ p.Sent m own manager asked := by
  obtain ⟨calls, hcomes, hsettles⟩ := Plan.comes_interpret.mp h
  obtain ⟨p, rfl, hp⟩ := orderly_of_comes hns hcomes
  exact ⟨p, hp, hp.sent (sends_of_settles hsettles)⟩

/-! ### A copy that is refused

The second copy is refused, after the mirror's own namespace was passed over. -/

def spread : ConfigMirror where
  metadata := { name := some "shared", ns := some "platform" }
  spec := { source := "app", targetNamespaces := ["team-a", "platform", "team-b", "team-a"] }

def refusing : (q : Question) → q.Answer
  | .clock => ⟨0, 0⟩
  | .send request =>
    if request.address.path = "/api/v1/namespaces/team-b/configmaps/app" then
      .answered 500 { text := "" }
    else .answered 200 { text := "\x7b\"data\":\x7b\"k\":\"v\"\x7d\x7d" }

theorem reconcile_writes_copies_refused :
    let plan := Http.MirrorClient.dispatch (Http.MirrorClient.mirrors "operator") (.reconcile spread)
    let asked := (plan.asked refusing).map fun q => ⟨q, refusing q⟩
    asked.length = 3 ∧ ∃ p : Pass, p.Orderly spread "platform" (plan.answeredBy refusing) ∧
      p.Sent spread "platform" "operator" asked :=
  ⟨by decide +kernel, reconcile_writes_copies rfl (Plan.comes_answeredBy refusing _)⟩

/-! ### A target that leads back

A target goes into the path as it is, so one with the marks of an address can name another place. -/

def astray : ConfigMirror where
  metadata := { name := some "shared", ns := some "platform" }
  spec := { source := "app", targetNamespaces := ["platform/configmaps/app?"] }

/-- The copy for another namespace is applied to the source. -/
theorem marks_lead_back :
    let plan := Http.MirrorClient.dispatch (Http.MirrorClient.mirrors "operator") (.reconcile astray)
    astray.metadata.ns = some "platform" ∧ astray.spec.source = "app" ∧
      targets astray "platform" = ["platform/configmaps/app?"] ∧
      ∃ request, Question.send request ∈ plan.asked refusing ∧ ChangesIn request "platform" ∧
        request.address.path = "/api/v1/namespaces/platform/configmaps/app" := by
  intro plan
  have hany : (plan.asked refusing).any (fun question =>
      question.casesOn (fun request => decide (ChangesIn request "platform" ∧
        request.address.path = "/api/v1/namespaces/platform/configmaps/app")) false) = true := by
    decide +kernel
  obtain ⟨question, hmem, hback⟩ := List.any_eq_true.mp hany
  cases question with
  | clock => cases hback
  | send request => exact ⟨rfl, rfl, by decide, request, hmem, of_decide_eq_true hback⟩

end Reconciler.Mirror
