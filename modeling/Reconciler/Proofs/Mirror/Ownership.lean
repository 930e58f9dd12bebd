import Reconciler.Proofs.Mirror.Cleaning

/-!
# Whose copies are whose

A copy is labelled with the namespace and the name of its mirror and a dot between. A namespace has
no dot, so the label names one mirror only, and a cleanup selects and deletes no other mirror's
copies. But a label's value has at most 63 characters and a name may have 253: the server takes the
labels of a mirror's copies exactly if its namespace and name have at most 62 characters together
(`owner_label_iff`).
-/

namespace Reconciler

namespace Text

/-! ## Names and labels, as the server admits them -/

/-- A text of `inner` characters that begins and ends with one of `outer`. -/
def Framed (outer inner : Char → Bool) (s : List Char) : Prop :=
  s.head?.any outer ∧ s.getLast?.any outer ∧ s.all inner

def dnsOuter (c : Char) : Bool := c.isLower || c.isDigit

def dnsInner (c : Char) : Bool := dnsOuter c || c == '-'

def labelInner (c : Char) : Bool := c.isAlphanum || c == '-' || c == '_' || c == '.'

def IsDnsLabel (s : String) : Prop := s.length ≤ 63 ∧ Framed dnsOuter dnsInner s.toList

/-- A DNS subdomain: parts with dots between, each as long as it likes. -/
def IsDnsSubdomain (s : String) : Prop :=
  s.length ≤ 253 ∧ ∀ part ∈ s.toList.splitOn '.', Framed dnsOuter dnsInner part

def IsLabelValue (s : String) : Prop := s.length ≤ 63 ∧ Framed Char.isAlphanum labelInner s.toList

/-- A key of a label: a name in a domain. -/
def IsLabelKey (s : String) : Prop :=
  ∃ domain name, s = domain ++ "/" ++ name ∧ IsDnsSubdomain domain ∧ IsLabelValue name

instance (outer inner : Char → Bool) (s : List Char) : Decidable (Framed outer inner s) :=
  inferInstanceAs (Decidable (_ ∧ _ ∧ _))

instance (s : String) : Decidable (IsDnsLabel s) := inferInstanceAs (Decidable (_ ∧ _))

instance (s : String) : Decidable (IsDnsSubdomain s) := inferInstanceAs (Decidable (_ ∧ _))

instance (s : String) : Decidable (IsLabelValue s) := inferInstanceAs (Decidable (_ ∧ _))

section Framed

variable {outer inner outer' inner' : Char → Bool} {s t : List Char}

theorem Framed.mono (h : Framed outer inner s) (houter : ∀ c, outer c → outer' c)
    (hinner : ∀ c, inner c → inner' c) : Framed outer' inner' s := by
  obtain ⟨hfirst, hlast, hall⟩ := h
  have hmono : ∀ {o : Option Char}, o.any outer → o.any outer' := by
    intro o ho
    obtain ⟨c, hc, hcouter⟩ := (Option.any_eq_true outer o).mp ho
    exact (Option.any_eq_true outer' o).mpr ⟨c, hc, houter c hcouter⟩
  refine ⟨hmono hfirst, hmono hlast, List.all_eq_true.mpr fun c hc => ?_⟩
  exact hinner c (List.all_eq_true.mp hall c hc)

theorem Framed.ne_nil (h : Framed outer inner s) : s ≠ [] := by
  rintro rfl
  exact absurd h.1 Bool.false_ne_true

theorem Framed.joined {mark : Char} (hs : Framed outer inner s) (ht : Framed outer inner t)
    (hmark : inner mark) : Framed outer inner (s ++ mark :: t) := by
  refine ⟨?_, ?_, ?_⟩
  · rw [List.head?_append_of_ne_nil _ hs.ne_nil]
    exact hs.1
  · rw [List.getLast?_append_of_ne_nil _ (List.cons_ne_nil mark t), ← List.singleton_append,
      List.getLast?_append_of_ne_nil _ ht.ne_nil]
    exact ht.2.1
  · rw [List.all_append, List.all_cons, hs.2.2, ht.2.2, hmark]
    rfl

theorem framed_intercalate {mark : Char} (hmark : inner mark) {parts : List (List Char)}
    (hne : parts ≠ []) (h : ∀ part ∈ parts, Framed outer inner part) :
    Framed outer inner ([mark].intercalate parts) := by
  induction parts with
  | nil => exact absurd rfl hne
  | cons part rest ih =>
    obtain ⟨hpart, hrest⟩ := List.forall_mem_cons.mp h
    cases rest with
    | nil => rwa [List.intercalate_singleton]
    | cons next more =>
      rw [List.intercalate_cons_cons, List.append_assoc, List.singleton_append]
      exact hpart.joined (ih (List.cons_ne_nil _ _) hrest) hmark

end Framed

theorem isAlphanum_of_dnsOuter (c : Char) (h : dnsOuter c) : c.isAlphanum := by
  have hclasses : c.isAlphanum = (c.isUpper || c.isLower || c.isDigit) := rfl
  rw [hclasses, Bool.or_assoc]
  exact Bool.or_eq_true_iff.mpr (.inr h)

theorem labelInner_of_dnsInner (c : Char) (h : dnsInner c) : labelInner c := by
  rcases Bool.or_eq_true_iff.mp h with houter | hhyphen
  · simp [labelInner, isAlphanum_of_dnsOuter c houter]
  · simp [labelInner, eq_of_beq hhyphen]

/-- What frames a part of a DNS name frames a label's value. -/
theorem Framed.label {s : List Char} (h : Framed dnsOuter dnsInner s) :
    Framed Char.isAlphanum labelInner s :=
  h.mono isAlphanum_of_dnsOuter labelInner_of_dnsInner

theorem IsDnsLabel.no_dot {s : String} (h : IsDnsLabel s) : '.' ∉ s.toList := by
  intro hdot
  exact absurd (List.all_eq_true.mp h.2.2.2 '.' hdot) (by decide)

theorem IsDnsSubdomain.framed {s : String} (h : IsDnsSubdomain s) :
    Framed Char.isAlphanum labelInner s.toList := by
  -- A label's value may have dots anywhere inside, so it is enough that the parts are framed.
  have hparts : ['.'].intercalate (s.toList.splitOn '.') = s.toList := List.intercalate_splitOn '.'
  rw [← hparts]
  exact framed_intercalate (by decide) (List.splitOn_ne_nil _ _) fun part hpart =>
    (h.2 part hpart).label

/-- A namespace and a name with a dot between are a label's value if that is not too long. -/
theorem isLabelValue_joined {ns name : String} (hns : IsDnsLabel ns) (hname : IsDnsSubdomain name) :
    IsLabelValue (ns ++ "." ++ name) ↔ ns.length + name.length ≤ 62 := by
  have hlength : (ns ++ "." ++ name).length = ns.length + 1 + name.length := by
    rw [String.length_append, String.length_append]
    rfl
  have htext : (ns ++ "." ++ name).toList = ns.toList ++ '.' :: name.toList := by simp
  constructor
  · intro h
    have hshort := h.1
    omega
  · intro h
    refine ⟨by omega, ?_⟩
    rw [htext]
    exact hns.2.label.joined hname.framed (by decide)

end Text

namespace Mirror

open Text

/-! ## Owners -/

/-- A ConfigMirror has a namespace and a name that the server admits. -/
structure Admitted (m : ConfigMirror) (ns name : String) : Prop where
  namespaced : m.metadata.ns = some ns
  named : m.metadata.name = some name
  label : IsDnsLabel ns
  subdomain : IsDnsSubdomain name

/-- The server takes the labels of a ConfigMap. -/
def Labelled (map : ConfigMap) : Prop :=
  ∀ label ∈ map.metadata.labels.getD [], IsLabelKey label.1 ∧ IsLabelValue label.2

section Owners

variable {m m' : ConfigMirror} {ns name ns' name' : String}

theorem Admitted.mirrorId_eq (h : Admitted m ns name) : mirrorId m = ns ++ "." ++ name := by
  simp [mirrorId, Metadata.anyName, h.namespaced, h.named]

theorem Admitted.isLabelValue_iff (h : Admitted m ns name) :
    IsLabelValue (mirrorId m) ↔ ns.length + name.length ≤ 62 := by
  rw [h.mirrorId_eq]
  exact isLabelValue_joined h.label h.subdomain

/-- The id is all that the server may refuse of a copy's labels. -/
theorem labelled_mirrorCopy {source : ConfigMap} {target : String} :
    Labelled (mirrorCopy source m target) ↔ IsLabelValue (mirrorId m) := by
  have hmanaged : IsLabelKey managedByLabel := ⟨"app.kubernetes.io", "managed-by", by decide⟩
  have hmirror : IsLabelKey mirrorLabel := ⟨"kubeops.dev", "mirror", by decide⟩
  have hvalue : IsLabelValue managedByValue := by decide
  simp [Labelled, mirrorCopy, hmanaged, hmirror, hvalue]

/-- Mirrors with the same id have the same namespace and name. -/
theorem Admitted.mirrorId_inj (h : Admitted m ns name) (h' : Admitted m' ns' name') :
    mirrorId m' = mirrorId m ↔ ns' = ns ∧ name' = name := by
  rw [h.mirrorId_eq, h'.mirrorId_eq]
  constructor
  · intro heq
    obtain ⟨rfl, rfl⟩ := joined_unique '.' heq h'.label.no_dot h.label.no_dot
    exact ⟨rfl, rfl⟩
  · rintro ⟨rfl, rfl⟩
    rfl

/-- A ConfigMap is marked with one id only. -/
theorem Marks.mirrorId_eq {map : ConfigMap} (h : Marks m map) (h' : Marks m' map) :
    mirrorId m' = mirrorId m := Option.some.inj (h'.symm.trans h)

theorem selects_other_copy {source : ConfigMap} {target : String} :
    Selects (copySelector m) (mirrorCopy source m' target) ↔ mirrorId m' = mirrorId m := by
  rw [selects_copySelector]
  constructor
  · exact fun h => h.mirrorId_eq (Cluster.marks_mirrorCopy source m' target)
  · exact fun h => (Cluster.marks_congr h _).mp (Cluster.marks_mirrorCopy source m' target)

end Owners

/-- The id of a mirror with an admitted namespace and name is a label's value, and the server takes
its copies, exactly if these have at most 62 characters together. No other mirror has its id, and its
cleanup neither selects nor deletes another mirror's copies. -/
theorem owner_label_iff {m : ConfigMirror} {ns name : String} (h : Admitted m ns name) :
    (IsLabelValue (mirrorId m) ↔ ns.length + name.length ≤ 62) ∧
    (∀ source target, Labelled (mirrorCopy source m target) ↔ ns.length + name.length ≤ 62) ∧
    ∀ m' ns' name', Admitted m' ns' name' →
      (mirrorId m' = mirrorId m ↔ ns' = ns ∧ name' = name) ∧
      (∀ source target, Selects (copySelector m) (mirrorCopy source m' target) ↔
        ns' = ns ∧ name' = name) ∧
      ∀ c calls removed c' r, c.Placed → Maps.Performs c (cleanUp m) calls removed c' r →
        ∀ map ∈ removed, Marks m' map → ns' = ns ∧ name' = name := by
  refine ⟨h.isLabelValue_iff, fun source target => ?_, fun m' ns' name' h' => ?_⟩
  · rw [labelled_mirrorCopy, h.isLabelValue_iff]
  · have hinj := h.mirrorId_inj h'
    refine ⟨hinj, fun source target => ?_, ?_⟩
    · rw [selects_other_copy, hinj]
    · intro c calls removed c' r hplaced hrun map hmap hmarks
      have hown : Marks m map := (Maps.performs_cleanUp hplaced hrun).spares map hmap
      exact hinj.mp (hown.mirrorId_eq hmarks)

/-- A mirror with a dot in its name. -/
def dotted : ConfigMirror where
  metadata := { name := some "web.cache", ns := some "team-a" }
  spec := { source := "app" }

/-- A mirror whose namespace and name are those of `dotted` cut at another place. -/
def recut : ConfigMirror where
  metadata := { name := some "a.web.cache", ns := some "team" }
  spec := { source := "app" }

theorem owner_label_iff_dotted :
    Admitted dotted "team-a" "web.cache" ∧ Admitted recut "team" "a.web.cache" ∧
    IsLabelValue "team-a.web.cache" ∧ mirrorId recut ≠ mirrorId dotted ∧
    ¬Selects (copySelector dotted)
      (mirrorCopy { metadata := { name := some "app" } } recut "web") := by
  have hdotted : Admitted dotted "team-a" "web.cache" := ⟨rfl, rfl, by decide, by decide⟩
  have hrecut : Admitted recut "team" "a.web.cache" := ⟨rfl, rfl, by decide, by decide⟩
  have hother : ¬("team" = "team-a" ∧ "a.web.cache" = "web.cache") := by decide
  obtain ⟨hvalue, -, hothers⟩ := owner_label_iff hdotted
  obtain ⟨hinj, hselects, -⟩ := hothers recut "team" "a.web.cache" hrecut
  refine ⟨hdotted, hrecut, ?_, fun heq => hother (hinj.mp heq), fun h => hother ?_⟩
  · rw [hdotted.mirrorId_eq] at hvalue
    exact hvalue.mpr (by decide)
  · exact (hselects _ _).mp h

/-- A mirror with a long name. -/
def longNamed : ConfigMirror where
  metadata := {
    name := some "shared-settings-of-the-payment-gateway-in-every-cluster"
    ns := some "platform" }
  spec := { source := "app" }

/-- The copies of a mirror with a name of 55 characters have a label with a value of 64. -/
theorem long_name_refused :
    Admitted longNamed "platform" "shared-settings-of-the-payment-gateway-in-every-cluster" ∧
    (mirrorId longNamed).length = 64 ∧ ¬IsLabelValue (mirrorId longNamed) ∧
    ∀ source target, ¬Labelled (mirrorCopy source longNamed target) := by
  have hlong : Admitted longNamed "platform"
      "shared-settings-of-the-payment-gateway-in-every-cluster" :=
    ⟨rfl, rfl, by decide, by decide⟩
  have hvalue : ¬IsLabelValue (mirrorId longNamed) := by
    rw [hlong.isLabelValue_iff]
    decide
  refine ⟨hlong, by decide, hvalue, fun source target h => ?_⟩
  exact hvalue (labelled_mirrorCopy.mp h)

end Mirror

end Reconciler
