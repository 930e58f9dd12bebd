import Reconciler.Proofs.Mirror.Truth

/-!
# Labels and selectors

A text that joins two parts with a mark is the text of these parts only, if the mark is not in the
first part. So a selector of one label selects what bears that label, and the selector of a mirror
selects what is marked with its id (`selects_copySelector`).
-/

namespace Reconciler

namespace Text

/-- The mark ends the first part of a text. -/
theorem parts_unique {mark : Char} {a b x y : List Char} (h : a ++ mark :: x = b ++ mark :: y)
    (ha : mark ∉ a) (hb : mark ∉ b) : a = b ∧ x = y := by
  induction a generalizing b with
  | nil =>
    cases b with
    | nil => exact ⟨rfl, (List.cons.inj h).2⟩
    | cons c rest => exact absurd ((List.cons.inj h).1 ▸ List.mem_cons_self) hb
  | cons c rest ih =>
    cases b with
    | nil => exact absurd ((List.cons.inj h).1 ▸ List.mem_cons_self) ha
    | cons d more =>
      obtain ⟨rfl, hrest⟩ := List.cons.inj h
      obtain ⟨rfl, hxy⟩ := ih hrest (List.not_mem_of_not_mem_cons ha)
        (List.not_mem_of_not_mem_cons hb)
      exact ⟨rfl, hxy⟩

/-- Texts joined with a mark have the same parts. -/
theorem joined_unique (mark : Char) {a b x y : String}
    (h : a ++ String.singleton mark ++ x = b ++ String.singleton mark ++ y)
    (ha : mark ∉ a.toList) (hb : mark ∉ b.toList) : a = b ∧ x = y := by
  have hlists := congrArg String.toList h
  simp only [String.toList_append, String.toList_singleton, List.append_assoc,
    List.singleton_append] at hlists
  obtain ⟨hfirst, hsecond⟩ := parts_unique hlists ha hb
  exact ⟨String.toList_inj.mp hfirst, String.toList_inj.mp hsecond⟩

end Text

namespace Mirror

/-- A ConfigMap has the label that a selector of one label asks for. -/
def Selects (selector : String) (map : ConfigMap) : Prop :=
  ∃ key value, selector = key ++ "=" ++ value ∧ '=' ∉ key.toList ∧
    (map.metadata.labels.getD []).lookup key = some value

theorem selects_iff {key value : String} (hkey : '=' ∉ key.toList) {map : ConfigMap} :
    Selects (key ++ "=" ++ value) map ↔
      (map.metadata.labels.getD []).lookup key = some value := by
  constructor
  · rintro ⟨key', value', heq, hkey', hlookup⟩
    obtain ⟨rfl, rfl⟩ := Text.joined_unique '=' heq hkey hkey'
    exact hlookup
  · exact fun hlookup => ⟨key, value, rfl, hkey, hlookup⟩

/-- A mirror's selector selects what bears the mirror's label. -/
theorem selects_copySelector {m : ConfigMirror} {map : ConfigMap} :
    Selects (copySelector m) map ↔ Marks m map :=
  selects_iff (by decide)

end Mirror

end Reconciler
