import Reconciler.Cache.Basic
import Reconciler.Proofs.Cache.Modulo
import Reconciler.Simulation.Widget

/-!
# What a classification means

A cache is used again and again, for any entities in any order. What it says of an entity depends on
two trees alone: the one the entity is written as, and the one of the last upsert under its key, if
that could be written and was neither removed nor cleared since (`lastTree?`). A change of status is
told exactly if the two differ modulo the ignored paths, but not modulo those and the status; a change
of the finalizers likewise; all else is told as another change (`classifies`).

Trees are those of serialized objects, in which every object lists its fields in order and none twice
(`Entity.IsTidy`).
-/

namespace Reconciler

/-- The entity, if it can be written, is written as a tree in order. -/
def Entity.IsTidy {K : Type} [Entity K] (e : K) : Prop :=
  ∀ tree, Entity.encode e = .ok tree → tree.Tidy

/-- Two trees differ modulo the ignored paths, and a place is all that they differ in. -/
def Json.ConfinedTo (place : Path) (ignored : List Path) (old new : Json) : Prop :=
  ¬EqualModulo ignored old new ∧ EqualModulo (place :: ignored) old new

instance (place : Path) (ignored : List Path) (old new : Json) :
    Decidable (Json.ConfinedTo place ignored old new) :=
  inferInstanceAs (Decidable (_ ∧ _))

/-! ## Paths and changes -/

namespace Change

theorem prefixes_disjoint {p : Path} (hstatus : ["status"] <+: p)
    (hfinalizers : ["metadata", "finalizers"] <+: p) : False := by
  obtain ⟨below, rfl⟩ := hstatus
  obtain ⟨hname, -⟩ := List.cons_prefix_cons.mp hfinalizers
  exact absurd hname (by decide)

theorem all_isPrefixOf_iff {q : Path} {paths : List Path} :
    paths.all (List.isPrefixOf q ·) = true ↔ ∀ p ∈ paths, q <+: p := by
  simp only [List.all_eq_true, List.isPrefixOf_iff_prefix]

theorem ofPaths_eq_status_iff {paths : List Path} :
    ofPaths paths = .status ↔ paths ≠ [] ∧ ∀ p ∈ paths, ["status"] <+: p := by
  rw [← all_isPrefixOf_iff, ofPaths]
  by_cases hnil : paths = []
  · simp [hnil]
  · by_cases hstatus : paths.all (List.isPrefixOf ["status"] ·) = true
    · simp [hnil, hstatus]
    · rw [if_neg hnil, if_neg hstatus]
      simp only [hstatus, Bool.false_eq_true, and_false, iff_false]
      split <;> nofun

theorem ofPaths_eq_finalizers_iff {paths : List Path} :
    ofPaths paths = .finalizers ↔ paths ≠ [] ∧ ∀ p ∈ paths, ["metadata", "finalizers"] <+: p := by
  rw [← all_isPrefixOf_iff, ofPaths]
  by_cases hnil : paths = []
  · simp [hnil]
  · -- The status is looked for first, but no path leads to both places.
    obtain ⟨p, hp⟩ := List.exists_mem_of_ne_nil _ hnil
    by_cases hstatus : paths.all (List.isPrefixOf ["status"] ·) = true
    · have hnot : ¬paths.all (List.isPrefixOf ["metadata", "finalizers"] ·) = true := fun hall =>
        prefixes_disjoint (all_isPrefixOf_iff.mp hstatus p hp) (all_isPrefixOf_iff.mp hall p hp)
      simp [hnil, hstatus, hnot]
    · simp [hnil, hstatus]

variable {ignored : List Path} {old new : Json}

theorem ofPaths_diffPaths_eq_status_iff (hold : old.Tidy) (hnew : new.Tidy) :
    ofPaths (diffPaths ignored old new) = .status ↔ Json.ConfinedTo ["status"] ignored old new := by
  rw [ofPaths_eq_status_iff, Json.ConfinedTo, Diff.equalModulo_iff hold hnew,
    Diff.equalModulo_cons_iff hold hnew]

theorem ofPaths_diffPaths_eq_finalizers_iff (hold : old.Tidy) (hnew : new.Tidy) :
    ofPaths (diffPaths ignored old new) = .finalizers ↔
      Json.ConfinedTo ["metadata", "finalizers"] ignored old new := by
  rw [ofPaths_eq_finalizers_iff, Json.ConfinedTo, Diff.equalModulo_iff hold hnew,
    Diff.equalModulo_cons_iff hold hnew]

end Change

namespace Cache

/-! ## Snapshots under keys -/

section Keys

variable {c : Cache} {key other : String} {tree : Json}

theorem find?_erase : (c.erase other).find? key = if other = key then none else c.find? key := by
  unfold find? erase
  rw [List.find?_filter]
  by_cases hkey : other = key
  · subst hkey
    simp
  · rw [if_neg hkey]
    congr 2
    funext entry
    by_cases hentry : entry.1 = key
    · simp [hentry, Ne.symm hkey]
    · simp [hentry]

theorem find?_insert :
    (c.insert other tree).find? key = if other = key then some tree else c.find? key := by
  by_cases hkey : other = key
  · subst hkey
    simp [find?, insert]
  · have hrest : (c.erase other).find? key = _ := find?_erase
    rw [if_neg hkey] at hrest ⊢
    rw [← hrest]
    simp [find?, insert, hkey]

end Keys

/-! ## Histories -/

variable {K : Type} [Entity K]

/-- The key of an entity's snapshot. -/
def snapshotKey (e : K) : String := keyOf (Entity.metadata e)

section Use

omit [Entity K]

/-- What is done with a cache. -/
inductive Use (K : Type) where
  | upsert (e : K)
  | diff (e : K)
  | remove (e : K)
  | clear

/-- The entity whose tree is kept by a use. -/
def Use.kept? : Use K → Option K
  | upsert e => some e
  | _ => none

end Use

/-- A use that concerns the snapshot under a key. -/
def Use.Touches (key : String) : Use K → Prop
  | upsert e => snapshotKey e = key
  | diff _ => False
  | remove e => snapshotKey e = key
  | clear => True

/-- The cache after a use. -/
def use (c : Cache) : Use K → Cache
  | .upsert e => (c.upsert e).1
  | .diff _ => c
  | .remove e => (c.remove e).1
  | .clear => c.clear

/-- The cache that was empty at first, after a history of uses, of which the latest comes first. -/
def after (ignored : List Path) : List (Use K) → Cache
  | [] => { ignored }
  | latest :: earlier => (after ignored earlier).use latest

/-- The tree of the last upsert under a key, if it could be written and was neither removed nor
cleared since. -/
def lastTree? (key : String) : List (Use K) → Option Json
  | [] => none
  | .upsert e :: earlier =>
    if snapshotKey e = key then (Entity.encode e).toOption else lastTree? key earlier
  | .diff _ :: earlier => lastTree? key earlier
  | .remove e :: earlier => if snapshotKey e = key then none else lastTree? key earlier
  | .clear :: _ => none

section Histories

variable {c : Cache} {ignored : List Path} {history : List (Use K)} {key : String} {e x : K}
  {tree old new : Json}

theorem ignored_use (c : Cache) (u : Use K) : (c.use u).ignored = c.ignored := by
  cases u with
  | upsert e =>
    simp only [use, upsert]
    cases Entity.encode e <;> rfl
  | diff e => rfl
  | remove e => rfl
  | clear => rfl

theorem ignored_after (ignored : List Path) (history : List (Use K)) :
    (after ignored history).ignored = ignored := by
  induction history with
  | nil => rfl
  | cons latest earlier ih => rw [after, ignored_use, ih]

theorem find?_upsert : (c.upsert e).1.find? key =
    if snapshotKey e = key then (Entity.encode e).toOption else c.find? key := by
  unfold upsert
  cases Entity.encode e with
  | error message => exact find?_erase
  | ok tree => exact find?_insert

theorem find?_use_of_not_touches {u : Use K} (h : ¬u.Touches key) :
    (c.use u).find? key = c.find? key := by
  cases u with
  | upsert e => rw [use, find?_upsert, if_neg (show ¬snapshotKey e = key from h)]
  | diff e => rfl
  | remove e => exact find?_erase.trans (if_neg h)
  | clear => exact absurd trivial h

/-- A cache holds under every key the last tree there. -/
theorem find?_after (ignored : List Path) (history : List (Use K)) (key : String) :
    (after ignored history).find? key = lastTree? key history := by
  induction history with
  | nil => rfl
  | cons latest earlier ih =>
    cases latest with
    | upsert e => rw [after, use, find?_upsert, lastTree?, ih]
    | diff e => exact ih
    | remove e =>
      rw [lastTree?, ← ih]
      exact find?_erase
    | clear => rfl

theorem tidy_of_lastTree? (htidy : ∀ u ∈ history, ∀ x, u.kept? = some x → Entity.IsTidy x)
    (h : lastTree? key history = some tree) : tree.Tidy := by
  induction history with
  | nil => cases h
  | cons latest earlier ih =>
    have hearlier := ih fun u hmem => htidy u (List.mem_cons_of_mem _ hmem)
    cases latest with
    | upsert e =>
      rw [lastTree?] at h
      split at h
      · refine htidy _ List.mem_cons_self e rfl tree ?_
        cases hencode : Entity.encode e with
        | error message => rw [hencode] at h; cases h
        | ok written =>
          rw [hencode] at h
          exact congrArg _ (Option.some.inj h)
      · exact hearlier h
    | diff e => exact hearlier h
    | remove e =>
      rw [lastTree?] at h
      split at h
      · cases h
      · exact hearlier h
    | clear => cases h

/-! ## What is told -/

/-- The last tree of an entity, and the one that it is written as now. -/
structure Versions (history : List (Use K)) (e : K) (old new : Json) : Prop where
  old : lastTree? (snapshotKey e) history = some old
  new : Entity.encode e = .ok new

/-- What an upsert tells depends on the snapshot alone. -/
theorem upsert_snd_eq (c : Cache) (e : K) : (c.upsert e).2 =
    match c.find? (snapshotKey e), Entity.encode e with
    | some old, .ok new => Change.ofPaths (diffPaths c.ignored old new)
    | _, _ => .other := by
  unfold upsert
  rw [show c.find? (snapshotKey e) = c.find? (keyOf (Entity.metadata e)) from rfl]
  cases hencode : Entity.encode e with
  | error message => cases c.find? (keyOf (Entity.metadata e)) <;> rfl
  | ok tree => cases hfind : c.find? (keyOf (Entity.metadata e)) <;> simp [hfind]

theorem diff?_eq (c : Cache) (e : K) : c.diff? e =
    match c.find? (snapshotKey e), Entity.encode e with
    | some old, .ok new => some ((diffPaths c.ignored old new).map Path.dotted)
    | _, _ => none := by
  unfold diff?
  rw [show c.find? (snapshotKey e) = c.find? (keyOf (Entity.metadata e)) from rfl]
  cases c.find? (keyOf (Entity.metadata e)) <;> cases Entity.encode e <;> rfl

theorem remove_snd_eq (c : Cache) (e : K) : (c.remove e).2 = (c.find? (snapshotKey e)).isSome := rfl

theorem upsert_after_eq_iff {change : Change} (hchange : change ≠ .other) :
    ((after ignored history).upsert e).2 = change ↔ ∃ old new, Versions history e old new ∧
      Change.ofPaths (diffPaths ignored old new) = change := by
  rw [upsert_snd_eq, find?_after, ignored_after]
  constructor
  · intro h
    split at h
    · next old new hold hnew => exact ⟨old, new, ⟨hold, hnew⟩, h⟩
    · exact absurd h.symm hchange
  · rintro ⟨old, new, ⟨hold, hnew⟩, h⟩
    rw [hold, hnew]
    exact h

theorem diff?_after_eq_some_iff {paths : List String} :
    (after ignored history).diff? e = some paths ↔ ∃ old new, Versions history e old new ∧
      (diffPaths ignored old new).map Path.dotted = paths := by
  rw [diff?_eq, find?_after, ignored_after]
  constructor
  · intro h
    split at h
    · next old new hold hnew => exact ⟨old, new, ⟨hold, hnew⟩, Option.some.inj h⟩
    · cases h
  · rintro ⟨old, new, ⟨hold, hnew⟩, h⟩
    rw [hold, hnew]
    exact congrArg some h

/-- What is answered about an entity is the same for two caches with the same snapshot of it. -/
structure SameAnswers (c c' : Cache) (e : K) : Prop where
  upsert : (c'.upsert e).2 = (c.upsert e).2
  diff : c'.diff? e = c.diff? e
  remove : (c'.remove e).2 = (c.remove e).2

theorem SameAnswers.of_find? {c' : Cache} (hignored : c'.ignored = c.ignored)
    (hfind : c'.find? (snapshotKey e) = c.find? (snapshotKey e)) : SameAnswers c c' e where
  upsert := by rw [upsert_snd_eq, upsert_snd_eq, hignored, hfind]
  diff := by rw [diff?_eq, diff?_eq, hignored, hfind]
  remove := by rw [remove_snd_eq, remove_snd_eq, hfind]

/-- What a cache with an ignore list says of an entity after a history. -/
structure Classifies (ignored : List Path) (history : List (Use K)) (e : K) : Prop where
  /-- A change of the status alone. -/
  status : ((after ignored history).upsert e).2 = .status ↔
    ∃ old new, Versions history e old new ∧ Json.ConfinedTo ["status"] ignored old new
  /-- A change of the finalizers alone. -/
  finalizers : ((after ignored history).upsert e).2 = .finalizers ↔ ∃ old new,
    Versions history e old new ∧ Json.ConfinedTo ["metadata", "finalizers"] ignored old new
  /-- Every other case. -/
  other : ((after ignored history).upsert e).2 = .other ↔
    ∀ old new, Versions history e old new → ¬Json.ConfinedTo ["status"] ignored old new ∧
      ¬Json.ConfinedTo ["metadata", "finalizers"] ignored old new
  /-- There is a comparison if there are two trees to compare. -/
  compares : ((after ignored history).diff? e).isSome ↔ ∃ old new, Versions history e old new
  /-- It has nothing to report if the trees are equal modulo the ignored paths. -/
  unchanged : (after ignored history).diff? e = some [] ↔
    ∃ old new, Versions history e old new ∧ Json.EqualModulo ignored old new
  removes : ((after ignored history).remove e).2 = (lastTree? (snapshotKey e) history).isSome
  /-- After an upsert of something that cannot be written there is nothing to compare with. -/
  forgets : ∀ message, Entity.encode e = .error message →
    ∀ x : K, snapshotKey x = snapshotKey e →
    let c := ((after ignored history).upsert e).1
    c.diff? x = none ∧ (c.upsert x).2 = .other ∧ (c.remove x).2 = false
  /-- What concerns other keys makes no difference. -/
  spares : ∀ u : Use K, ¬u.Touches (snapshotKey e) →
    SameAnswers (after ignored history) ((after ignored history).use u) e

theorem forgets_of_error {message : String} (h : Entity.encode e = .error message) (c : Cache) {x : K}
    (hkey : snapshotKey x = snapshotKey e) : (c.upsert e).1.diff? x = none ∧
      ((c.upsert e).1.upsert x).2 = .other ∧ ((c.upsert e).1.remove x).2 = false := by
  have hnone : (c.upsert e).1.find? (snapshotKey x) = none := by
    rw [find?_upsert, if_pos hkey.symm, h]
    rfl
  rw [diff?_eq, upsert_snd_eq, remove_snd_eq, hnone]
  exact ⟨rfl, rfl, rfl⟩

theorem compares_iff : ((after ignored history).diff? e).isSome ↔
    ∃ old new, Versions history e old new := by
  rw [Option.isSome_iff_exists]
  simp only [diff?_after_eq_some_iff]
  exact ⟨fun ⟨_, old, new, h, _⟩ => ⟨old, new, h⟩, fun ⟨old, new, h⟩ => ⟨_, old, new, h, rfl⟩⟩

end Histories

/-! ## A widget after a restart of its watch

The status changes, beside what is ignored and a field that is `null` in one tree and missing in the
other. Before, another widget was removed and one of the same uid could not be written. -/

section Widgets

open Simulation (Widget)

def sighting (uid version : String) (fields : List (String × Json)) : Widget where
  metadata := { name := some "w", uid := some uid, resourceVersion := some version }
  fields

def parts (size : List (String × Json)) (up : Int) : List (String × Json) :=
  [("spec", .obj size), ("status", .obj [("up", .int up)])]

def sightings : List (Use Widget) := [
  .remove (sighting "u2" "7" []),
  .upsert (sighting "u1" "6" (parts [("size", .null)] 1)),
  .upsert (sighting "u1" "5" [(Widget.poison, .bool true)]),
  .clear,
  .upsert (sighting "u2" "4" [])]

theorem isTidy_sighting {uid version : String} {fields : List (String × Json)}
    (h : (Json.obj fields).Tidy) : Entity.IsTidy (sighting uid version fields) := by
  intro tree htree
  change (if (Json.find? Widget.poison fields).isSome then _ else _) = _ at htree
  split at htree
  · cases htree
  · obtain rfl := Except.ok.inj htree
    refine ⟨h.1.insertField _ _, Json.tidyFields_iff.mpr fun field hmem => ?_⟩
    rcases Json.mem_insertField hmem with rfl | hmem
    · refine Json.tidy_ofPresent ?_
      simp [sighting, Json.Tidy]
    · exact Json.tidyFields_iff.mp h.2 field hmem

theorem tidy_parts {size : List (String × Json)} (h : (Json.obj size).Tidy) (up : Int) :
    (Json.obj (parts size up)).Tidy := by
  refine ⟨?_, h, ?_, trivial⟩
  · simp only [parts, Json.Ordered, List.pairwise_cons, List.mem_singleton, forall_eq]
    exact ⟨by decide, by simp⟩
  · simp [Json.Tidy, Json.TidyFields, Json.Ordered]

theorem isTidy_sightings : ∀ u ∈ sightings, ∀ x, u.kept? = some x → Entity.IsTidy x := by
  simp only [sightings, List.forall_mem_cons, Use.kept?, Option.some.injEq, reduceCtorEq,
    forall_eq', IsEmpty.forall_iff, implies_true, true_and, List.not_mem_nil, and_true]
  refine ⟨isTidy_sighting (tidy_parts ?_ 1), isTidy_sighting ?_, isTidy_sighting ?_⟩ <;>
    simp [Json.Tidy, Json.TidyFields, Json.Ordered]

end Widgets

end Cache

end Reconciler
