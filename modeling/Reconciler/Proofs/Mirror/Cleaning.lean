import Reconciler.Proofs.Dispatch.Releasing
import Reconciler.Proofs.Mirror.Labels

/-!
# Copies are gone before their mirror is

The cleanup of a mirror is performed in a cluster where every call may fail, and a delete that fails
may have been carried out all the same. A list brings what its selector selects, a delete of what is
gone is answered so, and others may delete ConfigMaps at any time. `Cleans` says what comes of a
cleanup, `Meets` what the calls of a dispatcher meet when its finalizer is the cleanup. By the time of
an update that takes the cleanup off a mirror, no ConfigMap with the mirror's label is left
(`cleanup_before_release`).
-/

namespace Reconciler.Mirror

/-- The ConfigMaps of a cluster, by namespace and name. -/
structure Maps where
  find? : String → String → Option ConfigMap

namespace Maps

/-- The cluster without a ConfigMap. -/
def without (c : Maps) (ns name : String) : Maps where
  find? ns' name' := if ns' = ns ∧ name' = name then none else c.find? ns' name'

/-- Every ConfigMap says where it is. -/
def Placed (c : Maps) : Prop :=
  ∀ ns name map, c.find? ns name = some map →
    map.metadata.ns = some ns ∧ map.metadata.anyName = name

/-- Nothing is there that is not in the other cluster. -/
def Within (c c' : Maps) : Prop :=
  ∀ ns name map, c.find? ns name = some map → c'.find? ns name = some map

/-- No ConfigMap bears the label of a mirror. -/
def CleanOf (c : Maps) (m : ConfigMirror) : Prop :=
  ∀ ns name map, c.find? ns name = some map → ¬Marks m map

/-! ## What is done in a cluster -/

/-- A call of a cleanup is answered, with what it removes and what is left. -/
inductive Answers (c : Maps) : (call : Call) → call.Answer → List ConfigMap → Maps → Prop where
  | listed (selector : String) (found : List ConfigMap) :
    (∀ map, map ∈ found ↔ Selects selector map ∧ ∃ ns name, c.find? ns name = some map) →
    Answers c (.select selector) (Except.ok found) [] c
  | unlisted (selector : String) (error : Error) :
    Answers c (.select selector) (Except.error error) [] c
  | deleted {ns name : String} {map : ConfigMap} : c.find? ns name = some map →
    Answers c (.delete ns name) (Except.ok ()) [map] (c.without ns name)
  | gone {ns name : String} {error : Error} : c.find? ns name = none → error.isNotFound = true →
    Answers c (.delete ns name) (Except.error error) [] c
  | undeleted (ns name : String) {error : Error} : error.isNotFound = false →
    Answers c (.delete ns name) (Except.error error) [] c
  | unconfirmed {ns name : String} {map : ConfigMap} {error : Error} :
    c.find? ns name = some map → error.isNotFound = false →
    Answers c (.delete ns name) (Except.error error) [map] (c.without ns name)

/-- A plan is performed, with its calls and what they remove; others may remove more. -/
inductive Performs {α : Type} : Maps → Steps α → List Asked → List ConfigMap → Maps → α → Prop where
  | done (c : Maps) (a : α) : Performs c (.done a) [] [] c a
  | ask {c c₀ c₁ c₂ : Maps} {call : Call} {answer : call.Answer} {next : call.Answer → Steps α}
      {calls : List Asked} {removed more : List ConfigMap} {a : α} :
    c₀.Within c → Answers c₀ call answer removed c₁ → Performs c₁ (next answer) calls more c₂ a →
    Performs c (.ask call next) (⟨call, answer⟩ :: calls) (removed ++ more) c₂ a

/-- A call that does not fail, or finds gone what it was to delete. -/
def Undisturbed : Asked → Prop
  | ⟨.delete _ _, .error error⟩ => error.isNotFound = true
  | ⟨.select _, .error _⟩ => False
  | _ => True

/-- What comes of a cleanup. -/
structure Cleans (m : ConfigMirror) (c : Maps) (calls : List Asked) (removed : List ConfigMap)
    (c' : Maps) (r : Except Error Unit) : Prop where
  /-- After a success, no copy is left. -/
  complete : r = .ok () → c'.CleanOf m
  /-- What it deletes are copies. -/
  spares : ∀ map ∈ removed, Marks m map
  within : c'.Within c
  /-- It succeeds unless something fails. -/
  succeeds : (∀ call ∈ calls, Undisturbed call) → r = .ok ()

section Cleanups

variable {c c' c'' : Maps} {m : ConfigMirror} {calls : List Asked} {removed : List ConfigMap}

theorem Within.refl (c : Maps) : c.Within c := fun _ _ _ h => h

theorem Within.trans (h : c.Within c') (h' : c'.Within c'') : c.Within c'' :=
  fun ns name map hmap => h' ns name map (h ns name map hmap)

theorem Placed.of_within (h : c.Within c') (hplaced : c'.Placed) : c.Placed :=
  fun ns name map hmap => hplaced ns name map (h ns name map hmap)

theorem CleanOf.of_within (h : c.Within c') (hclean : c'.CleanOf m) : c.CleanOf m :=
  fun ns name map hmap => hclean ns name map (h ns name map hmap)

theorem without_within (c : Maps) (ns name : String) : (c.without ns name).Within c := by
  intro ns' name' map hmap
  simp only [without] at hmap
  split at hmap
  · cases hmap
  · exact hmap

/-- What the answer to a delete says: the ConfigMap is gone unless the delete failed otherwise. -/
theorem Answers.of_delete {ns name : String} {answer : Except Error Unit}
    (h : Answers c (.delete ns name) answer removed c') :
    c'.Within c ∧ (∀ map ∈ removed, c.find? ns name = some map) ∧
      (Undisturbed ⟨.delete ns name, answer⟩ → c'.find? ns name = none) ∧
      (¬Undisturbed ⟨.delete ns name, answer⟩ →
        ∃ error, answer = .error error ∧ error.isNotFound = false) := by
  have hremoved : (c.without ns name).find? ns name = none := if_pos ⟨rfl, rfl⟩
  cases h with
  | deleted hmap =>
    exact ⟨without_within c ns name, by simpa using hmap, fun _ => hremoved,
      fun h => absurd trivial h⟩
  | gone hmap herror =>
    exact ⟨.refl c, List.forall_mem_nil _, fun _ => hmap, fun h => absurd herror h⟩
  | undeleted _ _ herror =>
    exact ⟨.refl c, List.forall_mem_nil _, fun h => absurd (herror.symm.trans h) nofun,
      fun _ => ⟨_, rfl, herror⟩⟩
  | unconfirmed hmap herror =>
    exact ⟨without_within c ns name, by simpa using hmap,
      fun h => absurd (herror.symm.trans h) nofun, fun _ => ⟨_, rfl, herror⟩⟩

theorem Performs.of_done {α : Type} {a b : α} (h : Performs c (.done a) calls removed c' b) :
    calls = [] ∧ removed = [] ∧ c' = c ∧ b = a := by
  cases h
  exact ⟨rfl, rfl, rfl, rfl⟩

theorem Performs.of_ask {α : Type} {call : Call} {next : call.Answer → Steps α} {a : α}
    (h : Performs c (.ask call next) calls removed c'' a) :
    ∃ c₀ answer c₁ first rest more, c₀.Within c ∧ Answers c₀ call answer first c₁ ∧
      Performs c₁ (next answer) rest more c'' a ∧ calls = ⟨call, answer⟩ :: rest ∧
      removed = first ++ more := by
  cases h with
  | ask hwithin hanswers hrest => exact ⟨_, _, _, _, _, _, hwithin, hanswers, hrest, rfl, rfl⟩

/-- What is left to delete of a list: all copies that are left, and nothing but copies. -/
structure Remaining (m : ConfigMirror) (listed c : Maps) (todo : List ConfigMap) : Prop where
  placed : listed.Placed
  within : c.Within listed
  copies : ∀ copy ∈ todo, Marks m copy ∧ ∃ ns name, listed.find? ns name = some copy
  covers : ∀ ns name map, c.find? ns name = some map → Marks m map → map ∈ todo

theorem Remaining.cleanOf {listed : Maps} (h : Remaining m listed c []) : c.CleanOf m :=
  fun ns name map hmap hmarks => List.not_mem_nil (h.covers ns name map hmap hmarks)

/-- A copy is off the list once it is gone. -/
theorem Remaining.next {listed : Maps} {copy : ConfigMap} {rest : List ConfigMap} {ns name : String}
    (h : Remaining m listed c (copy :: rest)) (hwithin : c'.Within c)
    (hcopy : listed.find? ns name = some copy) (hgone : c'.find? ns name = none) :
    Remaining m listed c' rest where
  placed := h.placed
  within := hwithin.trans h.within
  copies other hmem := h.copies other (List.mem_cons_of_mem _ hmem)
  covers ns' name' map hmap hmarks := by
    have hthere := hwithin ns' name' map hmap
    rcases List.mem_cons.mp (h.covers ns' name' map hthere hmarks) with rfl | hrest
    · -- Only one ConfigMap says that it is where the copy was.
      obtain ⟨hns, hname⟩ := h.placed ns name map hcopy
      obtain ⟨hns', hname'⟩ := h.placed ns' name' map (h.within _ _ _ hthere)
      obtain rfl := Option.some.inj (hns.symm.trans hns')
      rw [← hname', hname, hgone] at hmap
      cases hmap
    · exact hrest

/-- Deleting what is left to delete. -/
theorem performs_deleteAll {listed : Maps} {todo : List ConfigMap} {r : Except Error Unit}
    (h : Remaining m listed c todo) (hrun : Performs c (deleteAll todo) calls removed c' r) :
    Cleans m c calls removed c' r := by
  induction todo generalizing c calls removed with
  | nil =>
    obtain ⟨rfl, rfl, rfl, rfl⟩ := hrun.of_done
    exact ⟨fun _ => h.cleanOf, List.forall_mem_nil _, .refl _, fun _ => rfl⟩
  | cons copy rest ih =>
    obtain ⟨hmarks, ns, name, hcopy⟩ := h.copies copy List.mem_cons_self
    obtain ⟨hns, rfl⟩ := h.placed ns name copy hcopy
    simp only [deleteAll, hns] at hrun
    obtain ⟨c₀, answer, c₁, first, later, more, hother, hanswers, hrest, rfl, rfl⟩ := hrun.of_ask
    obtain ⟨hwithin, hfirst, hgone, hfailed⟩ := hanswers.of_delete
    have hspares : ∀ map ∈ first, Marks m map := fun map hmem => by
      have hlisted := h.within _ _ _ (hother _ _ _ (hfirst map hmem))
      rw [hcopy] at hlisted
      exact Option.some.inj hlisted ▸ hmarks
    by_cases hcall : Undisturbed ⟨.delete ns copy.metadata.anyName, answer⟩
    · -- The copy is gone, and the rest is up to the rest of the run.
      have hnext : Performs c₁ (deleteAll rest) later more c' r := by
        rcases answer with error | ⟨⟩
        · have hbranch : Performs c₁ (if error.isNotFound = true then deleteAll rest else
              .done (.error error)) later more c' r := hrest
          rwa [if_pos (show error.isNotFound = true from hcall)] at hbranch
        · exact hrest
      have hclean := ih (h.next (hwithin.trans hother) hcopy (hgone hcall)) hnext
      refine ⟨hclean.complete, ?_, hclean.within.trans (hwithin.trans hother), fun hall => ?_⟩
      · exact List.forall_mem_append.mpr ⟨hspares, hclean.spares⟩
      · exact hclean.succeeds fun call hmem => hall call (List.mem_cons_of_mem _ hmem)
    · obtain ⟨error, rfl, herror⟩ := hfailed hcall
      have hbranch : Performs c₁ (if error.isNotFound = true then deleteAll rest else
          .done (.error error)) later more c' r := hrest
      rw [if_neg (ne_true_of_eq_false herror)] at hbranch
      obtain ⟨rfl, rfl, rfl, rfl⟩ := hbranch.of_done
      refine ⟨nofun, ?_, hwithin.trans hother, fun hall => absurd (hall _ List.mem_cons_self) hcall⟩
      rwa [List.append_nil]

theorem performs_cleanUp {r : Except Error Unit} (hplaced : c.Placed)
    (hrun : Performs c (cleanUp m) calls removed c' r) : Cleans m c calls removed c' r := by
  obtain ⟨c₀, answer, c₁, first, later, more, hother, hanswers, hrest, rfl, rfl⟩ := hrun.of_ask
  cases hanswers with
  | unlisted _ error =>
    obtain ⟨rfl, rfl, rfl, rfl⟩ := Performs.of_done hrest
    exact ⟨nofun, List.forall_mem_nil _, hother, fun hall => (hall _ List.mem_cons_self).elim⟩
  | listed _ found hfound =>
    have hremaining : Remaining m c₀ c₀ found := by
      refine ⟨hplaced.of_within hother, .refl c₀, fun copy hmem => ?_,
        fun ns name map hmap hmarks => ?_⟩
      · obtain ⟨hselects, hthere⟩ := (hfound copy).mp hmem
        exact ⟨selects_copySelector.mp hselects, hthere⟩
      · exact (hfound map).mpr ⟨selects_copySelector.mpr hmarks, ns, name, hmap⟩
    have hclean := performs_deleteAll hremaining hrest
    refine ⟨hclean.complete, hclean.spares, hclean.within.trans hother, fun hall => ?_⟩
    exact hclean.succeeds fun call hmem => hall call (List.mem_cons_of_mem _ hmem)

end Cleanups

/-! ## Dispatchers -/

/-- What a call of a dispatcher does to the ConfigMaps: the cleanup is performed, and any other call
may do anything. -/
structure Effect (c : Maps) (call : Dispatch.Asked ConfigMirror) (c' : Maps) : Prop where
  placed : c'.Placed
  cleans : ∀ place m answer, call = ⟨.finalize place cleanupFinalizer m, answer⟩ →
    ∃ calls removed, Performs c (cleanUp m) calls removed c' answer

/-- What the calls of a dispatcher meet, each with the cluster at its time. -/
inductive Meets : Maps → List (Maps × Dispatch.Asked ConfigMirror) → Prop where
  | nil (c : Maps) : Meets c []
  | cons {c c₀ c₁ : Maps} {call : Dispatch.Asked ConfigMirror}
      {trace : List (Maps × Dispatch.Asked ConfigMirror)} :
      c₀.Within c → Effect c₀ call c₁ → Meets c₁ trace → Meets c ((c₀, call) :: trace)

section Dispatchers

variable {c c' : Maps} {first : Maps}

theorem Meets.at {earlier later : List (Maps × Dispatch.Asked ConfigMirror)}
    {call next : Dispatch.Asked ConfigMirror}
    (h : Meets first (earlier ++ (c, call) :: (c', next) :: later)) (hplaced : first.Placed) :
    c.Placed ∧ ∃ c₁, Effect c call c₁ ∧ c'.Within c₁ := by
  induction earlier generalizing first with
  | nil =>
    cases h with
    | cons hwithin heffect hrest =>
      cases hrest with
      | cons hwithin' => exact ⟨hplaced.of_within hwithin, _, heffect, hwithin'⟩
  | cons entry earlier ih =>
    cases h with
    | cons _ heffect hrest => exact ih hrest heffect.placed

/-- By the time of an update that takes the cleanup off a mirror, none of its copies is left. -/
theorem Meets.cleanOf {p : Dispatch.Policy} {leading : Bool} {entry : Queue.Entry ConfigMirror}
    {trace before after : List (Maps × Dispatch.Asked ConfigMirror)}
    {verdict : ConfigMirror × Dispatch.Verdict} {sent : ConfigMirror}
    {answer : Except Error ConfigMirror} (h : Meets first trace) (hplaced : first.Placed)
    (hcomes : (Dispatch.handle p leading entry).Comes (fun _ _ => True) (trace.map Prod.snd) verdict)
    (hsplit : trace = before ++ (c, ⟨.update sent, answer⟩) :: after)
    (hheld : cleanupFinalizer ∈
      Dispatch.remaining (Dispatch.held entry.entity (before.map Prod.snd)))
    (hgone : cleanupFinalizer ∉ Dispatch.remaining sent) : c.CleanOf sent := by
  have hcalls : trace.map Prod.snd =
      before.map Prod.snd ++ ⟨.update sent, answer⟩ :: after.map Prod.snd := by
    rw [hsplit, List.map_append, List.map_cons]
  obtain ⟨earlier, place, m, hbefore, rfl⟩ :=
    Dispatch.release_follows_run hcomes hcalls hheld hgone
  obtain ⟨front, last, rfl, -, hlast⟩ := List.map_eq_append_iff.mp hbefore
  obtain ⟨⟨c₀, call⟩, rfl, rfl⟩ := List.map_eq_singleton_iff.mp hlast
  rw [hsplit, List.append_assoc, List.singleton_append] at h
  obtain ⟨hplaced₀, c₁, heffect, hwithin⟩ := h.at hplaced
  obtain ⟨calls, removed, hrun⟩ := heffect.cleans place m _ rfl
  exact CleanOf.of_within hwithin ((performs_cleanUp hplaced₀ hrun).complete rfl)

end Dispatchers

/-! ## Cleanups again and again -/

/-- Cleanups of a mirror that were tried one after the other, with all that they removed. In between,
anything may be done to the ConfigMaps. -/
inductive Tried (m : ConfigMirror) (first : Maps) : List ConfigMap → Maps → Prop where
  | start : Tried m first [] first
  | changed {removed : List ConfigMap} {c c' : Maps} : Tried m first removed c → c'.Placed →
      Tried m first removed c'
  | again {removed more : List ConfigMap} {c c' : Maps} {calls : List Asked} {r : Except Error Unit} :
      Tried m first removed c → Performs c (cleanUp m) calls more c' r →
      Tried m first (removed ++ more) c'

theorem Tried.cleans {m : ConfigMirror} {first c : Maps} {removed : List ConfigMap}
    (h : Tried m first removed c) (hplaced : first.Placed) :
    c.Placed ∧ ∀ map ∈ removed, Marks m map := by
  induction h with
  | start => exact ⟨hplaced, List.forall_mem_nil _⟩
  | changed _ hplaced' ih => exact ⟨hplaced', ih.2⟩
  | again _ hrun ih =>
    obtain ⟨hplaced, hspares⟩ := ih
    have hclean := performs_cleanUp hplaced hrun
    exact ⟨hplaced.of_within hclean.within,
      List.forall_mem_append.mpr ⟨hspares, hclean.spares⟩⟩

/-- Wherever an update takes the cleanup off the version of a mirror that is held, none of the copies
is left. -/
def ReleasedClean (entry : Queue.Entry ConfigMirror)
    (trace : List (Maps × Dispatch.Asked ConfigMirror)) : Prop :=
  ∀ before c sent answer after, trace = before ++ (c, ⟨.update sent, answer⟩) :: after →
    cleanupFinalizer ∈ Dispatch.remaining (Dispatch.held entry.entity (before.map Prod.snd)) →
    cleanupFinalizer ∉ Dispatch.remaining sent → c.CleanOf sent

/-- However often it was tried before, a cleanup that succeeds leaves no copy, one that meets no
failure succeeds, and none deletes anything but copies. So a dispatcher lets a mirror go only when its
copies are gone. -/
theorem cleanup_before_release {first : Maps} (hplaced : first.Placed) :
    (∀ m removed c calls more c' r, Tried m first removed c →
      Performs c (cleanUp m) calls more c' r →
        Cleans m c calls more c' r ∧ ∀ map ∈ removed, Marks m map) ∧
    ∀ p leading entry trace verdict, Meets first trace →
      (Dispatch.handle p leading entry).Comes (fun _ _ => True) (trace.map Prod.snd) verdict →
        ReleasedClean entry trace := by
  constructor
  · intro m removed c calls more c' r htried hrun
    obtain ⟨hplaced', hspares⟩ := htried.cleans hplaced
    exact ⟨performs_cleanUp hplaced' hrun, hspares⟩
  · intro p leading entry trace verdict hmeets hcomes before c sent answer after hsplit hheld hgone
    exact hmeets.cleanOf hplaced hcomes hsplit hheld hgone

/-! ### A delete that was carried out after all

The one delete of a first cleanup fails, though the copy is gone. A second cleanup finds nothing, and
then the mirror is let go. Another ConfigMap beside the copy stays. -/

section Dying

def dying : ConfigMirror where
  metadata := {
    name := some "shared"
    ns := some "platform"
    finalizers := some [cleanupFinalizer]
    deletionTimestamp := some ⟨0, 0⟩ }
  spec := { source := "app", targetNamespaces := ["team-a"] }

def copy : ConfigMap := mirrorCopy { metadata := { name := some "app" } } dying "team-a"

def bystander : ConfigMap where
  metadata := { name := some "own", ns := some "team-a" }

def littered : Maps where
  find? ns name :=
    if ns = "team-a" ∧ name = "app" then some copy
    else if ns = "team-a" ∧ name = "own" then some bystander
    else none

/-- What the server says of the delete. -/
def timeout : Error := .client (.api ⟨"Failure", "timed out", "Timeout", 504⟩)

theorem of_littered {ns name : String} {map : ConfigMap} (h : littered.find? ns name = some map) :
    ns = "team-a" ∧ name = "app" ∧ map = copy ∨ ns = "team-a" ∧ name = "own" ∧ map = bystander := by
  simp only [littered] at h
  split at h
  · next hplace => exact .inl ⟨hplace.1, hplace.2, (Option.some.inj h).symm⟩
  · split at h
    · next hplace => exact .inr ⟨hplace.1, hplace.2, (Option.some.inj h).symm⟩
    · cases h

theorem placed_littered : littered.Placed := by
  intro ns name map h
  rcases of_littered h with ⟨rfl, rfl, rfl⟩ | ⟨rfl, rfl, rfl⟩
  · exact ⟨rfl, rfl⟩
  · exact ⟨rfl, rfl⟩

theorem not_selects_bystander : ¬Selects (copySelector dying) bystander := by
  rw [selects_copySelector]
  exact nofun

/-- What is left once the copy is gone. -/
def cleared : Maps := littered.without "team-a" "app"

theorem of_cleared {ns name : String} {map : ConfigMap} (h : cleared.find? ns name = some map) :
    map = bystander := by
  rcases of_littered (without_within littered _ _ ns name map h) with ⟨rfl, rfl, -⟩ | ⟨-, -, rfl⟩
  · cases h
  · rfl

theorem listed_littered (map : ConfigMap) : map ∈ [copy] ↔
    Selects (copySelector dying) map ∧ ∃ ns name, littered.find? ns name = some map := by
  rw [List.mem_singleton]
  constructor
  · rintro rfl
    exact ⟨selects_copySelector.mpr (Cluster.marks_mirrorCopy _ _ _), "team-a", "app", rfl⟩
  · rintro ⟨hselects, ns, name, hmap⟩
    rcases of_littered hmap with ⟨-, -, rfl⟩ | ⟨-, -, rfl⟩
    · rfl
    · exact absurd hselects not_selects_bystander

theorem listed_cleared (map : ConfigMap) : map ∈ [] ↔
    Selects (copySelector dying) map ∧ ∃ ns name, cleared.find? ns name = some map := by
  constructor
  · nofun
  · rintro ⟨hselects, ns, name, hmap⟩
    rw [of_cleared hmap] at hselects
    exact absurd hselects not_selects_bystander

theorem performs_littered : Performs littered (cleanUp dying)
    [⟨.select (copySelector dying), Except.ok [copy]⟩,
      ⟨.delete "team-a" "app", Except.error timeout⟩] [copy] cleared (.error timeout) := by
  show Performs littered (.ask (.select _) _) _ ([] ++ ([copy] ++ [])) _ _
  refine .ask (.refl _) (.listed _ [copy] listed_littered) ?_
  exact .ask (.refl _) (.unconfirmed rfl (by decide)) (.done _ _)

theorem performs_cleared : Performs cleared (cleanUp dying)
    [⟨.select (copySelector dying), Except.ok []⟩] [] cleared (.ok ()) := by
  show Performs cleared (.ask (.select _) _) _ ([] ++ []) _ _
  exact .ask (.refl _) (.listed _ [] listed_cleared) (.done _ _)

/-- The calls of the dispatcher, with the cluster at their time. -/
def release : List (Maps × Dispatch.Asked ConfigMirror) := [
  (cleared, ⟨.finalize 0 cleanupFinalizer dying, Except.ok ()⟩),
  (cleared, ⟨.update (Dispatch.detach dying cleanupFinalizer),
    Except.ok (Dispatch.detach dying cleanupFinalizer)⟩)]

theorem release_comes : (Dispatch.handle { finalizers := [cleanupFinalizer] } true
    ⟨dying, .reconcile⟩).Comes (fun _ _ => True) (release.map Prod.snd)
      (dying, .succeeded .awaitChange) := by
  refine Plan.Comes.ask trivial ?_
  refine Plan.Comes.ask trivial ?_
  exact Plan.Comes.done _

theorem meets_release : Meets littered release := by
  have hwithin : cleared.Within littered := without_within littered _ _
  have hplaced : cleared.Placed := placed_littered.of_within hwithin
  refine .cons hwithin ⟨hplaced, ?_⟩ (.cons (.refl _) ⟨hplaced, ?_⟩ (.nil _))
  · rintro place m answer ⟨⟩
    exact ⟨_, _, performs_cleared⟩
  · rintro place m answer ⟨⟩

theorem cleanup_before_release_retried :
    Cleans dying cleared [⟨.select (copySelector dying), Except.ok []⟩] [] cleared (.ok ()) ∧
      (∀ map ∈ [copy], Marks dying map) ∧
      cleared.CleanOf (Dispatch.detach dying cleanupFinalizer) := by
  obtain ⟨hcleans, hreleases⟩ := cleanup_before_release placed_littered
  obtain ⟨hclean, hspares⟩ :=
    hcleans dying [copy] cleared _ [] cleared _ (.again .start performs_littered) performs_cleared
  refine ⟨hclean, hspares, ?_⟩
  exact hreleases _ true ⟨dying, .reconcile⟩ release _ meets_release release_comes
    [(cleared, ⟨.finalize 0 cleanupFinalizer dying, Except.ok ()⟩)] cleared _ _ [] rfl (by decide)
    (by decide)

end Dying

end Maps

end Reconciler.Mirror
