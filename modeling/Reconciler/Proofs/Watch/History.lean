import Mathlib.Data.List.Induction
import Mathlib.Data.List.Nodup
import Mathlib.Data.List.TakeWhile
import Reconciler.Watch.Watcher

/-!
# What a server has to tell

A server's history is the list of the events that have become of its objects, the earliest first,
each under a version of its own. A connection that is opened from a version brings what came after
it, in order (`after`). One that is opened from `initialVersion` first brings every object there is
(`existing`), in an order that says nothing, and each under the version of its last change.
-/

namespace Reconciler.Watch

variable {K : Type} [Entity K]

/-- A history of changes of objects with an identity, under versions that tell them apart. -/
structure IsHistory (log : List (Event K)) : Prop where
  named : ∀ event ∈ log, ∃ x key, event.entity? = some x ∧ Entity.key? x = some key
  versioned : ∀ event ∈ log, ∃ version, event.version? = some version ∧ version ≠ initialVersion
  distinct : (log.map Event.version?).Nodup

/-- The objects after one event more. -/
def settle (objects : List K) : Event K → List K
  | .added x => objects.filter (Entity.key? · != Entity.key? x) ++ [x]
  | .modified x => objects.filter (Entity.key? · != Entity.key? x) ++ [x]
  | .deleted x => objects.filter (Entity.key? · != Entity.key? x)
  | _ => objects

/-- The objects there are after a history, each as it was last changed. -/
def existing (log : List (Event K)) : List K := log.foldl settle []

/-- What came after a version. -/
def after (version : String) (log : List (Event K)) : List (Event K) :=
  (log.dropWhile (·.version? != some version)).tail

/-- What a connection that is opened from a version brings of a history. -/
inductive Offers (log : List (Event K)) : String → List (Event K) → Prop where
  | initial {events : List (Event K)} : events.Perm ((existing log).map .added) →
      Offers log initialVersion events
  | resumed {version : String} : version ≠ initialVersion → Offers log version (after version log)

/-! ## Versions -/

theorem version?_eq {event : Event K} {x : K} (h : event.entity? = some x) :
    event.version? = (Entity.metadata x).resourceVersion := by
  cases event with
  | bookmark version => cases h
  | error code message => cases h
  | _ =>
    obtain rfl := Option.some.inj h
    rfl

section After

variable {version : String} {log rest : List (Event K)} {event : Event K}

theorem after_suffix (version : String) (log : List (Event K)) : after version log <:+ log :=
  (List.tail_suffix _).trans (List.dropWhile_suffix _)

theorem after_of_split {before : List (Event K)}
    (hbefore : ∀ other ∈ before, other.version? ≠ some version)
    (hevent : event.version? = some version) : after version (before ++ event :: rest) = rest := by
  have hdrop : (before ++ event :: rest).dropWhile (·.version? != some version) = event :: rest := by
    rw [List.dropWhile_append_of_pos (by simpa using hbefore), List.dropWhile_cons_of_neg]
    simp [hevent]
  rw [after, hdrop, List.tail_cons]

/-- The first event after a version leaves what comes after its own. -/
theorem after_version (hlog : IsHistory log) (h : after version log = event :: rest)
    {next : String} (hnext : event.version? = some next) : after next log = rest := by
  obtain ⟨before, hsplit⟩ := h ▸ after_suffix version log
  have hdistinct := hlog.distinct
  rw [← hsplit, List.map_append, List.map_cons, List.nodup_append] at hdistinct
  have hbefore : ∀ other ∈ before, other.version? ≠ some next := by
    intro other hother heq
    exact hdistinct.2.2 _ (List.mem_map_of_mem hother) _ List.mem_cons_self (heq.trans hnext.symm)
  rw [← hsplit]
  exact after_of_split hbefore hnext

/-- A change comes after every version that was there before it. -/
theorem after_append (hversion : ∃ known ∈ log, known.version? = some version)
    (event : Event K) : after version (log ++ [event]) = after version log ++ [event] := by
  obtain ⟨known, hknown, heq⟩ := hversion
  have hne : log.dropWhile (·.version? != some version) ≠ [] := by
    intro hnil
    have := List.dropWhile_eq_nil_iff.mp hnil known hknown
    simp [heq] at this
  have hempty : (log.dropWhile (·.version? != some version)).isEmpty = false := by
    simpa using hne
  rw [after, List.dropWhile_append, if_neg (by simp [hempty]), List.tail_append_of_ne_nil hne,
    after]

end After

/-! ## Objects -/

section Existing

variable {log : List (Event K)} {event : Event K} {x : K}

theorem existing_append (log : List (Event K)) (event : Event K) :
    existing (log ++ [event]) = settle (existing log) event := by
  simp [existing]

theorem settle_cases (objects : List K) (event : Event K) :
    (∃ y p, event.entity? = some y ∧ settle objects event = objects.filter p ++ [y]) ∨
      ∃ p, settle objects event = objects.filter p := by
  cases event with
  | added y => exact .inl ⟨y, _, rfl, rfl⟩
  | modified y => exact .inl ⟨y, _, rfl, rfl⟩
  | deleted y => exact .inr ⟨_, rfl⟩
  | bookmark version => exact .inr ⟨fun _ => true, (List.filter_true _).symm⟩
  | error code message => exact .inr ⟨fun _ => true, (List.filter_true _).symm⟩

theorem mem_existing_append (h : x ∈ existing (log ++ [event])) :
    x ∈ existing log ∨ event.entity? = some x := by
  rw [existing_append] at h
  rcases settle_cases (existing log) event with ⟨y, p, hy, heq⟩ | ⟨p, heq⟩
  · rw [heq, List.mem_append, List.mem_singleton] at h
    rcases h with h | rfl
    · exact .inl (List.mem_filter.mp h).1
    · exact .inr hy
  · rw [heq] at h
    exact .inl (List.mem_filter.mp h).1

/-- An object is there as some event has told. -/
theorem exists_of_mem_existing (h : x ∈ existing log) : ∃ event ∈ log, event.entity? = some x := by
  induction log using List.reverseRecOn with
  | nil => cases h
  | append_singleton log event ih =>
    rcases mem_existing_append h with h | h
    · obtain ⟨known, hknown, heq⟩ := ih h
      exact ⟨known, List.mem_append_left _ hknown, heq⟩
    · exact ⟨event, by simp, h⟩

theorem IsHistory.of_append (h : IsHistory (log ++ [event])) : IsHistory log where
  named known hknown := h.named known (List.mem_append_left _ hknown)
  versioned known hknown := h.versioned known (List.mem_append_left _ hknown)
  distinct := by
    have hdistinct := h.distinct
    rw [List.map_append] at hdistinct
    exact (List.nodup_append.mp hdistinct).1

/-- The last event of a history has a version that no earlier one has. -/
theorem IsHistory.version_new (h : IsHistory (log ++ [event])) {known : Event K}
    (hknown : known ∈ log) : known.version? ≠ event.version? := by
  have hdistinct := h.distinct
  rw [List.map_append, List.nodup_append] at hdistinct
  exact hdistinct.2.2 _ (List.mem_map_of_mem hknown) _ (by simp)

/-- No two objects have one version. -/
theorem existing_distinct (h : IsHistory log) :
    ((existing log).map fun x => (Entity.metadata x).resourceVersion).Nodup := by
  induction log using List.reverseRecOn with
  | nil => exact List.nodup_nil
  | append_singleton log event ih =>
    have hold := ih h.of_append
    have hfilter : ∀ p : K → Bool,
        (((existing log).filter p).map fun x => (Entity.metadata x).resourceVersion).Nodup :=
      fun p => (List.filter_sublist.map _).nodup hold
    rw [existing_append]
    rcases settle_cases (existing log) event with ⟨y, p, hy, heq⟩ | ⟨p, heq⟩
    · rw [heq, List.map_append, List.nodup_append]
      refine ⟨hfilter p, by simp, ?_⟩
      intro version hversion other hother
      obtain ⟨z, hz, rfl⟩ := List.mem_map.mp hversion
      obtain ⟨known, hknown, hentity⟩ := exists_of_mem_existing (List.mem_filter.mp hz).1
      rw [List.map_singleton, List.mem_singleton] at hother
      rw [hother, ← version?_eq hentity, ← version?_eq hy]
      exact h.version_new hknown
    · rw [heq]
      exact hfilter p

end Existing

end Reconciler.Watch
