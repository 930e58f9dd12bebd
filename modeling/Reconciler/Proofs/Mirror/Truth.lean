import Reconciler.Proofs.Mirror.Passes

/-!
# What a status says of the copies

A mirror is reconciled again and again while its spec and its source change. Every call may fail,
and one that fails may have been carried out all the same; apart from the passes nobody touches the
copies, and a write of the status replaces it.

The status is to say which namespaces hold a copy, that all copies are current if it says `Ready`,
and that the last sync failed if it did. `Truthful` states that of a cluster after a pass. No pass
ever says `Failed`, and none removes a copy or looks for one where it writes none. So a status is
truthful exactly if the pass succeeded and no copy was ever brought to a namespace that is not a
target by now, or has lost its source (`truthful_iff`).
-/

namespace Reconciler.Mirror

/-- What the server stores that is about a mirror. -/
structure Cluster where
  /-- The namespace of the mirror. -/
  own : String
  mirror : ConfigMirror
  /-- The ConfigMaps beside the mirror, by name. -/
  sources : String → Option ConfigMap
  /-- Those of the other namespaces, by namespace and name. -/
  maps : String → String → Option ConfigMap

/-- What is stored of a copy that was applied. The rest of the metadata is the server's. -/
structure Shows (copy map : ConfigMap) : Prop where
  labels : ∀ key value, (copy.metadata.labels.getD []).lookup key = some value →
    (map.metadata.labels.getD []).lookup key = some value
  data : map.data = copy.data
  binaryData : map.binaryData = copy.binaryData
  immutable : map.immutable = copy.immutable

theorem Shows.refl (copy : ConfigMap) : Shows copy copy := ⟨fun _ _ h => h, rfl, rfl, rfl⟩

/-- The ConfigMap bears the label of a mirror. -/
def Marks (m : ConfigMirror) (map : ConfigMap) : Prop :=
  (map.metadata.labels.getD []).lookup mirrorLabel = some (mirrorId m)

namespace Cluster

variable {c c' c'' : Cluster}

/-- The namespace holds a ConfigMap that bears the label of the mirror. -/
def Holds (c : Cluster) (ns : String) : Prop :=
  ∃ name map, c.maps ns name = some map ∧ Marks c.mirror map

/-- The namespace holds the copy that a mirror wants there of a source. -/
def HasCopy (c : Cluster) (m : ConfigMirror) (source : ConfigMap) (ns : String) : Prop :=
  ∃ map, c.maps ns m.spec.source = some map ∧ Shows (mirrorCopy source m ns) map

/-- The status as it is read, the defaults if there is none. -/
def status (c : Cluster) : Status := c.mirror.status.getD {}

theorem status_eq {s : Status} (h : c.mirror.status = some s) : c.status = s := by
  unfold status
  rw [h]
  rfl

/-- The cluster with a ConfigMap in its place. -/
def place (c : Cluster) (ns name : String) (map : ConfigMap) : Cluster :=
  { c with maps := fun ns' name' => if ns' = ns ∧ name' = name then some map else c.maps ns' name' }

/-- The cluster with another status. -/
def store (c : Cluster) (status : Option Status) : Cluster :=
  { c with mirror := { c.mirror with status } }

/-! ## What is done in a cluster -/

/-- A call is answered, and what it changes then; the list names the namespace that gets a copy. -/
inductive Answers (c : Cluster) : (call : Call) → call.Answer → List String → Cluster → Prop where
  | read (name : String) :
    Answers c (.source c.own name) (Except.ok (c.sources name)) [] c
  | unread (ns name : String) (error : Error) :
    Answers c (.source ns name) (Except.error error) [] c
  | applied {ns name : String} {copy map : ConfigMap} (answer : Except Error Unit) :
    Shows copy map → Answers c (.apply ns name copy) answer [ns] (c.place ns name map)
  | unapplied (ns name : String) (copy : ConfigMap) (error : Error) :
    Answers c (.apply ns name copy) (Except.error error) [] c
  | written (m : ConfigMirror) (answer : Except Error Unit) :
    Answers c (.writeStatus m) answer [] (c.store m.status)
  | unwritten (m : ConfigMirror) (error : Error) :
    Answers c (.writeStatus m) (Except.error error) [] c

/-- A plan is performed, with the namespaces that got a copy, and ends with a result. -/
inductive Performs {α : Type} : Cluster → Steps α → List String → Cluster → α → Prop where
  | done (c : Cluster) (a : α) : Performs c (.done a) [] c a
  | ask {c c' c'' : Cluster} {call : Call} {answer : call.Answer}
      {next : call.Answer → Steps α} {given more : List String} {a : α} :
    Answers c call answer given c' → Performs c' (next answer) more c'' a →
    Performs c (.ask call next) (given ++ more) c'' a

/-- What happens between two passes. -/
inductive Changes (c : Cluster) : Cluster → Prop where
  | edited (m : ConfigMirror) : m.metadata.ns = c.mirror.metadata.ns →
    mirrorId m = mirrorId c.mirror → m.status = c.mirror.status → Changes c { c with mirror := m }
  | sources (sources : String → Option ConfigMap) : Changes c { c with sources }
  | elsewhere (maps : String → String → Option ConfigMap) :
    (∀ ns name map, Marks c.mirror map → (maps ns name = some map ↔ c.maps ns name = some map)) →
    Changes c { c with maps }

/-- What happens to a mirror, with all namespaces that ever got a copy. -/
inductive Run (first : Cluster) : List String → Cluster → Prop where
  | start : Run first [] first
  | changed {given : List String} {c c' : Cluster} : Run first given c → Changes c c' →
    Run first given c'
  | reconciled {given more : List String} {c c' : Cluster} {r : Except Error Action} :
    Run first given c → Performs c (reconcile c.mirror) more c' r → Run first (given ++ more) c'

/-- The mirror has just been created: it has no status and no copies. -/
structure IsNew (c : Cluster) : Prop where
  home : c.mirror.metadata.ns = some c.own
  unsaid : c.mirror.status = none
  empty : ∀ ns, ¬c.Holds ns

/-- After a pass with a result, the status says what is the case. -/
structure Truthful (c : Cluster) (r : Except Error Action) : Prop where
  mirrored : ∀ ns, ns ∈ c.status.mirrored ↔ c.Holds ns
  ready : c.status.phase = .ready → ∀ target ∈ c.mirror.spec.targetNamespaces,
    target = c.own ∨ ∃ source, c.sources c.mirror.spec.source = some source ∧
      c.HasCopy c.mirror source target
  failed : ∀ error, r = .error error → c.status.phase = .failed

/-! ## Copies -/

theorem marks_mirrorCopy (source : ConfigMap) (m : ConfigMirror) (ns : String) :
    Marks m (mirrorCopy source m ns) := rfl

theorem marks_congr {m m' : ConfigMirror} (h : mirrorId m = mirrorId m') (map : ConfigMap) :
    Marks m map ↔ Marks m' map := by
  unfold Marks
  rw [h]

theorem holds_place {ns name : String} {map : ConfigMap} (hmarks : Marks c.mirror map)
    (ns' : String) : (c.place ns name map).Holds ns' ↔ c.Holds ns' ∨ ns' = ns := by
  constructor
  · rintro ⟨name', map', hmap, hmarks'⟩
    by_cases hns : ns' = ns
    · exact .inr hns
    · simp only [place, hns, false_and, if_false] at hmap
      exact .inl ⟨name', map', hmap, hmarks'⟩
  · rintro (⟨name', map', hmap, hmarks'⟩ | rfl)
    · by_cases hplace : ns' = ns ∧ name' = name
      · refine ⟨name', map, ?_, hmarks⟩
        simp only [place, if_pos hplace]
      · refine ⟨name', map', ?_, hmarks'⟩
        simpa only [place, if_neg hplace] using hmap
    · refine ⟨name, map, ?_, hmarks⟩
      simp [place]

/-- Copies were brought to namespaces, and all else but the status was left alone. -/
structure Keeps (c : Cluster) (given : List String) (c' : Cluster) : Prop where
  own : c'.own = c.own
  metadata : c'.mirror.metadata = c.mirror.metadata
  spec : c'.mirror.spec = c.mirror.spec
  sources : c'.sources = c.sources
  holds : ∀ ns, c'.Holds ns ↔ c.Holds ns ∨ ns ∈ given

/-- They are copies of a source as a mirror wants them, and so is what was there already. -/
structure Brings (m : ConfigMirror) (source : ConfigMap) (c : Cluster) (given : List String)
    (c' : Cluster) : Prop extends Keeps c given c' where
  status : c'.mirror.status = c.mirror.status
  current : ∀ ns, c.HasCopy m source ns ∨ ns ∈ given → c'.HasCopy m source ns

section Brings

variable {m : ConfigMirror} {source : ConfigMap} {given more : List String}

theorem Keeps.store (c : Cluster) (status : Option Status) : Keeps c [] (c.store status) where
  own := rfl
  metadata := rfl
  spec := rfl
  sources := rfl
  holds ns := by
    rw [or_iff_left List.not_mem_nil]
    exact Iff.rfl

theorem Keeps.refl (c : Cluster) : Keeps c [] c := .store c c.mirror.status

theorem Keeps.trans (h : Keeps c given c') (h' : Keeps c' more c'') :
    Keeps c (given ++ more) c'' where
  own := h'.own.trans h.own
  metadata := h'.metadata.trans h.metadata
  spec := h'.spec.trans h.spec
  sources := h'.sources.trans h.sources
  holds ns := by rw [h'.holds, h.holds, List.mem_append, or_assoc]

theorem Keeps.mirrorId_eq (h : Keeps c given c') : mirrorId c'.mirror = mirrorId c.mirror := by
  unfold mirrorId
  rw [h.metadata]

theorem Brings.refl (m : ConfigMirror) (source : ConfigMap) (c : Cluster) :
    Brings m source c [] c where
  toKeeps := .refl c
  status := rfl
  current := by simp

theorem Brings.trans (h : Brings m source c given c') (h' : Brings m source c' more c'') :
    Brings m source c (given ++ more) c'' where
  toKeeps := h.toKeeps.trans h'.toKeeps
  status := h'.status.trans h.status
  current ns hns := by
    apply h'.current
    rw [List.mem_append, ← or_assoc] at hns
    exact hns.imp_left (h.current ns)

theorem Brings.place {ns : String} {map : ConfigMap} (hid : mirrorId m = mirrorId c.mirror)
    (hshows : Shows (mirrorCopy source m ns) map) :
    Brings m source c [ns] (c.place ns m.spec.source map) where
  own := rfl
  metadata := rfl
  spec := rfl
  sources := rfl
  holds ns' := by
    have hmarks : Marks c.mirror map :=
      (marks_congr hid map).mp (hshows.labels _ _ (marks_mirrorCopy source m ns))
    rw [holds_place hmarks, List.mem_singleton]
  status := rfl
  current ns' hns := by
    by_cases hsame : ns' = ns
    · subst hsame
      exact ⟨map, by simp [Cluster.place], hshows⟩
    · have hcopy := hns.resolve_right (by simpa using hsame)
      simpa [HasCopy, Cluster.place, hsame] using hcopy

end Brings

/-! ## Passes -/

section Passes

variable {α β : Type} {m : ConfigMirror} {given more : List String} {r : Except Error Action}

theorem Answers.of_source {ns name : String} {answer : Except Error (Option ConfigMap)}
    (h : Answers c (.source ns name) answer given c') :
    given = [] ∧ c' = c ∧ (answer = .ok (c.sources name) ∨ ∃ error, answer = .error error) := by
  cases h with
  | read => exact ⟨rfl, rfl, .inl rfl⟩
  | unread _ _ error => exact ⟨rfl, rfl, .inr ⟨error, rfl⟩⟩

theorem Answers.of_apply {ns name : String} {copy : ConfigMap} {answer : Except Error Unit}
    (h : Answers c (.apply ns name copy) answer given c') :
    (given = [ns] ∧ ∃ map, Shows copy map ∧ c' = c.place ns name map) ∨
      (∃ error, answer = .error error) ∧ given = [] ∧ c' = c := by
  cases h with
  | applied _ hshows => exact .inl ⟨rfl, _, hshows, rfl⟩
  | unapplied _ _ _ error => exact .inr ⟨⟨error, rfl⟩, rfl, rfl⟩

theorem Answers.of_writeStatus {answer : Except Error Unit}
    (h : Answers c (.writeStatus m) answer given c') :
    given = [] ∧ (c' = c.store m.status ∨ (∃ error, answer = .error error) ∧ c' = c) := by
  cases h with
  | written => exact ⟨rfl, .inl rfl⟩
  | unwritten _ error => exact ⟨rfl, .inr ⟨⟨error, rfl⟩, rfl⟩⟩

theorem Performs.of_done {a b : α} (h : Performs c (.done a) given c' b) :
    given = [] ∧ c' = c ∧ b = a := by
  cases h
  exact ⟨rfl, rfl, rfl⟩

theorem Performs.of_ask {call : Call} {next : call.Answer → Steps α} {a : α}
    (h : Performs c (.ask call next) given c'' a) :
    ∃ answer c' first second, Answers c call answer first c' ∧
      Performs c' (next answer) second c'' a ∧ given = first ++ second := by
  cases h with
  | ask hanswers hrest => exact ⟨_, _, _, _, hanswers, hrest, rfl⟩

theorem performs_bind {plan : Steps α} {f : α → Steps β} {b : β}
    (h : Performs c (plan.bind f) given c'' b) :
    ∃ a c' first second, Performs c plan first c' a ∧ Performs c' (f a) second c'' b ∧
      given = first ++ second := by
  induction plan generalizing c given with
  | done a => exact ⟨a, c, [], given, .done c a, h, rfl⟩
  | ask call next ih =>
    obtain ⟨answer, mid, _, _, hanswers, hrest, rfl⟩ := h.of_ask
    obtain ⟨a, c', first, second, hfirst, hsecond, rfl⟩ := ih answer hrest
    exact ⟨a, c', _, second, .ask hanswers hfirst, hsecond, (List.append_assoc ..).symm⟩

/-- Copies are brought to targets only, and to all of them if none fails. -/
theorem performs_applyCopies {source : ConfigMap} {own : String} {todo applied : List String}
    {r : Except Error (List String)} (hid : mirrorId m = mirrorId c.mirror)
    (h : Performs c (applyCopies m own source applied todo) given c' r) :
    Brings m source c given c' ∧
      ∀ all, r = .ok all → all = applied ++ todo.filter (· != own) ∧
        given = todo.filter (· != own) := by
  induction todo generalizing c given applied with
  | nil =>
    obtain ⟨rfl, rfl, rfl⟩ := h.of_done
    refine ⟨.refl m source _, ?_⟩
    rintro all ⟨⟩
    simp
  | cons target rest ih =>
    unfold applyCopies at h
    by_cases hown : target = own
    · rw [if_pos hown] at h
      rw [List.filter_cons_of_neg (by simpa using hown)]
      exact ih hid h
    · rw [if_neg hown] at h
      rw [List.filter_cons_of_pos (by simpa using hown)]
      obtain ⟨answer, mid, first, second, hanswers, hrest, rfl⟩ := h.of_ask
      have hfirst : Brings m source c first mid := by
        rcases hanswers.of_apply with ⟨rfl, map, hshows, rfl⟩ | ⟨-, rfl, rfl⟩
        · exact .place hid hshows
        · exact .refl m source _
      rcases answer with error | ⟨⟩
      · obtain ⟨rfl, rfl, rfl⟩ := Performs.of_done hrest
        rw [List.append_nil]
        refine ⟨hfirst, fun all hall => ?_⟩
        cases hall
      · obtain ⟨hsecond, hall⟩ := ih (hid.trans hfirst.mirrorId_eq.symm) hrest
        refine ⟨hfirst.trans hsecond, fun all hr => ?_⟩
        obtain ⟨rfl, rfl⟩ := hall all hr
        rcases hanswers.of_apply with ⟨rfl, -⟩ | ⟨⟨error, herror⟩, -⟩
        · exact ⟨List.append_assoc .., rfl⟩
        · cases herror

/-- The status that a success was to set is stored, and after a failure it may be. -/
theorem performs_setStatus {s : Status} {action : Action} (hm : m.status = c.mirror.status)
    (h : Performs c (setStatus m s action) given c' r) :
    given = [] ∧ (r = .ok action ∧ c' = c.store (some s) ∨
      (∃ error, r = .error error) ∧ (c' = c ∨ c' = c.store (some s))) := by
  unfold setStatus at h
  by_cases hsame : m.status = some s
  · rw [if_pos hsame] at h
    obtain ⟨rfl, rfl, rfl⟩ := h.of_done
    refine ⟨rfl, .inl ⟨rfl, ?_⟩⟩
    rw [store, ← hsame, hm]
  · rw [if_neg hsame] at h
    obtain ⟨answer, mid, first, second, hanswers, hrest, rfl⟩ := h.of_ask
    obtain ⟨rfl, hmid⟩ := hanswers.of_writeStatus
    rcases answer with error | ⟨⟩
    · obtain ⟨rfl, rfl, rfl⟩ := Performs.of_done hrest
      refine ⟨rfl, .inr ⟨⟨error, rfl⟩, ?_⟩⟩
      exact hmid.symm.imp_left And.right
    · obtain ⟨rfl, rfl, rfl⟩ := Performs.of_done hrest
      refine ⟨rfl, .inl ⟨rfl, ?_⟩⟩
      rcases hmid with rfl | ⟨⟨error, herror⟩, -⟩
      · rfl
      · cases herror

/-- What is there after a pass. A success is about all targets, or none if there is no source. -/
inductive Synced (c : Cluster) : List String → Cluster → Except Error Action → Prop where
  | failed {given : List String} {c' : Cluster} (error : Error) :
    c'.status.phase ≠ .failed → Synced c given c' (.error error)
  | pending (c' : Cluster) (message : String) (action : Action) :
    c.sources c.mirror.spec.source = none →
    c'.mirror.status = some (pendingStatus c.mirror message) → Synced c [] c' (.ok action)
  | copied (c' : Cluster) (source : ConfigMap) (action : Action) :
    c.sources c.mirror.spec.source = some source →
    (∀ ns ∈ targets c.mirror c.own, c'.HasCopy c.mirror source ns) →
    c'.mirror.status = some (readyStatus c.mirror (targets c.mirror c.own)) →
    Synced c (targets c.mirror c.own) c' (.ok action)

/-- What is there after a status was to be set. -/
theorem performs_setStatus_keeps {s : Status} {action : Action} (hm : m.status = c.mirror.status)
    (hphase : c.status.phase ≠ .failed) (hs : s.phase ≠ .failed)
    (h : Performs c (setStatus m s action) given c' r) :
    given = [] ∧ Keeps c [] c' ∧ (r = .ok action ∧ c' = c.store (some s) ∨
      (∃ error, r = .error error) ∧ c'.status.phase ≠ .failed) := by
  obtain ⟨rfl, ⟨rfl, rfl⟩ | ⟨herror, rfl | rfl⟩⟩ := performs_setStatus hm h
  · exact ⟨rfl, .store c _, .inl ⟨rfl, rfl⟩⟩
  · exact ⟨rfl, .refl _, .inr ⟨herror, hphase⟩⟩
  · exact ⟨rfl, .store c _, .inr ⟨herror, hs⟩⟩

theorem performs_reconcile (hhome : c.mirror.metadata.ns = some c.own)
    (hphase : c.status.phase ≠ .failed) (h : Performs c (reconcile c.mirror) given c' r) :
    Keeps c given c' ∧ Synced c given c' r := by
  unfold reconcile at h
  rw [hhome] at h
  obtain ⟨answer, mid, _, rest, hanswers, hrest, rfl⟩ := h.of_ask
  obtain ⟨rfl, rfl, hanswer⟩ := hanswers.of_source
  rw [List.nil_append]
  rcases answer with error | (_ | source)
  · obtain ⟨rfl, rfl, rfl⟩ := Performs.of_done hrest
    exact ⟨.refl _, .failed error hphase⟩
  · obtain ⟨rfl, hkeeps, ⟨rfl, rfl⟩ | ⟨⟨error, rfl⟩, hafter⟩⟩ :=
      performs_setStatus_keeps rfl hphase (show Phase.pending ≠ .failed by decide) hrest
    · rcases hanswer with hfound | ⟨error, herror⟩
      · exact ⟨hkeeps, .pending _ _ _ (Except.ok.inj hfound).symm rfl⟩
      · cases herror
    · exact ⟨hkeeps, .failed error hafter⟩
  · obtain ⟨all, c₁, first, second, hcopies, hset, rfl⟩ := performs_bind hrest
    obtain ⟨hbrings, hall⟩ := performs_applyCopies rfl hcopies
    have hphase₁ : c₁.status.phase ≠ .failed := by
      unfold status
      rw [hbrings.status]
      exact hphase
    rcases all with error | all
    · obtain ⟨rfl, rfl, rfl⟩ := Performs.of_done hset
      rw [List.append_nil]
      exact ⟨hbrings.toKeeps, .failed error hphase₁⟩
    · obtain ⟨rfl, rfl⟩ := hall all rfl
      obtain ⟨rfl, hkeeps, ⟨rfl, rfl⟩ | ⟨⟨error, rfl⟩, hafter⟩⟩ :=
        performs_setStatus_keeps hbrings.status.symm hphase₁
          (show Phase.ready ≠ .failed by decide) hset
      · rcases hanswer with hfound | ⟨error, herror⟩
        · have hboth := hbrings.toKeeps.trans hkeeps
          rw [List.append_nil] at hboth ⊢
          refine ⟨hboth, .copied _ source _ (Except.ok.inj hfound).symm (fun ns hns => ?_) rfl⟩
          exact hbrings.current ns (.inr hns)
        · cases herror
      · exact ⟨hbrings.toKeeps.trans hkeeps, .failed error hafter⟩

theorem Performs.bind {plan : Steps α} {f : α → Steps β} {a : α} {b : β}
    (h : Performs c plan given c' a) (hf : Performs c' (f a) more c'' b) :
    Performs c (plan.bind f) (given ++ more) c'' b := by
  induction h with
  | done c a => exact hf
  | ask hanswers _ ih =>
    rw [List.append_assoc]
    exact .ask hanswers (ih hf)

/-- A call by which no copy is brought. -/
theorem Performs.ask_nothing {call : Call} {answer : call.Answer} {next : call.Answer → Steps α}
    {a : α} (hanswers : Answers c call answer [] c') (hrest : Performs c' (next answer) given c'' a) :
    Performs c (.ask call next) given c'' a :=
  .ask hanswers hrest

theorem exists_performs_applyCopies (m : ConfigMirror) (own : String) (source : ConfigMap)
    (todo applied : List String) (c : Cluster) :
    ∃ c', Performs c (applyCopies m own source applied todo) (todo.filter (· != own)) c'
      (.ok (applied ++ todo.filter (· != own))) := by
  induction todo generalizing applied c with
  | nil =>
    refine ⟨c, ?_⟩
    rw [List.filter_nil, List.append_nil]
    exact .done c _
  | cons target rest ih =>
    unfold applyCopies
    by_cases hown : target = own
    · rw [if_pos hown, List.filter_cons_of_neg (by simpa using hown)]
      exact ih applied c
    · rw [if_neg hown, List.filter_cons_of_pos (by simpa using hown)]
      obtain ⟨c', hrest⟩ := ih (applied ++ [target])
        (c.place target m.spec.source (mirrorCopy source m target))
      rw [List.append_assoc] at hrest
      exact ⟨c', .ask (.applied (.ok ()) (Shows.refl _)) hrest⟩

/-- A pass succeeds if no call fails. -/
theorem exists_performs {source : ConfigMap} (hhome : c.mirror.metadata.ns = some c.own)
    (hsource : c.sources c.mirror.spec.source = some source) :
    ∃ c', Performs c (reconcile c.mirror) (targets c.mirror c.own) c'
      (.ok (.requeue (.ofSecs c.mirror.spec.resyncSeconds))) := by
  obtain ⟨mid, hcopies⟩ := exists_performs_applyCopies c.mirror c.own source
    c.mirror.spec.targetNamespaces [] c
  have hset : ∃ c', Performs mid (setStatus c.mirror
      (readyStatus c.mirror (targets c.mirror c.own))
      (.requeue (.ofSecs c.mirror.spec.resyncSeconds))) [] c'
      (.ok (.requeue (.ofSecs c.mirror.spec.resyncSeconds))) := by
    unfold setStatus
    split
    · exact ⟨mid, .done mid _⟩
    · exact ⟨_, .ask_nothing (.written _ (.ok ())) (.done _ _)⟩
  obtain ⟨c', hset⟩ := hset
  refine ⟨c', ?_⟩
  unfold reconcile
  rw [hhome]
  have hread : Answers c (.source c.own c.mirror.spec.source) (Except.ok (some source)) [] c := by
    rw [← hsource]
    exact .read _
  rw [← List.append_nil (targets c.mirror c.own)]
  exact .ask_nothing hread (hcopies.bind hset)

end Passes

/-! ## Runs -/

section Runs

variable {first : Cluster} {given more : List String} {r : Except Error Action}

/-- What holds of a cluster between the passes. -/
structure Kept (given : List String) (c : Cluster) : Prop where
  home : c.mirror.metadata.ns = some c.own
  phase : c.status.phase ≠ .failed
  holds : ∀ ns, c.Holds ns ↔ ns ∈ given

theorem Kept.start (h : c.IsNew) : Kept [] c where
  home := h.home
  phase := by
    unfold status
    rw [h.unsaid]
    decide
  holds ns := by simpa using h.empty ns

theorem Kept.changed (h : Kept given c) (hchanges : Changes c c') : Kept given c' := by
  cases hchanges with
  | edited m hns hid hstatus =>
    refine ⟨hns.trans h.home, ?_, fun ns => ?_⟩
    · have hphase := h.phase
      unfold status at *
      rwa [hstatus]
    · rw [← h.holds]
      simp only [Holds, marks_congr hid]
  | sources sources => exact ⟨h.home, h.phase, h.holds⟩
  | elsewhere maps hmaps =>
    refine ⟨h.home, h.phase, fun ns => ?_⟩
    rw [← h.holds]
    constructor
    · rintro ⟨name, map, hmap, hmarks⟩
      exact ⟨name, map, (hmaps ns name map hmarks).mp hmap, hmarks⟩
    · rintro ⟨name, map, hmap, hmarks⟩
      exact ⟨name, map, (hmaps ns name map hmarks).mpr hmap, hmarks⟩

theorem Kept.reconciled (h : Kept given c) (hpass : Performs c (reconcile c.mirror) more c' r) :
    Kept (given ++ more) c' := by
  obtain ⟨hkeeps, hsynced⟩ := performs_reconcile h.home h.phase hpass
  refine ⟨?_, ?_, fun ns => ?_⟩
  · rw [hkeeps.metadata, hkeeps.own]
    exact h.home
  · cases hsynced with
    | failed error hphase => exact hphase
    | pending _ message action hsource hstatus =>
      rw [status_eq hstatus]
      exact (show Phase.pending ≠ .failed by decide)
    | copied _ source action hsource hcopies hstatus =>
      rw [status_eq hstatus]
      exact (show Phase.ready ≠ .failed by decide)
  · rw [hkeeps.holds, h.holds, List.mem_append]

theorem Run.kept (hnew : first.IsNew) (hrun : Run first given c) : Kept given c := by
  induction hrun with
  | start => exact .start hnew
  | changed _ hchanges ih => exact ih.changed hchanges
  | reconciled _ hpass ih => exact ih.reconciled hpass

/-- A pass that succeeds leaves copies that are current wherever it says so. -/
theorem Synced.current {action : Action} (hkeeps : Keeps c given c')
    (h : Synced c given c' (.ok action)) (hready : c'.status.phase = .ready) :
    ∀ target ∈ c'.mirror.spec.targetNamespaces, target = c'.own ∨
      ∃ source, c'.sources c'.mirror.spec.source = some source ∧
        c'.HasCopy c'.mirror source target := by
  cases h with
  | pending _ message _ hsource hstatus =>
    rw [status_eq hstatus] at hready
    cases hready
  | copied _ source _ hsource hcopies hstatus =>
    intro target htarget
    rw [hkeeps.spec] at htarget
    rw [hkeeps.own, hkeeps.sources, hkeeps.spec]
    by_cases hown : target = c.own
    · exact .inl hown
    · have hother : target ∈ targets c.mirror c.own :=
        List.mem_filter.mpr ⟨htarget, by simpa using hown⟩
      obtain ⟨map, hmap, hshows⟩ := hcopies target hother
      have hcopy : mirrorCopy source c'.mirror target = mirrorCopy source c.mirror target := by
        unfold mirrorCopy
        rw [hkeeps.mirrorId_eq]
      exact .inr ⟨source, hsource, map, by rwa [hkeeps.spec], by rwa [hcopy]⟩

/-- A status says what is the case exactly if the pass succeeded and whatever ever got a copy is a
target now, of a source that is there. -/
theorem truthful_iff (hnew : first.IsNew) (hrun : Run first given c)
    (hpass : Performs c (reconcile c.mirror) more c' r) :
    Truthful c' r ↔ (∃ action, r = .ok action) ∧ ∀ ns ∈ given,
      (c.sources c.mirror.spec.source).isSome ∧ ns ∈ targets c.mirror c.own := by
  have hkept := hrun.kept hnew
  have hafter := hkept.reconciled hpass
  obtain ⟨hkeeps, hsynced⟩ := performs_reconcile hkept.home hkept.phase hpass
  constructor
  · intro htruthful
    cases hsynced with
    | failed error hphase => exact absurd (htruthful.failed error rfl) hphase
    | pending _ message action hsource hstatus =>
      refine ⟨⟨action, rfl⟩, fun ns hns => ?_⟩
      have hmirrored := (htruthful.mirrored ns).mpr
        ((hafter.holds ns).mpr (List.mem_append_left _ hns))
      rw [status_eq hstatus] at hmirrored
      cases hmirrored
    | copied _ source action hsource hcopies hstatus =>
      refine ⟨⟨action, rfl⟩, fun ns hns => ⟨by rw [hsource]; rfl, ?_⟩⟩
      have hmirrored := (htruthful.mirrored ns).mpr
        ((hafter.holds ns).mpr (List.mem_append_left _ hns))
      rw [status_eq hstatus] at hmirrored
      exact hmirrored
  · rintro ⟨⟨action, rfl⟩, hgiven⟩
    refine ⟨fun ns => ?_, hsynced.current hkeeps, nofun⟩
    rw [hafter.holds, List.mem_append]
    cases hsynced with
    | pending _ message action hsource hstatus =>
      rw [status_eq hstatus]
      constructor
      · nofun
      · rintro (hns | hns)
        · rw [hsource] at hgiven
          cases (hgiven ns hns).1
        · cases hns
    | copied _ source action hsource hcopies hstatus =>
      rw [status_eq hstatus]
      constructor
      · exact .inr
      · rintro (hns | hns)
        · exact (hgiven ns hns).2
        · exact hns

/-- The ConfigMap that is copied in the runs below. -/
def settings : ConfigMap where
  metadata := { name := some "app", ns := some "platform" }
  data := some [("k", "v")]

/-- A mirror of it into two namespaces, just created. -/
def created : Cluster where
  own := "platform"
  mirror :=
    { metadata := { name := some "shared", ns := some "platform", generation := some 1 }
      spec := { source := "app", targetNamespaces := ["team-a", "team-b"] } }
  sources := fun name => if name = "app" then some settings else none
  maps := fun _ _ => none

theorem isNew_created : created.IsNew where
  home := rfl
  unsaid := rfl
  empty := by
    rintro ns ⟨name, map, hmap, -⟩
    cases (show (none : Option ConfigMap) = some map from hmap)

/-- Two passes in a row that succeed: the copies of the first one are targets of the second. -/
theorem truthful_iff_again : ∃ c c' r, Run created ["team-a", "team-b"] c ∧
    Performs c (reconcile c.mirror) ["team-a", "team-b"] c' r ∧ Truthful c' r := by
  obtain ⟨c, hfirst⟩ := exists_performs (c := created) rfl rfl
  have hrun : Run created ["team-a", "team-b"] c := .reconciled .start hfirst
  obtain ⟨hkeeps, -⟩ := performs_reconcile rfl (by decide) hfirst
  have hhome : c.mirror.metadata.ns = some c.own := by
    rw [hkeeps.metadata, hkeeps.own]
    rfl
  have hsource : c.sources c.mirror.spec.source = some settings := by
    rw [hkeeps.sources, hkeeps.spec]
    rfl
  have htargets : targets c.mirror c.own = ["team-a", "team-b"] := by
    unfold targets
    rw [hkeeps.spec, hkeeps.own]
    decide
  obtain ⟨c', hsecond⟩ := exists_performs hhome hsource
  rw [htargets] at hsecond
  refine ⟨c, c', _, hrun, hsecond, ?_⟩
  apply (truthful_iff isNew_created hrun hsecond).mpr
  refine ⟨⟨_, rfl⟩, fun ns hns => ⟨?_, ?_⟩⟩
  · rw [hsource]
    rfl
  · rwa [htargets]

/-- What the server says of the second of two copies. -/
def refusal : Error := .client (.api ⟨"Failure", "boom", "InternalError", 500⟩)

/-- The mirror with the first copy in place. -/
def halfway : Cluster := created.place "team-a" "app" (mirrorCopy settings created.mirror "team-a")

/-- A sync that fails after the first copy: the status says neither that it failed nor where the copy
is. -/
theorem failed_sync_unsaid :
    created.IsNew ∧ Performs created (reconcile created.mirror) ["team-a"] halfway (.error refusal) ∧
      halfway.Holds "team-a" ∧ halfway.mirror.status = none ∧
      ¬Truthful halfway (.error refusal) := by
  refine ⟨isNew_created, ?_, ?_, rfl, fun htruthful => ?_⟩
  · show Performs created (.ask (.source "platform" "app") _) ([] ++ (["team-a"] ++ ([] ++ []))) _ _
    apply Performs.ask (Answers.read "app")
    apply Performs.ask (Answers.applied (.ok ()) (Shows.refl _))
    apply Performs.ask (Answers.unapplied _ _ _ refusal)
    apply Performs.done
  · exact ⟨"app", _, rfl, rfl⟩
  · have hfailed := htruthful.failed refusal rfl
    cases hfailed

end Runs

end Cluster

end Reconciler.Mirror
