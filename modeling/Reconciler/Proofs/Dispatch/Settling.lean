import Reconciler.Proofs.Cache.Echo
import Reconciler.Proofs.Dispatch.Handling
import Reconciler.Simulation.Widget
import Reconciler.Watch.Watcher

/-!
# What the operator's own writes set off

The entry that a watcher schedules for the echo of a write is handled like any other. If the status
differs anywhere, or the finalizers of an entity that is not being deleted, it asks for nothing
(`Idle`). For an entity that is being deleted, the finalizers that are left on it run, never the one
that was taken off, and every further update leaves fewer of them; so a chain of updates each of which
the dispatcher makes for the finalizers in the echo of the one before (`Follows`) comes to its end.

A status that differs nowhere from the one before, but for a field with `null`, is told as any other
change. The entity is reconciled, and if that writes such a status again there is no end to it
(`null_not_told`).

A server stores what it was sent (`Stores`); nothing is assumed about other answers.
-/

namespace Reconciler

namespace Plan

variable {Q : Type} {A : Q → Type} {α : Type}

theorem Ends.of_comes {fit : (q : Q) → A q → Prop} {post : List ((q : Q) × A q) → α → Prop}
    {plan : Plan Q A α} {past calls : List ((q : Q) × A q)} {a : α} (h : plan.Ends fit post past)
    (hcomes : plan.Comes fit calls a) : post (past ++ calls) a := by
  induction hcomes generalizing past with
  | done a => rwa [List.append_nil]
  | ask hfit _ ih => simpa using ih (h _ hfit)

end Plan

namespace Dispatch

open Json (field)
open Diff (Differs)

variable {K : Type} [Entity K]

/-- The server stores an entity that is updated as it was sent. -/
def Stores : (call : Call K) → call.Answer → Prop
  | .update sent, answer => ∀ stored, answer = (.ok stored : Except Error K) → Echo sent stored
  | _, _ => True

/-- The entry that a watcher schedules for an entity that it is told of. -/
def entryOf (c : Cache) (e : K) : Queue.Entry K := ⟨e, .ofChange (c.upsert e).2⟩

/-- Handling an entry makes no call and schedules nothing. -/
def Idle (p : Policy) (entry : Queue.Entry K) : Prop :=
  ∀ leading, ∃ verdict, handle p leading entry = .done (entry.entity, verdict) ∧
    ∀ (d after : Dispatcher) (draw : Nat) (commands : List (Queue.Command K)),
      d.conclude draw entry.entity verdict = some (after, commands) → commands = []

theorem idle_of_skipped {p : Policy} {entry : Queue.Entry K}
    (h : handle p true entry = .done (entry.entity, .skipped)) : Idle p entry := by
  intro leading
  cases leading with
  | true =>
    refine ⟨.skipped, h, ?_⟩
    rintro d after draw commands ⟨⟩
    rfl
  | false =>
    refine ⟨.forgotten, rfl, ?_⟩
    intro d after draw commands hconclude
    obtain ⟨key, -, heq⟩ := Option.map_eq_some_iff.mp hconclude
    exact (Prod.mk.inj heq).2.symm

theorem idle_statusModified (p : Policy) (e : K) : Idle p ⟨e, .statusModified⟩ :=
  idle_of_skipped rfl

theorem idle_finalizersModified (p : Policy) {e : K} (h : Entity.isDeleting e = false) :
    Idle p ⟨e, .finalizersModified⟩ :=
  idle_of_skipped (if_neg (by rw [h]; exact Bool.false_ne_true))

/-! ## Finalizers that are left -/

section Remaining

variable {e sent stored : K} {rest : List (String × Json)} {id : String}

theorem remaining_detach (h : WrittenAs e rest) (id : String) :
    remaining (detach e id) = (remaining e).filter (· != id) := by
  rw [remaining, detach, h.metadata_withFinalizers, remaining]
  cases (Entity.metadata e).finalizers <;> rfl

theorem writtenAs_detach (h : WrittenAs e rest) (id : String) : WrittenAs (detach e id) rest :=
  h.withMetadata _

theorem remaining_echo (h : Echo sent stored) (hsent : WrittenAs sent rest) :
    remaining stored = remaining sent := by
  obtain ⟨resourceVersion, managedFields, hmetadata⟩ := h.metadata_eq hsent
  rw [remaining, hmetadata]
  rfl

/-- What the server has stored of an entity without one of its finalizers. -/
theorem remaining_detached (h : WrittenAs e rest) (hecho : Echo (detach e id) stored) :
    remaining stored = (remaining e).filter (· != id) := by
  rw [remaining_echo hecho (writtenAs_detach h id), remaining_detach h]

end Remaining

/-- What is asked in a pass over the finalizers of an entity: none runs that is not on it, and every
update leaves fewer. -/
def Shrinking (rest : List (String × Json)) (e : K) (call : Asked K) : Prop :=
  match call with
  | ⟨.finalize _ id _, _⟩ => id ∈ remaining e
  | ⟨.update sent, _⟩ => WrittenAs sent rest ∧ ∀ stored, Echo sent stored →
      (remaining stored).length < (remaining e).length
  | _ => True

theorem Shrinking.of_subset {rest : List (String × Json)} {e e' : K}
    (hids : ∀ id ∈ remaining e', id ∈ remaining e)
    (hlength : (remaining e').length ≤ (remaining e).length) {call : Asked K}
    (h : Shrinking rest e' call) : Shrinking rest e call := by
  obtain ⟨call, answer⟩ := call
  cases call with
  | finalize place id x => exact hids id h
  | update sent => exact ⟨h.1, fun stored hecho => (h.2 stored hecho).trans_le hlength⟩
  | get name ns => trivial
  | reconcile x => trivial
  | deleted x => trivial

theorem Rounds.shrinks {p : Policy} {place : Nat} {ids : List String} {e : K}
    {rounds : List (Round K)} (h : Rounds p place ids e rounds) {rest : List (String × Json)}
    (he : WrittenAs e rest) (hfit : ∀ call ∈ rounds.flatMap Round.calls, Stores call.1 call.2) :
    ∀ call ∈ rounds.flatMap Round.calls, Shrinking rest e call := by
  -- Taking a finalizer off leaves fewer, whatever comes back.
  have hround : ∀ {e : K} {round : Round K}, WrittenAs e rest → round.id ∈ remaining e →
      round.entity = e → ∀ call ∈ round.calls, Shrinking rest e call := by
    rintro e round he hid rfl call hmem
    rcases List.mem_cons.mp hmem with rfl | hmem
    · exact hid
    · obtain ⟨answer, -, rfl⟩ := Option.map_eq_some_iff.mp (Option.mem_toList.mp hmem)
      refine ⟨writtenAs_detach he round.id, fun stored hecho => ?_⟩
      rw [remaining_detached he hecho]
      exact List.length_filter_lt_length_iff_exists.mpr ⟨round.id, hid, by simp⟩
  induction h with
  | done => exact List.forall_mem_nil _
  | absent _ _ ih => exact ih he hfit
  | failed hid hturn _ =>
    rw [List.flatMap_singleton]
    exact hround he (hturn.id_eq ▸ hid) hturn.entity_eq
  | @passed _ _ _ _ round rounds hid hturn _ _ ih =>
    rw [List.flatMap_cons] at hfit ⊢
    obtain ⟨hown, hlater⟩ := List.forall_mem_append.mp hfit
    refine List.forall_mem_append.mpr ⟨hround he (hturn.id_eq ▸ hid) hturn.entity_eq, ?_⟩
    obtain ⟨place, id, entity, answer, update⟩ := round
    obtain ⟨rfl, rfl, rfl, -⟩ := hturn
    rcases update with _ | (error | stored)
    · exact ih he hlater
    · exact ih he hlater
    · have hecho : Echo (detach entity id) stored :=
        hown ⟨.update (detach entity id), Except.ok stored⟩
          (List.mem_cons_of_mem _ List.mem_cons_self) stored rfl
      intro call hmem
      refine (ih (hecho.writtenAs (writtenAs_detach he id)) hlater call hmem).of_subset ?_ ?_
      · rw [Round.next, remaining_detached he hecho]
        exact fun id' hmem' => (List.mem_filter.mp hmem').1
      · rw [Round.next, remaining_detached he hecho]
        exact List.length_filter_le _ _

/-- Handling a change of finalizers asks only what a pass over those that are left asks. -/
theorem handle_shrinks (p : Policy) (leading : Bool) {e : K} {rest : List (String × Json)}
    (h : WrittenAs e rest) : (handle p leading ⟨e, .finalizersModified⟩).Ends Stores
      (fun calls _ => ∀ call ∈ calls, Shrinking rest e call) [] := by
  refine Plan.ends_of_comes fun calls r hcomes => ?_
  have hfit := hcomes.all_fit
  rw [List.nil_append]
  cases dealt_of_comes hcomes with
  | dropped => exact List.forall_mem_nil _
  | skipped => exact List.forall_mem_nil _
  | told _ htrigger => cases htrigger
  | nameless htrigger => cases htrigger
  | gone htrigger => cases htrigger
  | unread _ htrigger => cases htrigger
  | passed hseen _ hrounds =>
    cases hseen with
    | given => exact hrounds.shrinks h hfit
    | reread _ htrigger => cases htrigger
  | tried _ hother => exact absurd rfl hother

/-! ## Chains of writes -/

/-- An update that is made while the finalizers of an echo are handled, and its own echo. -/
def Follows (p : Policy) (e e' : K) : Prop :=
  ∃ leading calls result sent answer,
    (handle p leading ⟨e, .finalizersModified⟩).Comes Stores calls result ∧
      (⟨.update sent, answer⟩ : Asked K) ∈ calls ∧ Echo sent e'

theorem Follows.shrinks {p : Policy} {e e' : K} {rest : List (String × Json)}
    (h : Follows p e e') (he : WrittenAs e rest) :
    WrittenAs e' rest ∧ (remaining e').length < (remaining e).length := by
  obtain ⟨leading, calls, result, sent, answer, hcomes, hmem, hecho⟩ := h
  obtain ⟨hsent, hfewer⟩ := (handle_shrinks p leading he).of_comes hcomes _ hmem
  exact ⟨hecho.writtenAs hsent, hfewer e' hecho⟩

/-- A chain of updates, each made for the finalizers in the echo of the one before, is no longer than
the finalizers that were on the entity. -/
theorem exists_not_follows (p : Policy) {e : K} {rest : List (String × Json)}
    (h : WrittenAs e rest) (versions : Nat → K) (hfirst : versions 0 = e) :
    ∃ n ≤ (remaining e).length, ¬ Follows p (versions n) (versions (n + 1)) := by
  by_contra hall
  have hfollows : ∀ n ≤ (remaining e).length, Follows p (versions n) (versions (n + 1)) :=
    fun n hn => Classical.byContradiction fun hnot => hall ⟨n, hn, hnot⟩
  have hshrunk : ∀ n ≤ (remaining e).length + 1, WrittenAs (versions n) rest ∧
      (remaining (versions n)).length + n ≤ (remaining e).length := by
    intro n
    induction n with
    | zero => exact fun _ => ⟨hfirst ▸ h, by rw [hfirst, Nat.add_zero]⟩
    | succ n ih =>
      intro hn
      obtain ⟨hwritten, hlength⟩ := ih (by omega)
      obtain ⟨hwritten', hfewer⟩ := (hfollows n (by omega)).shrinks hwritten
      exact ⟨hwritten', by omega⟩
  have := (hshrunk _ (Nat.le_refl _)).2
  omega

/-! ## Own writes -/

theorem attach_ne (e : K) {ids : List String} (h : ids ≠ []) :
    some ((Entity.metadata e).finalizers.getD [] ++ ids) ≠ (Entity.metadata e).finalizers := by
  cases (Entity.metadata e).finalizers <;> simp [h]

theorem detach_ne {e : K} {id : String} (h : (Entity.metadata e).hasFinalizer id = true) :
    (Entity.metadata e).finalizers.map (·.filter (· != id)) ≠ (Entity.metadata e).finalizers := by
  have hid := hasFinalizer_iff.mp h
  rw [remaining] at hid
  cases hfinalizers : (Entity.metadata e).finalizers with
  | none => rw [hfinalizers] at hid; cases hid
  | some ids =>
    rw [hfinalizers] at hid
    intro heq
    have hfilter : ids.filter (· != id) = ids := Option.some.inj heq
    have := List.filter_eq_self.mp hfilter id hid
    simp at this

theorem isDeleting_echo {sent stored : K} {rest : List (String × Json)} (h : Echo sent stored)
    (hsent : WrittenAs sent rest) : Entity.isDeleting stored = Entity.isDeleting sent := by
  obtain ⟨resourceVersion, managedFields, hmetadata⟩ := h.metadata_eq hsent
  simp only [Entity.isDeleting, hmetadata]
  rfl

section Settling

variable {p : Policy} {c : Cache} {e stored : K} {rest rest' : List (String × Json)}

/-- The echo of attaching the missing finalizers to an entity that is not being deleted. -/
theorem attach_settles (hc : c.Holds e) (he : WrittenAs e rest)
    (hlive : Entity.isDeleting e = false) (hmissing : missingFinalizers p e ≠ [])
    (hecho : Echo (attach e (missingFinalizers p e)) stored) :
    (c.upsert stored).2 = .finalizers ∧ Idle p (entryOf c stored) := by
  have hchange : (c.upsert stored).2 = .finalizers :=
    Cache.upsert_refinalized hc he (attach_ne e hmissing) hecho
  have hstored : Entity.isDeleting stored = false := by
    rw [isDeleting_echo hecho (he.withMetadata _), attach, Entity.isDeleting,
      he.metadata_withFinalizers]
    exact hlive
  refine ⟨hchange, ?_⟩
  rw [entryOf, hchange]
  exact idle_finalizersModified p hstored

/-- The echo of a status that differs at some place, or nowhere. -/
theorem status_settles (hc : c.Holds e) (hwritten : Cache.StatusWritten e stored rest rest')
    (hold : (field (.obj rest) "status").Tidy) (hnew : (field (.obj rest') "status").Tidy) :
    ((∃ below, Differs (field (.obj rest) "status") (field (.obj rest') "status") below) →
        (c.upsert stored).2 = .status ∧ Idle p (entryOf c stored)) ∧
      ((¬∃ below, Differs (field (.obj rest) "status") (field (.obj rest') "status") below) →
        (c.upsert stored).2 = .other) := by
  rcases Cache.upsert_statusWritten hc hwritten hold hnew with ⟨hdiffers, hchange⟩ | ⟨hsame, hchange⟩
  · refine ⟨fun _ => ⟨hchange, ?_⟩, absurd hdiffers⟩
    rw [entryOf, hchange]
    exact idle_statusModified p stored
  · exact ⟨fun hdiffers => absurd hdiffers hsame, fun _ => hchange⟩

/-- The echo of taking a finalizer off. -/
theorem detach_settles (hc : c.Holds e) (he : WrittenAs e rest) {id : String}
    (hid : (Entity.metadata e).hasFinalizer id = true) (hecho : Echo (detach e id) stored) :
    (c.upsert stored).2 = .finalizers ∧
      ∀ leading, (handle p leading (entryOf c stored)).Ends Stores (fun calls _ =>
        ∀ place x answer, (⟨.finalize place id x, answer⟩ : Asked K) ∉ calls) [] := by
  have hchange : (c.upsert stored).2 = .finalizers :=
    Cache.upsert_refinalized hc he (detach_ne hid) hecho
  refine ⟨hchange, fun leading => ?_⟩
  rw [entryOf, hchange]
  refine (handle_shrinks p leading (hecho.writtenAs (writtenAs_detach he id))).mono ?_
  intro calls r hcalls place x answer hmem
  have hremaining : id ∈ remaining stored := hcalls _ hmem
  rw [remaining_detached he hecho] at hremaining
  simpa using (List.mem_filter.mp hremaining).2

end Settling

/-- With the version in the cache that a write was based on: the echo of attaching finalizers and the
echo of a status that differs at any place are told as just that, and nothing is done for them; a
status that differs nowhere is told as any other change; the echo of taking a finalizer off is told as
a change of the finalizers, and that finalizer does not run for it; and no chain of updates made for
the finalizers in each other's echoes is longer than the finalizers that were there. -/
theorem own_writes_settle (p : Policy) {c : Cache} {e : K} {rest : List (String × Json)}
    (hc : c.Holds e) (he : WrittenAs e rest) :
    (Entity.isDeleting e = false → missingFinalizers p e ≠ [] →
      ∀ stored, Echo (attach e (missingFinalizers p e)) stored →
        (c.upsert stored).2 = .finalizers ∧ Idle p (entryOf c stored)) ∧
    (∀ stored rest', Cache.StatusWritten e stored rest rest' →
      (field (.obj rest) "status").Tidy → (field (.obj rest') "status").Tidy →
        ((∃ below, Differs (field (.obj rest) "status") (field (.obj rest') "status") below) →
          (c.upsert stored).2 = .status ∧ Idle p (entryOf c stored)) ∧
        ((¬∃ below, Differs (field (.obj rest) "status") (field (.obj rest') "status") below) →
          (c.upsert stored).2 = .other)) ∧
    (Entity.isDeleting e = true → ∀ id, (Entity.metadata e).hasFinalizer id = true →
      ∀ stored, Echo (detach e id) stored → (c.upsert stored).2 = .finalizers ∧
        ∀ leading, (handle p leading (entryOf c stored)).Ends Stores (fun calls _ =>
          ∀ place x answer, (⟨.finalize place id x, answer⟩ : Asked K) ∉ calls) []) ∧
    ∀ versions : Nat → K, versions 0 = e →
      ∃ n ≤ (remaining e).length, ¬ Follows p (versions n) (versions (n + 1)) :=
  ⟨fun hlive hmissing _ hecho => attach_settles hc he hlive hmissing hecho,
    fun _ _ hwritten hold hnew => status_settles hc hwritten hold hnew,
    fun _ _ hid _ hecho => detach_settles hc he hid hecho,
    exists_not_follows p he⟩

/-! ## Widgets

Widgets are written as they are, in order and with nothing that cannot be written. -/

section Widgets

open Simulation (Widget)

theorem writtenAs_widget {w : Widget} (hordered : Json.Ordered w.fields)
    (hpoison : Json.find? Widget.poison w.fields = none) : WrittenAs w w.fields where
  ordered := hordered
  with_metadata := rfl
  metadata_with _ := rfl
  with_with _ _ := rfl
  encode_with m := if_neg (by
    rw [show (Entity.withMetadata w m).fields = w.fields from rfl, hpoison]
    exact Bool.false_ne_true)

/-- A widget with a status, at a version. -/
def widget (version : String) (status : Json) (finalizers : Option (List String) := none)
    (deletionTimestamp : Option Timestamp := none) : Widget where
  metadata := { name := some "a", resourceVersion := some version, finalizers, deletionTimestamp }
  fields := [("status", status)]

theorem writtenAs_status (version : String) (status : Json) (finalizers : Option (List String))
    (deletionTimestamp : Option Timestamp) :
    WrittenAs (widget version status finalizers deletionTimestamp) [("status", status)] :=
  writtenAs_widget (List.pairwise_singleton _ _) rfl

theorem statusWritten_widget (version version' : String) (status status' : Json) :
    Cache.StatusWritten (widget version status) (widget version' status') [("status", status)]
      [("status", status')] where
  based := writtenAs_status ..
  stored := writtenAs_status ..
  metadata := ⟨_, _, rfl⟩
  others key hkey := by simp [Json.find?_cons, Ne.symm hkey]

/-- The cache after a first sight of an entity. -/
def sighted (e : Widget) : Cache := (Cache.empty.upsert e).1

theorem sighted_holds (version : String) (status : Json) (finalizers : Option (List String))
    (deletionTimestamp : Option Timestamp) :
    (sighted (widget version status finalizers deletionTimestamp)).Holds
      (widget version status finalizers deletionTimestamp) where
  ignored := rfl
  snapshot := ⟨_, (writtenAs_status ..).encode, rfl⟩

/-- The general statement for a widget that gets its finalizer, one whose status is written, and one
that is being deleted and loses a finalizer. -/
theorem own_writes_settle_widget :
    ((sighted (widget "1" .null)).upsert (widget "2" .null (some ["f"]))).2 = .finalizers ∧
      Idle { finalizers := ["f"] }
        (entryOf (sighted (widget "1" .null)) (widget "2" .null (some ["f"]))) ∧
      ((sighted (widget "1" .null)).upsert (widget "2" (.obj [("a", .null)]))).2 = .status ∧
      ((sighted (widget "1" .null (some ["f", "g"]) (some ⟨0, 0⟩))).upsert
        (widget "2" .null (some ["g"]) (some ⟨0, 0⟩))).2 = .finalizers := by
  have hlive := own_writes_settle { finalizers := ["f"] } (sighted_holds "1" .null none none)
    (writtenAs_status ..)
  have hdying := own_writes_settle { finalizers := ["f"] }
    (sighted_holds "1" .null (some ["f", "g"]) (some ⟨0, 0⟩)) (writtenAs_status ..)
  have hattached := hlive.1 rfl (by decide) _ (.mk (some "2") none)
  have hwritten := (hlive.2.1 (widget "2" (.obj [("a", .null)])) [("status", .obj [("a", .null)])]
    (statusWritten_widget ..) trivial ⟨by decide, trivial, trivial⟩).1
    ⟨[], .here (fun ⟨_, _, h, _⟩ => nomatch h) rfl⟩
  exact ⟨hattached.1, hattached.2, hwritten.1,
    (hdying.2.2.1 rfl "f" (by decide) _ (.mk (some "2") none)).1⟩

/-- Objects differ nowhere if all that they hold is `null`. -/
theorem not_differs_of_nulls {left right : List (String × Json)}
    (hleft : ∀ key, field (.obj left) key = .null) (hright : ∀ key, field (.obj right) key = .null) :
    ¬∃ below, Differs (.obj left) (.obj right) below := by
  rintro ⟨below, hdiffers⟩
  cases hdiffers with
  | here hleaf => exact hleaf ⟨left, right, rfl, rfl⟩
  | under key hdiffers =>
    rw [hleft, hright] at hdiffers
    cases hdiffers with
    | here _ hother => cases hother

/-- The fields of a status in which a `null` comes and goes. -/
def blinking (n : Nat) : List (String × Json) := if n % 2 = 0 then [] else [("a", .null)]

theorem field_blinking (n : Nat) (key : String) : field (.obj (blinking n)) key = .null := by
  unfold blinking
  split
  · rfl
  · rw [Diff.field_cons]
    split <;> rfl

theorem tidy_blinking (n : Nat) : (Json.obj (blinking n)).Tidy := by
  unfold blinking
  split
  · trivial
  · exact ⟨by decide, trivial, trivial⟩

theorem blinking_succ_ne (n : Nat) : blinking n ≠ blinking (n + 1) := by
  unfold blinking
  rcases Nat.mod_two_eq_zero_or_one n with heven | hodd
  · rw [if_pos heven, if_neg (by omega)]
    exact List.cons_ne_nil _ _ |>.symm
  · rw [if_neg (by omega), if_pos (by omega)]
    exact List.cons_ne_nil _ _

/-- The versions of a widget with this status. -/
def blinker (n : Nat) : Widget := widget (toString (n + 1)) (.obj (blinking n))

/-- The cache of a watch that has told of the versions up to one. -/
def watched : Nat → Cache
  | 0 => sighted (blinker 0)
  | n + 1 => ((watched n).upsert (blinker (n + 1))).1

theorem watched_holds (n : Nat) : (watched n).Holds (blinker n) := by
  induction n with
  | zero => exact sighted_holds ..
  | succ n ih => exact ih.upsert (writtenAs_status ..)

/-- The status of every version is written while the one before is reconciled, and is reconciled in
its turn. -/
theorem blinker_reconciled (n : Nat) :
    ((watched n).upsert (blinker (n + 1))).2 = .other ∧
      ∃ next, handle {} true (entryOf (watched n) (blinker (n + 1))) =
        .ask (.reconcile (blinker (n + 1))) next := by
  have hchange : ((watched n).upsert (blinker (n + 1))).2 = .other :=
    (status_settles (p := {}) (watched_holds n) (statusWritten_widget ..) (tidy_blinking n)
      (tidy_blinking (n + 1))).2 (not_differs_of_nulls (field_blinking n) (field_blinking (n + 1)))
  refine ⟨hchange, ?_⟩
  rw [entryOf, hchange]
  exact ⟨_, rfl⟩

/-- A status that only gets a field with `null` differs nowhere: the echo counts as any other change,
and the entity is reconciled. A controller that writes a `null` whenever there is none, and takes it
away whenever there is, is called for its own writes for ever. -/
theorem null_not_told :
    (sighted (widget "1" (.obj []))).Holds (widget "1" (.obj [])) ∧
      Cache.StatusWritten (widget "1" (.obj [])) (widget "2" (.obj [("a", .null)]))
        [("status", .obj [])] [("status", .obj [("a", .null)])] ∧
      Json.obj [] ≠ .obj [("a", .null)] ∧
      ((sighted (widget "1" (.obj []))).upsert (widget "2" (.obj [("a", .null)]))).2 = .other ∧
      ¬ Idle {} (entryOf (sighted (widget "1" (.obj []))) (widget "2" (.obj [("a", .null)]))) ∧
      ∀ n, (watched n).Holds (blinker n) ∧
        Cache.StatusWritten (blinker n) (blinker (n + 1)) [("status", .obj (blinking n))]
          [("status", .obj (blinking (n + 1)))] ∧
        blinking n ≠ blinking (n + 1) ∧ ((watched n).upsert (blinker (n + 1))).2 = .other ∧
        ∃ next, handle {} true (entryOf (watched n) (blinker (n + 1))) =
          .ask (.reconcile (blinker (n + 1))) next := by
  have hchange :
      ((sighted (widget "1" (.obj []))).upsert (widget "2" (.obj [("a", .null)]))).2 = .other := by
    decide +kernel
  refine ⟨sighted_holds .., statusWritten_widget .., by simp, hchange, fun hidle => ?_, fun n =>
    ⟨watched_holds n, statusWritten_widget .., blinking_succ_ne n, blinker_reconciled n⟩⟩
  obtain ⟨verdict, hhandle, -⟩ := hidle true
  rw [entryOf, hchange] at hhandle
  cases hhandle

end Widgets

end Dispatch

end Reconciler
