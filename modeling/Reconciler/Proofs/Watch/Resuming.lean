import Reconciler.Proofs.Watch.History
import Reconciler.Proofs.Watch.Reaction
import Reconciler.Simulation.Widget

/-!
# What a watcher is told over many connections

A session is a watcher at a server whose history grows, from the start of its loop on. Connections
open and are refused, are lost at any time with part of what they offer not handled, cleanly or not,
and the loop goes on from the version of the last event it has handled. The session keeps what was
sent to the queue, and what the lost connections had left to offer.

Events of the same kind say different things here. While a connection repeats what there is, the
versions come in any order, and the last one says nothing about what is still to come. So an object
that was still to come, and is older than the last one that came, is not in what the next connection
offers (`Loss.Skips`). Every other object reaches the queue: this is all that can get lost.
-/

namespace Reconciler.Watch

open Queue (Command)

variable {K : Type} [Entity K]

structure Loss (K : Type) where
  /-- What the connection was opened from. -/
  origin : String
  /-- What the next one is opened from. -/
  version : String
  log : List (Event K)
  /-- What the connection offered beyond what was handled. -/
  unhandled : List (Event K)

/-- The next connection does not bring an object that the lost one was still to bring. -/
def Loss.Skips (loss : Loss K) (x : K) : Prop :=
  loss.version ≠ initialVersion ∧ (∃ event ∈ loss.unhandled, event.entity? = some x) ∧
    ∀ event ∈ after loss.version loss.log, event.entity? ≠ some x

structure Session (K : Type) where
  log : List (Event K)
  watcher : Watcher
  /-- What the open connection was opened from, and what it offers beyond what was handled. -/
  offer : Option (String × List (Event K)) := none
  sent : List (Command K) := []
  losses : List (Loss K) := []

namespace Session

/-- The session in which a watcher is started. -/
def start (settings : Settings) (cache : Cache) (log : List (Event K)) : Session K where
  log
  watcher := ((Watcher.ofSettings settings cache).react 0 0 (.start : Input K)).1

/-- Something happens to the watcher at an instant. -/
def told (s : Session K) (now draw : Nat) (input : Input K) : Session K :=
  { s with
    watcher := (s.watcher.react now draw input).1
    sent := s.sent ++ Watch.sent (s.watcher.react now draw input).2 }

inductive Step : Session K → Session K → Prop where
  /-- Something changes at the server; an open connection will tell. -/
  | changed {s : Session K} {event : Event K} : IsHistory (s.log ++ [event]) →
      Step s { s with
        log := s.log ++ [event]
        offer := s.offer.map fun (origin, events) => (origin, events ++ [event]) }
  | opened {s : Session K} {version : String} {events : List (Event K)} (now draw : Nat) :
      s.watcher.loop = some ⟨version, .opening⟩ → Offers s.log version events →
      Step s (told { s with offer := some (version, events) } now draw .opened)
  | refused {s : Session K} {version : String} (now draw : Nat) (error : Error) :
      s.watcher.loop = some ⟨version, .opening⟩ → Step s (s.told now draw (.refused error))
  | handled {s : Session K} {origin : String} {event : Event K} {rest : List (Event K)}
      (now draw : Nat) : s.offer = some (origin, event :: rest) →
      Step s (told { s with offer := some (origin, rest) } now draw (.event event))
  | lost {s : Session K} {origin : String} {unhandled : List (Event K)} {l : Loop}
      {input : Input K} (now draw : Nat) : s.offer = some (origin, unhandled) →
      s.watcher.loop = some l → (input = .ended ∨ ∃ error, input = .broken error) →
      Step s (told { s with
        offer := none
        losses := s.losses ++ [⟨origin, l.version, s.log, unhandled⟩] } now draw input)
  /-- The loop has a turn, or the clock has moved. -/
  | woken {s : Session K} (now draw : Nat) : Step s (s.told now draw .wake)

inductive Run (first : Session K) : Session K → Prop where
  | nil : Run first first
  | snoc {s s' : Session K} : Run first s → Step s s' → Run first s'

/-- The object was handed to the queue as it is. -/
def Handed (s : Session K) (x : K) : Prop :=
  ∃ key trigger, .schedule key ⟨x, trigger⟩ 0 ∈ s.sent

/-- A lost connection was still to bring the object, and the next one did not. -/
def Skipped (s : Session K) (x : K) : Prop := ∃ loss ∈ s.losses, loss.Skips x

/-- The connection that is open, or the next one, brings the object. -/
def Promised (s : Session K) (l : Loop) (x : K) : Prop :=
  match s.offer with
  | some (_, events) => ∃ event ∈ events, event.entity? = some x
  | none => l.version = initialVersion ∨
      ∃ event ∈ after l.version s.log, event.entity? = some x

/-! ## The invariant -/

/-- A connection that tells what there is: nothing it offers was handed over, and none was lost before
after anything was handled. -/
structure Listing (s : Session K) (events : List (Event K)) : Prop where
  distinct : (events.map Event.version?).Nodup
  unhanded : ∀ event ∈ events, ∀ x, event.entity? = some x → ¬s.Handed x
  losses : ∀ loss ∈ s.losses, loss.version = initialVersion

/-- What holds throughout a session. -/
structure Kept (s : Session K) (l : Loop) : Prop where
  history : IsHistory s.log
  /-- The version to resume from is that of an event. -/
  known : l.version ≠ initialVersion → ∃ event ∈ s.log, event.version? = some l.version
  /-- Nothing was handled while it is the initial one. -/
  untouched : l.version = initialVersion →
    s.sent = [] ∧ ∀ loss ∈ s.losses, loss.version = initialVersion
  streaming : s.offer.isSome → ∃ stableAt, l.phase = .streaming stableAt
  offered : ∀ origin events, s.offer = some (origin, events) →
    (∀ event ∈ events, ∃ known ∈ s.log, known.entity? = event.entity?) ∧
      (origin = initialVersion ∧ s.Listing events ∨
        origin ≠ initialVersion ∧ l.version ≠ initialVersion ∧ events = after l.version s.log)
  /-- Every object has reached the queue, or is still to come, or was skipped. -/
  objects : ∀ x ∈ existing s.log, s.Handed x ∨ s.Skipped x ∨ s.Promised l x
  handed : ∀ x, s.Handed x → ∃ event ∈ s.log, event.entity? = some x
  /-- What was skipped was never handed over, and no connection to come brings it. -/
  skipped : ∀ x, s.Skipped x → ¬s.Handed x ∧ l.version ≠ initialVersion ∧
    (∃ event ∈ s.log, event.entity? = some x) ∧
    ∀ event ∈ after l.version s.log, event.entity? ≠ some x
  /-- Only a connection that told what there is can have skipped anything. -/
  origins : ∀ loss ∈ s.losses, ∀ x, loss.Skips x → loss.origin = initialVersion

/-! ## What a step keeps -/

section Steps

variable {s s' : Session K} {l : Loop}

/-- Nothing but an event sends anything. -/
theorem told_sent {input : Input K} (now draw : Nat) (hqueued : s.watcher.queued? input = none) :
    (s.told now draw input).sent = s.sent := by
  simp only [told, Watcher.sent_react, hqueued, Option.bind_none, Option.toList_none,
    List.append_nil]

/-- An input that sends nothing keeps everything. -/
theorem Kept.told {version : String} {phase : Phase} (h : s.Kept ⟨version, phase⟩) {now draw : Nat}
    {input : Input K} (hqueued : s.watcher.queued? input = none) {phase' : Phase}
    (hphase : s.offer.isSome → ∃ stableAt, phase' = .streaming stableAt) :
    (s.told now draw input).Kept ⟨version, phase'⟩ := by
  have hsent := told_sent now draw hqueued
  have hhanded : ∀ x, (s.told now draw input).Handed x ↔ s.Handed x := by
    intro x
    rw [Handed, hsent, Handed]
  exact {
    history := h.history
    known := h.known
    untouched := fun hversion => hsent.symm ▸ h.untouched hversion
    streaming := hphase
    offered := by
      intro origin events hoffer
      obtain ⟨hknown, hmode⟩ := h.offered origin events hoffer
      refine ⟨hknown, hmode.imp_left (And.imp_right fun hlisting => ?_)⟩
      exact ⟨hlisting.distinct, fun event hevent x hx =>
        (hhanded x).not.mpr (hlisting.unhanded event hevent x hx), hlisting.losses⟩
    objects := fun x hx => (h.objects x hx).imp_left (hhanded x).mpr
    handed := fun x hx => h.handed x ((hhanded x).mp hx)
    skipped := fun x hx => by
      rw [hhanded x]
      exact h.skipped x hx
    origins := h.origins }

theorem kept_start {settings : Settings} {cache : Cache} {log : List (Event K)}
    (hlog : IsHistory log) : (start settings cache log).Kept {} where
  history := hlog
  known := fun h => absurd rfl h
  untouched := fun _ => ⟨rfl, fun loss hloss => by cases hloss⟩
  streaming := fun h => by cases h
  offered := fun origin events h => by cases h
  objects := fun x _ => .inr (.inr (.inl rfl))
  handed := fun x ⟨_, _, hx⟩ => by cases hx
  skipped := fun x ⟨_, hloss, _⟩ => by cases hloss
  origins := fun loss hloss => by cases hloss

/-- An object that has an event in a history is none that a new event is about. -/
theorem entity_ne_of_new {log : List (Event K)} {event known : Event K} {x : K}
    (hlog : IsHistory (log ++ [event])) (hknown : known ∈ log) (hx : known.entity? = some x) :
    event.entity? ≠ some x := by
  intro heq
  exact hlog.version_new hknown ((version?_eq hx).trans (version?_eq heq).symm)

theorem Kept.changed (h : s.Kept l) {event : Event K} (hlog : IsHistory (s.log ++ [event])) :
    Kept { s with
      log := s.log ++ [event]
      offer := s.offer.map fun (origin, events) => (origin, events ++ [event]) } l := by
  have hgrow : ∀ x, (∃ known ∈ s.log, known.entity? = some x) →
      ∃ known ∈ s.log ++ [event], known.entity? = some x :=
    fun x ⟨known, hknown, hx⟩ => ⟨known, List.mem_append_left _ hknown, hx⟩
  have hafter : l.version ≠ initialVersion →
      after l.version (s.log ++ [event]) = after l.version s.log ++ [event] :=
    fun hversion => after_append (h.known hversion) event
  refine {
    history := hlog
    known := fun hversion => ?known
    untouched := h.untouched
    streaming := fun hsome => h.streaming (by simpa using hsome)
    offered := ?offered
    objects := ?objects
    handed := fun x hx => hgrow x (h.handed x hx)
    skipped := ?skipped
    origins := h.origins }
  case known =>
    obtain ⟨known, hknown, heq⟩ := h.known hversion
    exact ⟨known, List.mem_append_left _ hknown, heq⟩
  case offered =>
    intro origin events hoffer
    obtain ⟨⟨origin', before⟩, hbefore, heq⟩ := Option.map_eq_some_iff.mp hoffer
    obtain ⟨rfl, rfl⟩ := Prod.mk.inj heq
    obtain ⟨hknown, hmode⟩ := h.offered _ _ hbefore
    refine ⟨?_, hmode.imp (And.imp_right ?_) (And.imp_right ?_)⟩
    · intro other hother
      rcases List.mem_append.mp hother with hother | hother
      · obtain ⟨known, hmem, heq⟩ := hknown other hother
        exact ⟨known, List.mem_append_left _ hmem, heq⟩
      · exact ⟨other, List.mem_append_right _ hother, rfl⟩
    · intro hlisting
      refine ⟨?_, ?_, hlisting.losses⟩
      · rw [List.map_append, List.nodup_append]
        refine ⟨hlisting.distinct, by simp, ?_⟩
        intro version hversion other hother
        obtain ⟨told, htold, rfl⟩ := List.mem_map.mp hversion
        obtain ⟨known, hmem, heq⟩ := hknown told htold
        obtain ⟨x, key, hx, -⟩ := hlog.named known (List.mem_append_left _ hmem)
        rw [List.map_singleton, List.mem_singleton] at hother
        rw [hother, version?_eq (heq ▸ hx : told.entity? = some x), ← version?_eq hx]
        exact hlog.version_new hmem
      · intro other hother x hx
        rcases List.mem_append.mp hother with hother | hother
        · exact hlisting.unhanded other hother x hx
        · intro hhanded
          obtain ⟨known, hmem, heq⟩ := h.handed x hhanded
          exact entity_ne_of_new hlog hmem heq (List.mem_singleton.mp hother ▸ hx)
    · rintro ⟨hversion, rfl⟩
      exact ⟨hversion, (hafter hversion).symm⟩
  case objects =>
    intro x hx
    have hpromised : s.Promised l x ∨ event.entity? = some x →
        Promised { s with
          log := s.log ++ [event]
          offer := s.offer.map fun (origin, events) => (origin, events ++ [event]) } l x := by
      intro hcase
      unfold Promised at hcase ⊢
      cases hoffer : s.offer with
      | some offer =>
        simp only [hoffer, Option.map_some] at hcase ⊢
        rcases hcase with ⟨other, hmem, heq⟩ | heq
        · exact ⟨other, List.mem_append_left _ hmem, heq⟩
        · exact ⟨event, by simp, heq⟩
      | none =>
        simp only [hoffer, Option.map_none] at hcase ⊢
        by_cases hversion : l.version = initialVersion
        · exact .inl hversion
        · rw [hafter hversion]
          rcases hcase with (heq | ⟨other, hmem, heq⟩) | heq
          · exact absurd heq hversion
          · exact .inr ⟨other, List.mem_append_left _ hmem, heq⟩
          · exact .inr ⟨event, by simp, heq⟩
    rcases mem_existing_append hx with hx | hx
    · rcases h.objects x hx with hhanded | hskipped | hcase
      · exact .inl hhanded
      · exact .inr (.inl hskipped)
      · exact .inr (.inr (hpromised (.inl hcase)))
    · exact .inr (.inr (hpromised (.inr hx)))
  case skipped =>
    intro x hx
    obtain ⟨hunhanded, hversion, hknown, hnone⟩ := h.skipped x hx
    refine ⟨hunhanded, hversion, hgrow x hknown, ?_⟩
    rw [hafter hversion]
    intro other hother
    rcases List.mem_append.mp hother with hother | hother
    · exact hnone other hother
    · obtain ⟨known, hmem, heq⟩ := hknown
      rw [List.mem_singleton.mp hother]
      exact entity_ne_of_new hlog hmem heq

/-- A connection that opens promises what the loop was promised before. -/
theorem Kept.opened {version : String} (h : s.Kept ⟨version, .opening⟩)
    {events : List (Event K)} (hoffers : Offers s.log version events) (stableAt : Option Nat) :
    Kept { s with offer := some (version, events) } ⟨version, .streaming stableAt⟩ := by
  have hclosed : s.offer = none := by
    by_contra hne
    obtain ⟨_, hphase⟩ := h.streaming (Option.isSome_iff_ne_none.mpr hne)
    cases hphase
  refine {
    history := h.history
    known := h.known
    untouched := h.untouched
    streaming := fun _ => ⟨stableAt, rfl⟩
    offered := ?offered
    objects := fun x hx => (h.objects x hx).imp_right (Or.imp_right ?promised)
    handed := h.handed
    skipped := h.skipped
    origins := h.origins }
  case offered =>
    rintro _ _ ⟨⟩
    cases hoffers with
    | resumed hversion =>
      refine ⟨?_, .inr ⟨hversion, hversion, rfl⟩⟩
      intro event hevent
      exact ⟨event, (after_suffix version s.log).subset hevent, rfl⟩
    | initial hperm =>
      obtain ⟨hsent, hlosses⟩ := h.untouched rfl
      refine ⟨?_, .inl ⟨rfl, ?_, ?_, hlosses⟩⟩
      · intro event hevent
        obtain ⟨x, hx, rfl⟩ := List.mem_map.mp (hperm.mem_iff.mp hevent)
        exact exists_of_mem_existing hx
      · rw [(hperm.map Event.version?).nodup_iff, List.map_map]
        exact existing_distinct h.history
      · rintro event _ x _ ⟨key, trigger, hmem⟩
        rw [show s.sent = [] from hsent] at hmem
        cases hmem
  case promised =>
    intro hpromised
    simp only [Promised, hclosed] at hpromised ⊢
    cases hoffers with
    | initial hperm =>
      exact ⟨.added x, hperm.mem_iff.mpr (List.mem_map_of_mem hx), rfl⟩
    | resumed hversion => exact hpromised.resolve_left hversion

omit [Entity K] in
/-- The object of an event that is handled is handed over, and nothing else. -/
theorem handed_append {s : Session K} {watcher : Watcher} {offer : Option (String × List (Event K))}
    {key : EntityKey} {x : K} {trigger : Trigger} (y : K) :
    Handed { s with watcher, offer, sent := s.sent ++ [.schedule key ⟨x, trigger⟩ 0] } y ↔
      s.Handed y ∨ y = x := by
  constructor
  · rintro ⟨key', trigger', hmem⟩
    rcases List.mem_append.mp hmem with hmem | hmem
    · exact .inl ⟨key', trigger', hmem⟩
    · simp only [List.mem_singleton, Command.schedule.injEq, Queue.Entry.mk.injEq] at hmem
      exact .inr hmem.2.1.1
  · rintro (⟨key', trigger', hmem⟩ | rfl)
    · exact ⟨key', trigger', List.mem_append_left _ hmem⟩
    · exact ⟨key, trigger, List.mem_append_right _ List.mem_cons_self⟩

/-- An event that is handled is handed over, and the loop goes on from its version. -/
theorem Kept.handled (h : s.Kept l) {origin : String} {event : Event K} {rest : List (Event K)}
    (hoffer : s.offer = some (origin, event :: rest)) {x : K} (hx : event.entity? = some x)
    {version : String} (hversion : event.version? = some version) (watcher : Watcher)
    (key : EntityKey) (trigger : Trigger) :
    Kept { s with
      watcher
      offer := some (origin, rest)
      sent := s.sent ++ [.schedule key ⟨x, trigger⟩ 0] } ⟨version, l.phase⟩ := by
  obtain ⟨hknown, hmode⟩ := h.offered _ _ hoffer
  obtain ⟨known, hmem, hentity⟩ := hknown event List.mem_cons_self
  have hsame : known.version? = some version := by
    rw [version?_eq (hentity.trans hx), ← version?_eq hx, hversion]
  have hinitial : version ≠ initialVersion := by
    obtain ⟨version', hversion', hne⟩ := h.history.versioned known hmem
    rw [hsame] at hversion'
    exact Option.some.inj hversion' ▸ hne
  refine {
    history := h.history
    known := fun _ => ⟨known, hmem, hsame⟩
    untouched := fun heq => absurd heq hinitial
    streaming := fun _ => h.streaming (by rw [hoffer]; rfl)
    offered := ?offered
    objects := ?objects
    handed := ?handed
    skipped := ?skipped
    origins := h.origins }
  case offered =>
    rintro _ _ ⟨⟩
    refine ⟨fun other hother => hknown other (List.mem_cons_of_mem _ hother), ?_⟩
    rcases hmode with ⟨horigin, hlisting⟩ | ⟨horigin, -, hafter⟩
    · have hdistinct := List.nodup_cons.mp hlisting.distinct
      refine .inl ⟨horigin, hdistinct.2, ?_, hlisting.losses⟩
      intro other hother y hy
      rw [handed_append]
      rintro (hhanded | rfl)
      · exact hlisting.unhanded other (List.mem_cons_of_mem _ hother) y hy hhanded
      · have heq : other.version? = event.version? := (version?_eq hy).trans (version?_eq hx).symm
        exact hdistinct.1 (heq ▸ List.mem_map_of_mem hother)
    · exact .inr ⟨horigin, hinitial, (after_version h.history hafter.symm hversion).symm⟩
  case objects =>
    intro y hy
    rw [handed_append]
    rcases h.objects y hy with hhanded | hskipped | hpromised
    · exact .inl (.inl hhanded)
    · exact .inr (.inl hskipped)
    · simp only [Promised, hoffer] at hpromised ⊢
      obtain ⟨other, hother, heq⟩ := hpromised
      rcases List.mem_cons.mp hother with rfl | hother
      · exact .inl (.inr (Option.some.inj (heq.symm.trans hx)))
      · exact .inr (.inr ⟨other, hother, heq⟩)
  case handed =>
    intro y hy
    rcases (handed_append y).mp hy with hhanded | rfl
    · exact h.handed y hhanded
    · exact ⟨known, hmem, hentity.trans hx⟩
  case skipped =>
    intro y hy
    obtain ⟨hunhanded, hne, hseen, hnone⟩ := h.skipped y hy
    -- An open connection that tells what there is has nothing skipped before it.
    rcases hmode with ⟨-, hlisting⟩ | ⟨-, -, hafter⟩
    · obtain ⟨loss, hloss, hskips⟩ := hy
      exact absurd (hlisting.losses loss hloss) hskips.1
    · have hrest : after version s.log = rest := after_version h.history hafter.symm hversion
      refine ⟨?_, hinitial, hseen, ?_⟩
      · rw [handed_append]
        rintro (hhanded | rfl)
        · exact hunhanded hhanded
        · exact hnone event (hafter ▸ List.mem_cons_self) hx
      · intro other hother
        rw [hrest] at hother
        exact hnone other (hafter ▸ List.mem_cons_of_mem _ hother)

/-- A lost connection skips what it was still to bring and the next one does not. -/
theorem Kept.lost (h : s.Kept l) {origin : String} {unhandled : List (Event K)}
    (hoffer : s.offer = some (origin, unhandled)) :
    Kept { s with
      offer := none
      losses := s.losses ++ [⟨origin, l.version, s.log, unhandled⟩] } l := by
  obtain ⟨hknown, hmode⟩ := h.offered _ _ hoffer
  -- A connection that goes on from a version leaves nothing that the next one does not bring.
  have hresumed : ∀ x, Loss.Skips ⟨origin, l.version, s.log, unhandled⟩ x →
      origin = initialVersion ∧ s.Listing unhandled := by
    rintro x ⟨-, ⟨event, hevent, hx⟩, hnone⟩
    rcases hmode with hlisting | ⟨-, -, hafter⟩
    · exact hlisting
    · exact absurd hx (hnone event (hafter ▸ hevent))
  refine {
    history := h.history
    known := h.known
    untouched := ?untouched
    streaming := fun hsome => by cases hsome
    offered := fun _ _ hnone => by cases hnone
    objects := ?objects
    handed := h.handed
    skipped := ?skipped
    origins := ?origins }
  case untouched =>
    intro hversion
    obtain ⟨hsent, hlosses⟩ := h.untouched hversion
    refine ⟨hsent, fun loss hloss => ?_⟩
    rcases List.mem_append.mp hloss with hloss | hloss
    · exact hlosses loss hloss
    · rw [List.mem_singleton.mp hloss]
      exact hversion
  case objects =>
    intro x hx
    rcases h.objects x hx with hhanded | ⟨loss, hloss, hskips⟩ | hpromised
    · exact .inl hhanded
    · exact .inr (.inl ⟨loss, List.mem_append_left _ hloss, hskips⟩)
    · simp only [Promised, hoffer] at hpromised ⊢
      by_cases hversion : l.version = initialVersion
      · exact .inr (.inr (.inl hversion))
      · by_cases hnext : ∃ event ∈ after l.version s.log, event.entity? = some x
        · exact .inr (.inr (.inr hnext))
        · refine .inr (.inl ⟨_, List.mem_append_right _ List.mem_cons_self, hversion, hpromised, ?_⟩)
          intro event hevent heq
          exact hnext ⟨event, hevent, heq⟩
  case skipped =>
    rintro x ⟨loss, hloss, hskips⟩
    rcases List.mem_append.mp hloss with hloss | hloss
    · exact h.skipped x ⟨loss, hloss, hskips⟩
    · obtain rfl := List.mem_singleton.mp hloss
      obtain ⟨-, hlisting⟩ := hresumed x hskips
      obtain ⟨hversion, ⟨event, hevent, hx⟩, hnone⟩ := hskips
      obtain ⟨known, hmem, heq⟩ := hknown event hevent
      exact ⟨hlisting.unhanded event hevent x hx, hversion, ⟨known, hmem, heq.trans hx⟩, hnone⟩
  case origins =>
    intro loss hloss x hskips
    rcases List.mem_append.mp hloss with hloss | hloss
    · exact h.origins loss hloss x hskips
    · obtain rfl := List.mem_singleton.mp hloss
      exact (hresumed x hskips).1

/-- A step keeps everything, and the loop runs on. -/
theorem Step.kept (hloop : s.watcher.loop = some l) (h : s.Kept l) (hstep : Step s s') :
    ∃ l', s'.watcher.loop = some l' ∧ s'.Kept l' := by
  cases hstep with
  | changed hlog => exact ⟨l, hloop, h.changed hlog⟩
  | opened now draw hopening hoffers =>
    obtain rfl := Option.some.inj (hloop.symm.trans hopening)
    obtain ⟨stableAt, hnext⟩ := Watcher.loop_react_opened (K := K) now draw hopening
    have hkept := h.opened hoffers stableAt
    exact ⟨_, hnext, hkept.told rfl fun _ => ⟨_, rfl⟩⟩
  | refused now draw error hopening =>
    obtain rfl := Option.some.inj (hloop.symm.trans hopening)
    obtain ⟨phase, hnext⟩ := Watcher.loop_react_lost now draw hopening
      (.inr (.inr ⟨error, rfl⟩) : (.refused error : Input K) = .ended ∨ _ ∨ _)
    refine ⟨_, hnext, h.told rfl fun hsome => ?_⟩
    obtain ⟨_, hphase⟩ := h.streaming hsome
    cases hphase
  | @handled origin event rest now draw hoffer =>
    obtain ⟨known, hmem, hentity⟩ := (h.offered _ _ hoffer).1 event List.mem_cons_self
    obtain ⟨x, key, hx, hkey⟩ := h.history.named known hmem
    obtain ⟨version, hversion, -⟩ := h.history.versioned known hmem
    rw [version?_eq hx, ← version?_eq (hentity ▸ hx)] at hversion
    rw [hentity] at hx
    obtain ⟨trigger, hqueued⟩ := Watcher.queued?_event (by rw [hloop]; rfl) hx
    have hsent : Watch.sent (s.watcher.react now draw (.event event)).2 =
        [.schedule key ⟨x, trigger⟩ 0] := by
      simp only [Watcher.sent_react, hqueued, Option.bind_some, Command.schedule?, hkey,
        Option.map_some, Option.toList_some]
    have hnext := Watcher.loop_react_event now draw hloop hx hkey
    rw [hversion, Option.getD_some] at hnext
    have hkept := h.handled hoffer hx hversion (s.watcher.react now draw (.event event)).1 key trigger
    rw [← hsent] at hkept
    exact ⟨_, hnext, hkept⟩
  | lost now draw hoffer hrunning hinput =>
    obtain rfl := Option.some.inj (hloop.symm.trans hrunning)
    obtain ⟨phase, hnext⟩ := Watcher.loop_react_lost now draw hloop (hinput.imp_right Or.inl)
    refine ⟨_, hnext, (h.lost hoffer).told ?_ fun hsome => by cases hsome⟩
    rcases hinput with rfl | ⟨error, rfl⟩ <;> rfl
  | woken now draw =>
    obtain ⟨phase, hnext, hstreaming⟩ := Watcher.loop_react_wake (K := K) now draw hloop
    exact ⟨_, hnext, h.told rfl fun hsome => hstreaming (h.streaming hsome)⟩

theorem Run.kept {settings : Settings} {cache : Cache} {log : List (Event K)}
    (hlog : IsHistory log) (h : Run (start settings cache log) s) :
    ∃ l, s.watcher.loop = some l ∧ s.Kept l := by
  induction h with
  | nil => exact ⟨{}, rfl, kept_start hlog⟩
  | snoc _ hstep ih =>
    obtain ⟨l, hloop, hkept⟩ := ih
    exact hstep.kept hloop hkept

end Steps

/-- What resuming comes to. Whenever a watcher that was started at a server with any history, over
any number of connections, has handled all that its open connection offers, an object that exists
was handed to the queue as it is exactly if no lost connection skipped it. Nothing is skipped but by
a connection that was to tell what there is, when it is lost after some of it was handled. -/
theorem handed_iff_not_skipped {settings : Settings} {cache : Cache} {log : List (Event K)}
    (hlog : IsHistory log) {s : Session K} (h : Run (start settings cache log) s) {origin : String}
    (hcaught : s.offer = some (origin, [])) :
    (∀ x ∈ existing s.log, s.Handed x ↔ ∀ loss ∈ s.losses, ¬loss.Skips x) ∧
      ∀ loss ∈ s.losses, ∀ x, loss.Skips x → loss.origin = initialVersion := by
  obtain ⟨l, -, hkept⟩ := h.kept hlog
  refine ⟨fun x hx => ⟨?_, ?_⟩, hkept.origins⟩
  · intro hhanded loss hloss hskips
    exact (hkept.skipped x ⟨loss, hloss, hskips⟩).1 hhanded
  · intro hnone
    rcases hkept.objects x hx with hhanded | ⟨loss, hloss, hskips⟩ | hpromised
    · exact hhanded
    · exact absurd hskips (hnone loss hloss)
    · simp only [Promised, hcaught] at hpromised
      obtain ⟨event, hevent, -⟩ := hpromised
      cases hevent

/-! ## A listing that is cut short -/

section CutShort

open Simulation (Widget)

/-- An object that was last changed at version `3`. -/
def older : Widget where
  metadata := { name := some "older", resourceVersion := some "3" }
  fields := []

/-- An object that was last changed at version `5`. -/
def newer : Widget where
  metadata := { name := some "newer", resourceVersion := some "5" }
  fields := []

/-- The session in which the first connection brings the newer object and then ends, and the second
one has nothing to bring. -/
def cutShort : Session Widget :=
  let first := told (start (.named "op" "pod") .empty [.added older, .added newer]) 0 0 .wake
  let listing := told { first with offer := some (initialVersion, [.added newer, .added older]) }
    0 0 .opened
  let cut := told { listing with offer := some (initialVersion, [.added older]) } 0 0
    (.event (.added newer))
  let closed := told { cut with
    offer := none
    losses := [⟨initialVersion, "5", cut.log, [.added older]⟩] } 0 0 .ended
  told { closed with offer := some ("5", []) } 0 0 .opened

theorem cutShort_history : IsHistory [.added older, .added newer] where
  named event hevent := by
    rcases List.mem_cons.mp hevent with rfl | hevent
    · exact ⟨older, ⟨none, "older"⟩, rfl, rfl⟩
    · rw [List.mem_singleton.mp hevent]
      exact ⟨newer, ⟨none, "newer"⟩, rfl, rfl⟩
  versioned event hevent := by
    rcases List.mem_cons.mp hevent with rfl | hevent
    · exact ⟨"3", rfl, by decide⟩
    · rw [List.mem_singleton.mp hevent]
      exact ⟨"5", rfl, by decide⟩
  distinct := by decide

theorem run_cutShort :
    Run (start (.named "op" "pod") .empty [.added older, .added newer]) cutShort := by
  have first : Run (start (.named "op" "pod") .empty [.added older, .added newer]) _ :=
    Run.nil.snoc (.woken 0 0)
  have listing := first.snoc (.opened 0 0 rfl (.initial (List.Perm.swap _ _ _)))
  have cut := listing.snoc (.handled 0 0 rfl)
  have closed := cut.snoc (.lost 0 0 rfl rfl (.inl rfl))
  exact closed.snoc (.opened 0 0 rfl (.resumed (by decide)))

theorem existing_cutShort : existing cutShort.log = [older, newer] := rfl

theorem older_ne_newer : older ≠ newer := by
  intro heq
  have hname : older.metadata.name = newer.metadata.name := by rw [heq]
  exact absurd hname (by decide)

/-- The newer object, which comes before the connection is lost, is handed over, and the older one
is skipped. -/
theorem handed_iff_not_skipped_cutShort :
    IsHistory [.added older, .added newer] ∧
      Run (start (.named "op" "pod") .empty [.added older, .added newer]) cutShort ∧
      cutShort.offer = some ("5", []) ∧ cutShort.Handed newer ∧ ¬cutShort.Handed older := by
  obtain ⟨hexact, -⟩ := handed_iff_not_skipped cutShort_history run_cutShort
    (show cutShort.offer = some ("5", []) from rfl)
  rw [existing_cutShort] at hexact
  refine ⟨cutShort_history, run_cutShort, rfl, ?_, ?_⟩
  · refine (hexact newer (by simp)).mpr ?_
    rintro loss hloss ⟨-, ⟨event, hevent, hentity⟩, -⟩
    obtain rfl := List.mem_singleton.mp hloss
    obtain rfl := List.mem_singleton.mp hevent
    exact older_ne_newer (Option.some.inj hentity)
  · intro hhanded
    refine (hexact older (by simp)).mp hhanded _ List.mem_cons_self
      ⟨by decide, ⟨.added older, List.mem_cons_self, rfl⟩, ?_⟩
    rintro event ⟨⟩

/-- Not every object that exists is handed over. -/
theorem older_not_handed :
    ¬∀ (s : Session Widget) (origin : String),
      Run (start (.named "op" "pod") .empty [.added older, .added newer]) s →
      s.offer = some (origin, []) → ∀ x ∈ existing s.log, s.Handed x := by
  intro hall
  obtain ⟨key, trigger, hsent⟩ := hall cutShort "5" run_cutShort rfl older
    (existing_cutShort ▸ List.mem_cons_self)
  have honly : cutShort.sent = [.schedule ⟨none, "newer"⟩ ⟨newer, .reconcile⟩ 0] := rfl
  rw [honly] at hsent
  simp only [List.mem_singleton, Command.schedule.injEq, Queue.Entry.mk.injEq] at hsent
  exact older_ne_newer hsent.2.1.1

end CutShort

end Session

end Reconciler.Watch
