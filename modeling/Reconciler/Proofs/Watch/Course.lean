import Mathlib.Data.List.Forall2
import Mathlib.Data.List.Induction
import Reconciler.Proofs.Watch.Reaction

/-!
# The course of a watch

A course is all that happens to a watcher from the start of its loop on, moment by moment. A loop
hears of one connection at a time (`Awaits`): of the one that it asked for, that it is open or was
refused, and of the open one what it brings and how it comes to its end. The clock moves at any
time.

What a watcher does is a fold over the events that it has handled. The version that it resumes from,
its cache and all that it has sent are told by these events alone (`Follows`), whatever connections
they came by and however these came to their ends.
-/

namespace Reconciler

open Queue (Command)

variable {K : Type} [Entity K]

/-- The cache after an event, of a watcher that handles it. -/
def Cache.follow (c : Cache) : Watch.Event K → Cache
  | .added x | .modified x => (c.upsert x).1
  | .deleted x => (c.remove x).1
  | .bookmark _ => c
  | .error code _ => if code = Watch.gone then c.clear else c

namespace Watch

/-! ## Folds over events -/

omit [Entity K] in
/-- The server says that the version is too old. -/
def Event.isGone : Event K → Bool
  | .error code _ => code == gone
  | _ => false

omit [Entity K] in
/-- The events since the last one that said that the version is too old. -/
def sinceGone (events : List (Event K)) : List (Event K) :=
  events.foldl (fun since event => if event.isGone then [] else since ++ [event]) []

/-- The version to resume from after events: the last one that came with them. -/
def resumeVersion (events : List (Event K)) : String :=
  ((sinceGone events).filterMap Event.version?).getLast?.getD initialVersion

/-- What a fresh cache holds after events. -/
def cacheAfter (fresh : Cache) (events : List (Event K)) : Cache :=
  (sinceGone events).foldl Cache.follow fresh

/-- The entity of an event and why it is to be queued, as a cache tells. -/
def announce? (c : Cache) : Event K → Option (K × Trigger)
  | .added x | .modified x => some (x, .ofChange (c.upsert x).2)
  | .deleted x => some (x, .deleted)
  | .bookmark _ | .error _ _ => none

/-- All entities that events bring, in order, each with its trigger. -/
def announced (c : Cache) : List (Event K) → List (K × Trigger)
  | [] => []
  | event :: rest => (announce? c event).toList ++ announced (c.follow event) rest

/-- The command schedules an entity, without delay. -/
def IsScheduleOf (command : Command K) (item : K × Trigger) : Prop :=
  ∃ key, Entity.key? item.1 = some key ∧ command = .schedule key ⟨item.1, item.2⟩ 0

section Folds

variable {events : List (Event K)} {event : Event K} {c fresh : Cache}

omit [Entity K] in
theorem sinceGone_append (events : List (Event K)) (event : Event K) :
    sinceGone (events ++ [event]) =
      if event.isGone then [] else sinceGone events ++ [event] := by
  rw [sinceGone, List.foldl_append]
  rfl

theorem resumeVersion_append (events : List (Event K)) (event : Event K) :
    resumeVersion (events ++ [event]) =
      if event.isGone then initialVersion else event.version?.getD (resumeVersion events) := by
  rw [resumeVersion, sinceGone_append]
  split
  · rfl
  · rw [List.filterMap_append]
    cases hversion : event.version? with
    | none =>
      rw [List.filterMap_cons_none hversion, List.filterMap_nil, List.append_nil]
      rfl
    | some version =>
      rw [List.filterMap_cons_some hversion, List.filterMap_nil, List.getLast?_concat]
      rfl

theorem upsert_clear (c : Cache) (x : K) : (c.upsert x).1.clear = c.clear := by
  unfold Cache.upsert
  simp only
  split <;> rfl

/-- Following events never changes what a cache ignores. -/
theorem follow_clear (c : Cache) (event : Event K) : (c.follow event).clear = c.clear := by
  cases event with
  | added x => exact upsert_clear c x
  | modified x => exact upsert_clear c x
  | deleted x => rfl
  | bookmark version => rfl
  | error code message =>
    rw [Cache.follow]
    split <;> rfl

theorem cacheAfter_append (hfresh : fresh.clear = fresh) (events : List (Event K))
    (event : Event K) :
    cacheAfter fresh (events ++ [event]) = (cacheAfter fresh events).follow event := by
  -- A cleared cache is a fresh one: clearing drops the snapshots, and the rest never changes.
  have hclear : ∀ since : List (Event K), (since.foldl Cache.follow fresh).clear = fresh := by
    intro since
    induction since using List.reverseRecOn with
    | nil => exact hfresh
    | append_singleton since last ih =>
      rw [List.foldl_append, List.foldl_cons, List.foldl_nil, follow_clear, ih]
  rw [cacheAfter, sinceGone_append]
  split
  · next hgone =>
    cases event with
    | error code message =>
      rw [Cache.follow, if_pos (by simpa [Event.isGone] using hgone), cacheAfter, hclear]
      rfl
    | _ => cases hgone
  · rw [List.foldl_append]
    rfl

theorem announced_append (c : Cache) (events : List (Event K)) (event : Event K) :
    announced c (events ++ [event]) =
      announced c events ++ (announce? (events.foldl Cache.follow c) event).toList := by
  induction events generalizing c with
  | nil => simp [announced]
  | cons first rest ih => simp only [List.cons_append, announced, ih, List.foldl_cons,
      List.append_assoc]

/-- Only what came since the last time is in the cache, but it was followed throughout. -/
theorem foldl_follow (hfresh : fresh.clear = fresh) (events : List (Event K)) :
    events.foldl Cache.follow fresh = cacheAfter fresh events := by
  induction events using List.reverseRecOn with
  | nil => rfl
  | append_singleton events event ih =>
    rw [List.foldl_append, List.foldl_cons, List.foldl_nil, ih, cacheAfter_append hfresh]

end Folds

/-! ## Moments -/

/-- What happens to a watcher, and what it does. -/
structure Moment (K : Type) where
  instant : Nat
  /-- Decides the random part of a wait. -/
  draw : Nat
  input : Input K
  effects : List (Effect K)

section Moments

omit [Entity K]

def Input.event? : Input K → Option (Event K)
  | .event e => some e
  | _ => none

def Effect.request? : Effect K → Option Request
  | .connect request => some request
  | _ => none

/-- The connections that a watcher asks for at a moment. -/
def Moment.requests (m : Moment K) : List Request := m.effects.filterMap Effect.request?

/-- The events that were handled. -/
def handled (past : List (Moment K)) : List (Event K) := past.filterMap (·.input.event?)

/-- The commands that were sent. -/
def sentIn (past : List (Moment K)) : List (Command K) := past.flatMap (sent ·.effects)

/-- A failed connection. -/
def Input.fails : Input K → Bool
  | .refused _ | .broken _ => true
  | _ => false

theorem handled_append (past rest : List (Moment K)) :
    handled (past ++ rest) = handled past ++ handled rest :=
  List.filterMap_append

theorem handled_concat (past : List (Moment K)) (m : Moment K) :
    handled (past ++ [m]) = handled past ++ m.input.event?.toList := by
  rw [handled_append, handled, handled]
  cases h : m.input.event? <;> simp [h]

theorem sentIn_append (past : List (Moment K)) (m : Moment K) :
    sentIn (past ++ [m]) = sentIn past ++ sent m.effects := by
  rw [sentIn, List.flatMap_append, List.flatMap_singleton, sentIn]

end Moments

/-! ## Courses -/

/-- What a loop hears of in a phase. -/
inductive Awaits : Phase → Input K → Prop
  | woken {phase : Phase} : Awaits phase .wake
  /-- It runs already. -/
  | started {phase : Phase} : Awaits phase .start
  | opened : Awaits .opening .opened
  | refused {error : Error} : Awaits .opening (.refused error)
  | event {stableAt : Option Nat} {event : Event K} : Awaits (.streaming stableAt) (.event event)
  | broken {stableAt : Option Nat} {error : Error} : Awaits (.streaming stableAt) (.broken error)
  | ended {stableAt : Option Nat} : Awaits (.streaming stableAt) .ended

/-- All that happens to a watcher, at any instants, while its loop runs. -/
inductive Course (first : Watcher) : List (Moment K) → Watcher → Prop
  | nil : Course first [] first
  | snoc {past : List (Moment K)} {w : Watcher} {l : Loop} {input : Input K} (instant draw : Nat)
      (course : Course first past w) (loop : w.loop = some l) (awaits : Awaits l.phase input)
      (named : input.IsNamed) :
      Course first (past ++ [⟨instant, draw, input, (w.react instant draw input).2⟩])
        (w.react instant draw input).1

/-- A course taken apart at a moment. -/
theorem Course.at {first w : Watcher} {past before after : List (Moment K)} {m : Moment K}
    (course : Course first past w) (hpast : past = before ++ m :: after) :
    ∃ w' l, Course first before w' ∧ w'.loop = some l ∧ Awaits l.phase m.input ∧ m.input.IsNamed ∧
      m.effects = (w'.react m.instant m.draw m.input).2 ∧
      Course (w'.react m.instant m.draw m.input).1 after w := by
  induction course generalizing after with
  | nil => cases before <;> cases hpast
  | @snoc past w l input instant draw course loop awaits named ih =>
    rcases List.eq_nil_or_concat after with rfl | ⟨rest, last, rfl⟩
    · obtain ⟨rfl, hlast⟩ := List.append_inj' hpast rfl
      obtain rfl := List.singleton_inj.mp hlast
      exact ⟨w, l, course, loop, awaits, named, rfl, .nil⟩
    · rw [List.concat_eq_append, ← List.cons_append, ← List.append_assoc] at hpast
      obtain ⟨hbefore, hlast⟩ := List.append_inj' hpast rfl
      obtain rfl := List.singleton_inj.mp hlast
      obtain ⟨w', l', hcourse, hloop, hawaits, hnamed, heffects, hrest⟩ := ih hbefore
      rw [List.concat_eq_append]
      exact ⟨w', l', hcourse, hloop, hawaits, hnamed, heffects,
        hrest.snoc instant draw loop awaits named⟩

/-! ## Turns -/

/-- What a loop makes of anything that it hears but an event, and what it asks for. -/
inductive Turn (w : Watcher) (version : String) (instant draw : Nat) :
    Phase → Input K → Watcher → List Request → Prop
  | again {phase : Phase} : Turn w version instant draw phase .start w []
  | first : Turn w version instant draw .spawned .wake
      { w with cache := w.cache.clear, state := .starting, loop := some ⟨version, .opening⟩ }
      [w.request version]
  | early {resumeAt : Nat} (early : instant < resumeAt) :
      Turn w version instant draw (.waiting resumeAt) .wake w []
  | due {resumeAt : Nat} (due : resumeAt ≤ instant) :
      Turn w version instant draw (.waiting resumeAt) .wake
        { w with state := .starting, loop := some ⟨version, .opening⟩ } [w.request version]
  | unstable {stableAt : Nat} (early : instant < stableAt) :
      Turn w version instant draw (.streaming (some stableAt)) .wake w []
  | stable {stableAt : Nat} (due : stableAt ≤ instant) :
      Turn w version instant draw (.streaming (some stableAt)) .wake
        { w with failures := .clear, loop := some ⟨version, .streaming none⟩ } []
  | settled : Turn w version instant draw (.streaming none) .wake w []
  | patient : Turn w version instant draw .opening .wake w []
  | opened : Turn w version instant draw .opening .opened
      { w with
        state := .watching
        loop := some ⟨version, .streaming
          (some (instant + w.backoff.stabilityWindow.millisUp))⟩ } []
  | failed {phase : Phase} {input : Input K} (fails : input.fails)
      (connected : phase = .opening ∨ ∃ stableAt, phase = .streaming stableAt) :
      Turn w version instant draw phase input
        { w with
          failures := w.failures.record.1
          state := .errored
          loop := some ⟨version,
            .waiting (instant + (w.backoff.delay draw w.failures.record.2).millisUp)⟩ } []
  | ended {stableAt : Option Nat} : Turn w version instant draw (.streaming stableAt) .ended
      { w with state := .starting, loop := some ⟨version, .opening⟩ } [w.request version]

theorem turn_of_awaits {w : Watcher} {version : String} {phase : Phase} {input : Input K}
    (instant draw : Nat) (hloop : w.loop = some ⟨version, phase⟩) (hawaits : Awaits phase input)
    (hinput : input.event? = none) :
    Turn w version instant draw phase input (w.react instant draw input).1
      ((w.react instant draw input).2.filterMap Effect.request?) := by
  cases hawaits with
  | event => cases hinput
  | started =>
    simp only [Watcher.react, hloop, Option.isSome_some, if_true]
    exact .again
  | opened =>
    simp only [Watcher.react, hloop]
    exact .opened
  | refused =>
    simp only [Watcher.react, hloop]
    exact .failed rfl (.inl rfl)
  | broken =>
    simp only [Watcher.react, hloop]
    exact .failed rfl (.inr ⟨_, rfl⟩)
  | ended =>
    simp only [Watcher.react, hloop]
    exact .ended
  | woken =>
    simp only [Watcher.react, hloop]
    cases phase with
    | spawned => exact .first
    | opening => exact .patient
    | waiting resumeAt =>
      simp only [Watcher.wake]
      split
      · next hdue => exact .due hdue
      · next hearly => exact .early (Nat.lt_of_not_le hearly)
    | streaming stableAt =>
      cases stableAt with
      | none => exact .settled
      | some stableAt =>
        simp only [Watcher.wake]
        split
        · next hdue => exact .stable hdue
        · next hearly => exact .unstable (Nat.lt_of_not_le hearly)

theorem requests_event {w : Watcher} {l : Loop} (hloop : w.loop = some l) (instant draw : Nat)
    (event : Event K) :
    (w.react instant draw (.event event)).2.filterMap Effect.request? =
      if event.isGone then [w.request initialVersion] else [] := by
  simp only [Watcher.react, hloop]
  cases event with
  | error code message =>
    by_cases hcode : code = gone
    · rw [if_pos (by simpa [Event.isGone] using hcode)]
      simp only [Watcher.handle, if_pos hcode]
      rfl
    · rw [if_neg (by simpa [Event.isGone] using hcode)]
      simp only [Watcher.handle, if_neg hcode]
      rfl
  | bookmark version => rfl
  | _ =>
    simp only [Watcher.handle, Watcher.schedule]
    split <;> rfl

/-! ## What the events tell -/

/-- The version to resume from, the cache and all that was sent are told by the events. -/
structure Follows (first : Watcher) (past : List (Moment K)) (w : Watcher) (l : Loop) : Prop where
  loop : w.loop = some l
  ns : w.ns = first.ns
  timeoutSecs : w.timeoutSecs = first.timeoutSecs
  backoff : w.backoff = first.backoff
  version : l.version = resumeVersion (handled past)
  cache : l.phase = .spawned ∧ handled past = [] ∧ w.cache.clear = first.cache.clear ∨
    l.phase ≠ .spawned ∧ w.cache = cacheAfter first.cache.clear (handled past)
  sent : List.Forall₂ IsScheduleOf (sentIn past) (announced first.cache.clear (handled past))

section Steps

variable {first w w' : Watcher} {past : List (Moment K)} {l : Loop} {m : Moment K}

theorem follows_nil (hstart : first.loop = some {}) : Follows (K := K) first [] first {} where
  loop := hstart
  ns := rfl
  timeoutSecs := rfl
  backoff := rfl
  version := rfl
  cache := .inl ⟨rfl, rfl, rfl⟩
  sent := .nil

theorem sent_of_event?_eq_none {instant draw : Nat} {input : Input K} (h : input.event? = none) :
    Watch.sent (w.react instant draw input).2 = [] := by
  rw [Watcher.sent_react]
  cases input with
  | event event => cases h
  | _ => rfl

/-- Whatever is no event leaves what the events have told, and the first turn makes the cache
fresh. -/
theorem Follows.quiet (h : Follows first past w l) {instant draw : Nat} {input : Input K}
    (hinput : input.event? = none) (hawaits : Awaits l.phase input) :
    ∃ l', Follows first (past ++ [⟨instant, draw, input, (w.react instant draw input).2⟩])
      (w.react instant draw input).1 l' := by
  have hturn := turn_of_awaits instant draw h.loop hawaits hinput
  have hhandled : handled (past ++ [⟨instant, draw, input, (w.react instant draw input).2⟩]) =
      handled past := by
    rw [handled_concat, hinput]
    exact List.append_nil _
  have hsent : sentIn (past ++ [⟨instant, draw, input, (w.react instant draw input).2⟩]) =
      sentIn past := by
    rw [sentIn_append, sent_of_event?_eq_none hinput, List.append_nil]
  -- Only the loop changes, and it stays what it is or has a new phase.
  have hkeeps : ∀ {w' : Watcher} {l' : Loop}, w'.loop = some l' → w'.ns = w.ns →
      w'.timeoutSecs = w.timeoutSecs → w'.backoff = w.backoff → l'.version = l.version →
      (w'.cache = w.cache ∧ (l.phase = .spawned ↔ l'.phase = .spawned) ∨
        w'.cache = w.cache.clear ∧ l.phase = .spawned ∧ l'.phase ≠ .spawned) →
      Follows first (past ++ [⟨instant, draw, input, (w.react instant draw input).2⟩]) w' l' := by
    intro w' l' hloop hns htimeout hbackoff hversion hcache
    refine ⟨hloop, hns.trans h.ns, htimeout.trans h.timeoutSecs, hbackoff.trans h.backoff,
      ?_, ?_, ?_⟩
    · rw [hversion, hhandled]
      exact h.version
    · rw [hhandled]
      rcases h.cache with ⟨hspawned, hnone, hclear⟩ | ⟨hspawned, hsame⟩
      · rcases hcache with ⟨heq, hphase⟩ | ⟨heq, -, hphase⟩ <;> rw [heq]
        · exact .inl ⟨hphase.mp hspawned, hnone, hclear⟩
        · exact .inr ⟨hphase, by rw [hnone]; exact hclear⟩
      · rcases hcache with ⟨heq, hphase⟩ | ⟨-, hphase, -⟩
        · rw [heq]
          exact .inr ⟨fun hafter => hspawned (hphase.mpr hafter), hsame⟩
        · exact absurd hphase hspawned
    · rw [hhandled, hsent]
      exact h.sent
  have hloop := h.loop
  obtain ⟨version, phase⟩ := l
  generalize (w.react instant draw input).1 = w' at hturn ⊢
  generalize (w.react instant draw input).2.filterMap Effect.request? = requests at hturn
  cases hturn with
  | again | early | unstable | settled | patient =>
    exact ⟨_, hkeeps hloop rfl rfl rfl rfl (.inl ⟨rfl, Iff.rfl⟩)⟩
  | first => exact ⟨_, hkeeps rfl rfl rfl rfl rfl (.inr ⟨rfl, rfl, Phase.noConfusion⟩)⟩
  | due | stable | opened | ended =>
    exact ⟨_, hkeeps rfl rfl rfl rfl rfl (.inl ⟨rfl, by simp⟩)⟩
  | failed fails connected =>
    refine ⟨_, hkeeps rfl rfl rfl rfl rfl (.inl ⟨rfl, ?_⟩)⟩
    rcases connected with rfl | ⟨stableAt, rfl⟩ <;> simp

theorem schedule_fields (w : Watcher) (x : K) (trigger : Trigger) :
    (w.schedule x trigger).1.cache = w.cache ∧ (w.schedule x trigger).1.ns = w.ns ∧
      (w.schedule x trigger).1.timeoutSecs = w.timeoutSecs ∧
      (w.schedule x trigger).1.backoff = w.backoff ∧
      (w.schedule x trigger).1.failures = w.failures := by
  unfold Watcher.schedule
  split <;> exact ⟨rfl, rfl, rfl, rfl, rfl⟩

/-- An event is followed by the cache, and is all the same to settings and failures. -/
theorem handle_fields (w : Watcher) (l : Loop) (event : Event K) :
    (w.handle l event).1.cache = w.cache.follow event ∧ (w.handle l event).1.ns = w.ns ∧
      (w.handle l event).1.timeoutSecs = w.timeoutSecs ∧
      (w.handle l event).1.backoff = w.backoff ∧
      (w.handle l event).1.failures = w.failures := by
  cases event with
  | added x => exact schedule_fields _ x _
  | modified x => exact schedule_fields _ x _
  | deleted x => exact schedule_fields _ x _
  | bookmark version => exact ⟨rfl, rfl, rfl, rfl, rfl⟩
  | error code message =>
    simp only [Watcher.handle, Cache.follow]
    split <;> exact ⟨rfl, rfl, rfl, rfl, rfl⟩

/-- The loop goes on after an event, on a new connection if the version was too old. -/
theorem loop_handle (hloop : w.loop = some l) {event : Event K} (hnamed : event.IsNamed) :
    (w.handle l event).1.loop = some (if event.isGone then ⟨initialVersion, .opening⟩
      else { l with version := event.version?.getD l.version }) := by
  cases hentity : event.entity? with
  | some x =>
    obtain ⟨key, hkey⟩ := hnamed x hentity
    have hreact := Watcher.loop_react_event 0 0 hloop hentity hkey
    simp only [Watcher.react, hloop] at hreact
    rw [hreact, if_neg]
    cases event with
    | error code message => cases hentity
    | _ => exact Bool.false_ne_true
  | none =>
    cases event with
    | bookmark version => rfl
    | error code message =>
      by_cases hcode : code = gone
      · rw [if_pos (by simpa [Event.isGone] using hcode)]
        simp only [Watcher.handle, if_pos hcode]
        rfl
      · rw [if_neg (by simpa [Event.isGone] using hcode)]
        simp only [Watcher.handle, if_neg hcode]
    | _ => cases hentity

theorem sent_event (hloop : w.loop = some l) {event : Event K} (hnamed : event.IsNamed)
    (instant draw : Nat) :
    List.Forall₂ IsScheduleOf (Watch.sent (w.react instant draw (.event event)).2)
      (announce? w.cache event).toList := by
  have hqueued : w.queued? (.event event) = announce? w.cache event := by
    cases event <;> simp [Watcher.queued?, announce?, hloop]
  rw [Watcher.sent_react, hqueued]
  cases hitem : announce? w.cache event with
  | none => exact .nil
  | some item =>
    have hentity : event.entity? = some item.1 := by
      cases event with
      | bookmark | error => cases hitem
      | _ =>
        obtain rfl := Option.some.inj hitem
        rfl
    obtain ⟨x, trigger⟩ := item
    obtain ⟨key, hkey⟩ := hnamed x hentity
    have hcommand : Command.schedule? x 0 trigger = some (.schedule key ⟨x, trigger⟩ 0) := by
      rw [Command.schedule?, hkey]
      rfl
    simp only [Option.bind_some, hcommand]
    exact .cons ⟨key, hkey, rfl⟩ .nil

theorem Follows.event (h : Follows first past w l) {stableAt : Option Nat}
    (hphase : l.phase = .streaming stableAt) {instant draw : Nat} {event : Event K}
    (hnamed : event.IsNamed) :
    ∃ l', Follows first
      (past ++ [⟨instant, draw, .event event, (w.react instant draw (.event event)).2⟩])
      (w.react instant draw (.event event)).1 l' := by
  have hspawned : l.phase ≠ .spawned := by rw [hphase]; exact Phase.noConfusion
  have hcache := (h.cache.resolve_left fun hfirst => hspawned hfirst.1).2
  have hfresh : first.cache.clear.clear = first.cache.clear := rfl
  have hreact : (w.react instant draw (.event event)).1 = (w.handle l event).1 := by
    simp only [Watcher.react, h.loop]
  obtain ⟨hfollow, hns, htimeout, hbackoff, -⟩ := handle_fields w l event
  have hhandled :
      handled (past ++ [⟨instant, draw, .event event, (w.react instant draw (.event event)).2⟩]) =
        handled past ++ [event] := handled_concat past _
  refine ⟨_, {
    loop := by rw [hreact]; exact loop_handle h.loop hnamed
    ns := by rw [hreact, hns, h.ns]
    timeoutSecs := by rw [hreact, htimeout, h.timeoutSecs]
    backoff := by rw [hreact, hbackoff, h.backoff]
    version := ?_
    cache := .inr ⟨?_, ?_⟩
    sent := ?_ }⟩
  · rw [hhandled, resumeVersion_append, ← h.version]
    split <;> rfl
  · split
    · exact Phase.noConfusion
    · exact hspawned
  · rw [hreact, hfollow, hhandled, cacheAfter_append hfresh, hcache]
  · rw [hhandled, sentIn_append, announced_append, foldl_follow hfresh, ← hcache]
    exact List.rel_append h.sent (sent_event h.loop hnamed instant draw)

theorem Follows.snoc (h : Follows first past w l) (instant draw : Nat) {input : Input K}
    (hawaits : Awaits l.phase input) (hnamed : input.IsNamed) :
    ∃ l', Follows first (past ++ [⟨instant, draw, input, (w.react instant draw input).2⟩])
      (w.react instant draw input).1 l' := by
  cases hinput : input.event? with
  | none => exact h.quiet hinput hawaits
  | some event =>
    cases input with
    | event e =>
      generalize hphase : l.phase = phase at hawaits
      cases hawaits
      exact h.event hphase (hnamed e rfl)
    | _ => cases hinput

theorem Course.follows (course : Course first past w) (hstart : first.loop = some {}) :
    ∃ l, Follows first past w l := by
  induction course with
  | nil => exact ⟨_, follows_nil hstart⟩
  | snoc instant draw course loop awaits named ih =>
    obtain ⟨l', h⟩ := ih
    obtain rfl := Option.some.inj (h.loop.symm.trans loop)
    exact h.snoc instant draw awaits named

end Steps

end Watch

end Reconciler
