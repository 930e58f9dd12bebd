import Reconciler.Proofs.Watch.Course

/-!
# What a watcher says of itself

What a watcher has published last is told by its loop alone (`stateOf`), and what it publishes when
something happens that its loop awaits leads there by allowed transitions (`react_tells`):
`stopped → starting → watching → (closed | errored) → starting`, and to `stopped` from anywhere.
-/

namespace Reconciler

variable {K : Type}

namespace Watch

/-- What a watcher may publish after something else. -/
inductive Allowed : WatcherState → WatcherState → Prop where
  | starts : Allowed .stopped .starting
  | opens : Allowed .starting .watching
  | refused : Allowed .starting .errored
  | closes : Allowed .watching .closed
  | fails : Allowed .watching .errored
  | reopens : Allowed .closed .starting
  | retries : Allowed .errored .starting
  | stops (state : WatcherState) : Allowed state .stopped

/-- From one state publications lead to another, all by allowed transitions. -/
def Leads : WatcherState → List WatcherState → WatcherState → Prop
  | state, [], last => last = state
  | state, next :: rest, last => Allowed state next ∧ Leads next rest last

theorem Leads.append {s s' s'' : WatcherState} {published more : List WatcherState}
    (h : Leads s published s') (h' : Leads s' more s'') : Leads s (published ++ more) s'' := by
  induction published generalizing s with
  | nil =>
    obtain rfl := h
    exact h'
  | cons next rest ih => exact ⟨h.1, ih h.2⟩

def Effect.state? : Effect K → Option WatcherState
  | .publish state => some state
  | _ => none

/-- What is published among all that a watcher does. -/
def statesOf (effects : List (Effect K)) : List WatcherState := effects.filterMap Effect.state?

/-- What the watcher of a loop says of itself, once the loop has its turn. -/
def stateOf : Option Loop → WatcherState
  | none => .stopped
  | some ⟨_, .spawned⟩ => .stopped
  | some ⟨_, .opening⟩ => .starting
  | some ⟨_, .streaming _⟩ => .watching
  | some ⟨_, .waiting _⟩ => .errored

end Watch

open Watch

namespace Watcher

variable [Entity K] {w : Watcher} {now draw : Nat} {input : Input K}

/-- From what a watcher says, what it does leads to what it says then, and that is what its loop
tells. -/
structure Tells (w : Watcher) (after : Watcher × List (Effect K)) : Prop where
  state : after.1.state = stateOf after.1.loop
  leads : Leads w.state (statesOf after.2) after.1.state

omit [Entity K] in
theorem tells_self (h : w.state = stateOf w.loop) : Tells w (w, ([] : List (Effect K))) where
  state := h
  leads := rfl

omit [Entity K] in
theorem tells_stop (w : Watcher) : Tells w (w.stop : Watcher × List (Effect K)) := by
  unfold stop
  split
  · next hloop => exact ⟨by rw [publish, hloop]; rfl, .stops _, rfl⟩
  · exact ⟨rfl, .stops _, .stops _, rfl⟩

omit [Entity K] in
theorem tells_connect {version : String} (w : Watcher) {w' : Watcher}
    (hallowed : Allowed w.state .starting) :
    Tells w (w'.connect version : Watcher × List (Effect K)) :=
  ⟨rfl, hallowed, rfl⟩

theorem tells_event {version : String} {stableAt : Option Nat} {event : Event K}
    (hstate : w.state = stateOf w.loop) (hloop : w.loop = some ⟨version, .streaming stableAt⟩)
    (hnamed : event.IsNamed) : Tells w (w.handle ⟨version, .streaming stableAt⟩ event) := by
  have hwatching : w.state = .watching := by
    rw [hstate, hloop]
    rfl
  have hschedule : ∀ {w' : Watcher} {x : K} {trigger : Trigger} {key : EntityKey},
      w'.state = w.state → w'.loop = some ⟨event.version?.getD version, .streaming stableAt⟩ →
        Entity.key? x = some key → Tells w (w'.schedule x trigger) := by
    intro w' x trigger key hsame hloop' hkey
    rw [schedule, Queue.Command.schedule?, hkey]
    show Tells w (w', _)
    refine ⟨?_, hsame⟩
    rw [hsame, hwatching, hloop']
    rfl
  cases event with
  | added x =>
    obtain ⟨key, hkey⟩ := hnamed x rfl
    exact hschedule rfl rfl hkey
  | modified x =>
    obtain ⟨key, hkey⟩ := hnamed x rfl
    exact hschedule rfl rfl hkey
  | deleted x =>
    obtain ⟨key, hkey⟩ := hnamed x rfl
    exact hschedule rfl rfl hkey
  | bookmark version => exact ⟨hwatching, rfl⟩
  | error code message =>
    unfold handle
    simp only
    split
    · refine ⟨rfl, ?_, .reopens, rfl⟩
      rw [hwatching]
      exact .closes
    · exact ⟨hwatching, rfl⟩

omit [Entity K] in
theorem tells_wake {l : Loop} (hstate : w.state = stateOf w.loop) (hloop : w.loop = some l) :
    Tells w (w.wake now l : Watcher × List (Effect K)) := by
  obtain ⟨version, phase⟩ := l
  have hnow : w.state = stateOf (some ⟨version, phase⟩) := by rw [hstate, hloop]
  cases phase with
  | spawned =>
    refine tells_connect w ?_
    rw [hnow]
    exact .starts
  | opening => exact tells_self hstate
  | waiting resumeAt =>
    simp only [wake]
    split
    · refine tells_connect w ?_
      rw [hnow]
      exact .retries
    · exact tells_self hstate
  | streaming stableAt =>
    cases stableAt with
    | none => exact tells_self hstate
    | some stableAt =>
      simp only [wake]
      split
      · exact ⟨hnow, rfl⟩
      · exact tells_self hstate

/-- Whatever a watcher awaits, and whenever it is started or stopped, its publications are those of
the transitions. -/
theorem react_tells (hstate : w.state = stateOf w.loop)
    (hawaits : ∀ l, w.loop = some l → input = .stop ∨ Awaits l.phase input)
    (hnamed : input.IsNamed) : Tells w (w.react now draw input) := by
  by_cases hstop : input = .stop
  · rw [hstop]
    exact tells_stop w
  cases hloop : w.loop with
  | none =>
    cases input with
    | stop => exact absurd rfl hstop
    | start =>
      simp only [react, hloop, Option.isSome_none, Bool.false_eq_true, if_false]
      rw [hloop] at hstate
      exact ⟨hstate, rfl⟩
    | _ =>
      simp only [react, hloop]
      exact tells_self hstate
  | some l =>
    obtain ⟨version, phase⟩ := l
    have hawaits := (hawaits _ hloop).resolve_left hstop
    have hnow : w.state = stateOf (some ⟨version, phase⟩) := by rw [hstate, hloop]
    cases hawaits with
    | event =>
      simp only [react, hloop]
      exact tells_event hstate hloop (hnamed _ rfl)
    | started =>
      simp only [react, hloop, Option.isSome_some, if_true]
      exact tells_self hstate
    | opened =>
      simp only [react, hloop]
      refine ⟨rfl, ?_, rfl⟩
      rw [hnow]
      exact .opens
    | refused =>
      simp only [react, hloop]
      refine ⟨rfl, ?_, rfl⟩
      rw [hnow]
      exact .refused
    | broken =>
      simp only [react, hloop]
      refine ⟨rfl, ?_, rfl⟩
      rw [hnow]
      exact .fails
    | ended =>
      simp only [react, hloop]
      refine ⟨rfl, ?_, .reopens, rfl⟩
      rw [hnow]
      exact .closes
    | woken =>
      simp only [react, hloop]
      exact tells_wake hstate hloop

end Watcher

end Reconciler
