import Reconciler.Proofs.Watch.Stability
import Reconciler.Proofs.Watch.Transitions

/-!
# Entities without a name

A connection may bring an entity without a name, and such an entity has no place in the queue: the
loop that handles it ends there. Nobody is told. The watcher goes on saying that it watches, nothing
that happens to its connection moves it any more, and only a stop or another start does
(`runs_on_iff`). As long as every entity has a name, the loop runs until it is stopped, and the
watcher says that it watches only while a connection is open.
-/

namespace Reconciler

open Watch

variable {K : Type} [Entity K]

namespace Watcher

variable {w : Watcher} {now draw : Nat}

/-- An event about an entity without a name ends the loop, and the watcher does and says nothing. -/
theorem handle_nameless (l : Loop) {event : Event K} (hnameless : ¬event.IsNamed) :
    (w.handle l event).1.loop = none ∧ (w.handle l event).1.state = w.state ∧
      (w.handle l event).2 = [] := by
  obtain ⟨x, hentity, hkey⟩ : ∃ x, event.entity? = some x ∧ Entity.key? x = none := by
    simpa [Event.IsNamed, ← Option.isSome_iff_exists] using hnameless
  have hschedule : ∀ (w : Watcher) (trigger : Trigger),
      w.schedule x trigger = ({ w with loop := none }, []) := fun w trigger => by
    rw [schedule, Queue.Command.schedule?, hkey]
    rfl
  cases event with
  | bookmark version => cases hentity
  | error code message => cases hentity
  | _ =>
    obtain rfl := Option.some.inj hentity
    simp only [handle, hschedule, and_self]

/-- Without a loop nothing moves a watcher but a start or a stop. -/
theorem react_of_loop_none (hloop : w.loop = none) {input : Input K} (hstart : input ≠ .start)
    (hstop : input ≠ .stop) : w.react now draw input = (w, []) := by
  cases input with
  | start => exact absurd rfl hstart
  | stop => exact absurd rfl hstop
  | _ => simp only [react, hloop]

end Watcher

namespace Watch

variable {first w : Watcher} {past : List (Moment K)}

/-- What may happen to a watcher between a start and a stop: to its loop what the loop awaits, and
once there is no loop, anything. -/
def Bears (w : Watcher) (input : Input K) : Prop :=
  match w.loop with
  | some l => Awaits l.phase input
  | none => input ≠ .start ∧ input ≠ .stop

/-- All that happens to a watcher from the start of its loop on, until it is stopped or started
again, whatever entities its connections bring. -/
inductive Life (first : Watcher) : List (Moment K) → Watcher → Prop
  | nil : Life first [] first
  | snoc {past : List (Moment K)} {w : Watcher} {input : Input K} (instant draw : Nat)
      (life : Life first past w) (bears : Bears w input) :
      Life first (past ++ [⟨instant, draw, input, (w.react instant draw input).2⟩])
        (w.react instant draw input).1

/-- Every entity that came had a name. -/
def AllNamed (past : List (Moment K)) : Prop := ∀ event ∈ handled past, event.IsNamed

theorem allNamed_append {m : Moment K} :
    AllNamed (past ++ [m]) ↔ AllNamed past ∧ m.input.IsNamed := by
  have hinput : m.input.IsNamed ↔ ∀ event ∈ m.input.event?, event.IsNamed := by
    cases m.input <;> simp [Input.IsNamed, Input.event?]
  rw [hinput, AllNamed, handled_concat]
  simp [AllNamed, or_imp, forall_and]

/-- In a course the state that was published is that of the loop. -/
theorem Course.state (course : Course first past w) (hstate : first.state = stateOf first.loop) :
    w.state = stateOf w.loop := by
  induction course with
  | nil => exact hstate
  | snoc instant draw course loop awaits named ih =>
    refine (Watcher.react_tells ih (fun l hloop => ?_) named).state
    obtain rfl := Option.some.inj (loop.symm.trans hloop)
    exact .inr awaits

/-- What has become of a watcher: its loop has run its course so far, or it met an entity without a
name, and was watching then. -/
inductive Fate (first : Watcher) (past : List (Moment K)) (w : Watcher) : Prop
  | runs (course : Course first past w) (named : AllNamed past)
  | ended (nameless : ¬AllNamed past) (loop : w.loop = none) (state : w.state = .watching)

theorem Life.fate (life : Life first past w) (hstart : first.loop = some {})
    (hstate : first.state = .stopped) : Fate first past w := by
  induction life with
  | nil => exact .runs .nil nofun
  | @snoc past w input instant draw life bears ih =>
    cases ih with
    | ended nameless loop state =>
      simp only [Bears, loop] at bears
      rw [Watcher.react_of_loop_none loop bears.1 bears.2]
      exact .ended (fun hnamed => nameless (allNamed_append.mp hnamed).1) loop state
    | runs course named =>
      obtain ⟨l, hfollows⟩ := course.follows hstart
      have hsaid := course.state (by rw [hstart, hstate]; rfl)
      simp only [Bears, hfollows.loop] at bears
      by_cases hnamed : input.IsNamed
      · exact .runs (course.snoc instant draw hfollows.loop bears hnamed)
          (allNamed_append.mpr ⟨named, hnamed⟩)
      · obtain ⟨event, rfl, hnameless⟩ : ∃ event, input = .event event ∧ ¬event.IsNamed := by
          simpa [Input.IsNamed] using hnamed
        obtain ⟨version, phase⟩ := l
        obtain ⟨hloop, hsame, -⟩ := Watcher.handle_nameless (w := w) ⟨version, phase⟩ hnameless
        have hreact : (w.react instant draw (.event event)).1 =
            (w.handle ⟨version, phase⟩ event).1 := by
          simp only [Watcher.react, hfollows.loop]
        cases bears
        refine .ended (fun hall => hnamed (allNamed_append.mp hall).2) ?_ ?_
        · rw [hreact, hloop]
        · rw [hreact, hsame, hsaid, hfollows.loop]
          rfl

/-- From a start on, until it is stopped, the loop of a watcher runs, and the watcher says that it
watches only while a connection is open, exactly if every entity that came had a name. Once one had
none, the watcher says that it watches, and whatever happens then, it does nothing. A stop ends the
loop and says so in any case. -/
theorem runs_on_iff (hstart : first.loop = some {}) (hstate : first.state = .stopped)
    (life : Life first past w) :
    (w.loop.isSome ↔ AllNamed past) ∧
    ((w.state = .watching → w.IsStreaming) ↔ AllNamed past) ∧
    (¬AllNamed past → w.state = .watching ∧ ∀ (instant draw : Nat) (input : Input K),
      input ≠ .start → input ≠ .stop → w.react instant draw input = (w, [])) ∧
    ∀ instant draw, (w.react instant draw (.stop : Input K)).1.loop = none ∧
      (w.react instant draw (.stop : Input K)).1.state = .stopped := by
  have hstop : ∀ instant draw, (w.react instant draw (.stop : Input K)).1.loop = none ∧
      (w.react instant draw (.stop : Input K)).1.state = .stopped := fun instant draw => by
    simp only [Watcher.react, Watcher.stop]
    split
    · next hloop => exact ⟨hloop, rfl⟩
    · exact ⟨rfl, rfl⟩
  cases life.fate hstart hstate with
  | runs course named =>
    obtain ⟨l, hfollows⟩ := course.follows hstart
    have hsaid := course.state (by rw [hstart, hstate]; rfl)
    refine ⟨iff_of_true (by rw [hfollows.loop]; rfl) named, iff_of_true (fun hwatching => ?_) named,
      fun nameless => absurd named nameless, hstop⟩
    obtain ⟨version, phase⟩ := l
    rw [hsaid, hfollows.loop] at hwatching
    cases phase with
    | streaming stableAt => exact ⟨version, stableAt, hfollows.loop⟩
    | _ => cases hwatching
  | ended nameless loop state =>
    refine ⟨iff_of_false (by rw [loop]; exact Bool.false_ne_true) nameless,
      iff_of_false (fun hopen => ?_) nameless,
      fun _ => ⟨state, fun _ _ _ => Watcher.react_of_loop_none loop⟩, hstop⟩
    obtain ⟨version, stableAt, hloop⟩ := hopen state
    rw [loop] at hloop
    cases hloop

section Nobody

open Simulation (Widget)

/-- An object without a name. -/
def nobody : Widget := ⟨{}, []⟩

/-- A loop that is told of an object with a name goes on when the connection is closed. -/
theorem runs_on_iff_seen :
    ∃ (past : List (Moment Widget)) (w : Watcher),
      started.loop = some {} ∧ started.state = .stopped ∧ Life started past w ∧
        handled past = [.added seen] ∧ AllNamed past ∧ w.loop.isSome ∧ w.state = .starting := by
  have first : Life (K := Widget) started [⟨0, 0, .wake, _⟩] _ := Life.nil.snoc 0 0 .woken
  have opened : Life started [_, ⟨0, 0, .opened, _⟩] _ := first.snoc 0 0 .opened
  have told : Life started [_, _, ⟨0, 0, .event (.added seen), _⟩] _ := opened.snoc 0 0 .event
  have ended : Life started [_, _, _, ⟨0, 0, .ended, _⟩] _ := told.snoc 0 0 .ended
  obtain ⟨hruns, -⟩ := runs_on_iff rfl rfl ended
  have hnamed : ∀ event ∈ [Event.added seen], event.IsNamed := by
    rintro _ hmem x hx
    obtain rfl := List.mem_singleton.mp hmem
    obtain rfl := Option.some.inj hx
    exact ⟨⟨none, "seen"⟩, rfl⟩
  exact ⟨_, _, rfl, rfl, ended, rfl, hnamed, hruns.mpr hnamed, rfl⟩

/-- A loop that is told of an object without a name ends. The watcher still says that it watches,
and sends nothing when it is told of an object with a name. -/
theorem nameless_ends_watch :
    ∃ (past : List (Moment Widget)) (w : Watcher),
      started.loop = some {} ∧ started.state = .stopped ∧ Life started past w ∧
        handled past = [.deleted nobody] ∧ (∀ m ∈ past, m.input ≠ .stop) ∧ w.loop = none ∧
        w.state = .watching ∧ ¬w.IsStreaming ∧
        (w.react 0 0 (.event (.added seen))).2 = [] := by
  have first : Life (K := Widget) started [⟨0, 0, .wake, _⟩] _ := Life.nil.snoc 0 0 .woken
  have opened : Life started [_, ⟨0, 0, .opened, _⟩] _ := first.snoc 0 0 .opened
  have told : Life started [_, _, ⟨0, 0, .event (.deleted nobody), _⟩] _ := opened.snoc 0 0 .event
  exact ⟨_, _, rfl, rfl, told, rfl, by simp, rfl, rfl, by rintro ⟨_, _, ⟨⟩⟩, rfl⟩

end Nobody

end Watch

end Reconciler
