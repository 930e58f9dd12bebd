import Reconciler.Proofs.Watch.Reconnecting

/-!
# When a version is too old

The server says so in the stream, in its answer to the request for a connection, or in a stream that
breaks. Told in the stream, the watcher forgets what it knows: it asks at once for everything there
is, and its cache is empty when the first of it comes. Told in either other way it takes the answer
for any failure: it keeps its cache, and asks again for what it was refused, however often.
-/

namespace Reconciler.Watch

variable {K : Type} [Entity K]

omit [Entity K] in
/-- The server says that the version is too old, in any way. -/
def Input.saysGone : Input K → Bool
  | .event e => e.isGone
  | .refused error | .broken error => error.apiCode? == some gone
  | _ => false

/-- The watcher starts from the beginning: that is all that it asks for, and its cache is empty. -/
def StartsOver (asked : List Request) (w : Watcher) : Prop :=
  (∀ r ∈ asked, r.version = initialVersion) ∧ w.cache.snapshots = []

variable {first w : Watcher} {before after : List (Moment K)} {m : Moment K}

omit [Entity K] in
/-- It is told by an event or by a failure. -/
theorem told_of_saysGone {input : Input K} (h : input.saysGone) :
    (∃ event, input = .event event) ∨ input.fails ∧ input.event? = none := by
  cases input with
  | event event => exact .inl ⟨event, rfl⟩
  | refused error => exact .inr ⟨rfl, rfl⟩
  | broken error => exact .inr ⟨rfl, rfl⟩
  | _ => cases h

omit [Entity K] in
theorem handled_eq_of_prefix {between rest : List (Moment K)} {k : Moment K}
    (hnone : handled after = []) (hsplit : m :: after = between ++ k :: rest) :
    handled (before ++ between ++ [k]) = handled (before ++ [m]) := by
  cases between with
  | nil =>
    obtain ⟨rfl, -⟩ := List.cons.inj hsplit
    rw [List.append_nil]
  | cons head tail =>
    obtain ⟨rfl, hafter⟩ := List.cons.inj hsplit
    have hshape : after = (tail ++ [k]) ++ rest := hafter.trans (List.append_cons tail k rest)
    rw [hshape, handled_append, List.append_eq_nil_iff] at hnone
    have hmoments : before ++ m :: tail ++ [k] = (before ++ [m]) ++ (tail ++ [k]) := by simp
    rw [hmoments, handled_append (before ++ [m]), hnone.1, List.append_nil]

/-- Until the next event, every request is for the same version. -/
theorem Course.asked_since (course : Course first (before ++ m :: after) w)
    (hstart : first.loop = some {}) (hnone : handled after = []) :
    ∀ r ∈ (m :: after).flatMap Moment.requests,
      r = first.request (resumeVersion (handled (before ++ [m]))) := by
  intro r hr
  obtain ⟨k, hk, hrequested⟩ := List.mem_flatMap.mp hr
  obtain ⟨between, rest, hsplit⟩ := List.append_of_mem hk
  have hpast : before ++ m :: after = before ++ between ++ k :: rest := by
    rw [hsplit, List.append_assoc]
  rw [← handled_eq_of_prefix hnone hsplit]
  exact course.asked_from hstart hpast r hrequested

/-- After a moment that only a loop with a connection has, the cache is what the events tell. -/
theorem Course.cache_since (course : Course first (before ++ m :: after) w)
    (hstart : first.loop = some {}) (hgone : m.input.saysGone) (hnone : handled after = []) :
    w.cache = cacheAfter first.cache.clear (handled (before ++ [m])) := by
  obtain ⟨w', l, -, hloop, hawaits, hnamed, -, hrest⟩ := course.at rfl
  have hbegun : l.phase ≠ .spawned := by
    intro hspawned
    rw [hspawned] at hawaits
    generalize m.input = input at hgone hawaits
    cases hawaits <;> cases hgone
  obtain ⟨l₁, hloop₁, hbegun₁⟩ :=
    (Course.nil.snoc m.instant m.draw hloop hawaits hnamed).begun hloop hbegun
  obtain ⟨l₂, hloop₂, hbegun₂⟩ := hrest.begun hloop₁ hbegun₁
  obtain ⟨l₃, hfollows⟩ := course.follows hstart
  obtain rfl := Option.some.inj (hfollows.loop.symm.trans hloop₂)
  have hcache := (hfollows.cache.resolve_left fun hfirst => hbegun₂ hfirst.1).2
  have hhandled : handled (before ++ m :: after) = handled (before ++ [m]) := by
    rw [List.append_cons, handled_append, hnone, List.append_nil]
  rw [hcache, hhandled]

/-- An event says so: the next connection is asked for at once, and until the next event is handled
the watcher has started over. -/
theorem Course.startsOver_of_event (course : Course first (before ++ m :: after) w)
    (hstart : first.loop = some {}) (hgone : m.input.saysGone) (hnone : handled after = [])
    {event : Event K} (hinput : m.input = .event event) :
    m.requests = [first.request initialVersion] ∧
      StartsOver ((m :: after).flatMap Moment.requests) w := by
  have hevent : event.isGone := by rwa [hinput] at hgone
  have hhandled : handled (before ++ [m]) = handled before ++ [event] := by
    rw [handled_concat, hinput]
    rfl
  -- The event ends a stretch, so nothing is left of what came before it.
  have hasked := course.asked_since hstart hnone
  have hcache := course.cache_since hstart hgone hnone
  rw [hhandled, resumeVersion_append, if_pos hevent] at hasked
  rw [hhandled, cacheAfter, sinceGone_append, if_pos hevent] at hcache
  refine ⟨?_, fun r hr => congrArg Request.version (hasked r hr), ?_⟩
  · obtain ⟨w', l, -, hloop, -, -, heffects, -⟩ := course.at rfl
    obtain ⟨r, hr⟩ := requests_of_closes m.instant m.draw hloop
      (show m.input.closes by rw [hinput]; exact hevent)
    rw [← heffects] at hr
    have hsingle : m.requests = [r] := hr
    rw [hsingle, hasked r (by simp [hsingle])]
  · rw [hcache]
    rfl

/-- A failure says so: nothing is asked for at once, and until the next event is handled whatever is
asked for is asked for from the version that the watcher had, and the cache is what it was. -/
theorem Course.keeps_of_fails (course : Course first (before ++ m :: after) w)
    (hstart : first.loop = some {}) (hgone : m.input.saysGone) (hnone : handled after = [])
    (hfails : m.input.fails) (hinput : m.input.event? = none) :
    m.requests = [] ∧
      (∀ r ∈ (m :: after).flatMap Moment.requests,
        r = first.request (resumeVersion (handled before))) ∧
      w.cache = cacheAfter first.cache.clear (handled before) := by
  -- A failure is no event: what the events have told stands.
  have hhandled : handled (before ++ [m]) = handled before := by
    rw [handled_concat, hinput]
    exact List.append_nil _
  obtain ⟨w', l, -, hloop, -, -, heffects, -⟩ := course.at rfl
  refine ⟨?_, ?_, ?_⟩
  · rw [Moment.requests, heffects]
    exact (waiting_of_fails m.instant m.draw hloop hfails).1
  · rw [← hhandled]
    exact course.asked_since hstart hnone
  · rw [← hhandled]
    exact course.cache_since hstart hgone hnone

/-- The server says that the version is too old. From then on and until the next event is handled:
if an event said so, the next connection is asked for at once, and the watcher has started over. If
a failure did, whatever is asked for is asked for from the version that the watcher had, and the
cache is what it was. So, once something is asked for, the watcher has started over exactly if an
event said so, or if it had neither version nor snapshot. -/
theorem Course.startsOver_iff (course : Course first (before ++ m :: after) w)
    (hstart : first.loop = some {}) (hgone : m.input.saysGone) (hnone : handled after = []) :
    (m.input.fails = false → m.requests = [first.request initialVersion] ∧
      StartsOver ((m :: after).flatMap Moment.requests) w) ∧
    (m.input.fails → m.requests = [] ∧
      (∀ r ∈ (m :: after).flatMap Moment.requests,
        r = first.request (resumeVersion (handled before))) ∧
      w.cache = cacheAfter first.cache.clear (handled before)) ∧
    ((∃ r, r ∈ (m :: after).flatMap Moment.requests) →
      (StartsOver ((m :: after).flatMap Moment.requests) w ↔
        m.input.fails = false ∨ resumeVersion (handled before) = initialVersion ∧
          (cacheAfter first.cache.clear (handled before)).snapshots = [])) := by
  rcases told_of_saysGone hgone with ⟨event, hinput⟩ | ⟨hfails, hinput⟩
  · have hover := course.startsOver_of_event hstart hgone hnone hinput
    have hfails : m.input.fails = false := by rw [hinput]; rfl
    refine ⟨fun _ => hover, fun hcontra => ?_, fun _ => iff_of_true hover.2 (.inl hfails)⟩
    rw [hfails] at hcontra
    cases hcontra
  · have hkeeps := course.keeps_of_fails hstart hgone hnone hfails hinput
    have ⟨_, hasked, hcache⟩ := hkeeps
    refine ⟨fun hcontra => ?_, fun _ => hkeeps, ?_⟩
    · rw [hfails] at hcontra
      cases hcontra
    · rintro ⟨r, hr⟩
      have hversion := congrArg Request.version (hasked r hr)
      rw [StartsOver, hcache, hfails]
      constructor
      · rintro ⟨hall, hempty⟩
        exact .inr ⟨hversion.symm.trans (hall r hr), hempty⟩
      · rintro (hcontra | ⟨hinitial, hempty⟩)
        · cases hcontra
        · exact ⟨fun r hr => (congrArg Request.version (hasked r hr)).trans hinitial, hempty⟩

section TooOld

open Simulation (Widget)

/-- A connection brings an object, and then says that the version is too old: the next one asks for
everything, and the cache is empty. -/
theorem startsOver_iff_told :
    ∃ (before : List (Moment Widget)) (m : Moment Widget) (w : Watcher),
      started.loop = some {} ∧ Course started (before ++ [m]) w ∧ m.input.saysGone ∧
        handled before = [.added seen] ∧ m.requests = [started.request "0"] ∧
        StartsOver [started.request "0"] w := by
  have hnamed : (Input.event (.added seen) : Input Widget).IsNamed := by
    rintro _ ⟨⟩ _ ⟨⟩
    exact ⟨⟨none, "seen"⟩, rfl⟩
  have first : Course (K := Widget) started [⟨0, 0, .wake, _⟩] _ :=
    Course.nil.snoc 0 0 rfl .woken (by rintro _ ⟨⟩)
  have opened : Course started [_, ⟨0, 0, .opened, _⟩] _ :=
    first.snoc 0 0 rfl .opened (by rintro _ ⟨⟩)
  have added : Course started [_, _, ⟨0, 0, .event (.added seen), _⟩] _ :=
    opened.snoc 0 0 rfl .event hnamed
  have told : Course started ([_, _, _] ++ [⟨0, 0, .event (.error 410 "too old"), _⟩]) _ :=
    added.snoc 0 0 rfl .event (by rintro _ ⟨⟩ _ ⟨⟩)
  obtain ⟨hrequests, hover⟩ := (told.startsOver_iff rfl rfl rfl).1 rfl
  rw [List.flatMap_singleton, hrequests] at hover
  exact ⟨[_, _, _], _, _, rfl, told, rfl, rfl, hrequests, hover⟩

/-- The answer of a server that does not know a version any more. -/
def tooOld : ApiStatus where
  status := "Failure"
  message := "too old resource version"
  reason := "Expired"
  code := 410

/-- A bookmark brings version `7`, the connection is closed, and the next one is refused since the
version is too old. Two seconds later the same version is asked for again. -/
theorem expired_asked_again :
    ∃ (before : List (Moment Widget)) (m n : Moment Widget) (w : Watcher),
      started.loop = some {} ∧ Course started (before ++ [m, n]) w ∧
        handled before = [.bookmark "7"] ∧ m.input = .refused (.client (.api tooOld)) ∧
        m.input.saysGone ∧ m.instant = 0 ∧ n.input = .wake ∧ n.instant = 2000 ∧
        n.requests = [started.request "7"] ∧ "7" ≠ initialVersion := by
  have first : Course (K := Widget) started [⟨0, 0, .wake, _⟩] _ :=
    Course.nil.snoc 0 0 rfl .woken (by rintro _ ⟨⟩)
  have opened : Course started [_, ⟨0, 0, .opened, _⟩] _ :=
    first.snoc 0 0 rfl .opened (by rintro _ ⟨⟩)
  have marked : Course started [_, _, ⟨0, 0, .event (.bookmark "7"), _⟩] _ :=
    opened.snoc 0 0 rfl .event (by rintro _ ⟨⟩ _ ⟨⟩)
  have ended : Course started [_, _, _, ⟨0, 0, .ended, _⟩] _ :=
    marked.snoc 0 0 rfl .ended (by rintro _ ⟨⟩)
  have refused : Course started [_, _, _, _, ⟨0, 0, .refused (.client (.api tooOld)), _⟩] _ :=
    ended.snoc 0 0 rfl .refused (by rintro _ ⟨⟩)
  have again : Course started [_, _, _, _, _, ⟨2000, 0, .wake, _⟩] _ :=
    refused.snoc 2000 0 rfl .woken (by rintro _ ⟨⟩)
  exact ⟨[_, _, _, _], _, _, _, rfl, again, rfl, rfl, rfl, rfl, rfl, rfl, rfl, by decide⟩

end TooOld

end Reconciler.Watch
