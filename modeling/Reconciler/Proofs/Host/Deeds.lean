import Reconciler.Host.Pipeline
import Reconciler.Proofs.Dispatch.Handling
import Reconciler.Proofs.Queue.Upcoming
import Reconciler.Simulation.Widget

/-!
# What a dispatcher does, turn by turn

Whatever a line with a dispatcher does in a turn shows in deeds: an entry is delivered, a call is
made, an entry is done with. `Line.deeds` reads them off the line before the turn, so they add
nothing to it. `underway` finds in the deeds of a run the entry that the dispatcher is at, with the
calls it has made for it.

`Line.turn_spec` lists all that a turn can do, as far as it matters for what is upcoming in the queue
and for the plan under way. It holds while the line is `Intact`: not cancelled, its consumer not at
its end, every entry queued under the identity of its entity. A turn leaves the line intact as long
as the backend is `Faithful` and all that was sent comes due within the horizon of the timers.
-/

namespace Reconciler

/-- The command is one of a requeue handle. -/
def Queue.Command.IsRequeue {K : Type} [Entity K] (command : Queue.Command K) : Prop :=
  ∃ (x : K) (delay : Nat), Queue.Command.schedule? x delay .requeue = some command

/-- The command is a schedule of an entity under its identity. -/
def Queue.Command.IsAddressed {K : Type} [Entity K] (command : Queue.Command K) : Prop :=
  ∃ (x : K) (delay : Nat) (trigger : Trigger),
    Queue.Command.schedule? x delay trigger = some command

theorem Queue.Command.IsRequeue.isAddressed {K : Type} [Entity K] {command : Queue.Command K}
    (h : command.IsRequeue) : command.IsAddressed := by
  obtain ⟨x, delay, hcommand⟩ := h
  exact ⟨x, delay, .requeue, hcommand⟩

namespace Host

open Dispatch (Asked Call Fit Policy Steps Verdict)
open Queue (Command Entry meet)
open Simulation (Widget)

variable {K E : Type} [Entity K]

/-- What can be seen of one type of entity at work. -/
inductive Deed (K : Type) where
  /-- A watch told that the entity is there or was modified, and the cache what has changed. -/
  | changed (entity : K) (change : Change)
  | delivered (entry : Entry K)
  /-- The dispatcher made a call, with the answer that it gets. -/
  | called (asked : Asked K)
  | concluded (entity : K) (verdict : Verdict)

/-- The entry that the dispatcher is at after one deed more, with the calls made for it. -/
def underwayAfter : Option (Entry K × List (Asked K)) → Deed K → Option (Entry K × List (Asked K))
  | now, .changed _ _ => now
  | _, .delivered entry => some (entry, [])
  | now, .called asked => now.map fun (entry, calls) => (entry, calls ++ [asked])
  | _, .concluded _ _ => none

/-- The entry delivered last, with the calls made for it, if the dispatcher is not done with it. -/
def underway (deeds : List (Deed K)) : Option (Entry K × List (Asked K)) :=
  deeds.foldl underwayAfter none

/-- A queue with a dispatcher as its consumer. -/
abbrev DispatchLine (K E : Type) : Type :=
  Line K (Call K) Call.Answer E Dispatcher (K × Verdict)

abbrev DispatchConsumer (K E : Type) : Type :=
  Consumer K (Call K) Call.Answer E Dispatcher (K × Verdict)

/-- What the calls of a dispatcher are answered by. -/
abbrev CallBackend (K E : Type) : Type := Backend K (Call K) Call.Answer E

/-- The dispatcher with its calls as the questions. -/
def dispatching (draw : Nat) : Handler K (Call K) Call.Answer E Dispatcher (K × Verdict) :=
  .ofDispatcher draw Plan.call

/-- What going on with a plan shows. -/
def Backend.deeds (b : CallBackend K E) (now : Nat) (env : E) :
    Steps K (K × Verdict) → List (Deed K)
  | .done r => [.concluded r.1 r.2]
  | .ask call _ => [.called ⟨call, (b.call now call env).2.value⟩]

/-- What a turn of the line shows. -/
def Line.deeds (l : DispatchLine K E) (b : CallBackend K E) (now : Nat) (leading : Bool) (env : E) :
    List (Deed K) :=
  match l.consumer with
  | none => []
  | some c =>
    match c.activity with
    | .ended => []
    | .busy job => b.deeds now (job.finish now env) job.rest
    | .waiting =>
      match c.queue.poll now l.cancelled l.closed l.inbox with
      | .delivered entry _ =>
        .delivered entry :: b.deeds now env (Dispatch.handle c.state.policy leading entry)
      | _ => []

/-- The client reads what it is asked for, and no one sends to the queue while a call is answered but
by requeue handles. -/
structure Backend.Faithful (b : CallBackend K E) : Prop where
  fit : ∀ now call env, Fit call (b.call now call env).2.value
  commands : ∀ now call env, ∀ command ∈ (b.call now call env).2.commands, command.IsRequeue

/-- A backend whose calls all succeed at once, and whose client has nothing stored. -/
def obliging : CallBackend Widget Unit where
  call now call _ := ((), {
    ready := some now
    value := match call with
      | .get _ _ => .ok none
      | .update x => .ok x
      | .reconcile _ => .ok .awaitChange
      | .deleted _ => .ok ()
      | .finalize _ _ _ => .ok () })
  watch _ _ _ _ := ((), { ready := none, outcome := .ok {} })

theorem obliging_faithful : obliging.Faithful where
  fit now call env := by
    cases call with
    | get name ns =>
      intro x hx
      cases hx
    | _ => trivial
  commands now call env command hcommand := by cases hcommand

/-- The entry that an identity would have pending if what was sent was applied now. -/
def Line.upcoming (l : DispatchLine K E) (key : EntityKey) : Option (Entry K) :=
  l.consumer.bind fun c => c.queue.upcoming? l.inbox key

/-- All that was sent comes due within the horizon, if it is applied at an instant. -/
def Line.WithinRange (l : DispatchLine K E) (now : Nat) : Prop :=
  ∀ c, l.consumer = some c → c.activity = .waiting →
    c.queue.applyAll now l.inbox ≠ .error .beyondHorizon

/-! ## Lines that are intact -/

/-- What a consumer is at goes on: the answers that are still to come send by requeue handles only,
and the verdict concerns an identity. -/
def Activity.GoesOn : Activity K (Call K) Call.Answer E (K × Verdict) → Prop
  | .waiting => True
  | .busy job => (∀ command ∈ job.commands, command.IsRequeue) ∧
      job.rest.Ends Fit (fun _ r => ∃ key, Entity.key? r.1 = some key) []
  | .ended => False

/-- A consumer and what was sent to it: neither cancelled nor closed, index and timers agree, and
entries are queued under the identities of their entities. -/
structure Line.Tended (l : DispatchLine K E) (c : DispatchConsumer K E) (p : Policy) (now : Nat) : Prop where
  not_cancelled : l.cancelled = false
  not_closed : l.closed = false
  policy : c.state.policy = p
  sound : c.queue.Sound now
  addressed : ∀ key entry, c.queue.upcoming? l.inbox key = some entry →
    Entity.key? entry.entity = some key

structure Line.Intact (l : DispatchLine K E) (c : DispatchConsumer K E) (p : Policy) (now : Nat) : Prop extends l.Tended c p now where
  consumer : l.consumer = some c
  goesOn : c.activity.GoesOn

theorem schedule?_eq_some {x : K} {delay : Nat} {trigger : Trigger} {command : Command K}
    (h : Command.schedule? x delay trigger = some command) :
    ∃ key, Entity.key? x = some key ∧ command = .schedule key ⟨x, trigger⟩ delay := by
  obtain ⟨key, hkey, rfl⟩ := Option.map_eq_some_iff.mp h
  exact ⟨key, hkey, rfl⟩

/-- Schedules keep entries under the identities of their entities. -/
theorem addressed_foldl (pending : EntityKey → Option (Entry K)) {commands : List (Command K)}
    (hpending : ∀ key entry, pending key = some entry → Entity.key? entry.entity = some key)
    (hcommands : ∀ command ∈ commands, command.IsAddressed)
    (key : EntityKey) (entry : Entry K) (h : commands.foldl (meet key) (pending key) = some entry) :
    Entity.key? entry.entity = some key := by
  induction commands generalizing pending with
  | nil => exact hpending key entry h
  | cons command rest ih =>
    refine ih (fun key => meet key (pending key) command) ?_
      (fun other hother => hcommands other (List.mem_cons_of_mem _ hother)) h
    intro key entry hmeet
    obtain ⟨x, delay, trigger, hcommand⟩ := hcommands command List.mem_cons_self
    obtain ⟨other, hother, rfl⟩ := schedule?_eq_some hcommand
    by_cases hkey : other = key
    · subst hkey
      rw [meet, if_pos rfl] at hmeet
      obtain rfl := Option.some.inj hmeet
      rcases Queue.onto_entity (⟨x, trigger⟩ : Entry K) (pending other) with heq | ⟨old, hold, heq⟩
      · rw [heq]
        exact hother
      · rw [heq]
        exact hpending other old hold
    · rw [meet, if_neg hkey] at hmeet
      exact hpending key entry hmeet

namespace Line

variable {l l' : DispatchLine K E}
  {c c' : DispatchConsumer K E} {p : Policy} {now : Nat}

theorem Tended.mono (h : l.Tended c p now) {later : Nat} (hle : now ≤ later) :
    l.Tended c p later :=
  { h with sound := h.sound.mono hle }

theorem Intact.mono (h : l.Intact c p now) {later : Nat} (hle : now ≤ later) :
    l.Intact c p later :=
  { h with toTended := h.toTended.mono hle }

theorem Intact.upcoming_eq (h : l.Intact c p now) (key : EntityKey) :
    l.upcoming key = c.queue.upcoming? l.inbox key := by
  rw [upcoming, h.consumer]
  rfl

theorem Tended.sendAll (h : l.Tended c p now) {commands : List (Command K)}
    (hcommands : ∀ command ∈ commands, command.IsAddressed) : (l.sendAll commands).Tended c p now where
  not_cancelled := h.not_cancelled
  not_closed := h.not_closed
  policy := h.policy
  sound := h.sound
  addressed key entry hsome := by
    rw [show (l.sendAll commands).inbox = l.inbox ++ commands from rfl,
      Queue.upcoming?_append] at hsome
    exact addressed_foldl _ h.addressed hcommands key entry hsome

/-- What is sent merges with what is upcoming. -/
theorem Intact.sendAll (h : l.Intact c p now) (commands : List (Command K))
    (hcommands : ∀ command ∈ commands, command.IsAddressed) :
    (l.sendAll commands).Intact c p now ∧
      ∀ key, (l.sendAll commands).upcoming key = commands.foldl (meet key) (l.upcoming key) := by
  have hintact : (l.sendAll commands).Intact c p now :=
    { h with toTended := h.toTended.sendAll hcommands }
  refine ⟨hintact, fun key => ?_⟩
  rw [hintact.upcoming_eq, h.upcoming_eq]
  exact Queue.upcoming?_append ..

end Line

/-! ## Going on with a plan -/

/-- A verdict that concerns an identity is followed by requeues only, and a failure by one for that
identity. -/
theorem conclude_spec (d : Dispatcher) (draw : Nat) {r : K × Verdict} {key : EntityKey}
    (hkey : Entity.key? r.1 = some key) :
    ∃ d' commands, d.conclude draw r.1 r.2 = some (d', commands) ∧ d'.policy = d.policy ∧
      (∀ command ∈ commands, command.IsRequeue) ∧
      ∀ error, r.2 = .failed error → ∃ delay, commands = [.schedule key ⟨r.1, .requeue⟩ delay] := by
  obtain ⟨x, verdict⟩ := r
  have hrequeue : ∀ delay, (Dispatcher.requeue key x delay).IsRequeue := fun delay =>
    ⟨x, delay.millisUp, by simp only [Command.schedule?, show Entity.key? x = some key from hkey,
      Option.map_some, Dispatcher.requeue]⟩
  simp only at hkey
  cases verdict with
  | skipped => exact ⟨d, [], rfl, rfl, by simp, by simp⟩
  | forgotten => exact ⟨d.forget key, [], by simp [Dispatcher.conclude, hkey], rfl, by simp, by simp⟩
  | succeeded action =>
    refine ⟨d.forget key, (action.requeueAfter.map (Dispatcher.requeue key x)).toList,
      by simp only [Dispatcher.conclude, hkey, Option.map_some], rfl, ?_, by simp⟩
    intro command hcommand
    obtain ⟨delay, -, rfl⟩ := Option.map_eq_some_iff.mp (Option.mem_toList.mp hcommand)
    exact hrequeue delay
  | failed error =>
    let failed := d.fail key
    let delay := failed.backoff.delay draw (failed.failures key)
    refine ⟨failed, [Dispatcher.requeue key x delay],
      by simp only [Dispatcher.conclude, hkey, Option.map_some, failed, delay], rfl, ?_,
      fun _ _ => ⟨_, rfl⟩⟩
    intro command hcommand
    rw [List.mem_singleton.mp hcommand]
    exact hrequeue _

/-- How a line goes on with a plan, while something is upcoming for some identities. -/
inductive Went (p : Policy) (now : Nat) (pending : EntityKey → Option (Entry K))
    (plan : Steps K (K × Verdict)) (l' : DispatchLine K E) : List (Deed K) → Prop where
  | called {call : Call K} {answer : call.Answer} {next : call.Answer → Steps K (K × Verdict)}
      {c' : DispatchConsumer K E}
      {job : Job K (Call K) Call.Answer E (K × Verdict)} :
      plan = .ask call next → Fit call answer → l'.Intact c' p now → c'.activity = .busy job →
      job.rest = next answer → (∀ key, l'.upcoming key = pending key) →
      Went p now pending plan l' [.called ⟨call, answer⟩]
  | concluded {r : K × Verdict} {commands : List (Command K)}
      {c' : DispatchConsumer K E} :
      plan = .done r → l'.Intact c' p now → c'.activity = .waiting →
      (∀ command ∈ commands, command.IsRequeue) →
      (∀ error key, r.2 = .failed error → Entity.key? r.1 = some key →
        ∃ delay, commands = [.schedule key ⟨r.1, .requeue⟩ delay]) →
      (∀ key, l'.upcoming key = commands.foldl (meet key) (pending key)) →
      Went p now pending plan l' [.concluded r.1 r.2]

theorem Line.proceed_spec {b : CallBackend K E} (hb : b.Faithful) (draw : Nat)
    {l : DispatchLine K E} {c : DispatchConsumer K E}
    {p : Policy} {now : Nat} (h : l.Tended c p now) {plan : Steps K (K × Verdict)} (env : E)
    (hplan : plan.Ends Fit (fun _ r => ∃ key, Entity.key? r.1 = some key) []) :
    Went p now (c.queue.upcoming? l.inbox) plan
      (l.proceed b (dispatching draw) now c plan env).1 (b.deeds now env plan) := by
  cases plan with
  | ask call next =>
    have hfit := hb.fit now call env
    have hrest := (hplan _ hfit).any_past []
    obtain ⟨c', hline, hqueue, hstate, job, hactivity, hcommands, hjob⟩ : ∃ c',
        (l.proceed b (dispatching draw) now c (.ask call next) env).1 =
          { l with consumer := some c' } ∧ c'.queue = c.queue ∧ c'.state = c.state ∧
        ∃ job, c'.activity = .busy job ∧ job.commands = (b.call now call env).2.commands ∧
          job.rest = next (b.call now call env).2.value :=
      ⟨_, rfl, rfl, rfl, _, rfl, rfl, rfl⟩
    have hintact : Line.Intact (E := E) { l with consumer := some c' } c' p now := {
      not_cancelled := h.not_cancelled
      not_closed := h.not_closed
      policy := hstate ▸ h.policy
      sound := hqueue ▸ h.sound
      addressed := hqueue ▸ h.addressed
      consumer := rfl
      goesOn := by
        rw [hactivity]
        exact ⟨hcommands ▸ hb.commands now call env, hjob ▸ hrest⟩ }
    rw [hline]
    refine .called rfl hfit hintact hactivity hjob fun key => ?_
    rw [hintact.upcoming_eq, hqueue]
  | done r =>
    obtain ⟨key, hkey⟩ := hplan
    obtain ⟨d, commands, hconclude, hpolicy, hcommands, hfailed⟩ := conclude_spec c.state draw hkey
    have hline : (l.proceed b (dispatching draw) now c (.done r) env).1 =
        { l.sendAll commands with
          consumer := some { c with state := d, activity := .waiting } } := by
      simp only [Line.proceed, Backend.proceed, dispatching, Handler.ofDispatcher, hconclude]
    rw [hline]
    have htended := h.sendAll fun command hcommand => (hcommands command hcommand).isAddressed
    have hintact : Line.Intact (E := E) { l.sendAll commands with
        consumer := some { c with state := d, activity := .waiting } }
        { c with state := d, activity := .waiting } p now :=
      { htended with policy := hpolicy.trans h.policy, consumer := rfl, goesOn := trivial }
    refine .concluded rfl hintact rfl hcommands ?_ ?_
    · intro error other hverdict hother
      obtain rfl : key = other := Option.some.inj (hkey.symm.trans hother)
      exact hfailed error hverdict
    · intro key
      exact Queue.upcoming?_append ..

/-! ## Turns -/

/-- All that a turn can be: the answer to a call is looked at, or the queue is, which hands over an
entry, has none that is due, or has come to its end. -/
inductive Took (b : CallBackend K E) (draw now : Nat) (leading : Bool) (env : E)
    (l : DispatchLine K E) : DispatchLine K E × E → List (Deed K) → Prop where
  | answered {c : DispatchConsumer K E} {job : Job K (Call K) Call.Answer E (K × Verdict)} :
      l.consumer = some c → c.activity = .busy job →
      Took b draw now leading env l
        ((l.sendAll job.commands).proceed b (dispatching draw) now c job.rest (job.finish now env))
        (b.deeds now (job.finish now env) job.rest)
  | delivered {c : DispatchConsumer K E} {entry : Entry K} {queue : Queue K} :
      l.consumer = some c → c.activity = .waiting →
      c.queue.poll now l.cancelled l.closed l.inbox = .delivered entry queue →
      Took b draw now leading env l
        (Line.proceed { l with inbox := [] } b (dispatching draw) now { c with queue }
          (Dispatch.handle c.state.policy leading entry) env)
        (.delivered entry :: b.deeds now env (Dispatch.handle c.state.policy leading entry))
  | idle {c : DispatchConsumer K E} {queue : Queue K} :
      l.consumer = some c → c.activity = .waiting →
      c.queue.poll now l.cancelled l.closed l.inbox = .idle queue →
      Took b draw now leading env l
        ({ l with inbox := [], consumer := some { c with queue } }, env) []
  | ended {c : DispatchConsumer K E} {env' : E} :
      l.consumer = some c → c.activity = .waiting →
      (∀ queue, c.queue.poll now l.cancelled l.closed l.inbox ≠ .idle queue) →
      (∀ entry queue, c.queue.poll now l.cancelled l.closed l.inbox ≠ .delivered entry queue) →
      Took b draw now leading env l
        ({ l with consumer := some { c with activity := .ended } }, env') []

theorem Line.turn_cases {b : CallBackend K E} {draw now : Nat} {leading : Bool} {env : E}
    {l : DispatchLine K E} {r : DispatchLine K E × E}
    (h : l.turn b (dispatching draw) now leading env = some r) :
    Took b draw now leading env l r (l.deeds b now leading env) := by
  obtain ⟨inbox, closed, cancelled, consumer⟩ := l
  cases consumer with
  | none => cases h
  | some c =>
    obtain ⟨queue, activity, state⟩ := c
    cases activity with
    | ended => cases h
    | busy job =>
      simp only [Line.turn] at h
      split at h
      · obtain rfl := Option.some.inj h
        exact .answered rfl rfl
      · cases h
    | waiting =>
      simp only [Line.turn] at h
      split at h
      · cases hpoll : queue.poll now cancelled closed inbox with
        | delivered entry q =>
          simp only [Line.deeds, hpoll] at h ⊢
          rw [show (dispatching draw).plan state leading entry =
            Dispatch.handle state.policy leading entry from Plan.interpret_call _] at h
          obtain rfl := Option.some.inj h
          exact .delivered (c := ⟨queue, .waiting, state⟩) rfl rfl hpoll
        | idle q =>
          simp only [Line.deeds, hpoll] at h ⊢
          obtain rfl := Option.some.inj h
          exact .idle (c := ⟨queue, .waiting, state⟩) rfl rfl hpoll
        | ended =>
          simp only [Line.deeds, hpoll] at h ⊢
          obtain rfl := Option.some.inj h
          exact .ended (c := ⟨queue, .waiting, state⟩) rfl rfl (by simp [hpoll]) (by simp [hpoll])
        | failed error =>
          simp only [Line.deeds, hpoll] at h ⊢
          obtain rfl := Option.some.inj h
          exact .ended (c := ⟨queue, .waiting, state⟩) rfl rfl (by simp [hpoll]) (by simp [hpoll])
      · cases h

/-- All that a turn of an intact line can do. -/
inductive Turned (p : Policy) (now : Nat) (leading : Bool)
    (l : DispatchLine K E) (c : DispatchConsumer K E)
    (l' : DispatchLine K E) : List (Deed K) → Prop where
  | idle {c' : DispatchConsumer K E} :
      c.activity = .waiting → l'.Intact c' p now → c'.activity = .waiting →
      (∀ key, l'.upcoming key = l.upcoming key) → Turned p now leading l c l' []
  | delivered {key : EntityKey} {entry : Entry K} {pending : EntityKey → Option (Entry K)}
      {deeds : List (Deed K)} :
      c.activity = .waiting → l.upcoming key = some entry → pending key = none →
      (∀ other, other ≠ key → pending other = l.upcoming other) →
      Went p now pending (Dispatch.handle p leading entry) l' deeds →
      Turned p now leading l c l' (.delivered entry :: deeds)
  | answered {job : Job K (Call K) Call.Answer E (K × Verdict)}
      {pending : EntityKey → Option (Entry K)} {deeds : List (Deed K)} :
      c.activity = .busy job → (∀ command ∈ job.commands, command.IsRequeue) →
      (∀ key, pending key = job.commands.foldl (meet key) (l.upcoming key)) →
      Went p now pending job.rest l' deeds → Turned p now leading l c l' deeds

/-- A look into the queue of an intact line finds nothing due, or delivers what is upcoming for an
identity; the rest stays. -/
theorem Line.Intact.poll_spec {l : DispatchLine K E} {c : DispatchConsumer K E} {p : Policy}
    {now : Nat} (h : l.Intact c p now) (hrange : l.WithinRange now)
    (hwaiting : c.activity = .waiting) :
    (∃ q, c.queue.poll now l.cancelled l.closed l.inbox = .idle q ∧ q.Sound now ∧
      ∀ key, q.upcoming? [] key = c.queue.upcoming? l.inbox key) ∨
    ∃ key entry q, c.queue.poll now l.cancelled l.closed l.inbox = .delivered entry q ∧
      q.Sound now ∧ c.queue.upcoming? l.inbox key = some entry ∧ q.upcoming? [] key = none ∧
      ∀ other, other ≠ key → q.upcoming? [] other = c.queue.upcoming? l.inbox other := by
  rw [h.not_cancelled, h.not_closed]
  exact Queue.poll_spec h.sound (Nat.le_refl now) (hrange c h.consumer hwaiting)

theorem Line.turn_spec {b : CallBackend K E} (hb : b.Faithful) {draw : Nat} {leading : Bool}
    {l l' : DispatchLine K E} {c : DispatchConsumer K E}
    {p : Policy} {now : Nat} {env env' : E} (h : l.Intact c p now) (hrange : l.WithinRange now)
    (hturn : l.turn b (dispatching draw) now leading env = some (l', env')) :
    Turned p now leading l c l' (l.deeds b now leading env) := by
  have htook := Line.turn_cases hturn
  generalize l.deeds b now leading env = deeds at htook ⊢
  generalize hr : (l', env') = r at htook
  obtain rfl := h.policy
  have hconsumer : ∀ {c'}, l.consumer = some c' → c = c' := fun hc' =>
    Option.some.inj (h.consumer.symm.trans hc')
  cases htook with
  | @answered _ job hc hbusy =>
    obtain rfl := hconsumer hc
    have hgoesOn := h.goesOn
    rw [hbusy] at hgoesOn
    obtain ⟨hcommands, hplan⟩ := hgoesOn
    have hwent := Line.proceed_spec hb draw (h.toTended.sendAll fun command hcommand =>
      (hcommands command hcommand).isAddressed) (job.finish now env) hplan
    rw [← hr] at hwent
    refine .answered hbusy hcommands (fun key => ?_) hwent
    rw [h.upcoming_eq]
    exact Queue.upcoming?_append ..
  | @delivered _ entry queue hc hwaiting hdelivered =>
    obtain rfl := hconsumer hc
    obtain ⟨q, hidle, -⟩ | ⟨key, found, q, hfound, hsound, hentry, hgone, hothers⟩ :=
      h.poll_spec hrange hwaiting
    · rw [hdelivered] at hidle
      cases hidle
    rw [hdelivered] at hfound
    obtain ⟨rfl, rfl⟩ := Queue.Poll.delivered.inj hfound
    have haddressed : ∀ other entry, queue.upcoming? [] other = some entry →
        Entity.key? entry.entity = some other := by
      intro other entry hsome
      by_cases hother : other = key
      · rw [hother, hgone] at hsome
        cases hsome
      · exact h.addressed other entry (hothers other hother ▸ hsome)
    have hkey := h.addressed key entry hentry
    have hplan : (Dispatch.handle c.state.policy leading entry).Ends Fit
        (fun _ r => ∃ key, Entity.key? r.1 = some key) [] := by
      cases leading with
      | false => exact ⟨key, hkey⟩
      | true =>
        refine (Dispatch.handle_ends c.state.policy entry hkey).mono ?_
        intro calls r hhandled
        exact ⟨key, hhandled.key?_eq.trans hkey⟩
    have htended : Line.Tended (E := E) { l with inbox := [] } { c with queue } c.state.policy now :=
      ⟨h.not_cancelled, h.not_closed, rfl, hsound, haddressed⟩
    have hwent := Line.proceed_spec hb draw htended env hplan
    rw [← hr] at hwent
    refine .delivered hwaiting ((h.upcoming_eq key).trans hentry) hgone ?_ hwent
    intro other hother
    rw [h.upcoming_eq]
    exact hothers other hother
  | @idle _ queue hc hwaiting hidle =>
    obtain rfl := hconsumer hc
    obtain ⟨q, hfound, hsound, hsame⟩ | ⟨key, found, q, hfound, -⟩ :=
      h.poll_spec hrange hwaiting
    · rw [hidle] at hfound
      obtain rfl := Queue.Poll.idle.inj hfound
      obtain ⟨rfl, rfl⟩ := Prod.mk.inj hr
      have haddressed : ∀ key entry, queue.upcoming? [] key = some entry →
          Entity.key? entry.entity = some key := by
        intro key entry hsome
        exact h.addressed key entry (hsame key ▸ hsome)
      have hintact : Line.Intact (E := E)
          { l with inbox := [], consumer := some { c with queue } } { c with queue }
          c.state.policy now := {
        not_cancelled := h.not_cancelled
        not_closed := h.not_closed
        policy := rfl
        sound := hsound
        addressed := haddressed
        consumer := rfl
        goesOn := h.goesOn }
      refine .idle hwaiting hintact hwaiting fun key => ?_
      rw [hintact.upcoming_eq, h.upcoming_eq]
      exact hsame key
    · rw [hidle] at hfound
      cases hfound
  | ended hc hwaiting hidle hdelivered =>
    obtain rfl := hconsumer hc
    obtain ⟨q, hfound, -⟩ | ⟨key, entry, q, hfound, -⟩ :=
      h.poll_spec hrange hwaiting
    · exact absurd hfound (hidle q)
    · exact absurd hfound (hdelivered entry q)

end Host

end Reconciler
