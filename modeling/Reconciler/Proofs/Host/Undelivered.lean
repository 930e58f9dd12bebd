import Mathlib.Data.List.Induction
import Reconciler.Proofs.Host.Site

/-!
# What is undelivered

Of all that happens to a type of entity, incidents are what bears on its queue, and what its watcher
asks the server for. What is `undelivered` for an identity is read off the incidents alone: the
schedules since the last delivery and the last clear, merged in order.

A line keeps to that, whatever its consumer does with the entries (`Line.turn_accounted`): what is
upcoming is what is undelivered, however much of it has not been applied yet, and what is delivered
was undelivered. A schedule beyond the horizon of the timers ends the consumer.
-/

namespace Reconciler.Host

open Queue (Command Entry meet)

variable {K E Q D R : Type} {A : Q → Type}

/-- What can be seen of a gated type of entity. -/
inductive Incident (K : Type) where
  | published (state : Leadership)
  /-- The watcher asked for a connection, and this is what its cache was then. -/
  | requested (request : Watch.Request) (cache : Cache)
  | sent (command : Command K)
  | delivered (entry : Entry K)

namespace Incident

def publication? : Incident K → Option Leadership
  | .published state => some state
  | _ => none

def request? : Incident K → Option Watch.Request
  | .requested request _ => some request
  | _ => none

def command? : Incident K → Option (Command K)
  | .sent command => some command
  | _ => none

def entry? : Incident K → Option (Entry K)
  | .delivered entry => some entry
  | _ => none

end Incident

/-- What is undelivered for an identity after one incident more. -/
def undeliveredAfter [Entity K] (key : EntityKey) :
    Option (Entry K) → Incident K → Option (Entry K)
  | pending, .sent command => meet key pending command
  | pending, .delivered entry => if Entity.key? entry.entity = some key then none else pending
  | pending, _ => pending

/-- What has been scheduled for an identity and has neither been delivered nor dropped since. -/
def undelivered [Entity K] (trace : List (Incident K)) (key : EntityKey) : Option (Entry K) :=
  trace.foldl (undeliveredAfter key) none

/-! ## Lines of any kind -/

/-- What going on with a plan shows. -/
def Handler.shown (h : Handler K Q A E D R) (state : D) : Plan Q A R → List (Incident K)
  | .ask _ _ => []
  | .done r =>
    match h.conclude state r with
    | some (_, commands) => commands.map .sent
    | none => []

/-- What a turn of the line shows. -/
def Line.shown (l : Line K Q A E D R) (h : Handler K Q A E D R) (now : Nat) (leading : Bool) :
    List (Incident K) :=
  match l.consumer with
  | none => []
  | some c =>
    match c.activity with
    | .ended => []
    | .busy job => job.commands.map .sent ++ h.shown c.state job.rest
    | .waiting =>
      match c.queue.poll now l.cancelled l.closed l.inbox with
      | .delivered entry _ => .delivered entry :: h.shown c.state (h.plan c.state leading entry)
      | _ => []

variable [Entity K]

/-- Whatever is sent while a question is answered schedules an entity under its identity. -/
def Backend.SendsSchedules (b : Backend K Q A E) : Prop :=
  ∀ now call env, ∀ command ∈ (b.call now call env).2.commands, command.IsAddressed

/-- Whatever follows from a result schedules an entity under its identity. -/
def Handler.SendsSchedules (h : Handler K Q A E D R) : Prop :=
  ∀ state r state' commands, h.conclude state r = some (state', commands) →
    ∀ command ∈ commands, command.IsAddressed

/-- Queues are cleared, and otherwise sent schedules of entities under their identities; and
whatever is delivered was undelivered for the identity of its entity. -/
structure Orderly (trace : List (Incident K)) : Prop where
  commands : ∀ command, .sent command ∈ trace → command = .clear ∨ command.IsAddressed
  deliveries : ∀ before entry after, trace = before ++ .delivered entry :: after →
    ∃ key, Entity.key? entry.entity = some key ∧ undelivered before key = some entry

/-- The answers that are still to come send schedules only. -/
def Activity.SendsSchedules : Activity K Q A E R → Prop
  | .busy job => ∀ command ∈ job.commands, command.IsAddressed
  | _ => True

/-- What is upcoming in a queue is what is undelivered. -/
structure Accounts (trace : List (Incident K)) (q : Queue K) (inbox : List (Command K))
    (now : Nat) : Prop where
  sound : q.Sound now
  upcoming : ∀ key, q.upcoming? inbox key = undelivered trace key

/-- An open line whose consumer has come to its end, or has upcoming what is undelivered. -/
structure Line.Accounted (l : Line K Q A E D R) (trace : List (Incident K)) (now : Nat) : Prop where
  not_cancelled : l.cancelled = false
  not_closed : l.closed = false
  consumer : ∃ c, l.consumer = some c ∧
    (c.activity = .ended ∨ Accounts trace c.queue l.inbox now ∧ c.activity.SendsSchedules)

section Traces

variable {trace more : List (Incident K)} {key : EntityKey}

/-- Between two deliveries it is the commands that decide what is undelivered. -/
theorem undelivered_append (hmore : ∀ i ∈ more, i.entry? = none) (key : EntityKey) :
    undelivered (trace ++ more) key =
      (more.filterMap Incident.command?).foldl (meet key) (undelivered trace key) := by
  rw [undelivered, List.foldl_append, ← undelivered]
  generalize undelivered trace key = pending
  induction more generalizing pending with
  | nil => rfl
  | cons i rest ih =>
    have hrest := ih fun j hj => hmore j (List.mem_cons_of_mem _ hj)
    cases i with
    | delivered entry => exact absurd (hmore _ List.mem_cons_self) (by simp [Incident.entry?])
    | _ => exact hrest _

theorem undelivered_delivered (entry : Entry K) (key : EntityKey) :
    undelivered (trace ++ [.delivered entry]) key =
      if Entity.key? entry.entity = some key then none else undelivered trace key := by
  rw [undelivered, List.foldl_append]
  rfl

omit [Entity K] in
theorem filterMap_sent (commands : List (Command K)) :
    (commands.map Incident.sent).filterMap Incident.command? = commands := by
  induction commands with
  | nil => rfl
  | cons command rest ih => exact congrArg (command :: ·) ih

omit [Entity K] in
theorem entry?_of_mem_sent (commands : List (Command K)) :
    ∀ i ∈ commands.map Incident.sent, i.entry? = none := by
  intro i hi
  obtain ⟨command, -, rfl⟩ := List.mem_map.mp hi
  rfl

/-- What was undelivered before a clear has no part in what is after it. -/
theorem undelivered_clear (before after : List (Incident K)) (key : EntityKey) :
    undelivered (before ++ .sent .clear :: after) key = undelivered after key := by
  rw [undelivered, List.foldl_append]
  rfl

/-- A schedule stays undelivered, with what merges with it later, until its identity is delivered or
the queue is cleared. -/
theorem undelivered_of_sent (past : List (Incident K)) {later : List (Incident K)} (entry : Entry K)
    (delay : Nat) (hclear : .sent .clear ∉ later)
    (hlater : ∀ other, .delivered other ∈ later → Entity.key? other.entity ≠ some key) :
    ∃ merged,
      (later.filterMap Incident.command?).foldl (meet key)
        (some (entry.onto (undelivered past key))) = some merged ∧
      undelivered (past ++ .sent (.schedule key entry delay) :: later) key = some merged := by
  have hsent : undelivered (past ++ .sent (.schedule key entry delay) :: later) key =
      later.foldl (undeliveredAfter key) (some (entry.onto (undelivered past key))) := by
    rw [undelivered, List.foldl_append, List.foldl_cons, ← undelivered]
    simp only [undeliveredAfter, meet, if_true]
  rw [hsent]
  generalize entry.onto (undelivered past key) = pending
  clear hsent
  induction later generalizing pending with
  | nil => exact ⟨pending, rfl, rfl⟩
  | cons i rest ih =>
    have hrest := ih (fun h => hclear (List.mem_cons_of_mem _ h))
      (fun other h => hlater other (List.mem_cons_of_mem _ h))
    cases i with
    | published state => exact hrest pending
    | requested request cache => exact hrest pending
    | delivered other =>
      have hother : undeliveredAfter key (some pending) (.delivered other) = some pending :=
        if_neg (hlater other List.mem_cons_self)
      rw [List.foldl_cons, hother]
      exact hrest pending
    | sent command =>
      cases command with
      | clear => exact absurd List.mem_cons_self hclear
      | schedule other new delay =>
        by_cases hkey : other = key
        · have hmeet : meet key (some pending) (.schedule other new delay) =
              some (new.onto (some pending)) := if_pos hkey
          simp only [List.filterMap_cons, Incident.command?, List.foldl_cons, undeliveredAfter,
            hmeet]
          exact hrest _
        · have hmeet : meet key (some pending) (.schedule other new delay) = some pending :=
            if_neg hkey
          simp only [List.filterMap_cons, Incident.command?, List.foldl_cons, undeliveredAfter,
            hmeet]
          exact hrest _

/-- Entries are undelivered for the identities of their entities. -/
theorem key?_of_undelivered
    (hcommands : ∀ command, .sent command ∈ trace → command = .clear ∨ command.IsAddressed)
    {entry : Entry K} (hentry : undelivered trace key = some entry) :
    Entity.key? entry.entity = some key := by
  induction trace using List.reverseRecOn generalizing key entry with
  | nil => cases hentry
  | append_singleton trace i ih =>
    have hpast : ∀ key entry, undelivered trace key = some entry →
        Entity.key? entry.entity = some key := fun _ _ =>
      ih fun command hcommand => hcommands command (List.mem_append_left _ hcommand)
    rw [undelivered, List.foldl_append, ← undelivered] at hentry
    cases i with
    | published state => exact hpast key entry hentry
    | requested request cache => exact hpast key entry hentry
    | delivered other =>
      simp only [List.foldl_cons, List.foldl_nil, undeliveredAfter] at hentry
      split at hentry
      · cases hentry
      · exact hpast key entry hentry
    | sent command =>
      rcases hcommands command (List.mem_append_right _ List.mem_cons_self) with rfl | haddressed
      · cases hentry
      · exact addressed_foldl (undelivered trace) hpast
          (fun one hone => List.mem_singleton.mp hone ▸ haddressed) key entry hentry

namespace Orderly

theorem append (h : Orderly trace) (hmore : ∀ i ∈ more, i.entry? = none)
    (hcommands : ∀ command ∈ more.filterMap Incident.command?,
      command = .clear ∨ command.IsAddressed) : Orderly (trace ++ more) where
  commands command hcommand := by
    rcases List.mem_append.mp hcommand with hold | hnew
    · exact h.commands command hold
    · exact hcommands command (List.mem_filterMap.mpr ⟨_, hnew, rfl⟩)
  deliveries before entry after heq := by
    rcases List.append_eq_append_iff.mp heq with ⟨early, rfl, hlate⟩ | ⟨late, rfl, hlate⟩
    · have := hmore (.delivered entry) (by rw [hlate]; simp)
      cases this
    · cases late with
      | nil =>
        have := hmore (.delivered entry) (by rw [← List.nil_append more, ← hlate]; simp)
        cases this
      | cons i late =>
        obtain ⟨rfl, -⟩ := List.cons.inj hlate
        exact h.deliveries before entry late rfl

theorem delivered (h : Orderly trace) {entry : Entry K}
    (hkey : Entity.key? entry.entity = some key) (hentry : undelivered trace key = some entry) :
    Orderly (trace ++ [.delivered entry]) where
  commands command hcommand := by
    rcases List.mem_append.mp hcommand with hold | hnew
    · exact h.commands command hold
    · cases List.mem_singleton.mp hnew
  deliveries before other after heq := by
    rcases List.eq_nil_or_concat after with rfl | ⟨late, last, rfl⟩
    · obtain ⟨rfl, hlast⟩ := List.append_inj' heq rfl
      obtain rfl := Incident.delivered.inj (List.singleton_inj.mp hlast)
      exact ⟨key, hkey, hentry⟩
    · have hsplit : trace ++ [.delivered entry] =
          (before ++ .delivered other :: late) ++ [last] := by simpa using heq
      obtain ⟨htrace, -⟩ := List.append_inj' hsplit rfl
      exact h.deliveries before other late htrace

end Orderly

end Traces

/-! ## Sending and turns -/

section Turns

variable {trace : List (Incident K)} {l l' : Line K Q A E D R} {q : Queue K}
  {inbox : List (Command K)} {now : Nat}

theorem Accounts.mono (h : Accounts trace q inbox now) {later : Nat} (hle : now ≤ later) :
    Accounts trace q inbox later :=
  { h with sound := h.sound.mono hle }

theorem Accounts.append (h : Accounts trace q inbox now) {more : List (Incident K)}
    (hmore : ∀ i ∈ more, i.entry? = none) :
    Accounts (trace ++ more) q (inbox ++ more.filterMap Incident.command?) now where
  sound := h.sound
  upcoming key := by rw [Queue.upcoming?_append, h.upcoming, undelivered_append hmore]

theorem Line.Accounted.mono (h : l.Accounted trace now) {later : Nat} (hle : now ≤ later) :
    l.Accounted trace later where
  not_cancelled := h.not_cancelled
  not_closed := h.not_closed
  consumer := by
    obtain ⟨c, hc, hended | ⟨haccounts, hsends⟩⟩ := h.consumer
    · exact ⟨c, hc, .inl hended⟩
    · exact ⟨c, hc, .inr ⟨haccounts.mono hle, hsends⟩⟩

/-- Sending shows, and may go along with whatever else is no delivery. -/
theorem Line.Accounted.sendAll (h : l.Accounted trace now) {more : List (Incident K)}
    (hmore : ∀ i ∈ more, i.entry? = none) :
    (l.sendAll (more.filterMap Incident.command?)).Accounted (trace ++ more) now where
  not_cancelled := h.not_cancelled
  not_closed := h.not_closed
  consumer := by
    obtain ⟨c, hc, hended | ⟨haccounts, hsends⟩⟩ := h.consumer
    · exact ⟨c, hc, .inl hended⟩
    · exact ⟨c, hc, .inr ⟨haccounts.append hmore, hsends⟩⟩

omit [Entity K] in
/-- Whether a line has a turn does not depend on who leads. -/
theorem Line.turn_leading {b : Backend K Q A E} {h : Handler K Q A E D R} {leading : Bool} {env : E}
    {r : Line K Q A E D R × E} (hturn : l.turn b h now leading env = some r) (leading' : Bool) :
    ∃ r', l.turn b h now leading' env = some r' := by
  unfold Line.turn at hturn ⊢
  split at hturn
  · cases hturn
  · split at hturn
    · cases hturn
    · exact ⟨r, hturn⟩
    · split at hturn
      · next hdue =>
        simp only [hdue, if_true]
        split <;> exact ⟨_, rfl⟩
      · cases hturn

theorem Line.Accounted.resume (h : l.Accounted trace now) : l.resume.Accounted trace now := by
  obtain ⟨⟨queue, activity, state⟩, hc, hgoes⟩ := h.consumer
  cases activity with
  | busy job =>
    rw [Line.resume, hc]
    exact ⟨h.not_cancelled, h.not_closed, _, rfl, .inr (hgoes.resolve_left (by simp))⟩
  | _ =>
    rw [Line.resume, hc]
    exact h

theorem Handler.addressed_of_mem_shown {h : Handler K Q A E D R} (hh : h.SendsSchedules) {state : D}
    {plan : Plan Q A R} {i : Incident K} (hi : i ∈ h.shown state plan) :
    ∃ command, i = .sent command ∧ command.IsAddressed := by
  cases plan with
  | ask call next => cases hi
  | done r =>
    simp only [Handler.shown] at hi
    split at hi
    · next state' commands hconclude =>
      obtain ⟨command, hcommand, rfl⟩ := List.mem_map.mp hi
      exact ⟨command, rfl, hh _ _ _ _ hconclude command hcommand⟩
    · cases hi

/-- Nothing but schedules and deliveries shows in the turn of a line. -/
theorem Line.Accounted.of_mem_shown (hl : l.Accounted trace now) {h : Handler K Q A E D R}
    (hh : h.SendsSchedules) {leading : Bool} {i : Incident K} (hi : i ∈ l.shown h now leading) :
    (∃ entry, i = .delivered entry) ∨ ∃ command, i = .sent command ∧ command.IsAddressed := by
  obtain ⟨⟨queue, activity, state⟩, hc, hgoes⟩ := hl.consumer
  rw [Line.shown, hc] at hi
  cases activity with
  | ended => cases hi
  | busy job =>
    obtain ⟨-, hsends⟩ := hgoes.resolve_left (by simp)
    rcases List.mem_append.mp hi with hi | hi
    · obtain ⟨command, hcommand, rfl⟩ := List.mem_map.mp hi
      exact .inr ⟨command, rfl, hsends command hcommand⟩
    · exact .inr (Handler.addressed_of_mem_shown hh hi)
  | waiting =>
    simp only at hi
    split at hi
    · next entry q hpoll =>
      rcases List.mem_cons.mp hi with rfl | hi
      · exact .inl ⟨entry, rfl⟩
      · exact .inr (Handler.addressed_of_mem_shown hh hi)
    · cases hi

/-- Going on with a plan leaves everything accounted for. -/
theorem Line.proceed_accounted {b : Backend K Q A E} {h : Handler K Q A E D R}
    (hb : b.SendsSchedules) (hh : h.SendsSchedules) (hcancelled : l.cancelled = false)
    (hclosed : l.closed = false) {c : Consumer K Q A E D R}
    (haccounts : Accounts trace c.queue l.inbox now) (horderly : Orderly trace)
    (plan : Plan Q A R) (env : E) :
    (l.proceed b h now c plan env).1.Accounted (trace ++ h.shown c.state plan) now ∧
      Orderly (trace ++ h.shown c.state plan) := by
  cases plan with
  | ask call next =>
    rw [show h.shown c.state (.ask call next) = [] from rfl, List.append_nil]
    exact ⟨⟨hcancelled, hclosed, _, rfl, .inr ⟨haccounts, hb now call env⟩⟩, horderly⟩
  | done r =>
    simp only [Line.proceed, Backend.proceed, Handler.shown]
    cases hconclude : h.conclude c.state r with
    | none =>
      rw [List.append_nil]
      exact ⟨⟨hcancelled, hclosed, _, rfl, .inl rfl⟩, horderly⟩
    | some concluded =>
      obtain ⟨state, commands⟩ := concluded
      have hsent := haccounts.append (entry?_of_mem_sent commands)
      rw [filterMap_sent] at hsent
      refine ⟨⟨hcancelled, hclosed, _, rfl, .inr ⟨hsent, trivial⟩⟩, ?_⟩
      refine horderly.append (entry?_of_mem_sent _) fun command hcommand => .inr ?_
      rw [filterMap_sent] at hcommand
      exact hh _ _ _ _ hconclude command hcommand

/-- A delivery takes what is undelivered for one identity. -/
theorem Accounts.delivered {queue : Queue K} {key : EntityKey} {entry : Entry K}
    (h : Accounts trace q inbox now) (hsound : queue.Sound now)
    (hkey : Entity.key? entry.entity = some key) (hgone : queue.upcoming? [] key = none)
    (hothers : ∀ other, other ≠ key → queue.upcoming? [] other = q.upcoming? inbox other) :
    Accounts (trace ++ [.delivered entry]) queue [] now where
  sound := hsound
  upcoming other := by
    rw [undelivered_delivered, hkey]
    by_cases hother : other = key
    · rw [hother, hgone, if_pos rfl]
    · rw [hothers other hother, h.upcoming, if_neg fun heq => hother (Option.some.inj heq).symm]

theorem Accounts.poll (h : Accounts trace q inbox now) (horderly : Orderly trace) :
    (∃ fault, q.poll now false false inbox = .failed fault) ∨
      (∃ queue, q.poll now false false inbox = .idle queue ∧ Accounts trace queue [] now) ∨
      ∃ entry queue, q.poll now false false inbox = .delivered entry queue ∧
        Accounts (trace ++ [.delivered entry]) queue [] now ∧
        Orderly (trace ++ [.delivered entry]) := by
  -- What has been waiting in the inbox may be too far ahead for the timers by now.
  by_cases hrange : q.applyAll now inbox = .error .beyondHorizon
  · exact .inl ⟨.beyondHorizon, by simp [Queue.poll, hrange]⟩
  · rcases Queue.poll_spec h.sound (Nat.le_refl now) hrange with
      ⟨queue, hidle, hsound, hsame⟩ |
        ⟨key, entry, queue, hdelivered, hsound, hentry, hgone, hothers⟩
    · exact .inr (.inl ⟨queue, hidle, hsound, fun key => (hsame key).trans (h.upcoming key)⟩)
    · rw [h.upcoming] at hentry
      have hkey := key?_of_undelivered horderly.commands hentry
      exact .inr (.inr ⟨entry, queue, hdelivered, h.delivered hsound hkey hgone hothers,
        horderly.delivered hkey hentry⟩)

theorem Line.turn_accounted {b : Backend K Q A E} {h : Handler K Q A E D R}
    (hb : b.SendsSchedules) (hh : h.SendsSchedules) (hl : l.Accounted trace now)
    (horderly : Orderly trace) {leading : Bool} {env env' : E}
    (hturn : l.turn b h now leading env = some (l', env')) :
    l'.Accounted (trace ++ l.shown h now leading) now ∧
      Orderly (trace ++ l.shown h now leading) := by
  obtain ⟨inbox, closed, cancelled, consumer⟩ := l
  obtain ⟨hcancelled, hclosed, ⟨queue, activity, state⟩, hc, hgoes⟩ := hl
  obtain rfl : cancelled = false := hcancelled
  obtain rfl : closed = false := hclosed
  obtain rfl : consumer = some ⟨queue, activity, state⟩ := hc
  cases activity with
  | ended => cases hturn
  | busy job =>
    obtain ⟨haccounts, hsends⟩ : Accounts trace queue inbox now ∧
        ∀ command ∈ job.commands, command.IsAddressed := hgoes.resolve_left (by simp)
    simp only [Line.turn] at hturn
    split at hturn
    · -- What the outside sent during the question shows before what follows from the answer.
      have hsent := haccounts.append (entry?_of_mem_sent job.commands)
      have horderly' := horderly.append (entry?_of_mem_sent job.commands)
        (by rw [filterMap_sent]; exact fun command hcommand => .inr (hsends command hcommand))
      rw [filterMap_sent] at hsent
      have hproceed := Line.proceed_accounted hb hh
        (l := Line.sendAll ⟨inbox, false, false, some ⟨queue, .busy job, state⟩⟩ job.commands)
        (c := ⟨queue, .busy job, state⟩) rfl rfl hsent horderly' job.rest (job.finish now env)
      rw [Option.some.inj hturn, List.append_assoc] at hproceed
      exact hproceed
    · cases hturn
  | waiting =>
    obtain ⟨haccounts, -⟩ := hgoes.resolve_left (by simp)
    simp only [Line.turn] at hturn
    split at hturn
    · rcases haccounts.poll horderly with ⟨fault, hfailed⟩ | ⟨q, hidle, haccounts'⟩ |
        ⟨entry, q, hdelivered, haccounts', horderly'⟩
      · simp only [Line.shown, hfailed, List.append_nil] at hturn ⊢
        obtain ⟨rfl, -⟩ := Prod.mk.inj (Option.some.inj hturn)
        exact ⟨⟨rfl, rfl, _, rfl, .inl rfl⟩, horderly⟩
      · simp only [Line.shown, hidle, List.append_nil] at hturn ⊢
        obtain ⟨rfl, -⟩ := Prod.mk.inj (Option.some.inj hturn)
        exact ⟨⟨rfl, rfl, _, rfl, .inr ⟨haccounts', trivial⟩⟩, horderly⟩
      · simp only [Line.shown, hdelivered] at hturn ⊢
        have hproceed := Line.proceed_accounted hb hh
          (l := ⟨[], false, false, some ⟨queue, .waiting, state⟩⟩) (c := ⟨q, .waiting, state⟩)
          rfl rfl haccounts' horderly' (h.plan state leading entry) env
        rw [Option.some.inj hturn, List.append_assoc] at hproceed
        exact hproceed
    · cases hturn

end Turns

end Reconciler.Host
