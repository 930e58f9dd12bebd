import Reconciler.Proofs.Queue.Timely

/-!
# The stream of entries

A stream is a queue as its consumer sees it. Producers send commands at any time, until the last of
them is gone; the consumer may be cancelled at any time; and it polls at any instants, each time
with one of four outcomes: an entry is delivered, nothing is due, the stream is at its end, or a
command could not be applied. After the last two it polls no more, and what was pending is gone with
it.

A poll first applies what was sent and only then looks for an entry, so its outcome is told by
`Stream.due?`: what is pending for an identity, and until when, once all that was sent is applied at
the instant of the poll. This is all that a poll goes by (`Stream.Polled`).

Nothing leaves a stream but by a delivery, a merge, a clear or a cancellation, as long as no poll
fails. A poll does fail, though, on a schedule that comes due beyond the horizon of the timers. No
producer is kept from sending one, and everything that was pending goes with it.
-/

namespace Reconciler.Queue

variable {K : Type}

/-- A queue as its consumer sees it. -/
structure Stream (K : Type) where
  /-- The instant of the last poll. -/
  now : Nat
  queue : Queue K
  /-- The commands that were sent since. -/
  inbox : List (Command K) := []
  /-- All producers are gone. -/
  closed : Bool := false
  cancelled : Bool := false
  /-- The consumer still polls. -/
  running : Bool := true

/-- What happens to a stream. -/
inductive Occurrence (K : Type) where
  | sent (command : Command K)
  | closed
  | cancelled
  | delivered (instant : Nat) (key : EntityKey) (entry : Entry K)
  | idle (instant : Nat)
  | ended (instant : Nat)
  | failed (instant : Nat) (fault : Fault)

namespace Occurrence

/-- The instant of a poll. -/
def instant? : Occurrence K → Option Nat
  | .delivered instant _ _ | .idle instant | .ended instant | .failed instant _ => some instant
  | .sent _ | .closed | .cancelled => none

/-- A schedule for an identity was sent. -/
def schedules (key : EntityKey) : Occurrence K → Bool
  | .sent (.schedule other _ _) => other == key
  | _ => false

/-- An entry of an identity was delivered. -/
def delivers (key : EntityKey) : Occurrence K → Bool
  | .delivered _ other _ => other == key
  | _ => false

end Occurrence

namespace Stream

/-- A stream that is consumed from an instant on. -/
def consumedAt (start : Nat) : Stream K := { now := start, queue := .startingAt start }

/-- What is pending for an identity, and until when, once all that was sent is applied. -/
def due? (s : Stream K) (instant : Nat) (key : EntityKey) : Option (Entry K × Nat) :=
  s.inbox.foldl (meetAt key instant) (s.queue.pendingOf key).head?

/-- The entry that an identity has pending, or would have if all that was sent were applied. -/
def upcoming? (s : Stream K) (key : EntityKey) : Option (Entry K) :=
  s.queue.upcoming? s.inbox key

/-- The identity whose entry surfaces at a poll. -/
def surfacing? (s : Stream K) (instant : Nat) : Option EntityKey :=
  match s.queue.applyAll instant s.inbox with
  | .ok applied => applied.expired? instant
  | .error _ => none

/-- One look of the consumer. -/
def poll (s : Stream K) (instant : Nat) : Poll K :=
  s.queue.poll instant s.cancelled s.closed s.inbox

/-- Some of what was sent makes an entry pending that comes due beyond the horizon, counted from
where the wheel stands by then. -/
def Overreaches (s : Stream K) (instant : Nat) : Prop :=
  ∃ sent, sent <+: s.inbox ∧ ∃ key entry deadline,
    sent.foldl (meetAt key instant) (s.queue.pendingOf key).head? = some (entry, deadline) ∧
    sent.foldl (wheelAfter s.queue.timers.origin) s.queue.timers.reached + Timers.horizon < deadline

/-- A command is sent, to no effect if there is no consumer any more. -/
def send (s : Stream K) (command : Command K) : Stream K :=
  if s.running then { s with inbox := s.inbox ++ [command] } else s

/-- The consumer is gone, and everything that was pending or sent. -/
def stopped (s : Stream K) (instant : Nat) : Stream K :=
  { s with now := instant, queue := .startingAt instant, inbox := [], running := false }

/-- A step of producers, consumer or time. -/
inductive Step : Stream K → Occurrence K → Stream K → Prop
  | sent {s : Stream K} {command : Command K} (producing : s.closed = false) :
      Step s (.sent command) (s.send command)
  | closed {s : Stream K} : Step s .closed { s with closed := true }
  | cancelled {s : Stream K} : Step s .cancelled { s with cancelled := true }
  | delivered {s : Stream K} {instant : Nat} {key : EntityKey} {entry : Entry K} {queue : Queue K}
      (running : s.running = true) (later : s.now ≤ instant)
      (surfacing : s.surfacing? instant = some key)
      (polled : s.poll instant = .delivered entry queue) :
      Step s (.delivered instant key entry) { s with now := instant, queue, inbox := [] }
  | idle {s : Stream K} {instant : Nat} {queue : Queue K} (running : s.running = true)
      (later : s.now ≤ instant) (polled : s.poll instant = .idle queue) :
      Step s (.idle instant) { s with now := instant, queue, inbox := [] }
  | ended {s : Stream K} {instant : Nat} (running : s.running = true) (later : s.now ≤ instant)
      (polled : s.poll instant = .ended) : Step s (.ended instant) (s.stopped instant)
  | failed {s : Stream K} {instant : Nat} {fault : Fault} (running : s.running = true)
      (later : s.now ≤ instant) (polled : s.poll instant = .failed fault) :
      Step s (.failed instant fault) (s.stopped instant)

/-- A run of a stream, with all that happened. -/
inductive Run (start : Stream K) : List (Occurrence K) → Stream K → Prop
  | start : Run start [] start
  | step {past : List (Occurrence K)} {s s' : Stream K} {occurrence : Occurrence K}
      (run : Run start past s) (step : Step s occurrence s') :
      Run start (past ++ [occurrence]) s'

/-! ## One poll -/

/-- Every outcome of a poll, with all that it goes by. -/
inductive Polled (s : Stream K) (instant : Nat) : Poll K → Prop
  | cancelled : s.cancelled = true → Polled s instant .ended
  | failed : s.cancelled = false → s.Overreaches instant →
      Polled s instant (.failed .beyondHorizon)
  | delivered {key : EntityKey} {entry : Entry K} {deadline : Nat} {queue : Queue K} :
      s.cancelled = false → ¬s.Overreaches instant → s.surfacing? instant = some key →
      deadline ≤ instant → s.due? instant key = some (entry, deadline) → queue.Timely instant →
      queue.pendingOf key = [] →
      (∀ other, other ≠ key → queue.pendingOf other = (s.due? instant other).toList) →
      Polled s instant (.delivered entry queue)
  | drained : s.cancelled = false → ¬s.Overreaches instant → s.closed = true →
      (∀ key, s.due? instant key = none) → Polled s instant .ended
  | idle {queue : Queue K} : s.cancelled = false → ¬s.Overreaches instant →
      (s.closed = true → ∃ key, (s.due? instant key).isSome) → queue.Timely instant →
      (∀ key, queue.pendingOf key = (s.due? instant key).toList) →
      (∀ key entry deadline, (entry, deadline) ∈ queue.pendingOf key →
        ∃ wakeAt, queue.timers.alarm? = some wakeAt ∧ instant < wakeAt ∧ wakeAt ≤ deadline) →
      Polled s instant (.idle queue)

theorem isEmpty_iff (q : Queue K) : q.timers.isEmpty = true ↔ ∀ key, q.pendingOf key = [] := by
  rw [Timers.isEmpty, List.isEmpty_iff]
  constructor
  · intro hempty key
    simp [pendingOf, hempty]
  · intro hnone
    refine List.eq_nil_iff_forall_not_mem.mpr fun timer hm => ?_
    exact pendingOf_eq_nil.mp (hnone timer.value.1) timer hm rfl

theorem polled (s : Stream K) {instant : Nat} {outcome : Poll K} (h : s.queue.Timely s.now)
    (hle : s.now ≤ instant) (hpoll : s.poll instant = outcome) : s.Polled instant outcome := by
  subst hpoll
  unfold poll Queue.poll
  cases hcancelled : s.cancelled with
  | true => exact .cancelled hcancelled
  | false =>
    -- The look comes after all that was sent, so its outcome is that of the applied queue.
    rw [if_neg Bool.false_ne_true]
    have hfails := h.applyAll_fails_iff hle s.inbox
    cases happly : s.queue.applyAll instant s.inbox with
    | error fault =>
      obtain rfl := applyAll_error h.toSound hle happly
      exact .failed hcancelled (hfails.mp ⟨_, happly⟩)
    | ok applied =>
      have hreach : ¬s.Overreaches instant := fun hover => by
        obtain ⟨fault, hfault⟩ := hfails.mpr hover
        rw [happly] at hfault
        cases hfault
      have hdue : ∀ key, applied.pendingOf key = (s.due? instant key).toList :=
        (applyAll_pending h.toSound hle happly).2
      have htimely := h.applyAll hle happly
      have hsurfacing : s.surfacing? instant = applied.expired? instant := by
        rw [surfacing?, happly]
      simp only
      cases hexpired : applied.expired? instant with
      | some key =>
        obtain ⟨entry, deadline, hpast, hentry, hpending, htimely', hself, hothers⟩ :=
          htimely.expire_some hexpired
        rw [hdue key, Option.toList_eq_singleton_iff] at hpending
        rw [show applied.expire instant = (some entry, (applied.expire instant).2) from
          Prod.ext hentry rfl]
        exact .delivered hcancelled hreach (hsurfacing.trans hexpired) hpast hpending htimely' hself
          fun other hne => (hothers other hne).trans (hdue other)
      | none =>
        obtain ⟨hentry, htimely', hsame, hahead⟩ := htimely.expire_none hexpired
        rw [show applied.expire instant = (none, (applied.expire instant).2) from
          Prod.ext hentry rfl]
        have hpending : ∀ key, (applied.expire instant).2.pendingOf key =
            (s.due? instant key).toList := fun key => (hsame key).trans (hdue key)
        have hempty : (applied.expire instant).2.timers.isEmpty = true ↔
            ∀ key, s.due? instant key = none := by
          rw [isEmpty_iff]
          refine forall_congr' fun key => ?_
          rw [hpending key, Option.toList_eq_nil_iff]
        simp only
        split
        · next hend =>
          obtain ⟨hclosed, hnone⟩ := Bool.and_eq_true_iff.mp hend
          exact .drained hcancelled hreach hclosed (hempty.mp hnone)
        · next hopen =>
          refine .idle hcancelled hreach (fun hclosed => ?_) htimely' hpending ?_
          · rw [hclosed, Bool.true_and, hempty, not_forall] at hopen
            obtain ⟨key, hkey⟩ := hopen
            exact ⟨key, Option.isSome_iff_ne_none.mpr hkey⟩
          · intro key entry deadline hm
            exact hahead key entry deadline (hsame key ▸ hm)

/-! ## What a step makes of what is pending -/

/-- What is pending after a step, from what was pending and sent before it. -/
def Accounted (s s' : Stream K) : Occurrence K → Prop
  | .sent _ | .closed | .cancelled => s'.queue = s.queue
  | .delivered instant key entry =>
      (∃ deadline ≤ instant, s.due? instant key = some (entry, deadline)) ∧
      s'.queue.pendingOf key = [] ∧
      ∀ other, other ≠ key → s'.queue.pendingOf other = (s.due? instant other).toList
  | .idle instant =>
      (∀ key, s'.queue.pendingOf key = (s.due? instant key).toList) ∧
      ∀ key entry deadline, (entry, deadline) ∈ s'.queue.pendingOf key → instant < deadline
  | .ended instant =>
      s.cancelled = true ∨ s.closed = true ∧ ∀ key, s.due? instant key = none
  | .failed instant fault =>
      s.cancelled = false ∧ fault = .beyondHorizon ∧ s.Overreaches instant

/-- The ways by which an entry leaves a stream. -/
inductive Leaves (s : Stream K) (key : EntityKey) (entry : Entry K) (deadline : Nat) :
    Occurrence K → Prop
  | delivered {instant : Nat} : deadline ≤ instant →
      Leaves s key entry deadline (.delivered instant key entry)
  | merged {occurrence : Occurrence K} {instant : Nat} {new : Entry K} {delay : Nat} :
      occurrence.instant? = some instant → .schedule key new delay ∈ s.inbox →
      (s.due? instant key).isSome → Leaves s key entry deadline occurrence
  | cleared {occurrence : Occurrence K} {instant : Nat} : occurrence.instant? = some instant →
      .clear ∈ s.inbox → Leaves s key entry deadline occurrence
  | cancelled {instant : Nat} : s.cancelled = true → Leaves s key entry deadline (.ended instant)
  | failed {instant : Nat} : s.Overreaches instant →
      Leaves s key entry deadline (.failed instant .beyondHorizon)

section Step

variable {s s' : Stream K} {occurrence : Occurrence K}

theorem send_queue (s : Stream K) (command : Command K) : (s.send command).queue = s.queue := by
  unfold send
  split <;> rfl

theorem send_now (s : Stream K) (command : Command K) : (s.send command).now = s.now := by
  unfold send
  split <;> rfl

theorem Step.timely (step : Step s occurrence s') (h : s.queue.Timely s.now) :
    s'.queue.Timely s'.now := by
  cases step with
  | sent producing =>
    rw [send_queue, send_now]
    exact h
  | closed => exact h
  | cancelled => exact h
  | delivered running later surfacing hpoll =>
    cases s.polled h later hpoll with
    | delivered _ _ _ _ _ htimely => exact htimely
  | idle running later hpoll =>
    cases s.polled h later hpoll with
    | idle _ _ _ htimely => exact htimely
  | ended running later hpoll => exact .startingAt _
  | failed running later hpoll => exact .startingAt _

theorem Step.accounted (step : Step s occurrence s') (h : s.queue.Timely s.now) :
    s.Accounted s' occurrence := by
  cases step with
  | sent producing => exact send_queue s _
  | closed => rfl
  | cancelled => rfl
  | delivered running later surfacing hpoll =>
    cases s.polled h later hpoll with
    | delivered _ _ hsurfacing hdue hentry _ hself hothers =>
      obtain rfl := Option.some.inj (surfacing.symm.trans hsurfacing)
      exact ⟨⟨_, hdue, hentry⟩, hself, hothers⟩
  | idle running later hpoll =>
    cases s.polled h later hpoll with
    | idle _ _ _ _ hpending hahead =>
      refine ⟨hpending, fun key entry deadline hm => ?_⟩
      obtain ⟨wakeAt, -, hlt, hle⟩ := hahead key entry deadline hm
      exact Nat.lt_of_lt_of_le hlt hle
  | ended running later hpoll =>
    cases s.polled h later hpoll with
    | cancelled hcancelled => exact .inl hcancelled
    | drained _ _ hclosed hnone => exact .inr ⟨hclosed, hnone⟩
  | failed running later hpoll =>
    cases s.polled h later hpoll with
    | failed hcancelled hover => exact ⟨hcancelled, rfl, hover⟩

/-- What was pending is still so once all that was sent is applied, unless that changed it. -/
theorem due?_of_pending (occurrence : Occurrence K) {instant : Nat} {key : EntityKey}
    {entry : Entry K} {deadline : Nat} (h : s.queue.Sound s.now)
    (hpending : (entry, deadline) ∈ s.queue.pendingOf key)
    (hinstant : occurrence.instant? = some instant) :
    s.due? instant key = some (entry, deadline) ∨ s.Leaves key entry deadline occurrence := by
  rw [h.pendingOf_eq_toList key, Option.mem_toList] at hpending
  rcases foldl_meetAt_cases key instant s.inbox (s.queue.pendingOf key).head? with
    hsame | hclear | ⟨new, delay, hmem, hsome⟩
  · exact .inl (hsame.trans hpending)
  · exact .inr (.cleared hinstant hclear)
  · exact .inr (.merged hinstant hmem hsome)

theorem Step.leaves (step : Step s occurrence s') (h : s.queue.Timely s.now) {key : EntityKey}
    {entry : Entry K} {deadline : Nat} (hpending : (entry, deadline) ∈ s.queue.pendingOf key) :
    (entry, deadline) ∈ s'.queue.pendingOf key ∨ s.Leaves key entry deadline occurrence := by
  have haccounted := step.accounted h
  cases occurrence with
  | sent command => exact .inl (by rw [show s'.queue = s.queue from haccounted]; exact hpending)
  | closed => exact .inl (by rw [show s'.queue = s.queue from haccounted]; exact hpending)
  | cancelled => exact .inl (by rw [show s'.queue = s.queue from haccounted]; exact hpending)
  | delivered instant other delivered =>
    obtain ⟨⟨reached, hle, hentry⟩, -, hothers⟩ := haccounted
    rcases due?_of_pending (.delivered instant other delivered) h.toSound hpending rfl with
      hdue | hleaves
    · by_cases hkey : key = other
      · subst hkey
        obtain ⟨rfl, rfl⟩ := Prod.mk.inj (Option.some.inj (hdue.symm.trans hentry))
        exact .inr (.delivered hle)
      · rw [hothers key hkey, hdue]
        exact .inl (List.mem_singleton_self _)
    · exact .inr hleaves
  | idle instant =>
    obtain ⟨hsame, -⟩ := haccounted
    rcases due?_of_pending (.idle instant) h.toSound hpending rfl with hdue | hleaves
    · rw [hsame key, hdue]
      exact .inl (List.mem_singleton_self _)
    · exact .inr hleaves
  | ended instant =>
    rcases haccounted with hcancelled | ⟨-, hnone⟩
    · exact .inr (.cancelled hcancelled)
    · rcases due?_of_pending (.ended instant) h.toSound hpending rfl with hdue | hleaves
      · rw [hnone key] at hdue
        cases hdue
      · exact .inr hleaves
  | failed instant fault =>
    obtain ⟨-, rfl, hover⟩ := haccounted
    exact .inr (.failed hover)

/-! ## What is upcoming -/

/-- What an occurrence makes of the entry that is upcoming for an identity. -/
def mark (key : EntityKey) (upcoming : Option (Entry K)) : Occurrence K → Option (Entry K)
  | .sent command => meet key upcoming command
  | .delivered _ other _ => if other = key then none else upcoming
  | .ended _ | .failed _ _ => none
  | .closed | .cancelled | .idle _ => upcoming

/-- A delivery takes an upcoming entry off, and only a schedule puts one there. -/
theorem mark_count {key : EntityKey} {upcoming : Option (Entry K)} {occurrence : Occurrence K}
    (honly : ∀ instant entry, occurrence = .delivered instant key entry → upcoming = some entry) :
    (if occurrence.delivers key then 1 else 0) + (mark key upcoming occurrence).toList.length ≤
      upcoming.toList.length + if occurrence.schedules key then 1 else 0 := by
  cases occurrence with
  | sent command =>
    cases command with
    | clear => simp [mark, meet, Occurrence.delivers, Occurrence.schedules]
    | schedule other entry delay =>
      by_cases hkey : other = key
      · simp [mark, meet, Occurrence.delivers, Occurrence.schedules, hkey]
      · simp [mark, meet, Occurrence.delivers, Occurrence.schedules, hkey]
  | delivered instant other entry =>
    by_cases hkey : other = key
    · subst hkey
      simp [mark, Occurrence.delivers, Occurrence.schedules, honly instant entry rfl]
    · simp [mark, Occurrence.delivers, Occurrence.schedules, hkey]
  | ended | failed => simp [mark, Occurrence.delivers, Occurrence.schedules]
  | closed | cancelled | idle => simp [mark, Occurrence.delivers, Occurrence.schedules]

theorem delivers_of_instant?_eq_none {occurrence : Occurrence K} {key : EntityKey}
    (h : occurrence.instant? = none) : ¬occurrence.delivers key = true := by
  cases occurrence with
  | delivered => cases h
  | _ => exact Bool.false_ne_true

theorem due?_fst (s : Stream K) (instant : Nat) (key : EntityKey) :
    (s.due? instant key).map (·.1) = s.upcoming? key :=
  foldl_meetAt_fst key instant s.inbox _

theorem upcoming?_of_pendingOf {key : EntityKey} (pending : Option (Entry K × Nat))
    (hinbox : s.inbox = []) (hpending : s.queue.pendingOf key = pending.toList) :
    s.upcoming? key = pending.map (·.1) := by
  rw [upcoming?, hinbox, upcoming?_nil, hpending, Option.head?_toList]

/-- While the consumer polls, what is upcoming is what the occurrences make of it, and only that is
delivered. -/
theorem Step.upcoming (step : Step s occurrence s') (h : s.queue.Timely s.now)
    (hrunning : s.running = true) (key : EntityKey) :
    s'.upcoming? key = mark key (s.upcoming? key) occurrence ∧
      ∀ instant entry, occurrence = .delivered instant key entry →
        s.upcoming? key = some entry := by
  have haccounted := step.accounted h
  cases step with
  | sent producing =>
    refine ⟨?_, fun _ _ heq => by cases heq⟩
    rw [send, if_pos hrunning]
    exact upcoming?_append s.queue s.inbox [_] key
  | closed => exact ⟨rfl, fun _ _ heq => by cases heq⟩
  | cancelled => exact ⟨rfl, fun _ _ heq => by cases heq⟩
  | @delivered instant other entry queue running later surfacing polled =>
    obtain ⟨⟨deadline, -, hentry⟩, hself, hothers⟩ := haccounted
    constructor
    · rw [mark]
      split
      · next hkey =>
        subst hkey
        exact upcoming?_of_pendingOf none rfl hself
      · next hne =>
        rw [upcoming?_of_pendingOf _ rfl (hothers key (Ne.symm hne)), due?_fst]
    · rintro _ _ ⟨⟩
      rw [← due?_fst s instant key, hentry, Option.map_some]
  | idle running later polled =>
    refine ⟨?_, fun _ _ heq => by cases heq⟩
    rw [upcoming?_of_pendingOf _ rfl (haccounted.1 key), due?_fst, mark]
  | ended running later polled => exact ⟨rfl, fun _ _ heq => by cases heq⟩
  | failed running later polled => exact ⟨rfl, fun _ _ heq => by cases heq⟩

theorem Step.stays_stopped (step : Step s occurrence s') (hrunning : s.running = false) :
    s'.running = false ∧ s'.queue = s.queue ∧ s'.inbox = s.inbox ∧
      occurrence.instant? = none := by
  cases step with
  | sent producing =>
    rw [send, hrunning, if_neg Bool.false_ne_true]
    exact ⟨hrunning, rfl, rfl, rfl⟩
  | closed => exact ⟨hrunning, rfl, rfl, rfl⟩
  | cancelled => exact ⟨hrunning, rfl, rfl, rfl⟩
  | delivered running => rw [hrunning] at running; cases running
  | idle running => rw [hrunning] at running; cases running
  | ended running => rw [hrunning] at running; cases running
  | failed running => rw [hrunning] at running; cases running

end Step

/-! ## Runs -/

namespace Run

variable {start s : Stream K} {past : List (Occurrence K)}

theorem timely (run : Run start past s) (h : start.queue.Timely start.now) :
    s.queue.Timely s.now := by
  induction run with
  | start => exact h
  | step _ step ih => exact step.timely ih

/-- What is upcoming is told by what happened, and without a consumer there is nothing. -/
theorem upcoming (run : Run start past s) (h : start.queue.Timely start.now)
    (hrunning : start.running = true) (key : EntityKey) :
    s.upcoming? key =
      if s.running then past.foldl (mark key) (start.upcoming? key) else none := by
  induction run with
  | start => rw [if_pos hrunning, List.foldl_nil]
  | @step past s s' occurrence run step ih =>
    -- A step can only end the consumer, and `mark` says that this drops everything.
    cases hs : s.running with
    | false =>
      obtain ⟨hstopped, hqueue, hinbox, -⟩ := step.stays_stopped hs
      rw [if_neg (by rw [hstopped]; exact Bool.false_ne_true), upcoming?, hqueue, hinbox]
      rw [hs, if_neg Bool.false_ne_true] at ih
      exact ih
    | true =>
      rw [hs, if_pos rfl] at ih
      rw [(step.upcoming (run.timely h) hs key).1, List.foldl_append, List.foldl_cons,
        List.foldl_nil, ← ih]
      cases step with
      | sent producing =>
        rw [send, if_pos hs, if_pos hs]
      | closed => rw [if_pos hs]
      | cancelled => rw [if_pos hs]
      | delivered running => rw [if_pos running]
      | idle running => rw [if_pos running]
      | ended => rfl
      | failed => rfl

/-- Nothing is delivered more often than it was scheduled. -/
theorem deliveries_le {begin : Nat} (run : Run (consumedAt begin) past s) (key : EntityKey) :
    past.countP (·.delivers key) + (s.upcoming? key).toList.length ≤
      past.countP (·.schedules key) := by
  have hstart : (consumedAt begin : Stream K).queue.Timely begin := .startingAt begin
  -- What is upcoming counts for the delivery that is still to come of it.
  induction run with
  | start => exact Nat.le_refl 0
  | @step past s s' occurrence run step ih =>
    have hcount : (if occurrence.delivers key then 1 else 0) + (s'.upcoming? key).toList.length ≤
        (s.upcoming? key).toList.length + if occurrence.schedules key then 1 else 0 := by
      cases hs : s.running with
      | false =>
        obtain ⟨-, hqueue, hinbox, hnone⟩ := step.stays_stopped hs
        rw [upcoming?, hqueue, hinbox, if_neg (delivers_of_instant?_eq_none hnone), Nat.zero_add]
        exact Nat.le_add_right _ _
      | true =>
        obtain ⟨hmark, honly⟩ := step.upcoming (run.timely hstart) hs key
        rw [hmark]
        exact mark_count honly
    rw [List.countP_append, List.countP_append, List.countP_singleton, List.countP_singleton]
    omega

end Run

theorem timers_keys {q : Queue K} {now : Nat} (h : q.Sound now) :
    (q.timers.all.map (·.value.1)).Nodup :=
  h.nodup.map_on fun _ ha _ hb hkey => h.eq_of_key ha hb hkey

theorem poll_fails_iff (s : Stream K) {instant : Nat} (h : s.queue.Timely s.now)
    (hle : s.now ≤ instant) :
    s.poll instant ≠ .failed .lostTimer ∧
      (s.poll instant = .failed .beyondHorizon ↔
        s.cancelled = false ∧ s.Overreaches instant) := by
  constructor
  · intro hpoll
    cases s.polled h hle hpoll
  · constructor
    · intro hpoll
      cases s.polled h hle hpoll with
      | failed hcancelled hover => exact ⟨hcancelled, hover⟩
    · rintro ⟨hcancelled, hover⟩
      cases hpoll : s.poll instant with
      | failed fault =>
        cases s.polled h hle hpoll with
        | failed => rfl
      | delivered entry queue =>
        cases s.polled h hle hpoll with
        | delivered _ hreach => exact absurd hover hreach
      | idle queue =>
        cases s.polled h hle hpoll with
        | idle _ hreach => exact absurd hover hreach
      | ended =>
        cases s.polled h hle hpoll with
        | cancelled hyes => rw [hcancelled] at hyes; cases hyes
        | drained _ hreach => exact absurd hover hreach

/-- Nothing is lost, duplicated or early, as long as no poll fails. In every run, index and timers
hold the same identities, once each, so that a timer that the index names is never missing; nothing
is delivered more often than it was scheduled; and every step makes of what is pending what was sent
asks for. A delivery takes off the one entry that it returns, which was due, and a poll that blocks
leaves nothing that is due. What leaves the stream was delivered, merged, cleared or cancelled, or
was pending when a poll failed, which it does exactly for a schedule beyond the horizon. -/
theorem Run.nothing_lost {start : Nat} {past : List (Occurrence K)} {s : Stream K}
    (run : Run (consumedAt start) past s) :
    ((∀ key id, (key, id) ∈ s.queue.index ↔
        ∃ timer ∈ s.queue.timers.all, timer.value.1 = key ∧ timer.id = id) ∧
      (s.queue.index.map (·.1)).Nodup ∧ (s.queue.timers.all.map (·.value.1)).Nodup) ∧
    (∀ instant, s.now ≤ instant → s.poll instant ≠ .failed .lostTimer ∧
      (s.poll instant = .failed .beyondHorizon ↔
        s.cancelled = false ∧ s.Overreaches instant)) ∧
    (∀ key, past.countP (·.delivers key) + (s.upcoming? key).toList.length ≤
      past.countP (·.schedules key)) ∧
    ∀ occurrence s', Step s occurrence s' → s.Accounted s' occurrence ∧
      ∀ key entry deadline, (entry, deadline) ∈ s.queue.pendingOf key →
        (entry, deadline) ∈ s'.queue.pendingOf key ∨ s.Leaves key entry deadline occurrence := by
  have htimely : s.queue.Timely s.now := run.timely (.startingAt start)
  refine ⟨⟨htimely.mem_index, htimely.keys, timers_keys htimely.toSound⟩, ?_, ?_, ?_⟩
  · intro instant hle
    exact s.poll_fails_iff htimely hle
  · intro key
    exact run.deliveries_le key
  · intro occurrence s' step
    refine ⟨step.accounted htimely, fun key entry deadline hpending => ?_⟩
    exact step.leaves htimely hpending

/-- A run in which a reconcile of `a` waits that a status modification has merged with. -/
theorem run_refreshed :
    ∃ (past : List (Occurrence Nat)) (s s' : Stream Nat), Run (consumedAt 0) past s ∧
      s.queue.pendingOf ⟨none, "a"⟩ = [(⟨2, .reconcile⟩, 4)] ∧
      Step s (.delivered 4 ⟨none, "a"⟩ ⟨2, .reconcile⟩) s' := by
  have sent : Run (consumedAt 0) [.sent (.schedule ⟨none, "a"⟩ ⟨1, .reconcile⟩ 4)] _ :=
    .step .start (.sent rfl)
  have refreshed : Run (consumedAt 0) (_ ++ [.sent (.schedule ⟨none, "a"⟩ ⟨2, .statusModified⟩ 9)])
      _ := sent.step (.sent rfl)
  have waiting : Run (consumedAt 0) (_ ++ [.idle 0]) _ :=
    refreshed.step (.idle rfl (Nat.le_refl 0) rfl)
  exact ⟨_, _, _, waiting, rfl, .delivered rfl (Nat.zero_le 4) rfl rfl⟩

/-- The merged entry is delivered at the deadline that it kept, and leaves nothing pending. -/
theorem nothing_lost_refreshed :
    ∃ (past : List (Occurrence Nat)) (s s' : Stream Nat), Run (consumedAt 0) past s ∧
      Step s (.delivered 4 ⟨none, "a"⟩ ⟨2, .reconcile⟩) s' ∧
      s.queue.pendingOf ⟨none, "a"⟩ = [(⟨2, .reconcile⟩, 4)] ∧
      s'.queue.pendingOf ⟨none, "a"⟩ = [] := by
  obtain ⟨past, s, s', run, hpending, step⟩ := run_refreshed
  obtain ⟨-, -, -, hsteps⟩ := run.nothing_lost
  obtain ⟨⟨-, hnone, -⟩, -⟩ := hsteps _ _ step
  exact ⟨past, s, s', run, step, hpending, hnone⟩

/-- A schedule that comes due a millisecond too far ahead makes the next poll fail. The entry that
waited for its deadline is gone then, although it was neither delivered nor merged, cleared or
cancelled. -/
theorem pending_lost_with_far_schedule :
    ∃ (past : List (Occurrence Nat)) (s s' : Stream Nat) (occurrence : Occurrence Nat),
      Run (consumedAt 0) past s ∧ Step s occurrence s' ∧
      s.queue.pendingOf ⟨none, "a"⟩ = [(⟨1, .reconcile⟩, 1000)] ∧
      s'.queue.pendingOf ⟨none, "a"⟩ = [] ∧
      (∀ instant entry, occurrence ≠ .delivered instant ⟨none, "a"⟩ entry) ∧
      (∀ new delay, .schedule ⟨none, "a"⟩ new delay ∉ s.inbox) ∧ .clear ∉ s.inbox ∧
      s.cancelled = false := by
  have sent : Run (consumedAt 0) [.sent (.schedule ⟨none, "a"⟩ ⟨1, .reconcile⟩ 1000)] _ :=
    .step .start (.sent rfl)
  have waiting : Run (consumedAt 0) (_ ++ [.idle 0]) _ :=
    sent.step (.idle rfl (Nat.le_refl 0) rfl)
  have far : Run (consumedAt 0)
      (_ ++ [.sent (.schedule ⟨none, "b"⟩ ⟨2, .reconcile⟩ (Timers.horizon + 1))]) _ :=
    waiting.step (.sent rfl)
  refine ⟨_, _, _, .failed 0 .beyondHorizon, far, .failed rfl (Nat.le_refl 0) rfl, rfl, rfl, ?_, ?_,
    ?_, rfl⟩
  · intro instant entry heq
    cases heq
  · intro new delay hm
    obtain ⟨hkey, -⟩ := Command.schedule.inj (List.mem_singleton.mp hm)
    exact absurd hkey (by decide)
  · intro hm
    cases List.mem_singleton.mp hm

end Stream

end Reconciler.Queue
