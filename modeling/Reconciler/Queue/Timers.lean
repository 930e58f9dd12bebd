/-!
# Timers

Values that wait for their deadlines, in milliseconds of the clock. Every timer has a number by
which it can be taken back.

The timers stand on a wheel of six levels with 64 slots each, where a slot of a level covers as much
time as all slots of the level below. The wheel does not turn by itself: it is turned when someone
looks, and on the way to a deadline it stops at the beginning of each slot that holds the timer. So
it may lag behind the clock, and how far ahead a timer can be set, `Timers.horizon`, counts from
where the wheel stands. Whoever waits has to look again at `wakeAt`, be a timer due then or not.

A timer whose deadline the wheel has reached already when it is set is kept aside, and goes first.
-/

namespace Reconciler.Queue

/-- A value that waits. -/
structure Timer (α : Type) where
  id : Nat
  deadline : Nat
  value : α
  deriving Repr

/-- All values that wait. -/
structure Timers (α : Type) where
  /-- The number of the next timer. -/
  nextId : Nat := 0
  /-- The instant from which the slots of the wheel are counted. -/
  origin : Nat := 0
  /-- The instant that the wheel has reached. -/
  reached : Nat := origin
  /-- The instant of the next look. -/
  wakeAt : Option Nat := none
  /-- The timers that were reached when they were set, the last one first. -/
  overdue : List (Timer α) := []
  /-- The timers on the wheel, in the order in which they were set. -/
  active : List (Timer α) := []
  deriving Repr

namespace Timers

variable {α : Type}

/-- How far ahead of the wheel a timer can be set. -/
def horizon : Nat := 68_719_476_735

/-- No timers, and a wheel that starts at an instant. -/
def startingAt (origin : Nat) : Timers α := { origin }

/-- No timers, ever. -/
def empty : Timers α := startingAt 0

/-- All timers. -/
def all (t : Timers α) : List (Timer α) := t.overdue ++ t.active

/-- Nothing waits. -/
def isEmpty (t : Timers α) : Bool := t.all.isEmpty

/-- Of two timers the one that is due first; the first if both are. -/
def earlier (a b : Timer α) : Timer α := if b.deadline < a.deadline then b else a

/-- The timer on the wheel that is due first. -/
def earliest? (t : Timers α) : Option (Timer α) :=
  match t.active with
  | [] => none
  | timer :: rest => some (rest.foldl earlier timer)

/-! ## The wheel -/

/-- The time that a slot of a level covers. -/
def slotWidth (level : Nat) : Nat := Nat.pow 64 level

/-- The last level. -/
def topLevel : Nat := 5

/-- The level on which a deadline stands: the first one that comes round no more before it, or the
last one. -/
def level (t : Timers α) (deadline : Nat) : Nat :=
  let turn (instant level : Nat) : Nat := (instant - t.origin) / slotWidth (level + 1)
  ((List.range topLevel).find? fun level => turn t.reached level == turn deadline level).getD
    topLevel

/-- The instant at which the slot of a deadline begins. -/
def stop (t : Timers α) (deadline : Nat) : Nat :=
  let width := slotWidth (t.level deadline)
  t.origin + (deadline - t.origin) / width * width

/-- The next instant at which the wheel has to stop. -/
def nextStop? (t : Timers α) : Option Nat := t.earliest?.map fun timer => t.stop timer.deadline

/-- Take a timer off the wheel. -/
def drop (t : Timers α) (id : Nat) : Timers α :=
  { t with active := t.active.filter (·.id != id) }

/-- Turn the wheel until an instant or the first deadline, which the wheel itself stops short of.
The stops before a deadline go down the levels, so there is one for each level at most. -/
def turnUntil (limit : Nat) : Nat → Timers α → Option (Timer α) × Timers α
  | 0, t => (none, t)
  | stops + 1, t =>
    match t.earliest? with
    | none => (none, { t with reached := limit })
    | some timer =>
      let stop := t.stop timer.deadline
      if limit < stop then (none, { t with reached := limit })
      else if t.level timer.deadline = 0 then (some timer, t.drop timer.id)
      else turnUntil limit stops { t with reached := stop }

/-- Look at the wheel as long as it is time to. Every look that finds nothing takes the first timer
down a level, but for the first look of all. -/
def look (now : Nat) : Nat → Timers α → Option (Timer α) × Timers α
  | 0, t => (none, t)
  | looks + 1, t =>
    match t.wakeAt.filter (· ≤ now) with
    | none => (none, t)
    | some limit =>
      let (timer, t) := t.turnUntil limit (topLevel + 1)
      let t := { t with wakeAt := t.nextStop? }
      match timer with
      | some timer => (some timer, t)
      | none => look now looks t

/-! ## Operations -/

/-- The next look, where one may be due at a deadline. -/
def wakeBy (t : Timers α) (deadline : Nat) : Option Nat :=
  match t.wakeAt with
  | some wakeAt => some (if deadline < max wakeAt t.reached then deadline else wakeAt)
  | none => some deadline

/-- Set a timer; its number comes with the timers. None beyond the horizon. -/
def insertAt? (t : Timers α) (deadline : Nat) (value : α) : Option (Nat × Timers α) :=
  let deadline := max deadline t.reached
  let timer : Timer α := ⟨t.nextId, deadline, value⟩
  let t := { t with nextId := t.nextId + 1, wakeAt := t.wakeBy deadline }
  if deadline ≤ t.reached then some (timer.id, { t with overdue := timer :: t.overdue })
  else if deadline - t.reached > horizon then none
  else some (timer.id, { t with active := t.active ++ [timer] })

/-- Take a timer back. The next look changes with the next stop. -/
def take? (t : Timers α) (id : Nat) : Option (Timer α × Timers α) :=
  (t.all.find? (·.id == id)).map fun timer =>
    let rest := { t.drop id with overdue := t.overdue.filter (·.id != id) }
    let next := rest.nextStop?
    (timer, { rest with wakeAt := if next = t.nextStop? then t.wakeAt else next })

/-- Take the timer that is due first, if one is due. -/
def expire (t : Timers α) (now : Nat) : Option (Timer α) × Timers α :=
  match t.overdue with
  | timer :: rest => (some timer, { t with overdue := rest })
  | [] => if t.active.isEmpty then (none, t) else t.look now (topLevel + 3)

/-- A look would change something. -/
def isDue (t : Timers α) (now : Nat) : Bool :=
  !t.overdue.isEmpty || (!t.active.isEmpty && t.wakeAt.any fun wakeAt => wakeAt ≤ now)

/-- The instant of the next look. -/
def alarm? (t : Timers α) : Option Nat := if t.active.isEmpty then none else t.wakeAt

/-- Drop all timers, and turn the wheel back. -/
def clear (t : Timers α) : Timers α := { nextId := t.nextId, origin := t.origin }

end Timers

end Reconciler.Queue
