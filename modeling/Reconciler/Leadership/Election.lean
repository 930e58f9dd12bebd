import Reconciler.Leadership.Channel
import Reconciler.Settings

/-!
# The election

An election attempts to get the lease, again and again: after the retry interval while this replica
is a candidate, after the renew interval while it leads. An attempt that succeeds makes it the
leader; any other outcome makes it a candidate, so a leader whose renewal fails steps down. Stopping
ends the loop, gives the lease back if this replica leads at that moment, and only then publishes
that it takes no part any more.

The election is a state and a reaction to every input. It never waits for an attempt itself: the
outcome is an input like the others. Where an attempt breaks off without one, the loop is lost, and
what was published last stays until the election is stopped.
-/

namespace Reconciler.Leadership

namespace Election

/-- What a running election waits for. -/
inductive Stage where
  /-- Its first turn. -/
  | starting
  /-- The outcome of an attempt, begun while leading or not. -/
  | attempting (leading : Bool)
  /-- The instant of the next attempt. -/
  | waiting (resumeAt : Nat)
  /-- The end of a release; the loop itself has ended. -/
  | releasing
  /-- Nothing: an attempt or a release broke off, and the loop with it. -/
  | lost
  deriving DecidableEq, Repr

/-- What happens to an election. -/
inductive Input where
  | start
  | stop
  /-- The clock has moved, or the loop has its first turn. -/
  | wake
  /-- The attempt ended: with the lease, without it, or with an error. -/
  | attempted (outcome : Except Error Bool)
  /-- The release ended. -/
  | released (outcome : Except Error Unit)
  /-- The attempt or the release broke off without an outcome. -/
  | failed

/-- What an election does. -/
inductive Effect where
  | publish (state : Leadership)
  /-- Try to get or renew the lease. -/
  | attempt
  /-- Give the lease back. -/
  | release
  deriving DecidableEq, Repr

end Election

open Election

/-- The election of one replica. -/
structure Election where
  /-- Milliseconds from one renewal to the next. -/
  renewEvery : Nat
  /-- Milliseconds from one try to the next. -/
  retryEvery : Nat
  stage : Option Stage := none
  deriving Repr

namespace Election

/-- The election of an operator. -/
def ofSettings (s : Settings) : Election where
  renewEvery := s.renewInterval.millisUp
  retryEvery := s.retryInterval.millisUp

/-- The attempt brought the lease. -/
def acquired : Except Error Bool → Bool
  | .ok held => held
  | .error _ => false

/-- What an attempt begun while leading or not changes. -/
def transition (leading : Bool) (outcome : Except Error Bool) : Option Leadership :=
  match leading, acquired outcome with
  | false, true => some .leader
  | true, false => some .candidate
  | _, _ => none

/-- The wait after an attempt, by the state it led to. -/
def pause (e : Election) (s : Leadership) : Nat := if s.isLeader then e.renewEvery else e.retryEvery

/-- Begin an attempt. -/
def attempt (e : Election) (leading : Bool) : Election × List Effect :=
  ({ e with stage := some (.attempting leading) }, [.attempt])

/-- The reaction to an input at an instant, where `s` is what was published last. -/
def react (e : Election) (now : Nat) (s : Leadership) : Input → Election × List Effect
  | .start =>
    if e.stage.isNone ∨ e.stage = some .lost then ({ e with stage := some .starting }, [])
    else (e, [])
  | .wake =>
    match e.stage with
    | some .starting =>
      let (e, effects) := e.attempt false
      (e, .publish .candidate :: effects)
    | some (.waiting resumeAt) => if resumeAt ≤ now then e.attempt s.isLeader else (e, [])
    | _ => (e, [])
  | .attempted outcome =>
    match e.stage with
    | some (.attempting leading) =>
      let change := transition leading outcome
      ({ e with stage := some (.waiting (now + e.pause (change.getD s))) },
        (change.map .publish).toList)
    | _ => (e, [])
  | .stop =>
    match e.stage with
    | none => (e, [])
    | some .releasing => (e, [])
    | some _ =>
      if s.isLeader then ({ e with stage := some .releasing }, [.release])
      else ({ e with stage := none }, [.publish .inactive])
  | .released _ =>
    match e.stage with
    | some .releasing => ({ e with stage := none }, [.publish .inactive])
    | _ => (e, [])
  | .failed => ({ e with stage := e.stage.map fun _ => .lost }, [])

/-- The instant at which the loop has to be woken, however long ago it is. -/
def alarm? (e : Election) : Option Nat :=
  match e.stage with
  | some (.waiting resumeAt) => some resumeAt
  | _ => none

end Election

end Reconciler.Leadership
