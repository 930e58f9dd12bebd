import Reconciler.Leadership.Channel
import Reconciler.Watch.Watcher

/-!
# Watching only while leading

A follower starts its watcher when this replica leads. After every publication that says otherwise
it stops the watcher and has everything pending dropped from the queue, requeues included. It ends,
with its watcher stopped, when it is stopped or when the channel is closed.
-/

namespace Reconciler.Leadership

/-- A follower that runs, with the number of publications it has seen; none before its first
turn. -/
structure Follower where
  seen : Option Nat := none
  deriving DecidableEq, Repr

namespace Follower

/-- What a follower does. -/
inductive Order where
  | startWatcher
  | stopWatcher
  /-- Drop everything pending. -/
  | clearQueue
  deriving DecidableEq, Repr

/-- What the follower has its watcher do once it sees the channel. -/
def orders (s : Leadership) : List Order :=
  if s.isLeader then [.startWatcher] else [.stopWatcher, .clearQueue]

/-- The follower has a look at the channel: what it does, and whether it goes on. Nothing if it
waits for a publication. -/
def look (f : Follower) (c : Channel) : Option (Option Follower × List Order) :=
  if f.seen = some c.publications then
    if c.closed then some (none, [.stopWatcher]) else none
  else some (some ⟨some c.publications⟩, orders c.current)

end Follower

end Reconciler.Leadership
