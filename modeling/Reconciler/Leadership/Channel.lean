/-!
# Leadership

What a replica knows about its part in the election, and the channel on which the election tells
it. A channel holds the last publication only, and counts them: a follower that was busy sees that
something was published since, and what is true now.
-/

namespace Reconciler

/-- A replica's part in the election. -/
inductive Leadership where
  /-- It does not take part. -/
  | inactive
  /-- It competes for the lease. -/
  | candidate
  /-- It holds the lease. -/
  | leader
  deriving DecidableEq, Repr, Inhabited

namespace Leadership

/-- The replica holds the lease. -/
def isLeader (s : Leadership) : Bool := s == .leader

/-- A channel for publications of leadership. -/
structure Channel where
  current : Leadership := .inactive
  /-- The number of publications so far. -/
  publications : Nat := 0
  /-- No more will come. -/
  closed : Bool := false
  deriving DecidableEq, Repr

/-- Publish, be it the same as before. -/
def Channel.publish (c : Channel) (s : Leadership) : Channel :=
  { c with current := s, publications := c.publications + 1 }

end Leadership

end Reconciler
