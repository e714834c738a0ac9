import Backpressure.Time.Duration

/-!
# Permits that are waited for in order

A stock of permits that tasks take one at a time.  Who finds none may wait, and
those who wait are served in the order in which they came, before anyone who has
not waited: as long as somebody waits, no permit is free.

A permit that is given back goes to the first who waits.  That task does not have
it in hand yet; it collects the permit when it runs next.  Until then the permit
is *granted*, and if the task leaves instead, the permit goes on to the next.

Closing sends everybody away.  A task that was granted a permit before the close
but did not collect it gets nothing either.
-/

namespace Backpressure

/-- The name of a waiting task. -/
abbrev Ticket := Nat

/-- A stock of permits. -/
structure Permits where
  /-- The permits that nobody has. -/
  free : Nat
  /-- The tasks that wait, in order. -/
  waiting : List Ticket := []
  /-- The tasks that were granted a permit and have not collected it. -/
  granted : List Ticket := []
  /-- Whether the stock is closed. -/
  closed : Bool := false
  deriving DecidableEq, Repr, Inhabited

/-- What a task that waits finds when it runs. -/
inductive Permits.Turn where
  /-- There is no permit for it yet. -/
  | pending
  /-- It has its permit; this is the stock now. -/
  | served (stock : Permits)
  /-- It is sent away; this is the stock now. -/
  | refused (stock : Permits)
  deriving DecidableEq, Repr

namespace Permits

/-- Takes a free permit. -/
def tryTake (p : Permits) : Option Permits :=
  if p.closed || p.free == 0 then none else some { p with free := p.free - 1 }

/-- Makes a task the last of those who wait. -/
def enroll (p : Permits) (t : Ticket) : Permits := { p with waiting := p.waiting ++ [t] }

/-- Gives permits back: the first who wait are granted one each, the rest is free. -/
def release (p : Permits) (n : Nat) : Permits :=
  { p with
    free := p.free + (n - p.waiting.length)
    waiting := p.waiting.drop n
    granted := p.granted ++ p.waiting.take n }

/-- A task stops waiting; a permit that it was granted goes back. -/
def leave (p : Permits) (t : Ticket) : Permits :=
  if p.granted.contains t then { p with granted := p.granted.erase t }.release 1
  else { p with waiting := p.waiting.erase t }

/-- A task that waits runs. -/
def resume (p : Permits) (t : Ticket) : Turn :=
  if p.closed then .refused (p.leave t)
  else if p.granted.contains t then .served { p with granted := p.granted.erase t }
  else .pending

/-- Closes the stock and sends everybody away. -/
def close (p : Permits) : Permits := { p with closed := true, waiting := [] }

end Permits

end Backpressure
