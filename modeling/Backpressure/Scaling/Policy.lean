import Backpressure.Settings.Scaling

/-!
# When to change the number of workers

A policy looks at the load of a pool again and again and recommends to grow, to
shrink or to hold.

*Fixed.*  Always hold.

*Backlog.*  The load is pressed when the backlog reaches the high watermark, and
idle when it does not and is at or below the low one.  The policy remembers since
when the load has been pressed or idle without interruption.  When pressure has
lasted long enough, it recommends to grow by the step, as far as there is room,
and the time starts anew; idleness is treated alike.  A recommendation of nothing
is none, and does not start the time anew.
-/

namespace Backpressure.Scaling

/-- The load of a pool at a moment. -/
structure Observation where
  /-- The workers at hand. -/
  active : Nat
  /-- The fewest workers. -/
  least : Nat
  /-- The most workers. -/
  most : Nat
  /-- The items in the queue. -/
  queued : Nat
  /-- The capacity of the queue. -/
  capacity : Nat
  moment : Instant
  deriving DecidableEq, Repr, Inhabited

/-- The backlog as a part of the capacity. -/
def Observation.ratio (o : Observation) : Float :=
  Float.ofNat o.queued / Float.ofNat (max o.capacity 1)

/-- The workers that can be added. -/
def Observation.headroom (o : Observation) : Nat := o.most - o.active

/-- The workers that can be removed. -/
def Observation.surplus (o : Observation) : Nat := o.active - o.least

/-- A recommendation. -/
inductive Decision where
  /-- Leave the workers as they are. -/
  | hold
  /-- Add workers. -/
  | grow (n : Nat)
  /-- Remove workers. -/
  | shrink (n : Nat)
  deriving DecidableEq, Repr, Inhabited

/-- How a load compares with the watermarks. -/
inductive Load where
  /-- The backlog is at or above the high watermark. -/
  | pressed
  /-- The backlog is below the high watermark and at or below the low one. -/
  | idle
  /-- The backlog is between the watermarks. -/
  | between
  deriving DecidableEq, Repr, Inhabited

/-- Compares the backlog with the watermarks. -/
def Load.of (s : ScalingSettings) (o : Observation) : Load :=
  if o.ratio ≥ s.highWatermark then .pressed
  else if o.ratio ≤ s.lowWatermark then .idle
  else .between

/-- Since when the load has been pressed or idle. -/
structure Backlog where
  /-- The start of the pressure that counts. -/
  pressedSince : Option Instant := none
  /-- The start of the idleness that counts. -/
  idleSince : Option Instant := none
  deriving DecidableEq, Repr, Inhabited

/-- The number of workers due after a load that has lasted since a moment. -/
def due (since now : Instant) (long : Duration) (step room : Nat) : Nat :=
  if long ≤ now - since then min step room else 0

/-- One evaluation of the backlog policy, with the load given. -/
def Backlog.decide (s : ScalingSettings) (b : Backlog) (load : Load) (o : Observation) :
    Decision × Backlog :=
  match load with
  | .pressed =>
    let since := b.pressedSince.getD o.moment
    match due since o.moment s.growAfter s.step o.headroom with
    | 0 => (.hold, { pressedSince := some since })
    | n + 1 => (.grow (n + 1), { pressedSince := some o.moment })
  | .idle =>
    let since := b.idleSince.getD o.moment
    match due since o.moment s.shrinkAfter s.step o.surplus with
    | 0 => (.hold, { idleSince := some since })
    | n + 1 => (.shrink (n + 1), { idleSince := some o.moment })
  | .between => (.hold, {})

/-- A scaling policy with its memory. -/
inductive Policy where
  /-- Never changes anything. -/
  | fixed
  /-- Follows the backlog. -/
  | backlog (settings : ScalingSettings) (memory : Backlog)
  deriving Inhabited, Repr

namespace Policy

/-- The name of a policy. -/
def name : Policy → String
  | fixed => "fixed"
  | backlog _ _ => "backlog"

/-- One evaluation. -/
def evaluate (p : Policy) (o : Observation) : Decision × Policy :=
  match p with
  | fixed => (.hold, fixed)
  | backlog s b =>
    let (d, b) := b.decide s (.of s o) o
    (d, backlog s b)

end Policy

end Backpressure.Scaling
