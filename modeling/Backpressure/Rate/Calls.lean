import Backpressure.Rate.Controller
import Backpressure.Time.Timer

/-!
# The calls behind a controller

An attempt that is admitted makes the call with a deadline.  The attempt looks when
something wakes it.  A call that is over then is in time, even if its deadline is there or
has passed; one that is not over at its deadline is cancelled.

A call takes some time, or never ends, and has a result of some type.  When it ends and with
what is up to the call; the controller only waits.
-/

namespace Backpressure.Rate

/-- How a call goes. -/
structure CallPlan (ρ : Type) where
  /-- The time that it takes, if it ever ends. -/
  lasts : Option Duration := some 0
  /-- What it ends with. -/
  result : Except CallError ρ

/-- A call under way. -/
structure Invocation (ρ : Type) where
  /-- The name of the attempt that made it. -/
  attempt : CallId
  /-- The time that it has. -/
  limit : Duration
  /-- The moment at which it is cancelled. -/
  deadline : Instant
  /-- The moment at which it ends, if it does. -/
  ends : Option Instant
  /-- What it ends with. -/
  result : Except CallError ρ

/-- Whether the call is over at a moment. -/
def Invocation.isOver {ρ : Type} (i : Invocation ρ) (now : Instant) : Bool := i.ends.any (· ≤ now)

/-- The call that an attempt makes at a moment. -/
def CallPlan.start {ρ : Type} (p : CallPlan ρ) (now : Instant) (attempt : CallId)
    (limit : Duration) : Invocation ρ where
  attempt := attempt
  limit := limit
  deadline := now.afterWait limit
  ends := p.lasts.map (now + ·)
  result := p.result

/-- What can be seen of the attempts. -/
inductive CallEvent (ρ : Type) where
  /-- An attempt makes the call, which has a limited time. -/
  | invoked (attempt : CallId) (limit : Duration)
  /-- An attempt ends. -/
  | answered (attempt : CallId) (result : Except CallError ρ)

/-- A controller with the calls behind it. -/
structure Calls (ρ : Type) where
  controller : Controller
  /-- The calls under way, oldest first. -/
  running : List (Invocation ρ) := []
  /-- The name of the next attempt. -/
  nextAttempt : CallId := 0

/-- A controller with its calls after something, with what could be seen. -/
structure CallsOutcome (ρ : Type) where
  /-- What could be seen. -/
  events : List (CallEvent ρ) := []
  /-- The controller with its calls. -/
  calls : Calls ρ

namespace Calls

/-- What happens to a controller and its calls. -/
inductive Action (ρ : Type) where
  /-- Somebody attempts a call, which would go in some way. -/
  | attempt (limit : Duration) (plan : CallPlan ρ)
  /-- An attempt that waits looks. -/
  | resume (attempt : CallId)
  /-- Calls are admitted again. -/
  | enable
  /-- Every call is refused. -/
  | disable

variable {ρ : Type}

/-- A controller with settings, and no calls. -/
def ofSettings (s : RateSettings) : Calls ρ := { controller := .ofSettings s }

/-- An attempt up to its call. -/
def begin (clock : WallClock) (now : Instant) (limit : Duration) (plan : CallPlan ρ) (c : Calls ρ) :
    CallsOutcome ρ :=
  let attempt := c.nextAttempt
  match c.controller.allow clock now with
  | (.refused error, controller) =>
    { events := [.answered attempt (.error error)]
      calls := { c with controller, nextAttempt := attempt + 1 } }
  | (.admitted, controller) =>
    { events := [.invoked attempt limit]
      calls := {
        controller
        running := c.running ++ [plan.start now attempt limit]
        nextAttempt := attempt + 1 } }

/-- An attempt that waits looks: at its call first, at its deadline second. -/
def resume (now : Instant) (attempt : CallId) (c : Calls ρ) : Option (CallsOutcome ρ) :=
  match c.running.find? (·.attempt == attempt) with
  | none => none
  | some i =>
    let c := { c with running := c.running.filter (·.attempt != attempt) }
    if i.isOver now then some { events := [.answered attempt i.result], calls := c }
    else if now < i.deadline then none
    else
      let (error, controller) := c.controller.overrun i.limit
      some { events := [.answered attempt (.error error)], calls := { c with controller } }

/-- One action at a moment. -/
def step (clock : WallClock) (now : Instant) (c : Calls ρ) : Action ρ → Option (CallsOutcome ρ)
  | .attempt limit plan => some (c.begin clock now limit plan)
  | .resume attempt => c.resume now attempt
  | .enable => some { calls := { c with controller := c.controller.enable } }
  | .disable => some { calls := { c with controller := c.controller.disable } }

/-- An attempt that can go on, if there is one; calls that are over come first. -/
def due? (now : Instant) (c : Calls ρ) : Option CallId :=
  match c.running.find? (·.isOver now) with
  | some i => some i.attempt
  | none => (c.running.find? fun i => i.deadline ≤ now).map (·.attempt)

/-- The moments at which a call ends or is cancelled. -/
def deadlines (c : Calls ρ) : List (Option Instant) :=
  c.running.flatMap fun i => [i.ends, some i.deadline]

end Calls

end Backpressure.Rate
