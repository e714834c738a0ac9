import Backpressure.CallError
import Backpressure.Pool.Phase
import Backpressure.Poller.Basic
import Backpressure.Scaling.Policy

/-!
# The crew of a pool

A pool keeps every worker it ever made in its crew, in the order in which they were
made; a member is known by its place there.  Some of them are active: these make
up the pool, and their order is the order in which they joined.

*Joining.*  Each attempt to make a worker uses up a number, whether the factory
has a handler for it or not; the name of the worker ends in the number.

*Leaving.*  A member first leaves the active ones.  It is then told to stop and
waited for, up to the shutdown timeout, and at last dismissed: the time is noted
and the factory lets go of it, whether it has stopped by then or not.  Members
that leave together are retired one after the other.

What the factory and the policy say is not up to the pool.  `Surroundings` holds
their answers for one step, so any factory and any policy is possible.
-/

namespace Backpressure

/-- A worker of a pool. -/
structure Member (α : Type) where
  name : String
  /-- The poller that it runs. -/
  poller : Poller α
  /-- When it joined. -/
  joined : Instant
  /-- When it was dismissed, if it was. -/
  dismissed : Option Instant := none
  deriving Repr, Inhabited

/-- The phase of a member's worker. -/
def Member.phase {α : Type} (m : Member α) : WorkerPhase := m.poller.worker.phase

/-- The place of a member in the crew. -/
abbrev MemberId := Nat

/-- Members that are retired one after the other. -/
structure Retirement where
  /-- The member that is waited for. -/
  member : MemberId
  /-- When it is no longer waited for. -/
  deadline : Instant
  /-- The members that come after it. -/
  rest : List MemberId
  deriving DecidableEq, Repr, Inhabited

/-- Where an iteration of the scaler stands. -/
inductive ScalerPoint where
  /-- Asleep until the next evaluation. -/
  | sleeping (ends : Instant)
  /-- Retiring the unfit, before they are replaced. -/
  | replacing (r : Retirement)
  /-- Retiring those who are too many. -/
  | shrinking (r : Retirement)
  deriving DecidableEq, Repr, Inhabited

/-- Where a shutdown stands. -/
inductive ShutdownPoint where
  /-- Waiting for the scaler to stop. -/
  | awaitingScaler (deadline : Instant)
  /-- Retiring all members at once: those still waited for, and the number of those
  that did not stop in time. -/
  | retiring (pending : List (MemberId × Instant)) (stragglers : Nat)
  /-- Waiting for another shutdown. -/
  | awaitingOther (deadline : Instant)
  deriving DecidableEq, Repr, Inhabited

/-- What a call that waits is about. -/
inductive PoolErrand (α : Type) where
  /-- An item is offered, up to a deadline. -/
  | offer (item : α) (ticket : Ticket) (deadline : Instant)
  /-- The pool is shut down, gracefully or not; `afterStart` is the error of the start
  that went wrong, if that is why. -/
  | shutdown (graceful : Bool) (point : ShutdownPoint) (afterStart : Option PoolError)
  deriving Repr

/-- The moments at which a call no longer waits for something. -/
def PoolErrand.deadlines {α : Type} : PoolErrand α → List Instant
  | .offer _ _ deadline => [deadline]
  | .shutdown _ (.awaitingScaler deadline) _ | .shutdown _ (.awaitingOther deadline) _ => [deadline]
  | .shutdown _ (.retiring pending _) _ => pending.map (·.2)

/-- A pool. -/
structure Pool (α : Type) where
  settings : PoolSettings
  phase : PoolPhase := .created
  /-- What its members share. -/
  bench : Bench α
  /-- Every member that was ever made. -/
  crew : List (Member α) := []
  /-- The active members, in the order in which they joined. -/
  active : List MemberId := []
  /-- The next number for a name. -/
  nextNumber : Nat := 0
  /-- The worker that changes the number of members. -/
  scaler : Worker ScalerPoint Unit := {}
  /-- The calls that wait. -/
  calls : List (CallId × PoolErrand α) := []
  /-- The name of the next call. -/
  nextCall : CallId := 0
  /-- The offers that were accepted. -/
  offered : Nat := 0
  /-- The offers that were refused. -/
  rejected : Nat := 0
  /-- The items that were thrown away. -/
  discarded : Nat := 0
  deriving Repr, Inhabited

/-- What the factory and the policy say in one step. -/
structure Surroundings (α : Type) where
  /-- Why the factory has no handler for a name, if it has none. -/
  refusal : String → Option String
  /-- Whether the factory finds a member fit to stay. -/
  isFit : Member α → Bool
  /-- What the policy decides. -/
  decide : Scaling.Observation → Scaling.Decision

/-- What a call ends with. -/
inductive PoolAnswer where
  | offered (accepted : Bool)
  /-- The end of a start or a shutdown. -/
  | ended (result : Except PoolError Unit)

/-- What can be seen of a pool. -/
inductive PoolEvent (α : Type) where
  /-- Something of a member's poller. -/
  | poller (member : MemberId) (e : Poller.Event α)
  /-- The factory made a handler. -/
  | created (name : String)
  /-- The factory had no handler. -/
  | refused (name : String)
  /-- The factory let go of a member. -/
  | destroyed (name : String)
  /-- The policy was asked. -/
  | observed (o : Scaling.Observation)
  /-- An offer got no slot. -/
  | turnedAway
  /-- Items were thrown away. -/
  | discarded (items : List α)
  /-- A call ended. -/
  | answered (call : CallId) (answer : PoolAnswer)

/-- A pool after something, with what could be seen, in order. -/
structure PoolOutcome (α : Type) where
  /-- What could be seen. -/
  events : List (PoolEvent α) := []
  pool : Pool α

namespace PoolOutcome

variable {α : Type}

/-- Puts what was seen before in front. -/
def after (events : List (PoolEvent α)) (o : PoolOutcome α) : PoolOutcome α :=
  { o with events := events ++ o.events }

end PoolOutcome

namespace Pool

variable {α : Type}

/-- A pool that was never started. -/
def ofSettings (s : PoolSettings) : Pool α :=
  { settings := s, bench := { queue := .ofCapacity s.queueCapacity } }

/-- A pool with settings that are accepted. -/
def make (s : PoolSettings) : Except PoolError (Pool α) :=
  match s.check with
  | .ok () => .ok (ofSettings s)
  | .error fault => .error fault.error

/-- The active members. -/
def members (p : Pool α) : List (Member α) := p.active.filterMap (p.crew[·]?)

/-- Whether an active member runs. -/
def isAlive (p : Pool α) : Bool := p.members.any fun m => m.phase == .running

/-- Changes one member. -/
def modifyMember (p : Pool α) (i : MemberId) (f : Member α → Member α) : Pool α :=
  { p with crew := p.crew.modify i f }

/-- Tells a member to stop. -/
def requestStop (p : Pool α) (i : MemberId) : Pool α :=
  p.modifyMember i fun m => { m with poller.worker := m.poller.worker.requestStop }

/-- What a wait for the stop of a member has come to. -/
def stopWait (p : Pool α) (i : MemberId) (deadline now : Instant) : Option Bool :=
  match p.crew[i]? with
  | some m => m.poller.worker.stopWait deadline now
  | none => some true

/-- The moment up to which a member is waited for from now on. -/
def patience (p : Pool α) (now : Instant) : Instant := now.afterWait p.settings.shutdownTimeout

/-! ## Joining -/

/-- Makes one more worker and starts it; gives the error of a factory without a handler. -/
def spawn (env : Surroundings α) (now : Instant) (p : Pool α) : Option PoolError × PoolOutcome α :=
  let name := p.settings.workerLabel ++ "-" ++ toString p.nextNumber
  let p := { p with nextNumber := p.nextNumber + 1 }
  match env.refusal name with
  | some reason => (some (.factory reason), { events := [.refused name], pool := p })
  | none =>
    let fresh : Poller α := .ofSettings p.settings.poller
    let poller := { fresh with worker := fresh.worker.start.getD fresh.worker }
    (none,
      { events := [.created name]
        pool := { p with
          crew := p.crew ++ [{ name, poller, joined := now }]
          active := p.active ++ [p.crew.length] } })

/-- Makes workers up to the first for which there is no handler. -/
def spawnMany (env : Surroundings α) (now : Instant) : Nat → Pool α → Option PoolError × PoolOutcome α
  | 0, p => (none, { pool := p })
  | n + 1, p =>
    match p.spawn env now with
    | (some error, o) => (some error, o)
    | (none, o) =>
      let (error, rest) := spawnMany env now n o.pool
      (error, rest.after o.events)

/-! ## Leaving -/

/-- Notes the time at which a member is dismissed, and lets the factory go of it. -/
def dismiss (now : Instant) (i : MemberId) (p : Pool α) : PoolOutcome α :=
  let name := (p.crew[i]?.map (·.name)).getD ""
  { events := [.destroyed name], pool := p.modifyMember i fun m => { m with dismissed := some now } }

/-- Retires members one after the other, up to the first that has to be waited for. -/
def retireInTurn (now : Instant) : List MemberId → Pool α → Option Retirement × PoolOutcome α
  | [], p => (none, { pool := p })
  | i :: rest, p =>
    let p := p.requestStop i
    let deadline := p.patience now
    match p.stopWait i deadline now with
    | none => (some ⟨i, deadline, rest⟩, { pool := p })
    | some _ =>
      let gone := p.dismiss now i
      let (waiting, o) := retireInTurn now rest gone.pool
      (waiting, o.after gone.events)

/-- Goes on with a retirement when its member is no longer waited for. -/
def retireNext (now : Instant) (r : Retirement) (p : Pool α) :
    Option (Option Retirement × PoolOutcome α) :=
  (p.stopWait r.member r.deadline now).map fun _ =>
    let gone := p.dismiss now r.member
    let (waiting, o) := retireInTurn now r.rest gone.pool
    (waiting, o.after gone.events)

/-- Retires members side by side: dismisses those that are no longer waited for. -/
def sweep (now : Instant) :
    List (MemberId × Instant) → Nat → Pool α → (List (MemberId × Instant) × Nat) × PoolOutcome α
  | [], stragglers, p => (([], stragglers), { pool := p })
  | (i, deadline) :: rest, stragglers, p =>
    match p.stopWait i deadline now with
    | none =>
      let ((pending, stragglers), o) := sweep now rest stragglers p
      (((i, deadline) :: pending, stragglers), o)
    | some stopped =>
      let gone := p.dismiss now i
      let (left, o) := sweep now rest (if stopped then stragglers else stragglers + 1) gone.pool
      (left, o.after gone.events)

end Pool

end Backpressure
