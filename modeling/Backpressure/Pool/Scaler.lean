import Backpressure.Pool.Crew

/-!
# Changing the number of members

The scaler is a worker of the pool.  An iteration sleeps for the interval between
evaluations, and a stop during the sleep ends it.  Then, if the pool still runs:

* the members that the factory finds unfit leave the active ones at once and are
  retired one after the other;
* workers are made until there are as many as the pool needs;
* the policy is asked, and members are added up to the most the pool may have, or
  the youngest are taken away down to the fewest.

A factory without a handler ends the iteration with an error from which the
scaler recovers.
-/

namespace Backpressure.Pool

variable {α : Type}

/-- What the scaler does next. -/
inductive ScalerAction where
  /-- The loop has its turn. -/
  | turn
  /-- The sleep gives way to a stop. -/
  | quit
  /-- The sleep runs out, and the members are looked at. -/
  | evaluate
  /-- A member that is retired is no longer waited for. -/
  | retired
  /-- The hook ends. -/
  | leave
  deriving DecidableEq, Repr

/-- The pool with another scaler, if that can move. -/
def putScaler (p : Pool α) (w : Option (Worker ScalerPoint Unit)) : Option (Pool α) :=
  w.map fun scaler => { p with scaler }

/-- The iteration of the scaler ends. -/
def endScaling (o : PoolOutcome α) (how : IterationEnd) : Option (PoolOutcome α) :=
  (o.pool.putScaler (o.pool.scaler.finish how ())).map fun pool => { o with pool }

/-- The iteration of the scaler goes on elsewhere. -/
def moveScaling (o : PoolOutcome α) (point : ScalerPoint) : Option (PoolOutcome α) :=
  (o.pool.putScaler (o.pool.scaler.move point)).map fun pool => { o with pool }

/-- The load of the pool. -/
def observe (now : Instant) (p : Pool α) : Scaling.Observation where
  active := p.active.length
  least := p.settings.minWorkers
  most := p.settings.maxWorkers
  queued := p.bench.queue.length
  capacity := p.bench.queue.capacity
  moment := now

/-- Adds members, up to the most that the pool may have. -/
def grow (env : Surroundings α) (now : Instant) (n : Nat) (p : Pool α) :
    Option PoolError × PoolOutcome α :=
  p.spawnMany env now (min n (p.settings.maxWorkers - p.active.length))

/-- Takes the youngest members out of the active ones, down to the fewest that the
pool may have; they are told to stop and retired in turn. -/
def shrink (now : Instant) (n : Nat) (p : Pool α) : Option Retirement × PoolOutcome α :=
  let keep := max (p.active.length - n) p.settings.minWorkers
  let victims := p.active.drop keep
  let p := victims.foldl requestStop { p with active := p.active.take keep }
  p.retireInTurn now victims

/-- Takes the unfit out of the active members; they are retired in turn. -/
def removeUnfit (env : Surroundings α) (now : Instant) (p : Pool α) :
    Option Retirement × PoolOutcome α :=
  let isFit (i : MemberId) : Bool := (p.crew[i]?).any env.isFit
  let (fit, unfit) := p.active.partition isFit
  { p with active := fit }.retireInTurn now unfit

/-- Asks the policy and follows it. -/
def followPolicy (env : Surroundings α) (now : Instant) (p : Pool α) : Option (PoolOutcome α) :=
  let o := p.observe now
  let seen : PoolOutcome α := { events := [.observed o], pool := p }
  match env.decide o with
  | .hold => endScaling seen .done
  | .grow n =>
    match p.grow env now n with
    | (none, grown) => endScaling (grown.after seen.events) .done
    | (some error, grown) =>
      endScaling (grown.after seen.events) (.failed (.recoverable error.message))
  | .shrink n =>
    match p.shrink now n with
    | (none, shrunk) => endScaling (shrunk.after seen.events) .done
    | (some r, shrunk) => moveScaling (shrunk.after seen.events) (.shrinking r)

/-- Makes up for the members that are missing, and then asks the policy. -/
def fillUp (env : Surroundings α) (now : Instant) (p : Pool α) : Option (PoolOutcome α) :=
  match p.spawnMany env now (p.settings.minWorkers - p.active.length) with
  | (some error, o) => endScaling o (.failed (.recoverable error.message))
  | (none, o) => (o.pool.followPolicy env now).map (·.after o.events)

/-- Goes on after the unfit have left, once nobody is waited for. -/
def afterRemoval (env : Surroundings α) (now : Instant) :
    Option Retirement × PoolOutcome α → Option (PoolOutcome α)
  | (some r, o) => moveScaling o (.replacing r)
  | (none, o) => (o.pool.fillUp env now).map (·.after o.events)

/-- One action of the scaler. -/
def scalerStep (env : Surroundings α) (now : Instant) (p : Pool α) :
    ScalerAction → Option (PoolOutcome α)
  | .turn =>
    let first := ScalerPoint.sleeping (now.afterWait p.settings.scaling.evaluateInterval)
    (p.putScaler (p.scaler.turn first ())).map fun pool => { pool }
  | .quit =>
    match p.scaler.place with
    | .inside (.sleeping _) => if p.scaler.stop then endScaling { pool := p } .done else none
    | _ => none
  | .evaluate =>
    match p.scaler.place with
    | .inside (.sleeping ends) =>
      if now < ends then none
      else if p.phase ≠ .running then endScaling { pool := p } .done
      else afterRemoval env now (p.removeUnfit env now)
    | _ => none
  | .retired =>
    match p.scaler.place with
    | .inside (.replacing r) => (p.retireNext now r).bind (afterRemoval env now)
    | .inside (.shrinking r) =>
      (p.retireNext now r).bind fun
        | (some r, o) => moveScaling o (.shrinking r)
        | (none, o) => endScaling o .done
    | _ => none
  | .leave => (p.putScaler p.scaler.finishHook).map fun pool => { pool }

end Backpressure.Pool
