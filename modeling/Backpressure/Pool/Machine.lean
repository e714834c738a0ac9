import Backpressure.Pool.Scaler

/-!
# The pool as a state machine

An action is what a caller, a member or the scaler does; `Pool.step` gives the
pool after it with what could be seen, and `none` says that the action cannot
happen.  Between two actions anybody else may act.

*Stretches.*  What a task does from one of its waits to the next, without giving way
to others, is one action.  So a start makes all its members and starts the scaler in
one action, an offer that gets its place is queued and counted in one, and whoever
seals the queue also takes out all members and tells them to stop.  What another
thread could see in the middle of such a stretch is not modelled.

*Start* makes the fewest members and starts the scaler.  If the factory has no
handler for one of them, the pool is shut down at once, and the start fails with
that error when the shutdown is done.

*Offer* is refused unless the pool runs.  Otherwise it is an offer to the queue,
and the call counts as accepted or refused when that ends.

*Shutdown.*  The first shutdown of a running pool makes it drain: it stops the
scaler, seals the queue, and retires all active members side by side.  A graceful
one lets the members handle what is left in the queue; any other throws it away.
What is still there in the end is thrown away in any case.  A later shutdown waits
for the first.
-/

namespace Backpressure.Pool

variable {α : Type}

/-- What happens to a pool. -/
inductive Action (α : Type) where
  /-- A caller starts it. -/
  | start
  /-- A caller offers an item with a wait. -/
  | offer (item : α) (wait : Duration)
  /-- A caller shuts it down. -/
  | shutdown (graceful : Bool)
  /-- A call that waits goes on. -/
  | resume (call : CallId)
  /-- A caller wakes the members that are asleep. -/
  | flush
  /-- A member acts. -/
  | member (i : MemberId) (a : Poller.Action)
  /-- The scaler acts. -/
  | scaler (a : ScalerAction)
  deriving Repr

/-- A call ends. -/
def answer (o : PoolOutcome α) (call : CallId) (a : PoolAnswer) : PoolOutcome α :=
  { events := o.events ++ [.answered call a]
    pool := { o.pool with calls := o.pool.calls.filter (·.1 != call) } }

/-- A call waits, or waits for something else. -/
def await (o : PoolOutcome α) (call : CallId) (e : PoolErrand α) : PoolOutcome α :=
  { o with pool.calls := o.pool.calls.filter (·.1 != call) ++ [(call, e)] }

/-! ## Offers -/

/-- An offer to the queue has ended. -/
def endOffer (call : CallId) (accepted : Bool) (p : Pool α) : PoolOutcome α :=
  if accepted then
    answer { pool := { p with offered := p.offered + 1 } } call (.offered true)
  else
    answer { events := [.turnedAway], pool := { p with rejected := p.rejected + 1 } } call
      (.offered false)

/-- A caller offers an item. -/
def beginOffer (now : Instant) (call : CallId) (item : α) (wait : Duration) (p : Pool α) :
    PoolOutcome α :=
  if p.phase ≠ .running then
    answer { pool := { p with rejected := p.rejected + 1 } } call (.offered false)
  else if wait = 0 then
    let (accepted, queue) := p.bench.queue.tryOffer item
    { p with bench.queue := queue }.endOffer call accepted
  else
    let ticket := p.bench.nextTicket
    match p.bench.queue.offer ticket item with
    | (.accepted, queue) => { p with bench.queue := queue }.endOffer call true
    | (.returned, queue) => { p with bench.queue := queue }.endOffer call false
    | (.waiting, queue) =>
      await { pool := { p with bench := { p.bench with queue, nextTicket := ticket + 1 } } } call
        (.offer item ticket (now.afterWait wait))

/-- An offer that waits goes on: its turn first, its deadline second. -/
def resumeOffer (now : Instant) (call : CallId) (item : α) (ticket : Ticket) (deadline : Instant)
    (p : Pool α) : Option (PoolOutcome α) :=
  match p.bench.queue.resumeOffer ticket item with
  | (.accepted, queue) => some ({ p with bench.queue := queue }.endOffer call true)
  | (.returned, queue) => some ({ p with bench.queue := queue }.endOffer call false)
  | (.waiting, queue) =>
    if deadline ≤ now then
      some ({ p with bench.queue := queue.leaveOffer ticket }.endOffer call false)
    else none

/-! ## Shutdown -/

/-- A start or a shutdown ends; a start that went wrong ends with its own error. -/
def endShutdown (o : PoolOutcome α) (call : CallId) (afterStart : Option PoolError)
    (result : Except PoolError Unit) : PoolOutcome α :=
  answer o call (.ended (match afterStart with
    | some error => .error error
    | none => result))

/-- Throws away what is in the queue. -/
def discardAll (p : Pool α) : PoolOutcome α :=
  let (n, queue) := p.bench.queue.closeAndClear
  { events := [.discarded p.bench.queue.items]
    pool := { p with bench.queue := queue, discarded := p.discarded + n } }

/-- Goes on with the retirement of all members, to the end of the shutdown if nobody is waited for. -/
def retireAll (now : Instant) (call : CallId) (graceful : Bool) (afterStart : Option PoolError)
    (pending : List (MemberId × Instant)) (stragglers : Nat) (p : Pool α) : PoolOutcome α :=
  match p.sweep now pending stragglers with
  | (([], stragglers), o) =>
    let o := o.pool.discardAll.after o.events
    endShutdown { o with pool.phase := .stopped } call afterStart
      (if stragglers = 0 then .ok () else .error (.stragglers stragglers))
  | ((pending, stragglers), o) =>
    await o call (.shutdown graceful (.retiring pending stragglers) afterStart)

/-- Goes on with a shutdown once the scaler is no longer waited for. -/
def retireCrew (now : Instant) (call : CallId) (graceful : Bool) (afterStart : Option PoolError)
    (p : Pool α) : PoolOutcome α :=
  let p := { p with bench := { p.bench with queue := p.bench.queue.sealUp, drainOnStop := graceful } }
  let o : PoolOutcome α := if graceful then { pool := p } else p.discardAll
  let leaving := p.active
  let p := leaving.foldl requestStop { o.pool with active := [] }
  (p.retireAll now call graceful afterStart (leaving.map fun i => (i, p.patience now)) 0).after
    o.events

/-- A shutdown begins. -/
def beginShutdown (now : Instant) (call : CallId) (graceful : Bool) (afterStart : Option PoolError)
    (p : Pool α) : PoolOutcome α :=
  let deadline := p.patience now
  match p.phase with
  | .stopped => endShutdown { pool := p } call afterStart (.ok ())
  | .draining =>
    if deadline ≤ now then
      endShutdown { pool := p } call afterStart (.error (.stillDraining p.settings.name))
    else await { pool := p } call (.shutdown graceful (.awaitingOther deadline) afterStart)
  | .created =>
    let queue := p.bench.queue.closeAndClear.2
    endShutdown
      { pool := { p with
          phase := .stopped
          scaler := p.scaler.requestStop
          bench := { p.bench with queue } } }
      call afterStart (.ok ())
  | .running =>
    let p := { p with phase := .draining, scaler := p.scaler.requestStop }
    match p.scaler.stopWait deadline now with
    | some _ => p.retireCrew now call graceful afterStart
    | none => await { pool := p } call (.shutdown graceful (.awaitingScaler deadline) afterStart)

/-- A shutdown that waits goes on. -/
def resumeShutdown (now : Instant) (call : CallId) (graceful : Bool) (afterStart : Option PoolError)
    (p : Pool α) : ShutdownPoint → Option (PoolOutcome α)
  | .awaitingScaler deadline =>
    (p.scaler.stopWait deadline now).map fun _ => p.retireCrew now call graceful afterStart
  | .retiring pending stragglers =>
    if pending.any fun (i, deadline) => (p.stopWait i deadline now).isSome then
      some (p.retireAll now call graceful afterStart pending stragglers)
    else none
  | .awaitingOther deadline =>
    if p.phase = .stopped then some (endShutdown { pool := p } call afterStart (.ok ()))
    else if deadline ≤ now then
      some (endShutdown { pool := p } call afterStart (.error (.stillDraining p.settings.name)))
    else none

/-! ## Start -/

/-- A caller starts the pool. -/
def beginStart (env : Surroundings α) (now : Instant) (call : CallId) (p : Pool α) : PoolOutcome α :=
  if p.phase ≠ .created then
    answer { pool := p } call (.ended (.error (.alreadyStarted p.settings.name)))
  else
    match { p with phase := .running }.spawnMany env now p.settings.minWorkers with
    | (some error, o) => (o.pool.beginShutdown now call false (some error)).after o.events
    | (none, o) =>
      match o.pool.scaler.start with
      | some scaler => answer { o with pool.scaler := scaler } call (.ended (.ok ()))
      | none =>
        answer o call (.ended (.error (.worker
          (.invalidPhase (p.settings.name ++ "-scaler") o.pool.scaler.phase))))

/-! ## Actions -/

/-- A member acts. -/
def memberStep (now : Instant) (i : MemberId) (a : Poller.Action) (p : Pool α) :
    Option (PoolOutcome α) :=
  match p.crew[i]? with
  | none => none
  | some m =>
    (m.poller.step p.settings.poller now p.bench a).map fun o =>
      { events := o.events.map (.poller i)
        pool := { p.modifyMember i fun m => { m with poller := o.poller } with bench := o.bench } }

/-- The pool after a new call has its name. -/
def named (p : Pool α) : Pool α := { p with nextCall := p.nextCall + 1 }

/-- One action at a moment.  A new call has the name `p.nextCall`. -/
def step (env : Surroundings α) (now : Instant) (p : Pool α) : Action α → Option (PoolOutcome α)
  | .start => some (p.named.beginStart env now p.nextCall)
  | .offer item wait => some (p.named.beginOffer now p.nextCall item wait)
  | .shutdown graceful => some (p.named.beginShutdown now p.nextCall graceful none)
  | .resume call =>
    match p.calls.lookup call with
    | none => none
    | some (.offer item ticket deadline) => p.resumeOffer now call item ticket deadline
    | some (.shutdown graceful point afterStart) =>
      p.resumeShutdown now call graceful afterStart point
  | .flush =>
    some { pool := { p with crew := p.crew.map fun m => { m with poller := m.poller.nudge } } }
  | .member i a => p.memberStep now i a
  | .scaler a => p.scalerStep env now a

/-- The moments at which a wait in the pool ends, handling apart. -/
def deadlines (p : Pool α) : List (Option Instant) :=
  (p.crew.map fun m => m.poller.next?)
    ++ [match p.scaler.place with
        | .inside (.sleeping ends) => some ends
        | .inside (.replacing r) | .inside (.shrinking r) => some r.deadline
        | _ => none]
    ++ p.calls.flatMap fun (_, errand) => errand.deadlines.map some

end Backpressure.Pool
