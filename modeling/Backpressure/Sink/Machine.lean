import Backpressure.Sink.Flushing

/-!
# The sink as a state machine

An action is what a caller or the flush worker does; `Sink.step` gives the sink
after it with what could be seen, and `none` says that the action cannot happen.
Between two actions anybody else may act.

*Stretches.*  What a task does from one of its waits to the next, without giving way
to others, is one action.  So an offer that gets its place is buffered and counted in
one action, and whoever brings the sink down sets the flag, keeps the reason and seals
the buffer in one.  What another thread could see in the middle of such a stretch is
not modelled.

*An offer* is refused if the sink is down or switched off.  It then needs a permit
and a place in the buffer, and can wait for either.  A permit that is promised is
waited for to the end, and the sink may go down or be switched off in the
meantime; what counts then is whether the buffer is sealed.  A record is made when
its permit is there.

*What an offer comes to.*  Each ends in one of three ways: accepted, dropped, or
with an error.  Who allows it gets a dropped record instead of an error where a
permit or a place was missing.

*Shutdown* brings the sink down if it is not, tells the flush worker to stop, and
waits for it.
-/

namespace Backpressure

/-- Why an offer is refused. -/
inductive OfferRefusal where
  /-- The sink is down. -/
  | shutDown
  /-- The sink is switched off. -/
  | disabled
  /-- There is no permit in time. -/
  | noPermit
  /-- There is no place in the buffer in time. -/
  | noSlot
  deriving DecidableEq, Repr

namespace OfferRefusal

/-- The refusal as an error of a sink with a name. -/
def error (name : String) : OfferRefusal → CallError
  | shutDown => .unavailable ("telemetry sink " ++ name ++ " is shut down")
  | disabled => .unavailable ("telemetry sink " ++ name ++ " is disabled")
  | noPermit => .overloaded ("telemetry sink " ++ name ++ ": no rate permit available")
  | noSlot => .overloaded ("telemetry sink " ++ name ++ ": buffer full")

/-- Whether the record can be dropped instead. -/
def canDrop : OfferRefusal → Bool
  | shutDown | disabled => false
  | noPermit | noSlot => true

end OfferRefusal

namespace Sink

open Telemetry (Record)

/-- What happens to a sink. -/
inductive Action where
  /-- A caller offers a content, with the waits for a permit and for a place. -/
  | offer (content : Option Json.Value) (permitWait slotWait : Duration) (mayDrop : Bool)
  /-- A caller shuts the sink down. -/
  | shutDown (reason : String)
  /-- A call that waits goes on. -/
  | resume (call : CallId)
  /-- A caller asks for a flush. -/
  | flush
  /-- A caller switches the sink on. -/
  | enable
  /-- A caller switches the sink off. -/
  | disable
  /-- The flush worker acts. -/
  | worker (a : FlushAction)
  deriving Repr

/-- A call ends. -/
def answer (o : SinkOutcome) (call : CallId) (a : SinkAnswer) : SinkOutcome :=
  { events := o.events ++ [.answered call a]
    sink := { o.sink with calls := o.sink.calls.filter (·.1 != call) } }

/-- A call waits, or waits for something else. -/
def await (s : Sink) (call : CallId) (e : SinkErrand) : SinkOutcome :=
  { sink := { s with calls := s.calls.filter (·.1 != call) ++ [(call, e)] } }

/-! ## Offers -/

/-- An offer is refused. -/
def refuse (call : CallId) (mayDrop : Bool) (why : OfferRefusal) (s : Sink) : SinkOutcome :=
  if why.canDrop && mayDrop then
    answer { sink := { s with dropped := s.dropped + 1 } } call (.offered (.ok false))
  else
    answer { sink := { s with rejected := s.rejected + 1 } } call
      (.offered (.error (why.error s.settings.name)))

/-- An offer is accepted. -/
def accept (call : CallId) (record : Record) (s : Sink) : SinkOutcome :=
  answer { events := [.accepted record], sink := { s with offered := s.offered + 1 } } call
    (.offered (.ok true))

/-- The buffer did not take a record. -/
def turnBack (call : CallId) (mayDrop : Bool) (s : Sink) : SinkOutcome :=
  s.refuse call mayDrop (if s.buffer.isSealed then .shutDown else .noSlot)

/-- An offer has its permit and goes on to the buffer. -/
def enterBuffer (clock : WallClock) (now : Instant) (call : CallId) (content : Option Json.Value)
    (wait : Duration) (mayDrop : Bool) (s : Sink) : SinkOutcome :=
  let record : Record := { content, createdAt := clock.at now }
  if wait = 0 then
    match s.buffer.tryOffer record with
    | (true, buffer) => { s with buffer }.accept call record
    | (false, buffer) => { s with buffer }.turnBack call mayDrop
  else
    let ticket := s.nextTicket
    match s.buffer.offer ticket record with
    | (.accepted, buffer) => { s with buffer }.accept call record
    | (.returned, buffer) => { s with buffer }.turnBack call mayDrop
    | (.waiting, buffer) =>
      { s with buffer, nextTicket := ticket + 1 }.await call
        (.awaitingSlot record ticket (now.afterWait wait) mayDrop)

/-- A caller offers a content. -/
def beginOffer (clock : WallClock) (now : Instant) (call : CallId) (content : Option Json.Value)
    (permitWait slotWait : Duration) (mayDrop : Bool) (s : Sink) : SinkOutcome :=
  if s.isDown then s.refuse call mayDrop .shutDown
  else if !s.switch.enabled then s.refuse call mayDrop .disabled
  else
    match s.limiter.acquire .doubles now permitWait with
    | (.refused, limiter) => { s with limiter }.refuse call mayDrop .noPermit
    | (.now, limiter) => { s with limiter }.enterBuffer clock now call content slotWait mayDrop
    | (.later ready, limiter) =>
      let ends := Instant.ceilMilli ready
      if ends ≤ now then { s with limiter }.enterBuffer clock now call content slotWait mayDrop
      else { s with limiter }.await call (.awaitingPermit content ends slotWait mayDrop)

/-- An offer that waits for a place goes on: its turn first, its deadline second. -/
def resumeOffer (now : Instant) (call : CallId) (record : Record) (ticket : Ticket)
    (deadline : Instant) (mayDrop : Bool) (s : Sink) : Option SinkOutcome :=
  match s.buffer.resumeOffer ticket record with
  | (.accepted, buffer) => some ({ s with buffer }.accept call record)
  | (.returned, buffer) => some ({ s with buffer }.turnBack call mayDrop)
  | (.waiting, buffer) =>
    if now < deadline then none
    else some ({ s with buffer := buffer.leaveOffer ticket }.turnBack call mayDrop)

/-! ## Shutdown -/

/-- A caller shuts the sink down. -/
def beginShutdown (now : Instant) (call : CallId) (reason : String) (s : Sink) : SinkOutcome :=
  let (initiated, s) := s.bringDown reason
  let s := { s with worker := s.worker.requestStop }
  let deadline := now.afterWait s.settings.shutdownTimeout
  match s.worker.stopWait deadline now with
  | some _ => answer { sink := s } call (.shutDown initiated)
  | none => s.await call (.awaitingStop initiated deadline)

/-! ## Actions -/

/-- The sink after a new call has its name. -/
def named (s : Sink) : Sink := { s with nextCall := s.nextCall + 1 }

/-- A call that waits goes on, if it can. -/
def resume (clock : WallClock) (now : Instant) (s : Sink) (call : CallId) : Option SinkOutcome :=
  match s.calls.lookup call with
  | none => none
  | some (.awaitingPermit content ready wait mayDrop) =>
    if now < ready then none else some (s.enterBuffer clock now call content wait mayDrop)
  | some (.awaitingSlot record ticket deadline mayDrop) =>
    s.resumeOffer now call record ticket deadline mayDrop
  | some (.awaitingStop initiated deadline) =>
    (s.worker.stopWait deadline now).map fun _ => answer { sink := s } call (.shutDown initiated)

/-- One action at a moment.  A new call has the name `s.nextCall`. -/
def step (clock : WallClock) (now : Instant) (s : Sink) : Action → Option SinkOutcome
  | .offer content permitWait slotWait mayDrop =>
    some (s.named.beginOffer clock now s.nextCall content permitWait slotWait mayDrop)
  | .shutDown reason => some (s.named.beginShutdown now s.nextCall reason)
  | .resume call => s.resume clock now call
  | .flush => some { sink := { s with signal := true } }
  | .enable => some { sink := { s with switch := s.switch.enable } }
  | .disable => some { sink := { s with switch := s.switch.disable } }
  | .worker a => s.flushStep clock now a

/-- The moments at which a wait in the sink ends, writer and alerts apart. -/
def deadlines (s : Sink) : List Instant :=
  (match s.worker.place with
    | .inside (.waiting ends) => [ends]
    | .leaving _ (.closing deadline) => [deadline]
    | _ => [])
    ++ (match s.flushing? with
      | some (.writing b) => [b.deadline]
      | some (.alerting _ deadline) => [deadline]
      | none => [])
    ++ s.calls.map (·.2.deadline)

end Sink

end Backpressure
