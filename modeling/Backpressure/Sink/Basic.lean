import Backpressure.CallError
import Backpressure.Queue.Basic
import Backpressure.Rate.Throttle
import Backpressure.Rate.TokenBucket
import Backpressure.Settings.Sink
import Backpressure.Telemetry.Item
import Backpressure.Telemetry.Phase
import Backpressure.Worker.Lifecycle

/-!
# A buffered telemetry sink

Producers hand records in, and a worker of the sink, the *flush worker*, drains the
buffer from time to time and has a writer persist the batch.

*One cause.*  A sink is brought down once, by a caller or by a flush that failed.
The reason is kept, and its presence is what it means for the sink to be down.  At
the same moment the buffer is sealed, so nothing comes in any more.

*The writer* is not part of the sink.  It is asked for one thing at a time and
replies when it is done, whatever it does in between; the sink may stop waiting
for the reply.
-/

namespace Backpressure

open Telemetry (Record)

/-! ## The writer -/

/-- What a writer is asked for. -/
inductive WriterRequest where
  /-- To take a line. -/
  | append (line : String)
  /-- To push what it took to its store. -/
  | flush
  /-- To flush and to let go of its store. -/
  | close
  deriving DecidableEq, Repr

/-- What a writer replies. -/
inductive WriterReply where
  /-- It did what it was asked for. -/
  | done
  /-- It did not. -/
  | failed (error : WriteError)
  | panicked
  deriving DecidableEq, Repr

/-! ## Where things stand -/

/-- A batch on its way to the writer. -/
structure Batch where
  /-- The records that were drained. -/
  records : List Record
  /-- The lines that the writer has not taken yet. -/
  rest : List String
  /-- The number of lines that it has taken. -/
  appended : Nat := 0
  /-- When the wait for the writer ends. -/
  deadline : Instant
  deriving Repr, Inhabited

/-- A batch of which nothing is written.  Records without a text are left out. -/
def Batch.ofRecords (records : List Record) (deadline : Instant) : Batch :=
  { records, rest := records.filterMap Record.encode, deadline }

/-- What the writer is asked for next. -/
def Batch.request (b : Batch) : WriterRequest :=
  match b.rest with
  | line :: _ => .append line
  | [] => .flush

/-- Where a flush stands. -/
inductive Flushing where
  /-- The writer is at work on a batch. -/
  | writing (batch : Batch)
  /-- The flush failed for a reason, and an alert is on its way. -/
  | alerting (reason : String) (deadline : Instant)
  deriving Repr, Inhabited

/-- Where an iteration of the flush worker stands. -/
inductive FlushPoint where
  /-- Waiting for the end of the interval, a signal, or a stop. -/
  | waiting (ends : Instant)
  | flushing (f : Flushing)
  deriving Repr, Inhabited

/-- Where the hook of the flush worker stands. -/
inductive ClosingPoint where
  | start
  /-- In the last flush. -/
  | flushing (f : Flushing)
  /-- The writer is being closed. -/
  | closing (deadline : Instant)
  deriving Repr, Inhabited

/-- What a call that waits is about. -/
inductive SinkErrand where
  /-- An offer has a permit that is delivered at a moment. -/
  | awaitingPermit (content : Option Json.Value) (ready : Instant) (wait : Duration)
      (mayDrop : Bool)
  /-- An offer waits for a place in the buffer, up to a deadline. -/
  | awaitingSlot (record : Record) (ticket : Ticket) (deadline : Instant) (mayDrop : Bool)
  /-- A shutdown waits for the flush worker, up to a deadline; `initiated` tells whether it
  brought the sink down. -/
  | awaitingStop (initiated : Bool) (deadline : Instant)
  deriving Repr

/-- The moment at which a call no longer waits. -/
def SinkErrand.deadline : SinkErrand → Instant
  | .awaitingPermit _ ready _ _ => ready
  | .awaitingSlot _ _ deadline _ => deadline
  | .awaitingStop _ deadline => deadline

/-- What is known of the last batch that was written. -/
structure Receipt where
  /-- When it was written. -/
  writtenAt : Timestamp
  /-- The longest time in milliseconds that one of its records was in the sink. -/
  longestWait : Nat
  deriving DecidableEq, Repr

/-- A telemetry sink. -/
structure Sink where
  settings : SinkSettings
  /-- The records that were accepted and not drained yet. -/
  buffer : Queue Record
  /-- The next ticket of the buffer. -/
  nextTicket : Ticket := 0
  /-- The rate at which records come in. -/
  limiter : Rate.Limiter
  /-- The switch for offers. -/
  switch : Rate.Throttle := {}
  alerts : Rate.Throttle
  /-- Why the sink is down, if it is. -/
  reason : Option String := none
  /-- Whether a flush was asked for and the flush worker has not noticed yet. -/
  signal : Bool := false
  worker : Worker FlushPoint ClosingPoint := {}
  /-- The records that were accepted. -/
  offered : Nat := 0
  /-- The records that were refused or thrown away without an error. -/
  dropped : Nat := 0
  /-- The offers that ended with an error. -/
  rejected : Nat := 0
  /-- The records that were written for certain. -/
  written : Nat := 0
  failedFlushes : Nat := 0
  /-- The last batch that was written, if there was one. -/
  lastBatch : Option Receipt := none
  /-- The calls that wait. -/
  calls : List (CallId × SinkErrand) := []
  /-- The name of the next call. -/
  nextCall : CallId := 0
  deriving Repr, Inhabited

/-- What a call ends with. -/
inductive SinkAnswer where
  /-- Whether a record was accepted, or why there is an error. -/
  | offered (result : Except CallError Bool)
  /-- Whether a shutdown brought the sink down. -/
  | shutDown (initiated : Bool)

/-- What can be seen of a sink. -/
inductive SinkEvent where
  /-- A record went into the buffer. -/
  | accepted (record : Record)
  /-- The writer is asked for something. -/
  | asked (request : WriterRequest)
  /-- The writer did what it was asked for. -/
  | served (request : WriterRequest)
  /-- Somebody who was asked is no longer waited for. -/
  | abandoned
  /-- An alert is raised. -/
  | alerted (subject body : String)
  /-- Records were thrown away when the flush worker left. -/
  | discarded (records : List Record)
  /-- A call ended. -/
  | answered (call : CallId) (answer : SinkAnswer)

/-- A sink after something, with what could be seen, in order. -/
structure SinkOutcome where
  /-- What could be seen. -/
  events : List SinkEvent := []
  sink : Sink

/-- Puts what was seen before in front. -/
def SinkOutcome.after (events : List SinkEvent) (o : SinkOutcome) : SinkOutcome :=
  { o with events := events ++ o.events }

namespace Sink

/-- A sink with its flush worker under way. -/
def ofSettings (s : SinkSettings) (now : Instant) : Sink :=
  let asleep : Worker FlushPoint ClosingPoint := {}
  { settings := s
    buffer := .ofCapacity s.capacity
    limiter := .ofRate s.permitsPerSecond now
    alerts := .ofInterval s.alertMinInterval
    worker := asleep.start.getD asleep }

/-- A sink with settings that are accepted. -/
def make (s : SinkSettings) (now : Instant) : Except SinkError Sink :=
  match s.check with
  | .ok () => .ok (ofSettings s now)
  | .error fault => .error (.invalidSettings fault.message)

/-- Whether the sink is down. -/
def isDown (s : Sink) : Bool := s.reason.isSome

/-- The phase of the sink. -/
def phase (s : Sink) : SinkPhase :=
  if s.isDown then .shutDown else if s.switch.enabled then .running else .disabled

/-- The records in the buffer. -/
def buffered (s : Sink) : Nat := s.buffer.length

/-- Brings the sink down unless it is down already, and tells whether it did. -/
def bringDown (s : Sink) (reason : String) : Bool × Sink :=
  if s.isDown then (false, s)
  else (true, { s with reason := some reason, buffer := s.buffer.sealUp })

/-- The end of a wait for the writer or for an alert that starts now. -/
def patience (s : Sink) (now : Instant) : Instant := now.afterWait s.settings.writeTimeout

end Sink

end Backpressure
