import Backpressure.Sink.Basic

/-!
# The flush worker

*An iteration* waits for the end of the interval or for a signal, whichever comes
first, and then flushes.  A stop ends the wait without a flush.  Somebody who asks
for a flush while one is under way leaves the signal for the next iteration.

*A flush* drains the buffer; without records it is over at once.  The writer is
asked to append one line after the other and then to flush.  It has the write
timeout for all of it.  The batch counts as written only if the writer took a line
for every record and flushed in time.

*A flush that fails* brings the sink down.  If it is the one that did, an alert is
raised, and waited for, for no longer than the write timeout.  The iteration then
ends for good.  A panic of the writer loses the batch and nothing else.

*The hook* flushes once more if the worker was told to stop, whatever comes of it.
What is in the buffer then is thrown away, and the writer is closed, for which it
has the write timeout again.
-/

namespace Backpressure

/-- Why a flush failed. -/
inductive FlushFault where
  /-- Some records had no text. -/
  | incomplete (appended drained : Nat)
  /-- The writer did not do what it was asked for. -/
  | refused (appended drained : Nat) (error : WriteError)
  /-- The writer was not done in time. -/
  | late (drained : Nat) (limit : Duration)
  deriving DecidableEq, Repr

/-- The wording of a failed flush. -/
def FlushFault.message : FlushFault → String
  | .incomplete appended drained =>
    "appended " ++ toString appended ++ " of " ++ toString drained ++ " items"
  | .refused appended drained error =>
    "write failed after " ++ toString appended ++ " of " ++ toString drained ++ " items: "
      ++ error.message
  | .late drained limit =>
    "write of " ++ toString drained ++ " items did not finish within " ++ limit.text

/-- What a reply of the writer means for a batch. -/
inductive Batch.Progress where
  /-- There is more to do. -/
  | more (batch : Batch)
  /-- The batch is written. -/
  | written
  | failed (fault : FlushFault)
  /-- The writer panicked. -/
  | lost
  deriving Repr

/-- The batch after a reply of the writer. -/
def Batch.afterReply (b : Batch) : WriterReply → Progress
  | .panicked => .lost
  | .failed error => .failed (.refused b.appended b.records.length error)
  | .done =>
    match b.rest with
    | _ :: rest => .more { b with rest, appended := b.appended + 1 }
    | [] =>
      if b.appended = b.records.length then .written
      else .failed (.incomplete b.appended b.records.length)

/-- The receipt of a batch that was written at some time. -/
def Batch.receipt (b : Batch) (t : Timestamp) : Receipt where
  writtenAt := t
  longestWait := (b.records.filterMap fun r => (r.markWritten t).2.latency).foldl max 0

namespace Sink

/-! ## Flushes -/

/-- What a flush comes to. -/
inductive FlushTurn where
  /-- It goes on. -/
  | underway (f : Flushing)
  /-- It is over. -/
  | ended (how : IterationEnd)
  deriving Repr

/-- A flush begins. -/
def beginFlush (now : Instant) (s : Sink) : FlushTurn × SinkOutcome :=
  let (records, buffer) := s.buffer.drain s.buffer.length
  let s := { s with buffer }
  if records.isEmpty then (.ended .done, { sink := s })
  else
    let batch := Batch.ofRecords records (s.patience now)
    (.underway (.writing batch), { events := [.asked batch.request], sink := s })

/-- A batch is written. -/
def confirm (t : Timestamp) (b : Batch) (s : Sink) : Sink :=
  { s with written := s.written + b.records.length, lastBatch := some (b.receipt t) }

/-- A flush fails: the sink goes down, and an alert is raised if it was not down before. -/
def failFlush (clock : WallClock) (now : Instant) (fault : FlushFault) (s : Sink) :
    FlushTurn × SinkOutcome :=
  let reason := fault.message
  let turn : FlushTurn := .ended (.failed (.fatal reason))
  match { s with failedFlushes := s.failedFlushes + 1 }.bringDown reason with
  | (false, s) => (turn, { sink := s })
  | (true, s) =>
    match s.alerts.trigger clock now with
    | (false, _) => (turn, { sink := s })
    | (true, alerts) =>
      (.underway (.alerting reason (s.patience now)),
        { events := [.alerted ("telemetry sink " ++ s.settings.name ++ " shut down") reason]
          sink := { s with alerts } })

/-- The writer replies. -/
def afterReply (clock : WallClock) (now : Instant) (b : Batch) (r : WriterReply) (s : Sink) :
    FlushTurn × SinkOutcome :=
  let seen : List SinkEvent := if r = .done then [.served b.request] else []
  match b.afterReply r with
  | .more batch =>
    (.underway (.writing batch), { events := seen ++ [.asked batch.request], sink := s })
  | .written => (.ended .done, { events := seen, sink := s.confirm (clock.at now) b })
  | .failed fault =>
    let (turn, o) := s.failFlush clock now fault
    (turn, o.after seen)
  | .lost => (.ended .panicked, { events := seen, sink := s })

/-- The wait for the writer or for an alert runs out. -/
def runOut (clock : WallClock) (now : Instant) (s : Sink) :
    Flushing → Option (FlushTurn × SinkOutcome)
  | .writing b =>
    if now < b.deadline then none
    else
      let (turn, o) := s.failFlush clock now (.late b.records.length s.settings.writeTimeout)
      some (turn, o.after [.abandoned])
  | .alerting reason deadline =>
    if now < deadline then none
    else some (.ended (.failed (.fatal reason)), { events := [.abandoned], sink := s })

/-! ## The worker -/

/-- What the flush worker does next. -/
inductive FlushAction where
  /-- The loop has its turn. -/
  | turn
  /-- The interval ends. -/
  | tick
  /-- The signal is noticed. -/
  | notice
  /-- The wait gives way to a stop. -/
  | quit
  /-- The writer replies. -/
  | reply (r : WriterReply)
  /-- The alert has been sent, or not. -/
  | alertDone
  /-- A wait for the writer or for an alert runs out. -/
  | runOut
  /-- The hook begins. -/
  | leave
  deriving Repr

/-- The sink with another worker, if that can move. -/
def put (o : SinkOutcome) (w : Option (Worker FlushPoint ClosingPoint)) : Option SinkOutcome :=
  w.map fun worker => { o with sink.worker := worker }

/-- Goes on in an iteration after a flush did something. -/
def inIteration : FlushTurn × SinkOutcome → Option SinkOutcome
  | (.underway f, o) => put o (o.sink.worker.move (.flushing f))
  | (.ended how, o) => put o (o.sink.worker.finish how .start)

/-- The buffer is emptied and the writer is closed. -/
def closeDown (now : Instant) (s : Sink) : Option SinkOutcome :=
  let (n, buffer) := s.buffer.closeAndClear
  let events : List SinkEvent := [.discarded s.buffer.items, .asked .close]
  let s := { s with buffer, dropped := s.dropped + n }
  put { events, sink := s }
    (s.worker.moveHook (.closing (s.patience now)))

/-- Goes on in the hook after a flush did something. -/
def inHook (now : Instant) : FlushTurn × SinkOutcome → Option SinkOutcome
  | (.underway f, o) => put o (o.sink.worker.moveHook (.flushing f))
  | (.ended .panicked, o) => put o o.sink.worker.finishHook
  | (.ended _, o) => (o.sink.closeDown now).map (·.after o.events)

/-- Goes on after a flush did something, in an iteration or in the hook. -/
def goOn (now : Instant) (turn : FlushTurn × SinkOutcome) : Option SinkOutcome :=
  match turn.2.sink.worker.place with
  | .inside _ => inIteration turn
  | .leaving _ _ => inHook now turn
  | _ => none

/-- The flush that is under way, if there is one. -/
def flushing? (s : Sink) : Option Flushing :=
  match s.worker.place with
  | .inside (.flushing f) | .leaving _ (.flushing f) => some f
  | _ => none

/-- One action of the flush worker. -/
def flushStep (clock : WallClock) (now : Instant) (s : Sink) : FlushAction → Option SinkOutcome
  | .turn =>
    put { sink := s }
      (s.worker.turn (.waiting (now.afterWait s.settings.flushInterval)) .start)
  | .tick =>
    match s.worker.place with
    | .inside (.waiting ends) => if now < ends then none else inIteration (s.beginFlush now)
    | _ => none
  | .notice =>
    match s.worker.place with
    | .inside (.waiting _) =>
      if s.signal then inIteration ({ s with signal := false }.beginFlush now) else none
    | _ => none
  | .quit =>
    match s.worker.place with
    | .inside (.waiting _) =>
      if s.worker.stop then inIteration (.ended .done, { sink := s }) else none
    | _ => none
  | .reply r =>
    match s.flushing?, s.worker.place with
    | some (.writing b), _ => goOn now (s.afterReply clock now b r)
    | none, .leaving _ (.closing _) =>
      put { events := if r = .done then [.served .close] else [], sink := s } s.worker.finishHook
    | _, _ => none
  | .alertDone =>
    match s.flushing? with
    | some (.alerting reason _) => goOn now (.ended (.failed (.fatal reason)), { sink := s })
    | _ => none
  | .runOut =>
    match s.flushing?, s.worker.place with
    | some f, _ => (s.runOut clock now f).bind (goOn now)
    | none, .leaving _ (.closing deadline) =>
      if now < deadline then none
      else put { events := [.abandoned], sink := s } s.worker.finishHook
    | _, _ => none
  | .leave =>
    match s.worker.place with
    | .leaving .stopRequested .start => inHook now (s.beginFlush now)
    | .leaving (.fatal _) .start => s.closeDown now
    | _ => none

end Sink

end Backpressure
