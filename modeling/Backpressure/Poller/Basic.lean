import Backpressure.Poller.Idle
import Backpressure.Queue.Basic
import Backpressure.Worker.Lifecycle

/-!
# Pollers

A poller is a worker whose unit takes one item from a queue per iteration and has
it handled.  Several pollers share a bench: the queue, the counts, and a switch
that tells whether a poller that stops handles what is left first.

*An iteration* polls with a bounded wait.  An item is handled, and the iteration
ends when the handling has.  Without an item the poller sleeps, and the sleep ends
when it runs out or when the poller is woken.  A stop ends a wait and a sleep, but
not the handling of an item.

*The hook* takes what can be had without waiting, one item after the other, if the
bench says so.

*Handling* is not part of the poller.  `Action.handled` says how it ended: well,
with a failure, with a panic, or in the worst way, by a panic of the handler
before there was anything to wait for.  The first three are counted.  The last
one is not: it ends the iteration, or the hook, like any other panic.

When several things can end a wait at the same moment, any of them may: the
actions leave the choice open.
-/

namespace Backpressure

/-- How the handling of an item ends. -/
inductive HandlerEnd where
  /-- Well. -/
  | handled
  /-- With a failure. -/
  | failed
  /-- With a panic. -/
  | panicked
  /-- With a panic before there was anything to wait for. -/
  | burst
  deriving DecidableEq, Repr, Inhabited

/-- Where an iteration of a poller stands. -/
inductive PollPoint (α : Type) where
  /-- Waiting for an item, up to a deadline. -/
  | polling (ticket : Ticket) (deadline : Instant)
  /-- An item is being handled. -/
  | handling (item : α)
  /-- Asleep; `woken` once somebody has ended the sleep. -/
  | idling (ends : Instant) (woken : Bool)
  deriving DecidableEq, Repr, Inhabited

/-- Where the hook of a poller stands. -/
inductive DrainPoint (α : Type) where
  /-- Before the next item. -/
  | next
  /-- An item is being handled. -/
  | handling (item : α)
  deriving DecidableEq, Repr, Inhabited

/-- What pollers share. -/
structure Bench (α : Type) where
  queue : Queue α
  nextTicket : Ticket := 0
  /-- Whether a poller that stops handles what is left. -/
  drainOnStop : Bool := false
  /-- The items handled well. -/
  processed : Nat := 0
  /-- The items handled with a failure or a panic. -/
  failed : Nat := 0
  deriving Repr, Inhabited

/-- A poller. -/
structure Poller (α : Type) where
  /-- The worker that runs it. -/
  worker : Worker (PollPoint α) (DrainPoint α) := {}
  /-- The idle interval. -/
  idle : Duration
  /-- The items that this poller handled well. -/
  processed : Nat := 0
  deriving Repr, Inhabited

/-- What a poller does next. -/
inductive Poller.Action where
  /-- The loop has its turn; `draw` spreads a sleep. -/
  | turn (draw : Float)
  /-- A waiting poll runs; `draw` spreads a sleep. -/
  | look (draw : Float)
  /-- A wait or a sleep gives way to a stop. -/
  | quit
  /-- A sleep runs out. -/
  | rise
  /-- A sleep is ended from outside. -/
  | wake
  /-- The handling of an item ends. -/
  | handled (how : HandlerEnd)
  /-- The hook goes on. -/
  | drain
  deriving Repr

/-- What can be seen of a poller. -/
inductive Poller.Event (α : Type) where
  /-- The handling of an item begins. -/
  | began (item : α)
  /-- The handling of an item has ended. -/
  | ended (item : α) (how : HandlerEnd)
  /-- An iteration has come to its end. -/
  | iterated
  /-- An iteration has panicked. -/
  | panicked
  /-- The hook has come to its end; `panicked` tells whether by a panic. -/
  | left (panicked : Bool)
  deriving Repr, DecidableEq

namespace Poller

variable {α : Type}

/-- The state of a poller and its bench after something, with what could be seen. -/
structure Outcome (α : Type) where
  /-- What could be seen, in order. -/
  events : List (Event α) := []
  bench : Bench α
  poller : Poller α

/-- A poller that was never started. -/
def ofSettings (s : PollerSettings) : Poller α := { idle := s.minIdle }

/-- The first thing that the hook does. -/
abbrev hook : DrainPoint α := .next

/-- Replaces the worker if it can move. -/
def put (p : Poller α) (w : Option (Worker (PollPoint α) (DrainPoint α))) : Option (Poller α) :=
  w.map fun worker => { p with worker }

/-- The iteration ends with a panic. -/
def panic (p : Poller α) (b : Bench α) : Option (Outcome α) :=
  (p.put (p.worker.finish .panicked hook)).map fun poller =>
    { events := [.panicked], bench := b, poller }

/-- The iteration ends as it should. -/
def finish (p : Poller α) (b : Bench α) : Option (Outcome α) :=
  (p.put (p.worker.finish .done hook)).map fun poller =>
    { events := [.iterated], bench := b, poller }

/-- The iteration goes on at a point. -/
def goTo (p : Poller α) (b : Bench α) (point : PollPoint α) (events : List (Event α)) :
    Option (Outcome α) :=
  (p.put (p.worker.move point)).map fun poller => { events, bench := b, poller }

/-- A poll inside an iteration ended: with an item it is handled, without one the poller sleeps. -/
def polled (s : PollerSettings) (now : Instant) (draw : Float) (p : Poller α) (b : Bench α) :
    Option α → Option (Outcome α)
  | some a => { p with idle := s.minIdle }.goTo b (.handling a) [.began a]
  | none =>
    match Idle.spread s draw p.idle with
    | some sleep => p.goTo b (.idling (now.afterWait sleep) false) []
    | none => p.panic b

/-- The loop has its turn: it leaves, or begins an iteration with a poll. -/
def turn (s : PollerSettings) (now : Instant) (draw : Float) (p : Poller α) (b : Bench α) :
    Option (Outcome α) :=
  let waits : PollPoint α := .polling b.nextTicket (now.afterWait s.pollTimeout)
  match p.put (p.worker.turn waits hook) with
  | none => none
  | some p =>
    match p.worker.place with
    | .inside _ =>
      if s.pollTimeout = 0 then
        let (item, queue) := b.queue.tryPoll
        p.polled s now draw { b with queue } item
      else
        match b.queue.poll b.nextTicket with
        | (.item a, queue) => p.polled s now draw { b with queue } (some a)
        | (.nothing, queue) => p.polled s now draw { b with queue } none
        | (.waiting, queue) =>
          some { bench := { b with queue, nextTicket := b.nextTicket + 1 }, poller := p }
    | _ => some { bench := b, poller := p }

/-- A waiting poll runs: its turn first, its deadline second. -/
def look (s : PollerSettings) (now : Instant) (draw : Float) (p : Poller α) (b : Bench α) :
    Option (Outcome α) :=
  match p.worker.place with
  | .inside (.polling t deadline) =>
    match b.queue.resumePoll t with
    | (.item a, queue) => p.polled s now draw { b with queue } (some a)
    | (.nothing, queue) => p.polled s now draw { b with queue } none
    | (.waiting, queue) =>
      if deadline ≤ now then p.polled s now draw { b with queue := queue.leavePoll t } none else none
  | _ => none

/-- A wait or a sleep gives way to a stop. -/
def quit (p : Poller α) (b : Bench α) : Option (Outcome α) :=
  if p.worker.stop then
    match p.worker.place with
    | .inside (.polling t _) => p.finish { b with queue := b.queue.leavePoll t }
    | .inside (.idling _ _) => p.finish b
    | _ => none
  else none

/-- A sleep runs out. -/
def rise (s : PollerSettings) (now : Instant) (p : Poller α) (b : Bench α) : Option (Outcome α) :=
  match p.worker.place with
  | .inside (.idling ends _) =>
    if ends ≤ now then
      match Idle.increase s p.idle with
      | some idle => { p with idle }.finish b
      | none => p.panic b
    else none
  | _ => none

/-- A sleep is ended from outside. -/
def wake (s : PollerSettings) (p : Poller α) (b : Bench α) : Option (Outcome α) :=
  match p.worker.place with
  | .inside (.idling _ true) => { p with idle := s.minIdle }.finish b
  | _ => none

/-- The counts after an item. -/
def tally (how : HandlerEnd) (p : Poller α) (b : Bench α) : Poller α × Bench α :=
  match how with
  | .handled => ({ p with processed := p.processed + 1 }, { b with processed := b.processed + 1 })
  | .failed | .panicked => (p, { b with failed := b.failed + 1 })
  | .burst => (p, b)

/-- The handling of an item ends. -/
def handled (how : HandlerEnd) (p : Poller α) (b : Bench α) : Option (Outcome α) :=
  let (counted, b) := p.tally how b
  match p.worker.place with
  | .inside (.handling a) =>
    (if how = .burst then counted.panic b else counted.finish b).map fun o =>
      { o with events := .ended a how :: o.events }
  | .leaving _ (.handling a) =>
    if how = .burst then
      (counted.put counted.worker.finishHook).map fun poller =>
        { events := [.ended a how, .left true], bench := b, poller }
    else
      (counted.put (counted.worker.moveHook .next)).map fun poller =>
        { events := [.ended a how], bench := b, poller }
  | _ => none

/-- The hook goes on: with the next item, or to its end. -/
def drain (p : Poller α) (b : Bench α) : Option (Outcome α) :=
  let leave (b : Bench α) : Option (Outcome α) :=
    (p.put p.worker.finishHook).map fun poller => { events := [.left false], bench := b, poller }
  match p.worker.place with
  | .leaving _ .next =>
    if b.drainOnStop then
      match b.queue.tryPoll with
      | (some a, queue) =>
        (p.put (p.worker.moveHook (.handling a))).map fun poller =>
          { events := [.began a], bench := { b with queue }, poller }
      | (none, queue) => leave { b with queue }
    else leave b
  | _ => none

/-- One action at a moment. -/
def step (s : PollerSettings) (now : Instant) (p : Poller α) (b : Bench α) :
    Action → Option (Outcome α)
  | .turn draw => p.turn s now draw b
  | .look draw => p.look s now draw b
  | .quit => p.quit b
  | .rise => p.rise s now b
  | .wake => p.wake s b
  | .handled how => p.handled how b
  | .drain => p.drain b

/-- Somebody ends the sleep of a poller that is asleep. -/
def nudge (p : Poller α) : Poller α :=
  match p.worker.place with
  | .inside (.idling ends _) => { p with worker := { p.worker with place := .inside (.idling ends true) } }
  | _ => p

/-- The next moment at which a wait of a poller ends. -/
def next? (p : Poller α) : Option Instant :=
  match p.worker.place with
  | .inside (.polling _ deadline) => some deadline
  | .inside (.idling ends _) => some ends
  | _ => none

end Poller

end Backpressure
