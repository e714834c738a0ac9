import Backpressure.Queue.Basic
import Backpressure.Time.Timer

/-!
# Offers and polls that wait at a queue

A visitor is a task that waits at a queue, to offer an item or to poll one, up to
a deadline.  Whenever it runs it first looks whether its turn has come; only if
not, and the deadline has passed, does it give up.  It may also be dropped by its
caller at any time.

A wait of no time is no wait: such an offer or poll never becomes a visitor.

`Traffic.step` is the state machine: an action is what a caller or a visitor does,
and `none` says that the action cannot happen.
-/

namespace Backpressure

/-- What a visitor waits for. -/
inductive Errand (α : Type) where
  /-- A slot for an item. -/
  | offer (a : α)
  /-- An item. -/
  | poll
  deriving DecidableEq, Repr

/-- A task that waits at a queue. -/
structure Visitor (α : Type) where
  ticket : Ticket
  /-- What it waits for. -/
  errand : Errand α
  /-- The moment at which it gives up. -/
  deadline : Instant
  deriving DecidableEq, Repr

/-- What an offer or poll ends with. -/
inductive Reply (α : Type) where
  /-- The item is in the queue. -/
  | accepted
  /-- The item is handed back. -/
  | returned (a : α)
  | item (a : α)
  /-- No item. -/
  | nothing
  deriving DecidableEq, Repr

/-- A queue with those who wait at it. -/
structure Traffic (α : Type) where
  queue : Queue α
  /-- Those who wait. -/
  visitors : List (Visitor α) := []
  nextTicket : Ticket := 0
  deriving Repr, Inhabited

/-- What happens at a queue. -/
inductive Traffic.Action (α : Type) where
  /-- A caller offers an item with a wait. -/
  | offer (a : α) (wait : Duration)
  /-- A caller polls with a wait. -/
  | poll (wait : Duration)
  /-- A visitor runs. -/
  | resume (t : Ticket)
  /-- A visitor is dropped. -/
  | drop (t : Ticket)
  /-- Items are drained. -/
  | drain (most : Nat)
  /-- Offers are ended. -/
  | sealUp
  /-- Offers and polls are ended. -/
  | close
  /-- Offers and polls are ended and the queue is cleared. -/
  | closeAndClear
  deriving DecidableEq, Repr

/-- What an action tells its caller. -/
inductive Traffic.Outcome (α : Type) where
  /-- The caller waits, with this ticket. -/
  | waits (t : Ticket)
  /-- An offer or poll ended. -/
  | replied (r : Reply α)
  /-- These items were drained. -/
  | drained (items : List α)
  /-- So many items were thrown away. -/
  | cleared (n : Nat)
  /-- Nothing to tell. -/
  | silent
  deriving DecidableEq, Repr

namespace Traffic

variable {α : Type}

/-- Makes a caller a visitor. -/
def admitVisitor (s : Traffic α) (errand : Errand α) (deadline : Instant) : Traffic α :=
  { s with
    visitors := s.visitors ++ [⟨s.nextTicket, errand, deadline⟩]
    nextTicket := s.nextTicket + 1 }

/-- Removes a visitor. -/
def remove (s : Traffic α) (t : Ticket) : Traffic α :=
  { s with visitors := s.visitors.filter (·.ticket != t) }

/-- The visitor with a ticket. -/
def visitor? (s : Traffic α) (t : Ticket) : Option (Visitor α) :=
  s.visitors.find? (·.ticket == t)

/-- A caller offers an item. -/
def offer (s : Traffic α) (now : Instant) (a : α) (wait : Duration) : Outcome α × Traffic α :=
  if wait = 0 then
    let (accepted, queue) := s.queue.tryOffer a
    (.replied (if accepted then .accepted else .returned a), { s with queue })
  else
    match s.queue.offer s.nextTicket a with
    | (.accepted, queue) => (.replied .accepted, { s with queue })
    | (.returned, queue) => (.replied (.returned a), { s with queue })
    | (.waiting, queue) =>
      (.waits s.nextTicket, { s with queue }.admitVisitor (.offer a) (now.afterWait wait))

/-- A caller polls. -/
def poll (s : Traffic α) (now : Instant) (wait : Duration) : Outcome α × Traffic α :=
  if wait = 0 then
    match s.queue.tryPoll with
    | (some a, queue) => (.replied (.item a), { s with queue })
    | (none, queue) => (.replied .nothing, { s with queue })
  else
    match s.queue.poll s.nextTicket with
    | (.item a, queue) => (.replied (.item a), { s with queue })
    | (.nothing, queue) => (.replied .nothing, { s with queue })
    | (.waiting, queue) =>
      (.waits s.nextTicket, { s with queue }.admitVisitor .poll (now.afterWait wait))

/-- A visitor runs: its turn first, its deadline second. -/
def resume (s : Traffic α) (now : Instant) (t : Ticket) : Option (Reply α × Traffic α) :=
  match s.visitor? t with
  | none => none
  | some v =>
    match v.errand with
    | .offer a =>
      match s.queue.resumeOffer t a with
      | (.accepted, queue) => some (.accepted, { s with queue }.remove t)
      | (.returned, queue) => some (.returned a, { s with queue }.remove t)
      | (.waiting, queue) =>
        if v.deadline ≤ now then
          some (.returned a, { s with queue := queue.leaveOffer t }.remove t)
        else none
    | .poll =>
      match s.queue.resumePoll t with
      | (.item a, queue) => some (.item a, { s with queue }.remove t)
      | (.nothing, queue) => some (.nothing, { s with queue }.remove t)
      | (.waiting, queue) =>
        if v.deadline ≤ now then
          some (.nothing, { s with queue := queue.leavePoll t }.remove t)
        else none

/-- A visitor is dropped. -/
def drop (s : Traffic α) (t : Ticket) : Option (Traffic α) :=
  match s.visitor? t with
  | none => none
  | some v =>
    let queue := match v.errand with
      | .offer _ => s.queue.leaveOffer t
      | .poll => s.queue.leavePoll t
    some ({ s with queue }.remove t)

/-- One action at a moment. -/
def step (now : Instant) (s : Traffic α) : Action α → Option (Outcome α × Traffic α)
  | .offer a wait => some (s.offer now a wait)
  | .poll wait => some (s.poll now wait)
  | .resume t => (s.resume now t).map fun (r, s) => (.replied r, s)
  | .drop t => (s.drop t).map fun s => (.silent, s)
  | .drain most =>
    let (items, queue) := s.queue.drain most
    some (.drained items, { s with queue })
  | .sealUp => some (.silent, { s with queue := s.queue.sealUp })
  | .close => some (.silent, { s with queue := s.queue.close })
  | .closeAndClear =>
    let (n, queue) := s.queue.closeAndClear
    some (.cleared n, { s with queue })

end Traffic

end Backpressure
