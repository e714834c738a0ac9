import Backpressure.Queue.Permits
import Backpressure.Settings.Pool

/-!
# A bounded queue

Items leave in the order in which they came.  Two stocks of permits go with them:
one permit of `slots` for each place that is not taken, and one of `ready` for
each item that is not promised to a waiting poll.

*Sealing* ends offers: the slots are closed, and nobody gets one any more, not
even an offer that was granted one.  What is in the queue can still be polled.

*Closing* seals and ends polls as well.  What is left stays until it is drained or
cleared.

An offer or poll that has to wait is a task with a ticket.  It begins, may run
again (`resumeOffer`, `resumePoll`) and may give up (`leaveOffer`, `leavePoll`).
The queue knows no time; deadlines belong to the tasks.
-/

namespace Backpressure

/-- A bounded queue. -/
structure Queue (α : Type) where
  /-- The most items. -/
  capacity : Nat
  /-- The items, oldest first. -/
  items : List α := []
  /-- A permit for each place that is not taken. -/
  slots : Permits
  /-- A permit for each item that is not promised. -/
  ready : Permits := { free := 0 }
  deriving Repr, Inhabited

/-- What an offer comes to. -/
inductive Offered where
  /-- The item is in the queue. -/
  | accepted
  /-- The item is handed back. -/
  | returned
  /-- The offer waits for a slot. -/
  | waiting
  deriving DecidableEq, Repr

/-- What a poll comes to. -/
inductive Polled (α : Type) where
  | item (a : α)
  /-- No item. -/
  | nothing
  /-- The poll waits for an item. -/
  | waiting
  deriving DecidableEq, Repr

namespace Queue

variable {α : Type}

/-- An empty queue; its capacity is at least one and at most the largest that a queue can have. -/
def ofCapacity (n : Nat) : Queue α :=
  let capacity := min (max n 1) largestCapacity
  { capacity, slots := { free := capacity } }

/-- The number of items. -/
def length (q : Queue α) : Nat := q.items.length

/-- Whether there is no item. -/
def isEmpty (q : Queue α) : Bool := q.items.isEmpty

/-- Whether offers have ended. -/
def isSealed (q : Queue α) : Bool := q.slots.closed

/-- Whether polls have ended. -/
def isClosed (q : Queue α) : Bool := q.ready.closed

/-- Gives slots back, unless offers have ended. -/
def freeSlots (q : Queue α) (n : Nat) : Queue α :=
  if q.isSealed then q else { q with slots := q.slots.release n }

/-- Puts an item at the end; its slot has been taken. -/
def push (q : Queue α) (a : α) : Queue α :=
  { q with items := q.items ++ [a], ready := q.ready.release 1 }

/-- Takes the oldest item; its permit has been taken. -/
def takeFirst (q : Queue α) : Polled α × Queue α :=
  match q.items with
  | [] => (.nothing, q)
  | a :: rest => (.item a, { q with items := rest }.freeSlots 1)

/-! ## Without waiting -/

/-- Offers an item, and tells whether it was accepted. -/
def tryOffer (q : Queue α) (a : α) : Bool × Queue α :=
  match q.slots.tryTake with
  | some slots => (true, { q with slots }.push a)
  | none => (false, q)

/-- Takes the oldest item that is not promised. -/
def tryPoll (q : Queue α) : Option α × Queue α :=
  match q.ready.tryTake with
  | some ready =>
    match { q with ready }.takeFirst with
    | (.item a, q) => (some a, q)
    | (_, q) => (none, q)
  | none => (none, q)

/-- Takes up to `most` items, oldest first, each with a permit, until a permit or an item is
missing.  On a closed queue there are no permits, and what is left is taken without one. -/
def takeUpTo : Nat → Queue α → List α × Queue α
  | 0, q => ([], q)
  | most + 1, q =>
    match q.ready.tryTake with
    | some ready =>
      match q.items with
      | [] => ([], { q with ready })
      | a :: rest =>
        let (taken, q) := takeUpTo most { q with items := rest, ready }
        (a :: taken, q)
    | none =>
      if q.isClosed then
        (q.items.take (most + 1), { q with items := q.items.drop (most + 1) })
      else ([], q)

/-- Takes up to `most` items that are not promised; on a closed queue, any items.  Their slots go
back together at the end. -/
def drain (q : Queue α) (most : Nat) : List α × Queue α :=
  let (taken, q) := q.takeUpTo most
  (taken, if taken.isEmpty then q else q.freeSlots taken.length)

/-- Ends offers. -/
def sealUp (q : Queue α) : Queue α := { q with slots := q.slots.close }

/-- Ends offers and polls. -/
def close (q : Queue α) : Queue α := { q.sealUp with ready := q.ready.close }

/-- Ends offers and polls and throws away what is left; tells how many items that were. -/
def closeAndClear (q : Queue α) : Nat × Queue α :=
  let q := q.close
  (q.length, { q with items := [] })

/-! ## With waiting -/

/-- Begins an offer that may wait. -/
def offer (q : Queue α) (t : Ticket) (a : α) : Offered × Queue α :=
  match q.slots.tryTake with
  | some slots => (.accepted, { q with slots }.push a)
  | none => if q.isSealed then (.returned, q) else (.waiting, { q with slots := q.slots.enroll t })

/-- An offer that waits runs. -/
def resumeOffer (q : Queue α) (t : Ticket) (a : α) : Offered × Queue α :=
  match q.slots.resume t with
  | .pending => (.waiting, q)
  | .served slots => (.accepted, { q with slots }.push a)
  | .refused slots => (.returned, { q with slots })

/-- An offer that waits gives up. -/
def leaveOffer (q : Queue α) (t : Ticket) : Queue α := { q with slots := q.slots.leave t }

/-- Begins a poll that may wait. -/
def poll (q : Queue α) (t : Ticket) : Polled α × Queue α :=
  match q.ready.tryTake with
  | some ready => { q with ready }.takeFirst
  | none => if q.isClosed then (.nothing, q) else (.waiting, { q with ready := q.ready.enroll t })

/-- A poll that waits runs. -/
def resumePoll (q : Queue α) (t : Ticket) : Polled α × Queue α :=
  match q.ready.resume t with
  | .pending => (.waiting, q)
  | .served ready => { q with ready }.takeFirst
  | .refused ready => (.nothing, { q with ready })

/-- A poll that waits gives up. -/
def leavePoll (q : Queue α) (t : Ticket) : Queue α := { q with ready := q.ready.leave t }

end Queue

end Backpressure
