import Backpressure.Proofs.Queue.Closing

/-!
# A drain is a row of polls

A drain takes item after item, each with its permit, and gives all their slots back
together at the end.  A poll that does not wait takes one item and gives back its slot at
once.  As long as polls have not ended the two come to the same: the same items, and the
same queue down to who was granted a slot.

*One item.*  `drain_succ` takes the first item off a drain.  The rest is a drain of the
queue that the first poll leaves: the loop does not look at the slots
(`takeUpTo_freeSlots`), and slots that are given back one by one go to the same waiting
offers as slots that are given back together (`release_release`).

*Promised items.*  A permit that was granted to a waiting poll is not free.  So both stop
where the free permits end, and at a queue of a run an item is left for each promise.

*Closed queues.*  Polls get nothing from a closed queue, and a drain takes what is there.
-/

namespace Backpressure

namespace Permits

/-- Permits that are given back in two parts go where they go together. -/
theorem release_release (p : Permits) (m n : Nat) :
    (p.release m).release n = p.release (m + n) := by
  have hfree : p.free + (m - p.waiting.length) + (n - (p.waiting.length - m)) =
      p.free + (m + n - p.waiting.length) := by
    omega
  simp only [release, List.length_drop, List.drop_drop, List.append_assoc, List.take_add, hfree]

end Permits

namespace Queue

variable {α : Type} {q q' : Queue α} {a : α} {rest : List α}

/-- Polls at most `n` times without waiting, and stops at the first poll that finds nothing. -/
def pollEach : Nat → Queue α → List α × Queue α
  | 0, q => ([], q)
  | n + 1, q =>
    match q.tryPoll with
    | (none, q) => ([], q)
    | (some a, q) =>
      let (taken, q) := pollEach n q
      (a :: taken, q)

theorem freeSlots_freeSlots (m n : Nat) : (q.freeSlots m).freeSlots n = q.freeSlots (m + n) := by
  cases hs : q.isSealed with
  | true => simp only [freeSlots, hs, if_true]
  | false =>
      have hopen : (q.slots.release m).closed = false := hs
      simp only [freeSlots, isSealed] at hs ⊢
      simp only [hs, hopen, Bool.false_eq_true, if_false, Permits.release_release]

/-- Slots are given back whatever the items and their permits are. -/
theorem freeSlots_contents (items : List α) (ready : Permits) (n : Nat) :
    ({ q with items, ready } : Queue α).freeSlots n = { q.freeSlots n with items, ready } := by
  cases hs : q.slots.closed <;> simp [freeSlots, isSealed, hs]

/-- A drain of a queue on which offers and polls have ended. -/
theorem drain_of_closed (hc : q.isClosed = true) (hs : q.isSealed = true) (most : Nat) :
    q.drain most =
      (q.items.take (min most q.length), { q with items := q.items.drop most }) := by
  obtain ⟨n, r, heq, ⟨-, rfl, rfl⟩ | ⟨hopen, -, -⟩⟩ := q.drain_eq most
  · have hkeep : q.freeSlots (q.items.take n).length = q := if_pos hs
    rw [heq, freeSlots_contents, hkeep, length, ← List.take_eq_take_min]
  · rw [isClosed, hopen] at hc
    cases hc

/-- The loop of a drain does not look at the slots. -/
theorem takeUpTo_freeSlots (m n : Nat) :
    (q.freeSlots m).takeUpTo n = ((q.takeUpTo n).1, (q.takeUpTo n).2.freeSlots m) := by
  induction n generalizing q with
  | zero => rfl
  | succ n ih =>
      simp only [takeUpTo, isClosed, ready_freeSlots, items_freeSlots, ← freeSlots_contents]
      cases hr : q.ready.tryTake with
      | none =>
          by_cases hc : q.ready.closed = true
          · simp only [hc, if_true]
          · simp only [hc, Bool.false_eq_true, if_false]
      | some r => cases hi : q.items <;> simp only [ih]

/-- The first item of a drain, and the drain of what is left. -/
theorem drain_succ {r : Permits} (hr : q.ready.tryTake = some r) (hi : q.items = a :: rest)
    (n : Nat) :
    q.drain (n + 1) =
      (a :: ((q.without r rest).drain n).1, ((q.without r rest).drain n).2) := by
  simp only [drain_eq_freeSlots, takeUpTo, hr, hi, without, takeUpTo_freeSlots, freeSlots_freeSlots,
    List.length_cons, Nat.add_comm 1]

/-- A drain takes what as many polls take, and leaves the queue as they leave it. -/
theorem drain_eq_pollEach (hc : q.isClosed = false) (n : Nat) : q.drain n = q.pollEach n := by
  induction n generalizing q with
  | zero => rfl
  | succ n ih =>
      cases htry : q.tryPoll with
      | mk item q' =>
          cases item with
          | some a =>
              obtain ⟨r, rest, hr, hi, rfl⟩ := tryPoll_eq_some htry
              have hopen : (q.without r rest).isClosed = false := by
                rw [isClosed, ready_without, Permits.closed_of_tryTake hr]
                exact hc
              rw [drain_succ hr hi, ih hopen, pollEach, htry]
          | none =>
              rw [pollEach, htry]
              -- without a permit both leave the queue alone; without an item both lose the permit
              rcases tryPoll_eq_none htry with ⟨hr, rfl⟩ | ⟨r, hr, hi, rfl⟩
              · simp [drain, takeUpTo, hr, hc]
              · simp [drain, takeUpTo, hr, hi]

end Queue

namespace Traffic

variable {α : Type} {capacity : Nat} {t₀ t now : Instant} {h : List (Moment α)}
  {s s' : Traffic α} {a : Action α} {o : Outcome α}

/-- Nobody but who closes a queue ends polls. -/
theorem Deed.isClosed_eq (hd : Deed now s a o s') (ha : a.closes = false) :
    s'.queue.isClosed = s.queue.isClosed := by
  cases hd with
  | close | clear => cases ha
  | accept | refuse | lineUp | linger | enter | turnBack | findNone | dropOffer | sealUp => rfl
  | giveUp | dropPoll => exact Permits.closed_leave
  | receive =>
      show (Queue.without _ _ _).ready.closed = _
      rw [Queue.ready_without]
      rfl
  | take hq =>
      obtain ⟨r, rest, hr, -, rfl⟩ := Queue.tryPoll_eq_some hq
      exact (congrArg Permits.closed (Queue.ready_without _ _)).trans (Permits.closed_of_tryTake hr)
  | miss hq =>
      obtain ⟨-, rfl⟩ | ⟨r, hr, -, rfl⟩ := Queue.tryPoll_eq_none hq
      · rfl
      · exact Permits.closed_of_tryTake hr
  | @drain most =>
      obtain ⟨n, r, heq, hr⟩ := s.queue.drain_eq most
      show (s.queue.drain most).2.ready.closed = s.queue.ready.closed
      rw [heq, Queue.ready_freeSlots]
      obtain ⟨-, -, rfl⟩ | ⟨-, -, rfl⟩ := hr <;> rfl

/-- A queue whose polls have ended takes no offers either. -/
theorem Run.isSealed_of_isClosed (run : Run capacity t₀ h t s) (hc : s.queue.isClosed = true) :
    s.queue.isSealed = true := by
  refine run.invariant (I := fun _ s => s.queue.isClosed = true → s.queue.isSealed = true)
    (fun hc => by cases hc) ?_ hc
  intro h now s a o s' hs hd hc
  cases ha : a.closes with
  | true => exact hd.ends_offers (Action.seals_of_closes ha)
  | false => exact hd.sealed (hs (hd.isClosed_eq ha ▸ hc))

/-- A drain at a queue of a run, against polls that do not wait. -/
structure Drains (s : Traffic α) : Prop where
  /-- Until polls are ended, a drain gives the items that as many polls give, and leaves the queue
  that they leave: its items, its free slots, and the offers that were granted one. -/
  together : s.queue.isClosed = false → ∀ now most,
    s.step now (.drain most) = some (.drained (s.queue.pollEach most).1,
      { s with queue := (s.queue.pollEach most).2 })
  /-- Once polls are ended, a drain takes the first items all the same. -/
  first : s.queue.isClosed = true → ∀ now most,
    s.step now (.drain most) = some (.drained (s.queue.items.take (min most s.queue.length)),
      { s with queue.items := s.queue.items.drop most })
  /-- Once polls are ended, nobody polls anything, not even who was promised an item. -/
  nothing : s.queue.isClosed = true → s.queue.tryPoll = (none, s.queue) ∧
    (∀ now wait, s.step now (.poll wait) = some (.replied .nothing, s)) ∧
    ∀ now, ∀ v ∈ s.visitors, v.errand = .poll →
      ∃ s', s.step now (.resume v.ticket) = some (.replied .nothing, s')

/-- At every queue a drain comes to the same as a row of polls, until polls are ended. -/
theorem Run.drains (run : Run capacity t₀ h t s) : Drains s where
  together hc now most := by
    simp only [step, Queue.drain_eq_pollEach hc]
  first hc now most := by
    simp only [step, Queue.drain_of_closed hc (run.isSealed_of_isClosed hc)]
  nothing hc := by
    have haway := run.ticketed.sendsAway (run.isSealed_of_isClosed hc) hc
    refine ⟨?_, haway.poll, fun now v hv he => ?_⟩
    · simp only [Queue.tryPoll, Permits.tryTake_eq_none.mpr (.inl hc)]
    · obtain ⟨s', hs, -⟩ := haway.visitor now v hv he
      exact ⟨s', hs⟩

/-- Four items at a full queue.  One is promised to a poll that came first, and two offers wait. -/
def besieged : List (Instant × Action Nat) :=
  [(0, .poll 9), (0, .offer 1 0), (0, .offer 2 0), (0, .offer 3 0), (0, .offer 4 0),
    (1, .offer 5 9), (1, .offer 6 9)]

/-- Draining five items takes the three that are not promised, and both offers that wait are granted
a slot. -/
theorem drains_of_besieged : ∃ h t s,
    play 0 { queue := .ofCapacity 4 } besieged = some (h, t, s) ∧ Drains s ∧
      s.queue.isClosed = false ∧ s.queue.ready.granted = [0] ∧ s.queue.slots.waiting = [1, 2] ∧
      (s.queue.drain 5).1 = [1, 2, 3] ∧ (s.queue.drain 5).2.slots.granted = [1, 2] ∧
      (s.queue.drain 5).2.slots.free = 1 ∧ (s.queue.drain 5).2.items = [4] := by
  have hplay : (play 0 { queue := .ofCapacity 4 } besieged).map (fun w =>
      let q := w.2.2.queue
      (q.isClosed, q.ready.granted, q.slots.waiting, (q.drain 5).1, (q.drain 5).2.slots.granted,
        (q.drain 5).2.slots.free, (q.drain 5).2.items)) =
        some (false, [0], [1, 2], [1, 2, 3], [1, 2], 1, [4]) := by
    rfl
  obtain ⟨⟨h, t, s⟩, hp, hread⟩ := Option.map_eq_some_iff.mp hplay
  simp only [Prod.mk.injEq] at hread
  have run : Run 4 0 ([] ++ h) t s := Run.here.play hp
  exact ⟨h, t, s, hp, run.drains, hread⟩

end Traffic

end Backpressure
