import Backpressure.Proofs.Poller.Promises

/-!
# How the handling of an item ends

The end of a handling is counted by its kind: well done, or failed, which a panic of the
running handler is too.  A panic of the handler at its call is counted nowhere
(`Deed.counted`).

*The next item.*  A poller that is `Ready` takes the oldest item that is free, and is ready
again when its handling has ended, however it ended (`Ready.round`).  There is one exception:
in the hook, a panic of the handler at its call ends the hook (`Ready.outburst`).  Otherwise
the hook goes on until no item is free (`Ready.rest`).
-/

namespace Backpressure

variable {α : Type}

/-- Whether the end of a handling is counted as a failure. -/
def HandlerEnd.isFailure : HandlerEnd → Bool
  | .failed | .panicked => true
  | .handled | .burst => false

namespace Poller

variable {s : PollerSettings} {now u : Instant} {p p' : Poller α} {b b' : Bench α}
  {es : List (Event α)} {start : Action} {how : HandlerEnd}

/-- The end of a handling is counted by its kind, and nothing else is counted. -/
theorem Deed.counted (hd : Deed p b es p' b') :
    b'.processed = b.processed + (es.flatMap Event.ends).countP (·.2 = .handled) ∧
      b'.failed = b.failed + (es.flatMap Event.ends).countP (·.2.isFailure) := by
  cases hd with
  | leave | wait | take | served | quit | drain | finish | burst | shattered => exact ⟨rfl, rfl⟩
  | miss _ _ _ hl | unserved _ _ hl | late _ _ hl => cases hl <;> exact ⟨rfl, rfl⟩
  | rouse _ _ he => rcases he with rfl | rfl <;> exact ⟨rfl, rfl⟩
  | @handled a how | @drained reason a how => cases how <;> exact ⟨rfl, rfl⟩

/-- A poller that takes an item next, if one is free, and the action by which it does: its loop has
its turn, or its hook goes on. -/
inductive Ready (p : Poller α) (b : Bench α) : Action → Prop where
  /-- It is between two iterations and was not told to stop. -/
  | loop {aside : Bool} (draw : Float) (hp : p.worker.place = .between aside)
      (hs : p.worker.stop = false) : Ready p b (.turn draw)
  /-- It is in the hook, and handles what is left. -/
  | hook {reason : ExitReason} (hp : p.worker.place = .leaving reason .next)
      (hd : b.drainOnStop = true) : Ready p b .drain

theorem turn_of_free {aside : Bool} (draw : Float) (hp : p.worker.place = .between aside)
    (hs : p.worker.stop = false) (hb : b.queue.Backed) (hc : b.queue.ready.closed = false)
    (hf : 0 < b.queue.ready.free) :
    ∃ a q, b.queue.items = a :: q.items ∧
      q.ready = { b.queue.ready with free := b.queue.ready.free - 1 } ∧
      p.step s now b (.turn draw) = some ⟨[.began a], { b with queue := q },
        { p with idle := s.minIdle }.moved (.inside (.handling a))⟩ := by
  obtain ⟨a, q, hi, hr, htry, hpoll⟩ := Queue.poll_of_free hb hc hf
  refine ⟨a, q, hi, hr, ?_⟩
  simp only [step, turn, put_turn _ hp, hs, Bool.false_eq_true, if_false, worker_moved, htry, hpoll,
    ite_self]
  rfl

theorem drain_of_free {reason : ExitReason} (hp : p.worker.place = .leaving reason .next)
    (hd : b.drainOnStop = true) (hb : b.queue.Backed) (hc : b.queue.ready.closed = false)
    (hf : 0 < b.queue.ready.free) :
    ∃ a q, b.queue.items = a :: q.items ∧
      q.ready = { b.queue.ready with free := b.queue.ready.free - 1 } ∧
      p.step s now b .drain = some ⟨[.began a], { b with queue := q },
        p.moved (.leaving reason (.handling a))⟩ := by
  obtain ⟨a, q, hi, hr, htry, -⟩ := Queue.poll_of_free hb hc hf
  refine ⟨a, q, hi, hr, ?_⟩
  simp only [step, Poller.drain, hp, hd, htry, if_true, put_moveHook _ hp, Option.map_some]

theorem handled_of_inside {a : α} (hp : p.worker.place = .inside (.handling a)) (how : HandlerEnd) :
    ∃ e, p.step s u b (.handled how) = some ⟨[.ended a how, e], (p.tally how b).2,
      (p.tally how b).1.moved (.between (how = .burst))⟩ ∧ e.ends = [] := by
  -- a panic at the call leaves the iteration, and the loop catches it
  by_cases hh : how = .burst
  · subst hh
    refine ⟨.panicked, ?_, rfl⟩
    simp only [step, Poller.handled, hp, if_true, panic_eq (p := (p.tally .burst b).1) hp]
    rfl
  · refine ⟨.iterated, ?_, rfl⟩
    have hcounted : (p.tally how b).1.worker.place = .inside (.handling a) := by
      rw [worker_tally, hp]
    simp only [step, Poller.handled, hp, hh, if_false, finish_eq hcounted]
    rfl

theorem handled_of_leaving {reason : ExitReason} {a : α}
    (hp : p.worker.place = .leaving reason (.handling a)) (hh : how ≠ .burst) :
    p.step s u b (.handled how) = some ⟨[.ended a how], (p.tally how b).2,
      (p.tally how b).1.moved (.leaving reason .next)⟩ := by
  have hcounted : (p.tally how b).1.worker.place = .leaving reason (.handling a) := by
    rw [worker_tally, hp]
  simp only [step, Poller.handled, hp, hh, if_false, put_moveHook _ hcounted]
  rfl

theorem burst_of_leaving {reason : ExitReason} {a : α}
    (hp : p.worker.place = .leaving reason (.handling a)) :
    p.step s now b (.handled .burst) =
      some ⟨[.ended a .burst, .left true], b, p.retired reason⟩ := by
  simp only [step, Poller.handled, hp, if_true, put_finishHook (p := (p.tally .burst b).1) hp]
  rfl

/-- Where a poller goes on when the handling of an item has ended. -/
inductive Onward : HandlerEnd → Place (PollPoint α) (DrainPoint α) →
    Place (PollPoint α) (DrainPoint α) → Prop where
  /-- An iteration has ended, and the loop goes on. -/
  | loop {a : α} {how : HandlerEnd} {aside : Bool} :
      Onward how (.inside (.handling a)) (.between aside)
  /-- The hook goes on. -/
  | hook {reason : ExitReason} {a : α} {how : HandlerEnd} (hh : how ≠ .burst) :
      Onward how (.leaving reason (.handling a)) (.leaving reason .next)
  /-- The hook is at its end. -/
  | shatter {reason : ExitReason} {a : α} :
      Onward .burst (.leaving reason (.handling a)) (.finished reason)

theorem handled_onward {o : Outcome α} (h : p.step s now b (.handled how) = some o) :
    Onward how p.worker.place o.poller.worker.place := by
  cases hp : p.worker.place with
  | inside point =>
      cases point with
      | handling a =>
          obtain ⟨e, hend, -⟩ := handled_of_inside (s := s) (u := now) (b := b) hp how
          cases h.symm.trans hend
          exact .loop
      | polling | idling => simp [step, Poller.handled, hp] at h
  | leaving reason point =>
      cases point with
      | handling a =>
          by_cases hh : how = .burst
          · subst hh
            cases h.symm.trans (burst_of_leaving hp)
            exact .shatter
          · cases h.symm.trans (handled_of_leaving hp hh)
            exact .hook hh
      | next => simp [step, Poller.handled, hp] at h
  | unstarted | between | finished => simp [step, Poller.handled, hp] at h

/-- A poller that is ready takes the oldest item, and when its handling has ended it is ready for
the next one, unless the handler panicked when it was called in the hook. -/
theorem Ready.round (hr : Ready p b start) (hb : b.queue.Backed)
    (hc : b.queue.ready.closed = false) (hf : 0 < b.queue.ready.free) (s : PollerSettings)
    (now u : Instant) (how : HandlerEnd) (hh : start = .drain → how ≠ .burst) :
    ∃ a o o', p.step s now b start = some o ∧
      o.poller.step s u o.bench (.handled how) = some o' ∧
      b.queue.items = a :: o'.bench.queue.items ∧
      o'.bench.queue.ready = { b.queue.ready with free := b.queue.ready.free - 1 } ∧
      (o.events ++ o'.events).flatMap Event.ends = [(a, how)] ∧
      Ready o'.poller o'.bench start := by
  cases hr with
  | loop draw hp hs =>
      obtain ⟨a, q, hi, hready, htake⟩ := turn_of_free draw hp hs hb hc hf
      obtain ⟨e, hend, he⟩ := handled_of_inside (p := { p with idle := s.minIdle }.moved _)
        (a := a) rfl how
      refine ⟨a, _, _, htake, hend, ?_, ?_, ?_, .loop draw rfl ?_⟩
      · rw [queue_tally, hi]
      · rw [queue_tally, hready]
      · rw [List.singleton_append, List.flatMap_cons, List.flatMap_cons, List.flatMap_singleton, he]
        rfl
      · simp [hs]
  | @hook reason hp hd =>
      obtain ⟨a, q, hi, hready, htake⟩ := drain_of_free hp hd hb hc hf
      have hend := handled_of_leaving (s := s) (u := u) (b := { b with queue := q })
        (p := p.moved (.leaving reason (.handling a))) rfl (hh rfl)
      refine ⟨a, _, _, htake, hend, ?_, ?_, rfl, .hook rfl ?_⟩
      · rw [queue_tally, hi]
      · rw [queue_tally, hready]
      · rw [drainOnStop_tally, hd]

/-- A panic of the handler at its call ends the hook, with one item more that is counted nowhere. -/
theorem Ready.outburst (hr : Ready p b .drain) (hb : b.queue.Backed)
    (hc : b.queue.ready.closed = false) (hf : 0 < b.queue.ready.free) (s : PollerSettings)
    (now u : Instant) :
    ∃ a o o', p.step s now b .drain = some o ∧
      o.poller.step s u o.bench (.handled .burst) = some o' ∧
      b.queue.items = a :: o'.bench.queue.items ∧
      (o.events ++ o'.events).flatMap Event.ends = [(a, .burst)] ∧
      (o'.bench.processed = b.processed ∧ o'.bench.failed = b.failed) ∧
      o'.poller.worker.place.isFinished := by
  cases hr with
  | @hook reason hp hd =>
      obtain ⟨a, q, hi, -, htake⟩ := drain_of_free hp hd hb hc hf
      exact ⟨a, _, _, htake, burst_of_leaving rfl, hi, rfl, ⟨rfl, rfl⟩, rfl⟩

/-- When no item is free, the hook ends. -/
theorem Ready.rest (hr : Ready p b .drain) (hf : b.queue.ready.free = 0) (s : PollerSettings)
    (now : Instant) :
    ∃ o, p.step s now b .drain = some o ∧ o.events = [.left false] ∧ o.bench = b ∧
      o.poller.worker.place.isFinished := by
  cases hr with
  | @hook reason hp hd =>
      have htake : b.queue.ready.tryTake = none := Permits.tryTake_eq_none.mpr (.inr hf)
      refine ⟨⟨[.left false], b, p.retired reason⟩, ?_, rfl, rfl, rfl⟩
      simp only [step, Poller.drain, hp, if_pos hd, Queue.tryPoll, htake, put_finishHook hp]
      rfl

end Poller

end Backpressure
