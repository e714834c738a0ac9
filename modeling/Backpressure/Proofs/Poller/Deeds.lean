import Backpressure.Poller.Basic
import Backpressure.Proofs.Queue.Effects

/-!
# What a poller can do

`Poller.Deed` lists everything that one action of a poller can come to, with the
times and the draws left out: where its loop stands before and after, what happens
to the queue, and what can be seen.  `Poller.step_deed` says that the list is
complete, so that whatever holds of all deeds holds of all actions.

*Without an item.*  An iteration that got no item goes to sleep, or ends with a
panic when there is no length for the sleep.  This is a `Lull`.

*With an item.*  An item is taken in three places: when an iteration begins, when
a poll that waited has its turn, and in the hook.
-/

namespace Backpressure.Poller

variable {α : Type}

/-- The poller with its loop at another place. -/
def moved (p : Poller α) (place : Place (PollPoint α) (DrainPoint α)) : Poller α :=
  { p with worker := { p.worker with place } }

/-- The poller after its hook. -/
def retired (p : Poller α) (reason : ExitReason) : Poller α :=
  { p with worker := { p.worker with phase := .stopped, place := .finished reason } }

/-- How an iteration goes on without an item. -/
inductive Lull : Place (PollPoint α) (DrainPoint α) → List (Event α) → Prop where
  /-- It goes to sleep. -/
  | sleep {ends : Instant} : Lull (.inside (.idling ends false)) []
  /-- It ends with a panic. -/
  | panic : Lull (.between true) [.panicked]

/-- What one action of a poller can come to. -/
inductive Deed (p : Poller α) (b : Bench α) : List (Event α) → Poller α → Bench α → Prop where
  /-- The loop leaves for the hook. -/
  | leave {aside : Bool} (hp : p.worker.place = .between aside) (hs : p.worker.stop = true) :
      Deed p b [] (p.moved (.leaving .stopRequested .next)) b
  /-- An iteration begins and has to wait for an item. -/
  | wait {aside : Bool} {deadline : Instant} {queue : Queue α}
      (hp : p.worker.place = .between aside) (hs : p.worker.stop = false)
      (hq : b.queue.poll b.nextTicket = (.waiting, queue)) :
      Deed p b [] (p.moved (.inside (.polling b.nextTicket deadline)))
        { b with queue, nextTicket := b.nextTicket + 1 }
  /-- An iteration begins with an item. -/
  | take (idle : Duration) {aside : Bool} {a : α} {queue : Queue α}
      (hp : p.worker.place = .between aside) (hs : p.worker.stop = false)
      (hq : b.queue.tryPoll = (some a, queue)) :
      Deed p b [.began a] ({ p with idle }.moved (.inside (.handling a))) { b with queue }
  /-- An iteration begins without an item. -/
  | miss {aside : Bool} {queue : Queue α} {place : Place (PollPoint α) (DrainPoint α)}
      {events : List (Event α)}
      (hp : p.worker.place = .between aside) (hs : p.worker.stop = false)
      (hq : b.queue.tryPoll = (none, queue)) (hl : Lull place events) :
      Deed p b events (p.moved place) { b with queue }
  /-- A poll that waited gets its item. -/
  | served (idle : Duration) {t : Ticket} {deadline : Instant} {a : α} {queue : Queue α}
      (hp : p.worker.place = .inside (.polling t deadline))
      (hq : b.queue.resumePoll t = (.item a, queue)) :
      Deed p b [.began a] ({ p with idle }.moved (.inside (.handling a))) { b with queue }
  /-- A poll that waited is sent away. -/
  | unserved {t : Ticket} {deadline : Instant} {queue : Queue α}
      {place : Place (PollPoint α) (DrainPoint α)} {events : List (Event α)}
      (hp : p.worker.place = .inside (.polling t deadline))
      (hq : b.queue.resumePoll t = (.nothing, queue)) (hl : Lull place events) :
      Deed p b events (p.moved place) { b with queue }
  /-- A poll that waited gives up at its deadline. -/
  | late {t : Ticket} {deadline : Instant} {queue : Queue α}
      {place : Place (PollPoint α) (DrainPoint α)} {events : List (Event α)}
      (hp : p.worker.place = .inside (.polling t deadline))
      (hq : b.queue.resumePoll t = (.waiting, queue)) (hl : Lull place events) :
      Deed p b events (p.moved place) { b with queue := b.queue.leavePoll t }
  /-- A poll that waited gives way to a stop. -/
  | quit {t : Ticket} {deadline : Instant}
      (hp : p.worker.place = .inside (.polling t deadline)) (hs : p.worker.stop = true) :
      Deed p b [.iterated] (p.moved (.between false)) { b with queue := b.queue.leavePoll t }
  /-- A sleep ends. -/
  | rouse (idle : Duration) {ends : Instant} {woken aside : Bool} {e : Event α}
      (hp : p.worker.place = .inside (.idling ends woken)) (he : e = .iterated ∨ e = .panicked) :
      Deed p b [e] ({ p with idle }.moved (.between aside)) b
  /-- The handling of an item ends inside an iteration. -/
  | handled {a : α} {how : HandlerEnd}
      (hp : p.worker.place = .inside (.handling a)) (hh : how ≠ .burst) :
      Deed p b [.ended a how, .iterated] ((p.tally how b).1.moved (.between false)) (p.tally how b).2
  /-- A handler panics when it is called inside an iteration. -/
  | burst {a : α} (hp : p.worker.place = .inside (.handling a)) :
      Deed p b [.ended a .burst, .panicked] (p.moved (.between true)) b
  /-- The hook takes an item. -/
  | drain {reason : ExitReason} {a : α} {queue : Queue α}
      (hp : p.worker.place = .leaving reason .next) (hd : b.drainOnStop = true)
      (hq : b.queue.tryPoll = (some a, queue)) :
      Deed p b [.began a] (p.moved (.leaving reason (.handling a))) { b with queue }
  /-- The hook finds no item, or is not to look for one, and ends. -/
  | finish {reason : ExitReason} {queue : Queue α}
      (hp : p.worker.place = .leaving reason .next)
      (hq : if b.drainOnStop then b.queue.tryPoll = (none, queue) else queue = b.queue) :
      Deed p b [.left false] (p.retired reason) { b with queue }
  /-- The handling of an item ends inside the hook. -/
  | drained {reason : ExitReason} {a : α} {how : HandlerEnd}
      (hp : p.worker.place = .leaving reason (.handling a)) (hh : how ≠ .burst) :
      Deed p b [.ended a how] ((p.tally how b).1.moved (.leaving reason .next)) (p.tally how b).2
  /-- A handler panics when it is called inside the hook, and ends it. -/
  | shattered {reason : ExitReason} {a : α}
      (hp : p.worker.place = .leaving reason (.handling a)) :
      Deed p b [.ended a .burst, .left true] (p.retired reason) b

variable {s : PollerSettings} {now : Instant} {draw : Float} {p : Poller α} {b : Bench α}
  {o : Outcome α}

/-! ## The moves of the loop -/

@[simp] theorem worker_moved (place : Place (PollPoint α) (DrainPoint α)) :
    (p.moved place).worker = { p.worker with place } := rfl

/-- Between two iterations the loop looks at its stop flag: it leaves for the hook or begins an
iteration. -/
theorem put_turn {aside : Bool} (first : PollPoint α) (hp : p.worker.place = .between aside) :
    p.put (p.worker.turn first hook) =
      some (p.moved (if p.worker.stop then .leaving .stopRequested .next else .inside first)) := by
  simp only [put, Worker.turn, hp, Option.map_some]
  rfl

/-- The loop has its turn only between two iterations. -/
theorem put_turn_eq_none {first : PollPoint α} (hp : ∀ aside, p.worker.place ≠ .between aside) :
    p.put (p.worker.turn first hook) = none := by
  unfold put Worker.turn
  split
  · next aside h => exact absurd h (hp aside)
  · rfl

theorem goTo_eq {point : PollPoint α} (point' : PollPoint α) (events : List (Event α))
    (hp : p.worker.place = .inside point) :
    p.goTo b point' events = some ⟨events, b, p.moved (.inside point')⟩ := by
  simp only [goTo, put, Worker.move, hp, Option.map_some]
  rfl

/-- After a panic of an iteration the loop steps aside once. -/
theorem panic_eq {point : PollPoint α} (hp : p.worker.place = .inside point) :
    p.panic b = some ⟨[.panicked], b, p.moved (.between true)⟩ := by
  simp only [panic, put, Worker.finish, hp, Option.map_some]
  rfl

theorem finish_eq {point : PollPoint α} (hp : p.worker.place = .inside point) :
    p.finish b = some ⟨[.iterated], b, p.moved (.between false)⟩ := by
  simp only [finish, put, Worker.finish, hp, Option.map_some]
  rfl

theorem put_moveHook {reason : ExitReason} {point : DrainPoint α} (point' : DrainPoint α)
    (hp : p.worker.place = .leaving reason point) :
    p.put (p.worker.moveHook point') = some (p.moved (.leaving reason point')) := by
  simp only [put, Worker.moveHook, hp, Option.map_some]
  rfl

theorem put_finishHook {reason : ExitReason} {point : DrainPoint α}
    (hp : p.worker.place = .leaving reason point) :
    p.put p.worker.finishHook = some (p.retired reason) := by
  simp only [put, Worker.finishHook, hp, Option.map_some]
  rfl

/-- Counting an item does not move the loop. -/
@[simp] theorem worker_tally (how : HandlerEnd) : (p.tally how b).1.worker = p.worker := by
  cases how <;> rfl

@[simp] theorem queue_tally (how : HandlerEnd) : (p.tally how b).2.queue = b.queue := by
  cases how <;> rfl

@[simp] theorem drainOnStop_tally (how : HandlerEnd) :
    (p.tally how b).2.drainOnStop = b.drainOnStop := by
  cases how <;> rfl

/-! ## What an iteration does after its poll -/

/-- With an item the idle time starts anew, and the item is handled. -/
theorem polled_some {point : PollPoint α} {a : α} (hp : p.worker.place = .inside point)
    (h : p.polled s now draw b (some a) = some o) :
    o = ⟨[.began a], b, { p with idle := s.minIdle }.moved (.inside (.handling a))⟩ := by
  simp only [polled] at h
  rw [goTo_eq (p := { p with idle := s.minIdle }) _ _ hp] at h
  exact (Option.some.inj h).symm

/-- Without an item there is a lull. -/
theorem polled_none {point : PollPoint α} (hp : p.worker.place = .inside point)
    (h : p.polled s now draw b none = some o) :
    ∃ place events, Lull place events ∧ o = ⟨events, b, p.moved place⟩ := by
  simp only [polled] at h
  split at h
  · rw [goTo_eq _ _ hp] at h
    exact ⟨_, _, .sleep, (Option.some.inj h).symm⟩
  · rw [panic_eq hp] at h
    exact ⟨_, _, .panic, (Option.some.inj h).symm⟩

/-! ## One lemma for each action -/

/-- A poll that need not wait and one that may wait come to the same deeds, as long as they do not
wait. -/
theorem turn_deed (h : p.turn s now draw b = some o) : Deed p b o.events o.poller o.bench := by
  simp only [turn] at h
  by_cases hb : ∃ aside, p.worker.place = .between aside
  · obtain ⟨aside, hp⟩ := hb
    rw [put_turn _ hp] at h
    cases hs : p.worker.stop with
    | true =>
        rw [hs] at h
        cases h
        exact .leave hp hs
    | false =>
        rw [hs] at h
        simp only [Bool.false_eq_true, if_false, worker_moved] at h
        split at h
        · cases hq : b.queue.tryPoll with
          | mk item queue =>
              rw [hq] at h
              cases item with
              | some a =>
                  rw [polled_some rfl h]
                  exact .take s.minIdle hp hs hq
              | none =>
                  obtain ⟨place, events, hl, rfl⟩ := polled_none rfl h
                  exact .miss hp hs hq hl
        · split at h
          · next a queue hq =>
              rw [polled_some rfl h]
              exact .take s.minIdle hp hs (Queue.poll_eq_item hq)
          · next queue hq =>
              obtain ⟨place, events, hl, rfl⟩ := polled_none rfl h
              exact .miss hp hs (Queue.poll_eq_nothing hq) hl
          · next queue hq =>
              cases h
              exact .wait hp hs hq
  · rw [put_turn_eq_none fun aside hp => hb ⟨aside, hp⟩] at h
    cases h

/-- A poll that waited first has its turn, and only then looks at its deadline. -/
theorem look_deed (h : p.look s now draw b = some o) : Deed p b o.events o.poller o.bench := by
  simp only [look] at h
  split at h
  · next t deadline hp =>
      split at h
      · next a queue hq =>
          rw [polled_some hp h]
          exact .served s.minIdle hp hq
      · next queue hq =>
          obtain ⟨place, events, hl, rfl⟩ := polled_none hp h
          exact .unserved hp hq hl
      · next queue hq =>
          split at h
          · obtain ⟨place, events, hl, rfl⟩ := polled_none hp h
            obtain ⟨-, -, rfl⟩ := Queue.resumePoll_eq_waiting hq
            exact .late hp hq hl
          · cases h
  · cases h

/-- A stop ends a poll that waits, and a sleep; it does not end the handling of an item. -/
theorem quit_deed (h : p.quit b = some o) : Deed p b o.events o.poller o.bench := by
  simp only [quit] at h
  split at h
  · next hs =>
      split at h
      · next t deadline hp =>
          rw [finish_eq hp] at h
          cases h
          exact .quit hp hs
      · next ends woken hp =>
          rw [finish_eq hp] at h
          cases h
          exact .rouse p.idle hp (.inl rfl)
      · cases h
  · cases h

theorem rise_deed (h : p.rise s now b = some o) : Deed p b o.events o.poller o.bench := by
  simp only [rise] at h
  split at h
  · next ends woken hp =>
      split at h
      · split at h
        · next idle _ =>
            rw [finish_eq (p := { p with idle }) hp] at h
            cases h
            exact .rouse idle hp (.inl rfl)
        · rw [panic_eq hp] at h
          cases h
          exact .rouse p.idle hp (.inr rfl)
      · cases h
  · cases h

theorem wake_deed (h : p.wake s b = some o) : Deed p b o.events o.poller o.bench := by
  simp only [wake] at h
  split at h
  · next ends hp =>
      rw [finish_eq (p := { p with idle := s.minIdle }) hp] at h
      cases h
      exact .rouse s.minIdle hp (.inl rfl)
  · cases h

/-- Where the handling ends, in an iteration or in the hook, says what comes after it. -/
theorem handled_deed {how : HandlerEnd} (h : p.handled how b = some o) :
    Deed p b o.events o.poller o.bench := by
  simp only [Poller.handled] at h
  split at h
  · next a hp =>
      by_cases hh : how = .burst
      · subst hh
        rw [if_pos rfl, panic_eq (by rw [worker_tally]; exact hp)] at h
        cases h
        exact .burst hp
      · rw [if_neg hh, finish_eq (by rw [worker_tally]; exact hp)] at h
        cases h
        exact .handled hp hh
  · next reason a hp =>
      by_cases hh : how = .burst
      · subst hh
        rw [if_pos rfl, put_finishHook (by rw [worker_tally]; exact hp)] at h
        cases h
        exact .shattered hp
      · rw [if_neg hh, put_moveHook _ (by rw [worker_tally]; exact hp)] at h
        cases h
        exact .drained hp hh
  · cases h

theorem drain_deed (h : p.drain b = some o) : Deed p b o.events o.poller o.bench := by
  simp only [Poller.drain] at h
  split at h
  · next reason hp =>
      split at h
      · next hd =>
          split at h
          · next a queue hq =>
              rw [put_moveHook _ hp] at h
              cases h
              exact .drain hp hd hq
          · next queue hq =>
              rw [put_finishHook hp] at h
              cases h
              exact .finish hp (by rw [if_pos hd]; exact hq)
      · next hd =>
          rw [put_finishHook hp] at h
          cases h
          exact .finish hp (by rw [if_neg hd] : if b.drainOnStop then _ else b.queue = b.queue)
  · cases h

/-- Whatever a poller does is one of its deeds. -/
theorem step_deed {a : Action} (h : p.step s now b a = some o) :
    Deed p b o.events o.poller o.bench := by
  cases a with
  | turn draw => exact turn_deed h
  | look draw => exact look_deed h
  | quit => exact quit_deed h
  | rise => exact rise_deed h
  | wake => exact wake_deed h
  | handled how => exact handled_deed h
  | drain => exact drain_deed h

/-! ## What all deeds leave alone -/

/-- No deed ends offers or lets them begin again. -/
theorem Deed.isSealed_eq {es : List (Event α)} {p' : Poller α} {b' : Bench α}
    (hd : Deed p b es p' b') : b'.queue.isSealed = b.queue.isSealed := by
  cases hd with
  | leave | quit | late | rouse | burst | shattered => rfl
  | wait hp hs hq =>
      obtain ⟨-, -, rfl⟩ := Queue.poll_eq_waiting hq
      rfl
  | take idle hp hs hq | drain hp hd hq =>
      obtain ⟨r, rest, -, -, rfl⟩ := Queue.tryPoll_eq_some hq
      exact Queue.isSealed_without r rest
  | miss hp hs hq hl => rcases Queue.tryPoll_eq_none hq with ⟨-, rfl⟩ | ⟨r, -, -, rfl⟩ <;> rfl
  | served idle hp hq =>
      obtain ⟨rest, -, -, -, rfl⟩ := Queue.resumePoll_eq_item hq
      exact Queue.isSealed_without _ rest
  | unserved hp hq hl =>
      rcases Queue.resumePoll_eq_nothing hq with ⟨-, -, -, rfl⟩ | ⟨-, rfl⟩ <;> rfl
  | handled | drained => rw [queue_tally]
  | finish hp hq =>
      split at hq
      · rcases Queue.tryPoll_eq_none hq with ⟨-, rfl⟩ | ⟨r, -, -, rfl⟩ <;> rfl
      · rw [hq]

end Backpressure.Poller
