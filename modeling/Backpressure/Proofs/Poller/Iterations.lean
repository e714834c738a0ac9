import Backpressure.Proofs.Poller.Deeds
import Backpressure.Proofs.Queue.Stock

/-!
# How the iterations of a poller go on

A deed leaves out the times and the draws.  Here they are put back, for what depends on them: when
a poll and a sleep end, and what the idle interval is then.

*A poll that ends* has found an item, or comes to a sleep, or to a panic because there is no length
for the sleep (`Polling`).  *A turn of the loop* begins the hook or an iteration, whose poll waits
or ends at once (`Turning`).

A poll finds nothing before its time only at a queue that is closed
(`Queue.Backed.closed_of_poll`).
-/

namespace Backpressure

variable {α : Type}

namespace Queue

variable {q q' : Queue α} {t : Ticket}

/-- Without a wait a poll finds nothing only if the queue is closed. -/
theorem Backed.closed_of_poll (hb : q.Backed) (h : q.poll t = (.nothing, q')) :
    q.isClosed = true := by
  cases hc : q.isClosed with
  | true => rfl
  | false =>
      obtain ⟨-, hnone⟩ := (tryPoll_backed (poll_eq_nothing h) hb).2 rfl
      simp [poll, hnone, hc] at h

/-- A poll that waited is sent away only if the queue is closed. -/
theorem Backed.closed_of_resumePoll (hb : q.Backed) (h : q.resumePoll t = (.nothing, q')) :
    q.isClosed = true := by
  rcases resumePoll_eq_nothing h with ⟨hc, hg, hi, -⟩ | ⟨hc, -⟩
  · have hlength := hb hc
    have hpos := List.length_pos_of_mem hg
    rw [hi, Permits.stock, List.length_nil] at hlength
    omega
  · exact hc

end Queue

namespace Poller

variable {s : PollerSettings} {now : Instant} {draw : Float} {p : Poller α} {b : Bench α}
  {o : Outcome α} {current : Duration}

/-- What the end of a poll comes to. -/
inductive Polling (s : PollerSettings) (now : Instant) (draw : Float) (current : Duration)
    (o : Outcome α) : Prop where
  | found (a : α) (hp : o.poller.worker.place = .inside (.handling a)) (he : o.events = [.began a])
      (hi : o.poller.idle = s.minIdle)
  | lull (d : Duration) (hd : Idle.spread s draw current = some d)
      (hp : o.poller.worker.place = .inside (.idling (now.afterWait d) false)) (he : o.events = [])
      (hi : o.poller.idle = current)
  /-- There is no length for the sleep. -/
  | panic (hd : Idle.spread s draw current = none) (hp : o.poller.worker.place = .between true)
      (he : o.events = [.panicked]) (hi : o.poller.idle = current)

/-- What a turn of the loop comes to. -/
inductive Turning (s : PollerSettings) (now : Instant) (draw : Float) (p : Poller α) (b : Bench α)
    (o : Outcome α) : Prop where
  | leaves (hs : p.worker.stop = true)
      (hp : o.poller.worker.place = .leaving .stopRequested .next) (he : o.events = [])
      (hi : o.poller.idle = p.idle)
  /-- An iteration begins with a poll that waits. -/
  | waits (hs : p.worker.stop = false) (ht : s.pollTimeout ≠ 0)
      (hq : b.queue.poll b.nextTicket = (.waiting, o.bench.queue))
      (hp : o.poller.worker.place =
        .inside (.polling b.nextTicket (now.afterWait s.pollTimeout))) (he : o.events = [])
      (hi : o.poller.idle = p.idle)
  /-- An iteration begins with a poll that ends at once. -/
  | polls (hs : p.worker.stop = false)
      (hq : (∃ a, o.poller.worker.place = .inside (.handling a)) ∨
        b.queue.tryPoll = (none, o.bench.queue) ∧
          (s.pollTimeout = 0 ∨ b.queue.poll b.nextTicket = (.nothing, o.bench.queue)))
      (hp : Polling s now draw p.idle o)

theorem polled_polling {point : PollPoint α} {item : Option α}
    (hp : p.worker.place = .inside point) (h : p.polled s now draw b item = some o) :
    Polling s now draw p.idle o ∧ o.bench = b ∧
      (item = none ∨ ∃ a, o.poller.worker.place = .inside (.handling a)) := by
  cases item with
  | some a =>
      rw [polled_some hp h]
      exact ⟨.found a rfl rfl rfl, rfl, .inr ⟨a, rfl⟩⟩
  | none =>
      simp only [polled] at h
      split at h
      · next d hd =>
          rw [goTo_eq _ _ hp] at h
          cases h
          exact ⟨.lull d hd rfl rfl rfl, rfl, .inl rfl⟩
      · next hd =>
          rw [panic_eq hp] at h
          cases h
          exact ⟨.panic hd rfl rfl rfl, rfl, .inl rfl⟩

theorem turn_turning (h : p.turn s now draw b = some o) :
    (∃ aside, p.worker.place = .between aside) ∧ Turning s now draw p b o := by
  by_cases hb : ∃ aside, p.worker.place = .between aside
  · refine ⟨hb, ?_⟩
    obtain ⟨aside, hp⟩ := hb
    simp only [turn, put_turn _ hp] at h
    cases hs : p.worker.stop with
    | true =>
        rw [hs] at h
        cases h
        exact .leaves hs rfl rfl rfl
    | false =>
        rw [hs] at h
        simp only [Bool.false_eq_true, if_false, worker_moved] at h
        split at h
        · next ht =>
            obtain ⟨hpolling, hbench, hitem⟩ := polled_polling rfl h
            refine .polls hs (hitem.symm.imp_right fun hnone => ⟨?_, .inl ht⟩) hpolling
            rw [hbench]
            exact Prod.ext hnone rfl
        · next ht =>
            split at h
            · next a queue hq =>
                obtain ⟨hpolling, -, hitem⟩ := polled_polling rfl h
                exact .polls hs (.inl (hitem.resolve_left (by simp))) hpolling
            · next queue hq =>
                obtain ⟨hpolling, hbench, -⟩ := polled_polling rfl h
                refine .polls hs (.inr ?_) hpolling
                rw [hbench]
                exact ⟨Queue.poll_eq_nothing hq, .inr hq⟩
            · next queue hq =>
                cases h
                exact .waits hs ht hq rfl rfl rfl
  · simp only [turn] at h
    rw [put_turn_eq_none fun aside hp => hb ⟨aside, hp⟩] at h
    cases h

/-- A poll that waited ends with an item, at its deadline, or because it is sent away. -/
theorem look_polling (h : p.look s now draw b = some o) :
    ∃ t deadline, p.worker.place = .inside (.polling t deadline) ∧ Polling s now draw p.idle o ∧
      ((∃ a, o.poller.worker.place = .inside (.handling a)) ∨ deadline ≤ now ∨
        b.queue.resumePoll t = (.nothing, o.bench.queue)) := by
  simp only [look] at h
  split at h
  · next t deadline hp =>
      refine ⟨t, deadline, hp, ?_⟩
      split at h
      · next a queue hq =>
          obtain ⟨hpolling, -, hitem⟩ := polled_polling hp h
          exact ⟨hpolling, .inl (hitem.resolve_left (by simp))⟩
      · next queue hq =>
          obtain ⟨hpolling, hbench, -⟩ := polled_polling hp h
          exact ⟨hpolling, .inr (.inr (by rw [hbench]; exact hq))⟩
      · split at h
        · next hle =>
            obtain ⟨hpolling, -, -⟩ := polled_polling hp h
            exact ⟨hpolling, .inr (.inl hle)⟩
        · cases h
  · cases h

theorem quit_between (h : p.quit b = some o) :
    p.worker.stop = true ∧
      ((∃ t deadline, p.worker.place = .inside (.polling t deadline)) ∨
        ∃ ends woken, p.worker.place = .inside (.idling ends woken)) ∧
      o.poller.worker.place = .between false ∧ o.events = [.iterated] ∧ o.poller.idle = p.idle := by
  simp only [quit] at h
  split at h
  · next hs =>
      split at h
      · next t deadline hp =>
          rw [finish_eq hp] at h
          cases h
          exact ⟨hs, .inl ⟨t, deadline, hp⟩, rfl, rfl, rfl⟩
      · next ends woken hp =>
          rw [finish_eq hp] at h
          cases h
          exact ⟨hs, .inr ⟨ends, woken, hp⟩, rfl, rfl, rfl⟩
      · cases h
  · cases h

/-- A sleep that is ended by a wake-up ends the iteration. -/
theorem wake_between (h : p.wake s b = some o) :
    (∃ ends, p.worker.place = .inside (.idling ends true)) ∧
      o.poller.worker.place = .between false ∧ o.events = [.iterated] ∧
      o.poller.idle = s.minIdle := by
  simp only [wake] at h
  split at h
  · next ends hp =>
      rw [finish_eq (p := { p with idle := s.minIdle }) hp] at h
      cases h
      exact ⟨⟨ends, hp⟩, rfl, rfl, rfl⟩
  · cases h

/-- A sleep that runs out ends the iteration, with a panic if there is no next interval. -/
theorem rise_between (h : p.rise s now b = some o) :
    (∃ ends woken, p.worker.place = .inside (.idling ends woken) ∧ ends ≤ now) ∧
      (∃ aside, o.poller.worker.place = .between aside) ∧
      ((∃ d, Idle.increase s p.idle = some d ∧ o.events = [.iterated] ∧ o.poller.idle = d) ∨
        Idle.increase s p.idle = none ∧ o.events = [.panicked] ∧ o.poller.idle = p.idle) := by
  simp only [rise] at h
  split at h
  · next ends woken hp =>
      split at h
      · next hle =>
          refine ⟨⟨ends, woken, hp, hle⟩, ?_⟩
          split at h
          · next d hd =>
              rw [finish_eq (p := { p with idle := d }) hp] at h
              cases h
              exact ⟨⟨false, rfl⟩, .inl ⟨d, hd, rfl, rfl⟩⟩
          · next hd =>
              rw [panic_eq hp] at h
              cases h
              exact ⟨⟨true, rfl⟩, .inr ⟨hd, rfl, rfl⟩⟩
      · cases h
  · cases h

end Poller

end Backpressure
