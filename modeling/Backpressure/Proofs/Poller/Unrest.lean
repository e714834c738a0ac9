import Backpressure.Proofs.Poller.Iterations
import Backpressure.Proofs.Pool.Stopping

/-!
# How much a poller can still do at a moment

`Poller.unrest` is a number that goes down with every step that a poller takes by itself, as long as
no time passes.  Two things in it are not as one might expect.

*Closing.*  A queue that is closed sends away whoever polls, so that an iteration goes on that had
come to rest.  A queue that is still open therefore counts.

*Sleepless turns.*  A turn of the loop may find nothing at once, without a wait for the poll, and
then have a sleep that is over at once, or none.  The whole iteration takes no time, and nothing
has gone down when the loop has its next turn.  `Poller.Sleepless` is such a turn, and
`Poller.step_unrest` says that no other step fails to lower the number.
-/

namespace Backpressure.Poller

variable {α : Type} {s : PollerSettings} {now : Instant} {draw : Float} {closed : Bool}
  {p : Poller α} {b : Bench α} {o : Outcome α} {a : Action}

/-- What the place of a poller adds to the bound. -/
def urge (now : Instant) (closed stop : Bool) : Place (PollPoint α) (DrainPoint α) → Nat
  | .between _ => if stop = true then 2 else 5
  | .inside (.polling _ deadline) =>
    if stop = false ∧ (closed = true ∨ deadline ≤ now) then 7 else 4
  | .inside (.idling ends woken) => if stop = false ∧ (woken = true ∨ ends ≤ now) then 6 else 3
  | .leaving _ .next => 1
  | .unstarted | .finished _ | .inside (.handling _) | .leaving _ (.handling _) => 0

/-- What a queue adds to the bound of each of its pollers. -/
def reserve (closed : Bool) : Nat := if closed = true then 0 else 3

/-- A bound for the steps that a poller can take by itself at a moment. -/
def unrest (now : Instant) (closed : Bool) (p : Poller α) : Nat :=
  urge now closed p.worker.stop p.worker.place + reserve closed

/-- A turn that finds nothing at once, with a sleep that is over at once. -/
structure Sleepless (s : PollerSettings) (now : Instant) (draw : Float) (p : Poller α)
    (b : Bench α) : Prop where
  untold : p.worker.stop = false
  /-- Its polls have no wait, or the queue sends them away. -/
  unwaited : s.pollTimeout = 0 ∨ b.queue.isClosed = true
  empty : ∃ q, b.queue.tryPoll = (none, q)
  /-- Its sleep has no length, or is over at the same moment. -/
  still : ∀ d, Idle.spread s draw p.idle = some d → now.afterWait d ≤ now

theorem lt_afterWait (now : Instant) {d : Duration} (hd : d ≠ 0) : now < now.afterWait d :=
  Nat.lt_of_lt_of_le (Nat.lt_add_of_pos_right (Nat.pos_of_ne_zero hd)) (now.le_afterWait d)

/-! ## What others do -/

theorem unrest_told_le : p.told.unrest now closed ≤ p.unrest now closed := by
  refine Nat.add_le_add_right ?_ _
  show urge now closed true p.worker.place ≤ urge now closed p.worker.stop p.worker.place
  cases p.worker.place with
  | unstarted | finished reason => exact Nat.le_refl _
  | leaving reason point => cases point <;> exact Nat.le_refl _
  | between aside =>
      simp only [urge, if_true]
      split <;> omega
  | inside point =>
      cases point with
      | handling x => exact Nat.le_refl _
      | polling t deadline | idling ends woken =>
          simp only [urge, Bool.true_eq_false, false_and, if_false]
          split <;> omega

/-- The end of polls wakes nobody who was not counted as long as there were polls. -/
theorem unrest_closed_le : p.unrest now true ≤ p.unrest now closed := by
  cases closed with
  | true => exact Nat.le_refl _
  | false =>
      simp only [unrest]
      cases p.worker.place with
      | unstarted | finished reason | between aside => exact Nat.le_add_right _ _
      | leaving reason point => cases point <;> exact Nat.le_add_right _ _
      | inside point =>
          cases point with
          | handling x | idling ends woken => exact Nat.le_add_right _ _
          | polling t deadline =>
              simp only [urge, reserve, if_true, Bool.false_eq_true, if_false]
              split <;> split <;> omega

theorem unrest_fresh_le : (Poller.fresh s : Poller α).unrest now closed ≤ 8 := by
  cases closed <;> exact Nat.le_of_ble_eq_true rfl

/-! ## What the poller does -/

/-- A poll that ends leaves less unrest than a turn of the loop finds, but for a sleep that is over
at once. -/
theorem Polling.urge_le {current : Duration} (h : Polling s now draw current o) (closed : Bool) :
    (∀ d, Idle.spread s draw current = some d → now.afterWait d ≤ now) ∧
        urge now closed o.poller.worker.stop o.poller.worker.place ≤
          (if o.poller.worker.stop = true then 3 else 6) ∨
      urge now closed o.poller.worker.stop o.poller.worker.place ≤ 3 := by
  cases h with
  | found a hp =>
      rw [hp]
      exact .inr (Nat.zero_le _)
  | lull d hd hp =>
      rw [hp]
      by_cases hle : now.afterWait d ≤ now
      · refine .inl ⟨fun d' hd' => ?_, ?_⟩
        · cases hd.symm.trans hd'
          exact hle
        · cases o.poller.worker.stop <;> simp [urge, hle]
      · exact .inr (by simp [urge, hle])
  | panic hd hp =>
      rw [hp]
      refine .inl ⟨fun d' hd' => by simp [hd] at hd', ?_⟩
      cases o.poller.worker.stop <;> simp [urge]

theorem turn_unrest (hb : b.queue.Backed) (h : p.turn s now draw b = some o)
    (hstop : o.poller.worker.stop = p.worker.stop)
    (hclosed : o.bench.queue.isClosed = b.queue.isClosed) :
    o.poller.unrest now o.bench.queue.isClosed < p.unrest now b.queue.isClosed ∨
      p.Sleepless s now draw b ∧
        o.poller.unrest now o.bench.queue.isClosed ≤ p.unrest now b.queue.isClosed + 1 := by
  obtain ⟨⟨aside, hbetween⟩, hturning⟩ := turn_turning h
  simp only [unrest, hclosed, hbetween]
  cases hturning with
  | leaves hs hp =>
      rw [hp, hs]
      exact .inl (Nat.add_lt_add_right (Nat.lt_succ_self 1) _)
  | waits hs ht hq hp =>
      -- the poll is in time, and the queue is not closed, so it counts for less than the turn
      have hopen : b.queue.isClosed = false := (Queue.poll_eq_waiting hq).1
      have hlater := Nat.not_le.mpr (lt_afterWait now ht)
      rw [hp, hs]
      exact .inl (by simp [urge, hopen, hlater])
  | polls hs hq hp =>
      have hle := hp.urge_le b.queue.isClosed
      have hturn : urge now b.queue.isClosed p.worker.stop (.between aside : Place (PollPoint α) _) = 5 := by
        simp [urge, hs]
      have hsix : (if o.poller.worker.stop = true then 3 else 6) = 6 := by simp [hstop, hs]
      rw [hsix] at hle
      rw [hturn]
      rcases hq with ⟨a, hplace⟩ | ⟨hempty, hwait⟩
      · rw [hplace]
        exact .inl (Nat.add_lt_add_right (Nat.succ_pos 4) _)
      · rcases hle with ⟨hstill, hle⟩ | hle
        · exact .inr ⟨⟨hs, hwait.imp_right hb.closed_of_poll, ⟨_, hempty⟩, hstill⟩, by omega⟩
        · exact .inl (by omega)

theorem look_unrest (hb : b.queue.Backed) (h : p.look s now draw b = some o)
    (hstop : o.poller.worker.stop = p.worker.stop)
    (hclosed : o.bench.queue.isClosed = b.queue.isClosed) :
    o.poller.unrest now o.bench.queue.isClosed < p.unrest now b.queue.isClosed := by
  obtain ⟨t, deadline, hplace, hp, hends⟩ := look_polling h
  have hle := hp.urge_le b.queue.isClosed
  simp only [unrest, hclosed]
  refine Nat.add_lt_add_right ?_ _
  rw [hplace]
  rcases hends with ⟨a, hfound⟩ | hends
  · rw [hfound]
    simp only [urge]
    split <;> omega
  · have hover : b.queue.isClosed = true ∨ deadline ≤ now :=
      hends.symm.imp_left hb.closed_of_resumePoll
    have hpoll : urge now b.queue.isClosed p.worker.stop
        (.inside (.polling t deadline) : Place (PollPoint α) _) =
          if p.worker.stop = true then 4 else 7 := by
      cases p.worker.stop <;> simp [urge, hover]
    rw [hpoll]
    rw [hstop] at hle ⊢
    cases hs : p.worker.stop with
    | false =>
        simp only [hs, Bool.false_eq_true, if_false] at hle ⊢
        omega
    | true =>
        simp only [hs, if_true] at hle ⊢
        omega

/-- An iteration that is over by a stop, a wake-up or the end of a sleep. -/
theorem unrest_lt_of_inside {aside : Bool} (hp : o.poller.worker.place = .between aside)
    (hstop : o.poller.worker.stop = p.worker.stop)
    (hover : (∃ t deadline, p.worker.place = .inside (.polling t deadline)) ∧
        p.worker.stop = true ∨
      ∃ ends woken, p.worker.place = .inside (.idling ends woken) ∧
        (p.worker.stop = true ∨ woken = true ∨ ends ≤ now)) :
    o.poller.unrest now closed < p.unrest now closed := by
  refine Nat.add_lt_add_right ?_ _
  rw [hp, hstop]
  rcases hover with ⟨⟨t, deadline, hplace⟩, hs⟩ | ⟨ends, woken, hplace, hover⟩
  · simp [urge, hplace, hs]
  · rw [hplace]
    cases hs : p.worker.stop with
    | true => simp [urge]
    | false =>
        have hends : woken = true ∨ ends ≤ now := hover.resolve_left (by simp [hs])
        simp [urge, hends]

theorem drain_unrest (h : p.drain b = some o) : o.poller.unrest now closed < p.unrest now closed := by
  refine Nat.add_lt_add_right ?_ _
  simp only [drain] at h
  split at h
  · next reason hplace =>
      rw [put_finishHook hplace] at h
      rw [hplace]
      split at h
      · split at h
        · rw [put_moveHook _ hplace] at h
          cases h
          exact Nat.succ_pos 0
        · cases h
          exact Nat.succ_pos 0
      · cases h
        exact Nat.succ_pos 0
  · cases h

/-- Every step that a poller takes by itself lowers the bound, but for a sleepless turn. -/
theorem step_unrest (ha : a.IsOwn) (hb : b.queue.Backed) (h : p.step s now b a = some o) :
    o.poller.unrest now o.bench.queue.isClosed < p.unrest now b.queue.isClosed ∨
      (∃ draw, a = .turn draw ∧ p.Sleepless s now draw b) ∧
        o.poller.unrest now o.bench.queue.isClosed ≤ p.unrest now b.queue.isClosed + 1 := by
  have hdeed := step_deed h
  have hstop := hdeed.stop_eq
  have hclosed : o.bench.queue.isClosed = b.queue.isClosed := hdeed.draws.closed_eq
  cases a with
  | handled how => cases ha
  | turn draw => exact (turn_unrest hb h hstop hclosed).imp_right (.imp_left fun hl => ⟨draw, rfl, hl⟩)
  | look draw => exact .inl (look_unrest hb h hstop hclosed)
  | quit =>
      obtain ⟨hs, hplace, hbetween, -⟩ := quit_between h
      rw [hclosed]
      refine .inl (unrest_lt_of_inside hbetween hstop (hplace.imp (⟨·, hs⟩) ?_))
      rintro ⟨ends, woken, hplace⟩
      exact ⟨ends, woken, hplace, .inl hs⟩
  | wake =>
      obtain ⟨⟨ends, hplace⟩, hbetween, -⟩ := wake_between h
      rw [hclosed]
      exact .inl (unrest_lt_of_inside hbetween hstop (.inr ⟨ends, true, hplace, .inr (.inl rfl)⟩))
  | rise =>
      obtain ⟨⟨ends, woken, hplace, hle⟩, ⟨aside, hbetween⟩, -⟩ := rise_between h
      rw [hclosed]
      exact .inl (unrest_lt_of_inside hbetween hstop (.inr ⟨ends, woken, hplace, .inr (.inr hle)⟩))
  | drain =>
      rw [hclosed]
      exact .inl (drain_unrest h)

end Backpressure.Poller
