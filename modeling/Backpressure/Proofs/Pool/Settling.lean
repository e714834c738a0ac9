import Backpressure.Proofs.Pool.Handling
import Backpressure.Proofs.Pool.Unrest

/-!
# A moment comes to an end

A pool that is left alone settles.  At one moment only so many steps can be taken by its members, its
scaler and the calls that wait, and then each of them waits for a later one (`Run.subsides`).

*What it takes.*  Every iteration of the scaler begins with a sleep, so there has to be time between
two evaluations.  The settings of an elastic pool are not accepted without.  Those of a pool of a
fixed size are, and then its scaler never rests (`restless_of_unpaced`).

*What is left open.*  An iteration of a member that finds nothing takes no time if neither its poll
nor its sleep does.  Accepted settings do not rule that out.  Such sleepless turns are counted apart:
there are only so many steps for each of them.  They need polls without a wait or a queue that is
closed.
-/

namespace Backpressure

open Duration (ofMillis)

variable {α : Type}

/-! ## What is waited for -/

/-- A poller waits for a later moment, for its handler, or for nothing any more. -/
inductive Poller.Waits (now : Instant) (p : Poller α) : Prop where
  | polling {t : Ticket} {deadline : Instant} (hp : p.worker.place = .inside (.polling t deadline))
      (hd : now < deadline)
  | idling {ends : Instant} {woken : Bool} (hp : p.worker.place = .inside (.idling ends woken))
      (hd : now < ends)
  | engaged (he : p.Engaged)
  | ended (hp : p.worker.place.isFinished)

/-- The scaler waits for a later moment, or for nothing. -/
inductive Worker.ScalerWaits (now : Instant) (w : Worker ScalerPoint Unit) : Prop where
  | sleeping {ends : Instant} (hp : w.place = .inside (.sleeping ends)) (hd : now < ends)
  | retiring {r : Retirement} (hp : w.place = .inside (.replacing r) ∨ w.place = .inside (.shrinking r))
      (hd : now < r.deadline)
  | unstarted (hp : w.place = .unstarted)
  | ended (hp : w.place.isFinished)

namespace Poller

variable {s : PollerSettings} {now : Instant} {draw : Float} {p : Poller α} {b : Bench α}
  {o : Outcome α} {a : Action}

theorem polled_isSome {point : PollPoint α} {item : Option α}
    (hp : p.worker.place = .inside point) : (p.polled s now draw b item).isSome := by
  cases item with
  | some x =>
      rw [polled, goTo_eq (p := { p with idle := s.minIdle }) _ _ hp]
      rfl
  | none =>
      simp only [polled]
      split
      · rw [goTo_eq _ _ hp]
        rfl
      · rw [panic_eq hp]
        rfl

theorem turn_isSome (s : PollerSettings) (now : Instant) (draw : Float) (b : Bench α) {aside : Bool}
    (hp : p.worker.place = .between aside) : (p.turn s now draw b).isSome := by
  simp only [turn, put_turn _ hp]
  cases p.worker.stop with
  | true => rfl
  | false =>
      simp only [Bool.false_eq_true, if_false, worker_moved]
      split
      · exact polled_isSome rfl
      · split
        · exact polled_isSome rfl
        · exact polled_isSome rfl
        · rfl

/-- A poller that was not told to stop and rests waits for a later moment or for its handler. -/
theorem waits_of_rests (hl : p.worker.place.isLooping) (hr : p.Rests s now b) : p.Waits now := by
  cases hp : p.worker.place with
  | unstarted | leaving reason point | finished reason =>
      rw [hp] at hl
      cases hl
  | between aside =>
      have hsome := turn_isSome s now 0 b hp
      rw [show p.turn s now 0 b = none from hr (.turn 0) trivial] at hsome
      cases hsome
  | inside point =>
      cases point with
      | handling x => exact .engaged (.inside x hp)
      | idling ends woken =>
          refine .idling hp (Nat.lt_of_not_le fun hle => ?_)
          have hnone := hr .rise trivial
          simp only [step, rise, hp, if_pos hle] at hnone
          split at hnone
          · next d hd =>
              rw [finish_eq (p := { p with idle := d }) hp] at hnone
              cases hnone
          · rw [panic_eq hp] at hnone
            cases hnone
      | polling t deadline =>
          refine .polling hp (Nat.lt_of_not_le fun hle => ?_)
          have hnone := hr (.look 0) trivial
          simp only [step, look, hp, if_pos hle] at hnone
          have hsome : ∀ b' item, p.polled s now 0 b' item ≠ none := fun b' item =>
            Option.isSome_iff_ne_none.mp (polled_isSome hp)
          split at hnone <;> exact hsome _ _ hnone

/-- A turn that does not give way to a stop and is not sleepless ends with a wait. -/
theorem waits_of_turn (hb : b.queue.Backed) (hs : p.worker.stop = false)
    (hl : ¬p.Sleepless s now draw b) (h : p.step s now b (.turn draw) = some o) :
    o.poller.Waits now := by
  obtain ⟨-, hturning⟩ := turn_turning h
  cases hturning with
  | leaves hstop => simp [hs] at hstop
  | waits _ ht _ hp => exact .polling hp (lt_afterWait _ ht)
  | polls _ hq hp =>
      rcases hq with ⟨x, hplace⟩ | ⟨hempty, hwait⟩
      · exact .engaged (.inside x hplace)
      · have hunwaited := hwait.imp_right hb.closed_of_poll
        cases hp with
        | found x hplace => exact .engaged (.inside x hplace)
        | lull d hd hplace =>
            refine .idling hplace (Nat.lt_of_not_le fun hle => hl ⟨hs, hunwaited, ⟨_, hempty⟩, ?_⟩)
            intro d' hd'
            cases hd.symm.trans hd'
            exact hle
        | panic hd =>
            exact absurd ⟨hs, hunwaited, ⟨_, hempty⟩, fun d' hd' => by simp [hd] at hd'⟩ hl

/-- A poll ends before its time with an item, by a stop, or because the queue is closed. -/
theorem found_or_quit {t : Ticket} {deadline : Instant} (hb : b.queue.Backed)
    (hc : b.queue.isClosed = false) (hp : p.worker.place = .inside (.polling t deadline))
    (hd : now < deadline) (h : p.step s now b a = some o) :
    (∃ x, o.poller.worker.place = .inside (.handling x)) ∨ a = .quit ∧ p.worker.stop = true := by
  cases a with
  | look draw =>
      obtain ⟨t', deadline', hplace, -, hends⟩ := look_polling h
      cases hp.symm.trans hplace
      rcases hends with hfound | hle | hq
      · exact .inl hfound
      · exact absurd hle (Nat.not_le.mpr hd)
      · rw [hb.closed_of_resumePoll hq] at hc
        cases hc
  | quit => exact .inr ⟨rfl, (quit_between h).1⟩
  | turn draw =>
      obtain ⟨⟨aside, hplace⟩, -⟩ := turn_turning h
      cases hp.symm.trans hplace
  | rise | wake | handled how | drain =>
      simp [step, rise, wake, Poller.handled, drain, hp] at h

/-- A sleep ends before its time by a stop or a wake-up. -/
theorem quit_or_woken {ends : Instant} {woken : Bool}
    (hp : p.worker.place = .inside (.idling ends woken)) (hd : now < ends)
    (h : p.step s now b a = some o) :
    a = .quit ∧ p.worker.stop = true ∨ a = .wake ∧ woken = true := by
  cases a with
  | quit => exact .inl ⟨rfl, (quit_between h).1⟩
  | wake =>
      obtain ⟨⟨ends', hplace⟩, -⟩ := wake_between h
      cases hp.symm.trans hplace
      exact .inr ⟨rfl, rfl⟩
  | rise =>
      obtain ⟨⟨ends', woken', hplace, hle⟩, -⟩ := rise_between h
      cases hp.symm.trans hplace
      exact absurd hle (Nat.not_le.mpr hd)
  | turn draw =>
      obtain ⟨⟨aside, hplace⟩, -⟩ := turn_turning h
      cases hp.symm.trans hplace
  | look draw | handled how | drain => simp [step, look, Poller.handled, drain, hp] at h

/-- A poller whose polls do not wait and whose sleep has no length is where it was after a sleepless
turn and the end of the sleep. -/
theorem turn_rise {aside : Bool} {d : Duration} (hp : p.worker.place = .between aside)
    (hs : p.worker.stop = false) (ht : s.pollTimeout = 0)
    (hq : b.queue.tryPoll = (none, b.queue)) (hspread : Idle.spread s draw p.idle = some d)
    (hd : now.afterWait d ≤ now) (hincrease : Idle.increase s p.idle = some p.idle) :
    p.Sleepless s now draw b ∧
      p.step s now b (.turn draw) =
        some ⟨[], b, p.moved (.inside (.idling (now.afterWait d) false))⟩ ∧
      (p.moved (.inside (.idling (now.afterWait d) false))).step s now b .rise =
        some ⟨[.iterated], b, p.moved (.between false)⟩ := by
  refine ⟨⟨hs, .inl ht, ⟨_, hq⟩, fun d' hd' => ?_⟩, ?_, ?_⟩
  · cases hspread.symm.trans hd'
    exact hd
  · simp only [step, turn, put_turn _ hp, hs, Bool.false_eq_true, if_false, worker_moved, ht,
      if_true, hq, polled]
    have hsame : (p.moved (.inside (.polling b.nextTicket (now.afterWait 0)))).idle = p.idle := rfl
    rw [hsame, hspread]
    rfl
  · simp only [step, rise, worker_moved, if_pos hd]
    have hsame : (p.moved (.inside (.idling (now.afterWait d) false))).idle = p.idle := rfl
    rw [hsame, hincrease]
    rfl

end Poller

namespace Pool

variable {env : Surroundings α} {now t₀ t : Instant} {p q r : Pool α} {a : Action α}
  {o : PoolOutcome α} {c : CallId} {graceful : Bool} {afterStart : Option PoolError} {n m y z : Nat}
  {R : Regime α} {settings : PoolSettings} {h : History α}

/-! ## Steps at one moment -/

/-- Steps that a pool takes by itself at a moment: how many, and how many of them are sleepless
turns of members. -/
inductive Settling (now : Instant) (p : Pool α) : Nat → Nat → Pool α → Prop where
  | here : Settling now p 0 0 p
  /-- One more, that is no sleepless turn. -/
  | act {n z : Nat} {q : Pool α} {env : Surroundings α} {a : Action α} {o : PoolOutcome α} :
      Settling now p n z q → a.IsOwn → ¬q.Sleepless now a → q.step env now a = some o →
      Settling now p (n + 1) z o.pool
  | spin {n z : Nat} {q : Pool α} {env : Surroundings α} {a : Action α} {o : PoolOutcome α} :
      Settling now p n z q → q.Sleepless now a → q.step env now a = some o →
      Settling now p (n + 1) (z + 1) o.pool

theorem Settling.trans (hp : Settling now p n y q) (hq : Settling now q m z r) :
    Settling now p (n + m) (y + z) r := by
  induction hq with
  | here => exact hp
  | act _ ha hl hs ih => exact ih.act ha hl hs
  | spin _ hl hs ih => exact ih.spin hl hs

theorem Settling.run (hq : Settling now p n z q) {p₀ : Pool α} {h : History α}
    (run : Run .any t₀ p₀ h now p) : ∃ k, Run .any t₀ p₀ k now q := by
  induction hq with
  | here => exact ⟨h, run⟩
  | act _ _ _ hs ih | spin _ _ hs ih =>
      obtain ⟨k, hrun⟩ := ih
      exact ⟨_, hrun.act trivial hs⟩

/-- What settings have to do with the bound. -/
structure Paced (s : PoolSettings) : Prop where
  range : s.minWorkers ≤ s.maxWorkers
  interval : s.scaling.evaluateInterval ≠ 0

theorem Paced.step_unrest (hs : Paced settings) (run : Run R t₀ (ofSettings settings) h t p)
    (ha : a.IsOwn) (hstep : p.step env t a = some o) :
    o.pool.unrest t < p.unrest t ∨ p.Sleepless t a ∧ o.pool.unrest t ≤ p.unrest t + 1 := by
  have hsettings := run.settings_eq
  have hsized := (run.sized hs.range).length_le
  refine Pool.step_unrest ?_ ?_ ?_ run.promised.backed ha hstep
  · rw [hsettings]
    exact hs.range
  · rw [hsettings]
    exact hsized
  · rw [hsettings]
    exact hs.interval

/-- The steps at a moment and what can still be done are bounded, but for the sleepless turns. -/
theorem Settling.unrest_le (hs : Paced settings) (run : Run .any t₀ (ofSettings settings) h now p)
    (hq : Settling now p n z q) : n + q.unrest now ≤ p.unrest now + 2 * z := by
  induction hq with
  | here => omega
  | act hq ha hl hstep ih =>
      obtain ⟨k, hrun⟩ := hq.run run
      rcases hs.step_unrest hrun ha hstep with hlt | ⟨hsleepless, -⟩
      · omega
      · exact absurd hsleepless hl
  | spin hq hl hstep ih =>
      obtain ⟨k, hrun⟩ := hq.run run
      rcases hs.step_unrest hrun hl.isOwn hstep with hlt | ⟨-, hle⟩ <;> omega

/-- Whatever is done first, a pool comes to where nothing but sleepless turns can happen. -/
theorem Settling.exists_quiet (hs : Paced settings)
    (run : Run .any t₀ (ofSettings settings) h now p) (hq : Settling now p n 0 q) :
    ∃ n' q', Settling now p n' 0 q' ∧
      ∀ env a o, a.IsOwn → q'.step env now a = some o → q'.Sleepless now a := by
  -- by induction on what can still be done, which each step that is no sleepless turn lowers
  generalize hu : q.unrest now = u
  induction u using Nat.strongRecOn generalizing n q with
  | ind u ih =>
      by_cases hmore : ∃ env a o, a.IsOwn ∧ q.step env now a = some o ∧ ¬q.Sleepless now a
      · obtain ⟨env, a, o, ha, hstep, hl⟩ := hmore
        obtain ⟨k, hrun⟩ := hq.run run
        have hlower : o.pool.unrest now < u := by
          rcases hs.step_unrest hrun ha hstep with hlt | ⟨hsleepless, -⟩
          · exact hu ▸ hlt
          · exact absurd hsleepless hl
        exact ih _ hlower (hq.act ha hl hstep) rfl
      · refine ⟨n, q, hq, fun env a o ha hstep => ?_⟩
        exact Classical.byContradiction fun hl => hmore ⟨env, a, o, ha, hstep, hl⟩

/-! ## Closed queues -/

theorem retireAll_closed (hc : p.bench.queue.isClosed = true) (pending : List (MemberId × Instant))
    (n : Nat) :
    (p.retireAll now c graceful afterStart pending n).pool.bench.queue.isClosed = true := by
  by_cases hl : pending.filter (p.waitsFor now) = []
  · rw [retireAll_of_nil hl]
    rfl
  · rw [retireAll_of_ne_nil hl]
    simp only [await]
    rw [bench_sweep]
    exact hc

theorem retireCrew_closed (hc : p.bench.queue.isClosed = true) :
    (p.retireCrew now c graceful afterStart).pool.bench.queue.isClosed = true := by
  rw [retireCrew_eq]
  refine retireAll_closed ?_ _ _
  rw [bench_disbanded]
  cases graceful with
  | true => exact hc
  | false => rfl

/-- Nothing that a pool does by itself opens its queue. -/
theorem step_closed (ha : a.IsOwn) (hs : p.step env now a = some o)
    (hc : p.bench.queue.isClosed = true) : o.pool.bench.queue.isClosed = true := by
  have hd := step_deed hs
  cases hd with
  | spurned | queued | follows | abandoned | restarted | started | stuck | flushed => cases ha
  | opens ho | rushes ho => cases ho <;> cases ha
  | accepted ho | returned ho => cases ho <;> exact hc
  | followed hf => cases hf <;> exact hc
  | gathers => exact retireCrew_closed hc
  | sweeps => exact retireAll_closed hc _ _
  | member hm hstep => exact (Poller.step_deed hstep).draws.closed_eq.trans hc
  | scaler hstep =>
      rw [(scalerStep_chain hstep).eq_staff]
      exact hc

/-- With a wait for each poll, and as long as the queue is not closed, no turn is sleepless. -/
theorem Settling.awake (run : Run .any t₀ (ofSettings settings) h now p)
    (hq : Settling now p n z q) (ht : settings.poller.pollTimeout ≠ 0)
    (hc : q.bench.queue.isClosed = false) : z = 0 := by
  induction hq with
  | here => rfl
  | act hq ha hl hs ih =>
      refine ih (Bool.eq_false_iff.mpr fun hclosed => ?_)
      rw [step_closed ha hs hclosed] at hc
      cases hc
  | spin hq hl hs ih =>
      obtain ⟨k, hrun⟩ := hq.run run
      cases hl with
      | turn hm hl =>
          rcases hl.unwaited with hzero | hclosed
          · rw [hrun.settings_eq] at hzero
            exact absurd hzero ht
          · rw [step_closed (Sleepless.turn hm hl).isOwn hs hclosed] at hc
            cases hc

/-! ## The scaler -/

theorem afterRemoval_isSome (now : Instant) (next : Option Retirement) {point : ScalerPoint}
    (hp : o.pool.scaler.place = .inside point) : (afterRemoval calm now (next, o)).isSome := by
  cases next with
  | some r =>
      obtain ⟨w, hmove, -⟩ := moveScaling_of_inside (.replacing r) hp
      rw [afterRemoval, hmove]
      rfl
  | none =>
      -- calm surroundings refuse no name, so the policy is followed, and the iteration ends
      have hnone := spawnMany_ne_error now (o.pool.settings.minWorkers - o.pool.active.length) o.pool
        (rfl : calm.refusal = _)
      have hscaler := scaler_spawnMany calm now
        (o.pool.settings.minWorkers - o.pool.active.length) o.pool
      cases hs : o.pool.spawnMany calm now (o.pool.settings.minWorkers - o.pool.active.length) with
      | mk error made =>
          rw [hs] at hnone hscaler
          cases hnone
          obtain ⟨w, hend⟩ := endScaling_of_inside .done
            (o := { events := [.observed (made.pool.observe now)], pool := made.pool })
            ((congrArg Worker.place hscaler).trans hp)
          have hpolicy : made.pool.followPolicy calm now = some _ := hend
          rw [afterRemoval, fillUp, hs]
          simp only [hpolicy, Option.map_some, Option.isSome_some]

theorem IsSettled.scaler_eq_none (hs : p.IsSettled now) (b : ScalerAction) :
    p.scalerStep calm now b = none := hs calm (.scaler b) trivial

theorem IsSettled.scalerWaits (hs : p.IsSettled now) : p.scaler.ScalerWaits now := by
  cases hp : p.scaler.place with
  | unstarted => exact .unstarted hp
  | finished reason => exact .ended (by rw [hp]; rfl)
  | between aside =>
      have hnone := hs.scaler_eq_none .turn
      simp [scalerStep, putScaler, Worker.turn, hp] at hnone
  | leaving reason point =>
      have hnone := hs.scaler_eq_none .leave
      simp [scalerStep, putScaler, Worker.finishHook, hp] at hnone
  | inside point =>
      -- whoever is no longer waited for can be dismissed
      have hnext : ∀ {r : Retirement}, r.deadline ≤ now → (p.retireNext now r).isSome := by
        intro r hle
        have hsome := retireNext_isSome now r p
        rwa [Nat.max_eq_left hle] at hsome
      have hplace : ∀ {r : Retirement} {next : Option Retirement} {o : PoolOutcome α},
          p.retireNext now r = some (next, o) → o.pool.scaler.place = .inside point := by
        intro r next o hr
        rw [(retireNext_chain hr).eq_crew]
        exact hp
      cases point with
      | sleeping ends =>
          refine .sleeping hp (Nat.lt_of_not_le fun hle => ?_)
          have hnone := hs.scaler_eq_none .evaluate
          simp only [scalerStep, hp, if_neg (Nat.not_lt.mpr hle)] at hnone
          split at hnone
          · obtain ⟨w, hend⟩ := endScaling_of_inside .done (o := { pool := p }) hp
            rw [hend] at hnone
            cases hnone
          · cases hr : p.removeUnfit calm now with
            | mk next o =>
                have hplace : o.pool.scaler.place = .inside (.sleeping ends) := by
                  simp only [removeUnfit, List.partition_eq_filter_filter] at hr
                  rw [(retireInTurn_chain hr).eq_crew]
                  exact hp
                have hsome := afterRemoval_isSome now next hplace
                rw [← hr, hnone] at hsome
                cases hsome
      | replacing r =>
          refine .retiring (.inl hp) (Nat.lt_of_not_le fun hle => ?_)
          obtain ⟨⟨next, o⟩, hr⟩ := Option.isSome_iff_exists.mp (hnext hle)
          have hnone := hs.scaler_eq_none .retired
          have hsome := afterRemoval_isSome now next (hplace hr)
          simp only [scalerStep, hp, hr, Option.bind_some] at hnone
          rw [hnone] at hsome
          cases hsome
      | shrinking r =>
          refine .retiring (.inr hp) (Nat.lt_of_not_le fun hle => ?_)
          obtain ⟨⟨next, o⟩, hr⟩ := Option.isSome_iff_exists.mp (hnext hle)
          have hnone := hs.scaler_eq_none .retired
          simp only [scalerStep, hp, hr, Option.bind_some] at hnone
          cases next with
          | some r' =>
              obtain ⟨w, hmove, -⟩ := moveScaling_of_inside (.shrinking r') (hplace hr)
              cases hmove.symm.trans hnone
          | none =>
              obtain ⟨w, hend⟩ := endScaling_of_inside .done (hplace hr)
              cases hend.symm.trans hnone

theorem IsSettled.waits (run : Run R t₀ (ofSettings settings) h t p) (hs : p.IsSettled t)
    {m : Member α} (hm : m ∈ p.crew) : m.poller.Waits t := by
  cases run.sound m hm with
  | running hp hstop hl => exact Poller.waits_of_rests hl (hs.rests hm)
  | told hp hstop hl => exact .engaged (run.stops.engaged hs m hm (.inl hp))
  | stopped hp hstop hl => exact .ended hl

/-! ## Accepted settings -/

theorem scaling_check_of_elastic {s : PoolSettings} (hs : s.check = .ok ())
    (he : s.isElastic = true) : s.scaling.check = .ok () := by
  simp only [PoolSettings.check, he, if_true] at hs
  cases hp : s.poller.check with
  | error fault =>
      rw [hp] at hs
      repeat' split at hs
      all_goals cases hs
  | ok =>
      cases hscaling : s.scaling.check with
      | ok => rfl
      | error fault =>
          rw [hp, hscaling] at hs
          repeat' split at hs
          all_goals cases hs

/-- The settings of an elastic pool leave time between two evaluations. -/
theorem interval_pos_of_make {s : PoolSettings} (hs : make s = .ok p) (he : s.isElastic = true) :
    0 < s.scaling.evaluateInterval := by
  simp only [make] at hs
  split at hs
  · next hcheck =>
      refine Nat.pos_of_ne_zero fun hzero => ?_
      have hscaling := scaling_check_of_elastic hcheck he
      simp only [ScalingSettings.check, hzero, if_true] at hscaling
      split at hscaling <;> cases hscaling
  · cases hs

/-- An iteration that begins at a moment does not end at it. -/
structure Lasts (now : Instant) (p : Pool α) : Prop where
  /-- The scaler begins with a sleep that ends later. -/
  scaler : ∀ env o, p.step env now (.scaler .turn) = some o → p.scaler.stop = false →
    ∃ ends, o.pool.scaler.place = .inside (.sleeping ends) ∧ now < ends
  /-- Only a stop ends that sleep before. -/
  sleep : ∀ env b o ends, p.scaler.place = .inside (.sleeping ends) → now < ends →
    p.step env now (.scaler b) = some o → b = .quit ∧ p.scaler.stop = true
  /-- A member begins with something that lasts, unless its turn is sleepless. -/
  turn : ∀ env i draw o m, p.crew[i]? = some m → m.poller.worker.stop = false →
    ¬p.Sleepless now (.member i (.turn draw)) →
    p.step env now (.member i (.turn draw)) = some o →
      ∃ m', o.pool.crew[i]? = some m' ∧ m'.poller.Waits now
  /-- Only an item, a stop or a queue that is closed ends its poll before. -/
  poll : ∀ env i a o m t deadline, p.crew[i]? = some m →
    m.poller.worker.place = .inside (.polling t deadline) → now < deadline →
    p.bench.queue.isClosed = false → p.step env now (.member i a) = some o →
      (∃ x m', o.pool.crew[i]? = some m' ∧ m'.poller.worker.place = .inside (.handling x)) ∨
        a = .quit ∧ m.poller.worker.stop = true
  /-- Only a stop or a wake-up ends its sleep before. -/
  idle : ∀ env i a o m ends woken, p.crew[i]? = some m →
    m.poller.worker.place = .inside (.idling ends woken) → now < ends →
    p.step env now (.member i a) = some o →
      a = .quit ∧ m.poller.worker.stop = true ∨ a = .wake ∧ woken = true

/-- A pool settles at a moment. -/
structure Subsides (now : Instant) (p : Pool α) : Prop where
  /-- So many steps can happen by themselves, and two more for each sleepless turn. -/
  bounded : ∃ most, ∀ n z q, Settling now p n z q → n ≤ most + 2 * z
  /-- With a wait for each poll no turn is sleepless as long as the queue is not closed. -/
  awake : p.settings.poller.pollTimeout ≠ 0 → ∀ n z q, Settling now p n z q →
    q.bench.queue.isClosed = false → z = 0
  /-- Without sleepless turns the pool comes to where there is nothing else to be done. -/
  quiet : ∃ n q, Settling now p n 0 q ∧
    ∀ env a o, a.IsOwn → q.step env now a = some o → q.Sleepless now a
  waits : p.IsSettled now → (∀ m ∈ p.crew, m.poller.Waits now) ∧ p.scaler.ScalerWaits now
  lasts : p.Lasts now

theorem Run.lasts (hpaced : settings.scaling.evaluateInterval ≠ 0)
    (run : Run R t₀ (ofSettings settings) h t p) : p.Lasts t where
  scaler env o hs hstop := by
    simp only [step, scalerStep, putScaler, Worker.turn, Option.map_map, Option.map_eq_some_iff]
      at hs
    obtain ⟨w, hw, rfl⟩ := hs
    split at hw
    · cases hw
      refine ⟨t.afterWait p.settings.scaling.evaluateInterval, by simp [hstop], ?_⟩
      rw [run.settings_eq]
      exact Poller.lt_afterWait _ hpaced
    · cases hw
  sleep env b o ends hp hd hs := by
    cases b with
    | quit =>
        simp only [step, scalerStep, hp] at hs
        split at hs
        · next hstop => exact ⟨rfl, hstop⟩
        · cases hs
    | evaluate => simp [step, scalerStep, hp, hd] at hs
    | turn | retired | leave =>
        simp [step, scalerStep, hp, putScaler, Worker.turn, Worker.finishHook] at hs
  turn env i draw o m hm hstop hl hs := by
    obtain ⟨m', w, hm', hstep, rfl⟩ := memberStep_eq_some.mp hs
    cases hm.symm.trans hm'
    exact ⟨_, crew_acted hm w, Poller.waits_of_turn run.promised.backed hstop
      (fun hsleepless => hl (.turn hm hsleepless)) hstep⟩
  poll env i a o m ticket deadline hm hp hd hc hs := by
    obtain ⟨m', w, hm', hstep, rfl⟩ := memberStep_eq_some.mp hs
    cases hm.symm.trans hm'
    refine (Poller.found_or_quit run.promised.backed hc hp hd hstep).imp_left ?_
    rintro ⟨x, hx⟩
    exact ⟨x, _, crew_acted hm w, hx⟩
  idle env i a o m ends woken hm hp hd hs := by
    obtain ⟨m', w, hm', hstep, rfl⟩ := memberStep_eq_some.mp hs
    cases hm.symm.trans hm'
    exact Poller.quit_or_woken hp hd hstep

/-- A pool with accepted settings settles at each moment of each run, if it is elastic or there is
time between two evaluations. -/
theorem Run.subsides {p₀ : Pool α} (made : make settings = .ok p₀)
    (hpaced : settings.isElastic = true ∨ 0 < settings.scaling.evaluateInterval)
    (run : Run R t₀ p₀ h t p) : p.Subsides t := by
  have hinterval : settings.scaling.evaluateInterval ≠ 0 :=
    Nat.ne_of_gt (hpaced.elim (interval_pos_of_make made) id)
  have hs : Paced settings := ⟨min_le_max_of_make made, hinterval⟩
  obtain ⟨rfl, -⟩ := make_eq_ok made
  exact
    { bounded := ⟨p.unrest t, fun n z q hq =>
        Nat.le_trans (Nat.le_add_right _ _) (hq.unrest_le hs run.toAny)⟩
      awake := fun ht n z q hq hc => hq.awake run.toAny (by rwa [run.settings_eq] at ht) hc
      quiet := Settling.here.exists_quiet hs run.toAny
      waits := fun hsettled => ⟨fun m hm => hsettled.waits run hm, hsettled.scalerWaits⟩
      lasts := run.lasts hinterval }

/-- The first member waits for an item, and the scaler for its first evaluation. -/
def lull : List (Instant × Action Nat) :=
  [(0, .start), (0, .member 0 (.turn 0)), (0, .scaler .turn)]

theorem subsides_of_lull : ∃ h t p, make hastyTrio = .ok (ofSettings hastyTrio : Pool Nat) ∧
    hastyTrio.isElastic = true ∧ (ofSettings hastyTrio).play calm 0 lull = some (h, t, p) ∧
    p.crew.map (·.poller.next?) = [some (ofMillis 500)] ∧
    p.scaler.place = .inside (.sleeping (ofMillis 10)) ∧ p.Subsides t := by
  have hplay : ((ofSettings hastyTrio).play calm 0 lull).map
      (fun w => (w.2.2.crew.map (·.poller.next?), w.2.2.scaler.place)) =
      some ([some (ofMillis 500)], .inside (.sleeping (ofMillis 10))) := by
    rfl
  obtain ⟨h, t, p, hp, he⟩ := play_of_map hplay
  simp only [Prod.mk.injEq] at he
  obtain ⟨hcrew, hscaler⟩ := he
  have hmade : make hastyTrio = .ok (ofSettings hastyTrio : Pool Nat) := by rfl
  have hrun : Run .any 0 _ h t p := Run.play (fun _ _ _ => trivial) hp
  exact ⟨h, t, p, hmade, rfl, hp, hcrew, hscaler, hrun.subsides hmade (.inl rfl)⟩

/-! ## Settings that are accepted all the same -/

/-- A hasty pool without time between two evaluations. -/
def unpaced : PoolSettings := { hasty with scaling := { evaluateInterval := 0 } }

/-- A hasty pool that may have two members, whose polls do not wait and whose sleeps have no
length. -/
def sleeplessPair : PoolSettings :=
  { hasty with maxWorkers := 2, poller := { pollTimeout := 0, minIdle := 0, maxIdle := 0 } }

/-- Steps that lead back to where they began can be taken again and again. -/
theorem Settling.again (hp : Settling now p n z p) (k : Nat) : Settling now p (n * k) (z * k) p := by
  induction k with
  | zero => exact .here
  | succ k ih => exact ih.trans hp

def begun (s : PoolSettings) : Pool Nat :=
  ((ofSettings s : Pool Nat).step calm 0 .start).elim (ofSettings s) (·.pool)

theorem unpaced_cycle : Settling 0 (begun unpaced) 2 0 (begun unpaced) := by
  have hcycle : ((begun unpaced).step calm 0 (.scaler .turn)).bind
      (fun o => (o.pool.step calm 0 (.scaler .evaluate)).map (·.pool)) = some (begun unpaced) := by
    rfl
  obtain ⟨o, hturn, hrest⟩ := Option.bind_eq_some_iff.mp hcycle
  obtain ⟨o', hevaluate, hback⟩ := Option.map_eq_some_iff.mp hrest
  have hfirst : Settling 0 (begun unpaced) 1 0 o.pool :=
    Settling.here.act (a := .scaler .turn) trivial (by intro hl; cases hl) hturn
  have hsecond : Settling 0 (begun unpaced) 2 0 o'.pool :=
    hfirst.act (a := .scaler .evaluate) trivial (by intro hl; cases hl) hevaluate
  rwa [hback] at hsecond

theorem sleepless_cycle : Settling 0 (begun sleeplessPair) 2 1 (begun sleeplessPair) := by
  let m : Member Nat := { name := "worker-0", poller := .fresh sleeplessPair.poller, joined := 0 }
  have hm : (begun sleeplessPair).crew[0]? = some m := rfl
  have hspread : Idle.spread sleeplessPair.poller 0 m.poller.idle = some 0 := by decide +kernel
  have hincrease : Idle.increase sleeplessPair.poller m.poller.idle = some m.poller.idle := by
    decide +kernel
  have hnow : Instant.afterWait 0 0 ≤ 0 := by decide
  obtain ⟨hl, hturn, hrise⟩ := Poller.turn_rise (b := (begun sleeplessPair).bench) rfl rfl rfl rfl
    hspread hnow hincrease
  let w : Poller.Outcome Nat :=
    ⟨[], (begun sleeplessPair).bench, m.poller.moved (.inside (.idling (Instant.afterWait 0 0) false))⟩
  have hfirst := Settling.here.spin (.turn hm hl) (step_member calm hm hturn)
  have hup : ((begun sleeplessPair).acted 0 w).pool.step calm 0 (.member 0 .rise) = some _ :=
    step_member calm (crew_acted hm w) hrise
  have hsecond := hfirst.act (a := .member 0 .rise) trivial (by intro hl; cases hl) hup
  exact hsecond

/-- There are accepted settings with which there is no end of steps at the first moment: of a pool of
a fixed size, whose scaler evaluates without a pause, and of an elastic one, whose member polls
without a pause. -/
theorem restless_of_unpaced :
    (make unpaced = .ok (ofSettings unpaced : Pool Nat) ∧
      (∃ h, (ofSettings unpaced).play calm 0 [(0, .start)] = some (h, 0, begun unpaced)) ∧
        ∀ n, Settling 0 (begun unpaced) (2 * n) 0 (begun unpaced)) ∧
    make sleeplessPair = .ok (ofSettings sleeplessPair : Pool Nat) ∧
      sleeplessPair.isElastic = true ∧
      (∃ h, (ofSettings sleeplessPair).play calm 0 [(0, .start)] =
        some (h, 0, begun sleeplessPair)) ∧
        ∀ n, Settling 0 (begun sleeplessPair) (2 * n) n (begun sleeplessPair) := by
  refine ⟨⟨rfl, ⟨_, rfl⟩, fun n => ?_⟩, by rfl, rfl, ⟨_, rfl⟩, fun n => ?_⟩
  · have hagain := unpaced_cycle.again n
    rwa [Nat.zero_mul] at hagain
  · have hagain := sleepless_cycle.again n
    rwa [Nat.one_mul] at hagain

end Pool

end Backpressure
