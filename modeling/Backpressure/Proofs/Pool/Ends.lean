import Backpressure.Proofs.Pool.Flow
import Backpressure.Proofs.Pool.Run

/-!
# Before the start and after the stop

A pool that was not started is as it was made, but for the calls that it has
answered: nobody works for it, nothing is in its queue, and no call waits.  A pool
that is stopped has nothing in its queue, and nothing gets in any more.
-/

namespace Backpressure.Pool

variable {α : Type}

/-- The pool is as it was made, but for the calls that it has answered. -/
def IsNew (p : Pool α) : Prop :=
  ∃ s n rejected, p = { ofSettings s with nextCall := n, rejected := rejected }

/-- Nothing is in the queue, and nothing gets in. -/
structure Shut (p : Pool α) : Prop where
  /-- The queue is empty. -/
  items : p.bench.queue.items = []
  sealed : p.bench.queue.slots.closed = true

/-- What holds before the start and after the stop. -/
structure Ends (p : Pool α) : Prop where
  /-- Before the start. -/
  created : p.phase = .created → p.IsNew
  /-- After the stop. -/
  stopped : p.phase = .stopped → p.Shut

variable {env : Surroundings α} {now : Instant} {p q : Pool α} {a : Action α} {o : PoolOutcome α}
  {c : CallId} {graceful : Bool} {afterStart : Option PoolError} {es : List (PoolEvent α)}

theorem Ends.first (s : PoolSettings) : Ends (ofSettings s : Pool α) where
  created _ := ⟨s, 0, 0, rfl⟩
  stopped h := by cases h

/-- Once the pool was started, only its stop matters. -/
theorem Ends.of_stopped (hp : q.phase ≠ .created) (hs : q.phase = .stopped → q.Shut) : Ends q :=
  ⟨fun h => absurd h hp, hs⟩

/-- What keeps the phase need only keep what holds in it. -/
theorem Ends.of_phase_eq (he : Ends p) (hq : q.phase = p.phase) (hnew : p.IsNew → q.IsNew)
    (hshut : p.Shut → q.Shut) : Ends q :=
  ⟨fun h => hnew (he.created (hq ▸ h)), fun h => hshut (he.stopped (hq ▸ h))⟩

theorem IsNew.items_eq (hp : p.IsNew) : p.bench.queue.items = [] := by
  obtain ⟨s, n, rejected, rfl⟩ := hp
  rfl

theorem IsNew.calls_eq (hp : p.IsNew) : p.calls = [] := by
  obtain ⟨s, n, rejected, rfl⟩ := hp
  rfl

/-- No call waits before the start. -/
theorem Ends.phase_ne_created (he : Ends p) {e : PoolErrand α} (hc : p.calls.lookup c = some e) :
    p.phase ≠ .created := by
  intro hp
  rw [(he.created hp).calls_eq] at hc
  cases hc

theorem Shut.flow (hs : Shut p) (hf : Flow p es q)
    (hq : q.bench.queue.slots.closed = p.bench.queue.slots.closed) : Shut q where
  items := (List.append_eq_nil_iff.mp (hf.items ▸ hs.items)).2
  sealed := hq.trans hs.sealed

/-- The scaler cannot move before it is started. -/
theorem scalerStep_of_unstarted {b : ScalerAction} (hp : p.scaler.place = .unstarted) :
    p.scalerStep env now b = none := by
  cases b <;> simp [scalerStep, hp, putScaler, Worker.turn, Worker.finishHook]

theorem retireAll_ends {pending : List (MemberId × Instant)} {n : Nat} (hp : p.phase ≠ .created)
    (hs : p.phase = .stopped → p.Shut) :
    Ends (p.retireAll now c graceful afterStart pending n).pool := by
  by_cases hl : pending.filter (p.waitsFor now) = []
  · rw [retireAll_of_nil hl]
    exact ⟨(by intro h; cases h), fun _ => ⟨rfl, rfl⟩⟩
  · rw [retireAll_of_ne_nil hl]
    refine .of_stopped (by simpa [await] using hp) fun h => ?_
    have hshut := hs (by simpa [await] using h)
    exact ⟨by simpa [await] using hshut.items, by simpa [await] using hshut.sealed⟩

theorem retireCrew_ends (hp : p.phase ≠ .created) (hs : p.phase = .stopped → p.Shut) :
    Ends (p.retireCrew now c graceful afterStart).pool := by
  rw [retireCrew_eq]
  refine retireAll_ends (by simpa using hp) fun h => ?_
  have hshut := hs (by simpa using h)
  refine ⟨?_, ?_⟩
  · cases graceful with
    | true => simpa [sealed, Queue.sealUp] using hshut.items
    | false => simp [sealed, discardAll, Queue.closeAndClear]
  · cases graceful <;>
      simp [sealed, discardAll, Queue.closeAndClear, Queue.close, Queue.sealUp, Permits.close]

/-- Every step keeps what holds before the start and after the stop. -/
theorem Ends.keep (he : Ends p) (hd : Deed env now p a o) : Ends o.pool := by
  cases hd with
  | spurned hp =>
      refine he.of_phase_eq rfl ?_ fun hs => ⟨hs.items, hs.sealed⟩
      rintro ⟨s, n, rejected, rfl⟩
      exact ⟨s, n + 1, rejected + 1, rfl⟩
  | accepted ho hq hs =>
      have hphase : p.phase ≠ .created ∧ p.phase ≠ .stopped := by
        cases ho with
        | new hp => simp [hp]
        | waited hc =>
            refine ⟨he.phase_ne_created hc, fun h => ?_⟩
            rw [(he.stopped h).sealed] at hq
            cases hq
      cases ho <;> exact ⟨fun h => absurd h hphase.1, fun h => absurd h hphase.2⟩
  | returned ho hs =>
      cases ho with
      | new hp => exact .of_stopped (by simp [endOffer, answer, named, hp]) (by simp [endOffer, answer, named, hp])
      | waited hc =>
          exact .of_stopped (he.phase_ne_created hc) fun h =>
            ⟨(he.stopped h).items, hs.trans (he.stopped h).sealed⟩
  | queued hp hs => exact .of_stopped (by simp [await, named, hp]) (by simp [await, named, hp])
  | followed hf hr =>
      cases hf with
      | new hp =>
          refine .of_stopped ?_ fun h => ⟨(he.stopped h).items, (he.stopped h).sealed⟩
          rcases hp with hp | hp <;> simp [endShutdown, answer, named, hp]
      | waited hc =>
          exact .of_stopped (he.phase_ne_created hc) fun h =>
            ⟨(he.stopped h).items, (he.stopped h).sealed⟩
  | follows hp => exact .of_stopped (by simp [await, named, hp]) (by simp [await, named, hp])
  | abandoned hp => exact ⟨(by intro h; cases h), fun _ => ⟨rfl, rfl⟩⟩
  | opens ho hw => exact .of_stopped (by intro h; cases h) (by intro h; cases h)
  | rushes ho hw => exact retireCrew_ends (by intro h; cases h) (by intro h; cases h)
  | gathers hc hw => exact retireCrew_ends (he.phase_ne_created hc) he.stopped
  | sweeps hc => exact retireAll_ends (he.phase_ne_created hc) he.stopped
  | restarted hp => exact .of_stopped hp fun h => ⟨(he.stopped h).items, (he.stopped h).sealed⟩
  | started hp hs hw | stuck hp hs hw =>
      have hphase := congrArg Pool.phase (spawnMany_chain hs).eq_staff
      exact .of_stopped (by simp [answer, hphase]) (by simp [answer, hphase])
  | flushed =>
      refine he.of_phase_eq rfl ?_ fun hs => ⟨hs.items, hs.sealed⟩
      rintro ⟨s, n, rejected, rfl⟩
      exact ⟨s, n, rejected, rfl⟩
  | member hm hs =>
      refine he.of_phase_eq rfl ?_ fun hshut => ?_
      · rintro ⟨s, n, rejected, rfl⟩
        cases hm
      · have hdeed := Poller.step_deed hs
        exact hshut.flow (member_flow hm hdeed.flow) hdeed.isSealed_eq
  | scaler hs =>
      have hstaff := (scalerStep_chain hs).eq_staff
      refine he.of_phase_eq (by rw [hstaff]) ?_ fun hshut => ?_
      · rintro ⟨s, n, rejected, rfl⟩
        rw [scalerStep_of_unstarted rfl] at hs
        cases hs
      · rw [hstaff]
        exact ⟨hshut.items, hshut.sealed⟩

/-- What holds before the start and after the stop holds along every run of a new pool. -/
theorem Run.ends {R : Regime α} {t₀ t : Instant} {s : PoolSettings} {h : History α}
    (run : Run R t₀ (ofSettings s) h t p) : Ends p :=
  run.invariant (I := fun _ p => Ends p) (Ends.first s) fun he _ hs => he.keep (step_deed hs)

/-! ## Settings -/

/-- A pool that is made has been made of settings that are accepted. -/
theorem make_eq_ok {s : PoolSettings} (hs : make s = .ok p) : p = ofSettings s ∧ 0 < s.minWorkers := by
  simp only [make] at hs
  split at hs
  · next hcheck =>
      cases hs
      refine ⟨rfl, Nat.pos_of_ne_zero fun hzero => ?_⟩
      simp only [PoolSettings.check, if_pos hzero] at hcheck
      cases hcheck
  · cases hs

theorem settings_retireAll (pending : List (MemberId × Instant)) (n : Nat) :
    (p.retireAll now c graceful afterStart pending n).pool.settings = p.settings := by
  by_cases hl : pending.filter (p.waitsFor now) = []
  · rw [retireAll_of_nil hl]
    exact settings_sweep pending n
  · rw [retireAll_of_ne_nil hl]
    exact settings_sweep pending n

theorem settings_retireCrew : (p.retireCrew now c graceful afterStart).pool.settings = p.settings := by
  rw [retireCrew_eq, PoolOutcome.after, settings_retireAll, settings_disbanded, settings_sealed]

theorem Opening.settings_eq {p' : Pool α} (ho : Opening env now p a c graceful afterStart es p') :
    p'.settings = p.settings := by
  cases ho with
  | asked hp => rfl
  | failed hp hs => rw [(spawnMany_chain hs).eq_staff]; rfl

/-- Nothing changes the settings. -/
theorem Deed.settings_eq (hd : Deed env now p a o) : o.pool.settings = p.settings := by
  cases hd with
  | spurned | queued | follows | abandoned | restarted | flushed | member => rfl
  | accepted ho | returned ho => cases ho <;> rfl
  | followed hf => cases hf <;> rfl
  | opens ho hw => exact ho.settings_eq
  | rushes ho hw => exact settings_retireCrew.trans ho.settings_eq
  | gathers => exact settings_retireCrew
  | sweeps => exact settings_retireAll _ _
  | started hp hs hw | stuck hp hs hw =>
      have hsettings := congrArg Pool.settings (spawnMany_chain hs).eq_staff
      exact hsettings
  | scaler hs => rw [(scalerStep_chain hs).eq_staff]

/-- The settings are the same all along a run. -/
theorem Run.settings_eq {R : Regime α} {t₀ t : Instant} {p₀ : Pool α} {h : History α}
    (run : Run R t₀ p₀ h t p) : p.settings = p₀.settings :=
  run.invariant (I := fun _ p => p.settings = p₀.settings) rfl fun he _ hs =>
    (step_deed hs).settings_eq.trans he

end Backpressure.Pool
