import Backpressure.Proofs.Pool.Phases
import Backpressure.Proofs.Pool.Stragglers

/-!
# When a stop is final

A pool that is stopped stays stopped, but a stop is not always the end.  The scaler
looks at the phase before it takes out the unfit, and not again after it has waited
for them.  When the shutdown has given up on it in the meantime, it makes up for the
members that are missing, and nobody will ever stop those.

So a stop is final just when nobody is active by then and the scaler is not about to
replace anybody.  A pool *at rest* stays at rest, and makes no member.
-/

namespace Backpressure.Pool

open Relation (ReflTransGen)
open Duration (ofMillis)

variable {α : Type}

/-- From now on nobody is active and no member is made. -/
def Final (t : Instant) (p : Pool α) : Prop :=
  ∀ k u q, Run .any t p k u q → q.active = [] ∧ q.isAlive = false ∧ ∀ name, .created name ∉ k.events

/-- A pool is stopped for good. -/
structure AtRest (p : Pool α) : Prop where
  phase : p.phase = .stopped
  /-- Nobody is active. -/
  active : p.active = []
  /-- The scaler is not about to replace anybody. -/
  scaler : ∀ r, p.scaler.place ≠ .inside (.replacing r)

variable {env : Surroundings α} {now : Instant} {p q : Pool α} {a : Action α} {o : PoolOutcome α}
  {h : History α}

/-! ## Rest -/

theorem AtRest.of_eq (hr : AtRest p) (hp : q.phase = p.phase) (ha : q.active = p.active)
    (hs : q.scaler = p.scaler) : AtRest q where
  phase := hp.trans hr.phase
  active := ha.trans hr.active
  scaler := by
    rw [hs]
    exact hr.scaler

/-- Every step leaves a pool at rest, and makes no member. -/
theorem AtRest.keep (hr : AtRest p) (hl : Led p) (hs : Deed env now p a o) :
    AtRest o.pool ∧ ∀ name, .created name ∉ o.events := by
  have hstopped := hr.phase
  cases hs with
  | spurned | restarted => exact ⟨hr.of_eq rfl rfl rfl, by simp [answer]⟩
  | accepted ho | returned ho =>
      cases ho with
      | new hp => simp [hp] at hstopped
      | waited hc => exact ⟨hr.of_eq rfl rfl rfl, by simp [endOffer, answer]⟩
  | queued hp | follows hp | abandoned hp | started hp | stuck hp => simp [hp] at hstopped
  | followed hf => cases hf <;> exact ⟨hr.of_eq rfl rfl rfl, by simp [endShutdown, answer]⟩
  | opens ho | rushes ho => rcases ho.phase_eq with hp | hp <;> simp [hp] at hstopped
  | gathers hc | sweeps hc => simp [hl.phase_eq (mem_of_lookup hc) rfl] at hstopped
  | flushed => exact ⟨hr.of_eq rfl rfl rfl, by simp⟩
  | member hm hs' => exact ⟨hr.of_eq rfl rfl rfl, by simp⟩
  | scaler hs' =>
      obtain ⟨hactive, hnone, hplace⟩ := (scalerStep_deed hs').idle (by simp [hstopped]) hr.scaler
      have hphase := congrArg Pool.phase (scalerStep_chain hs').eq_staff
      exact ⟨⟨hphase.trans hstopped, hactive.trans hr.active, hplace⟩, hnone⟩

theorem isAlive_of_active (ha : p.active = []) : p.isAlive = false := by
  simp [isAlive, members, ha]

/-- A pool at rest stays at rest. -/
theorem AtRest.final {R : Regime α} {t₀ t : Instant} {s : PoolSettings} (hr : AtRest p)
    (run : Run R t₀ (ofSettings s) h t p) : Final t p := by
  intro k u q next
  have hrest : AtRest q ∧ ∀ name, .created name ∉ k.events := by
    induction next with
    | here => exact ⟨hr, (by intro i h; cases h)⟩
    | act next _ hs ih =>
        obtain ⟨hq, hnone⟩ := ih.1.keep (run.toAny.trans next).led (step_deed hs)
        refine ⟨hq, fun name he => ?_⟩
        rw [History.events_append, History.events_ofStep] at he
        exact (List.mem_append.mp he).elim (ih.2 name) (hnone name)
    | pass _ _ ih => exact ih
  exact ⟨hrest.1.active, isAlive_of_active hrest.1.active, hrest.2⟩

/-! ## A scaler that is about to replace somebody -/

theorem retireInTurn_rest {l : List MemberId} {r : Retirement}
    (h : p.retireInTurn now l = (some r, o)) : r.rest.length < l.length := by
  induction l generalizing p o with
  | nil => cases h
  | cons i l ih =>
      simp only [retireInTurn] at h
      split at h
      · cases h
        exact Nat.lt_succ_self _
      · obtain ⟨he, -⟩ := Prod.mk.inj h
        exact Nat.lt_succ_of_lt (ih (Prod.ext he rfl))

/-- Whoever is waited for, that ends. -/
theorem retireNext_isSome (now : Instant) (r : Retirement) (p : Pool α) :
    (p.retireNext (max now r.deadline) r).isSome := by
  rw [retireNext, Option.isSome_map, stopWait]
  split
  · simp only [Worker.stopWait]
    split
    · rfl
    · rw [if_pos (Nat.le_max_right _ _)]
      rfl
  · rfl

theorem endScaling_of_inside (how : IterationEnd) {point : ScalerPoint}
    (hp : o.pool.scaler.place = .inside point) :
    ∃ w : Worker ScalerPoint Unit, endScaling o how = some { o with pool.scaler := w } := by
  simp only [endScaling, putScaler, Worker.finish, hp, Option.map_some]
  exact ⟨_, rfl⟩

theorem moveScaling_of_inside {point : ScalerPoint} (point' : ScalerPoint)
    (hp : o.pool.scaler.place = .inside point) :
    ∃ w : Worker ScalerPoint Unit, moveScaling o point' = some { o with pool.scaler := w } ∧
      w.place = .inside point' := by
  simp only [moveScaling, putScaler, Worker.move, hp, Option.map_some]
  exact ⟨_, rfl, rfl⟩

theorem spawnMany_calm (now : Instant) (n : Nat) (p : Pool α) :
    ∃ o, p.spawnMany calm now (n + 1) = (none, o) ∧ o.pool.scaler = p.scaler ∧
      ∃ name, .created name ∈ o.events := by
  have hnone := spawnMany_ne_error now (n + 1) p (rfl : calm.refusal = _)
  refine ⟨_, Prod.ext hnone rfl, scaler_spawnMany _ _ _ _,
    p.settings.workerLabel ++ "-" ++ toString p.nextNumber, ?_⟩
  simp [spawnMany, spawn, calm, PoolOutcome.after]

/-- A scaler that finds too few members makes one. -/
theorem fillUp_calm (now : Instant) (p : Pool α) (hm : p.active.length < p.settings.minWorkers) {point : ScalerPoint}
    (hp : p.scaler.place = .inside point) :
    ∃ o, p.fillUp calm now = some o ∧ ∃ name, .created name ∈ o.events := by
  obtain ⟨n, hn⟩ := Nat.exists_eq_succ_of_ne_zero (Nat.sub_ne_zero_of_lt hm)
  obtain ⟨o, hs, hscaler, name, hname⟩ := spawnMany_calm now n p
  obtain ⟨w, hw⟩ := endScaling_of_inside .done
    (o := { events := [.observed (o.pool.observe now)], pool := o.pool }) (hscaler ▸ hp)
  have hpolicy : o.pool.followPolicy calm now = some _ := hw
  rw [fillUp, hn, hs]
  simp only [hpolicy, Option.map_some]
  exact ⟨_, rfl, name, List.mem_append_left _ hname⟩

/-- A scaler that is about to replace somebody will make up for those who are missing, if the
factory lets it. -/
theorem exists_hire (n : Nat) {t : Instant} {r : Retirement} (hn : r.rest.length < n)
    (hp : p.scaler.place = .inside (.replacing r))
    (hm : p.active.length < p.settings.minWorkers) :
    ∃ k u q, Run .any t p k u q ∧ ∃ name, .created name ∈ k.events := by
  induction n generalizing p t r with
  | zero => exact absurd hn (Nat.not_lt_zero _)
  | succ n ih =>
      obtain ⟨⟨next, o⟩, hnext⟩ := Option.isSome_iff_exists.mp (retireNext_isSome t r p)
      have heq := (retireNext_chain hnext).eq_crew
      have hactive := congrArg Pool.active heq
      have hsettings := congrArg Pool.settings heq
      have hscaler := congrArg (fun q : Pool α => q.scaler.place) heq
      have hlater : Run .any t p {} (max t r.deadline) p := .pass .here (Nat.le_max_left _ _)
      have hstep : p.step calm (max t r.deadline) (.scaler .retired) =
          afterRemoval calm (max t r.deadline) (next, o) := by
        simp only [step, scalerStep, hp, hnext, Option.bind_some]
      cases next with
      | none =>
          obtain ⟨o', hfill, name, hname⟩ := fillUp_calm (max t r.deadline) o.pool
            (by rw [hactive, hsettings]; exact hm) (hscaler.trans hp)
          rw [afterRemoval, hfill] at hstep
          refine ⟨_, _, _, hlater.act trivial hstep, name, ?_⟩
          exact List.mem_append_right _ (List.mem_append_right _ hname)
      | some r' =>
          have hrest : r'.rest.length < r.rest.length := by
            obtain ⟨_, -, he⟩ := Option.map_eq_some_iff.mp hnext
            exact retireInTurn_rest (Prod.ext (Prod.mk.inj he).1 rfl)
          obtain ⟨w, hmove, hw⟩ := moveScaling_of_inside (.replacing r')
            (hscaler.trans hp)
          rw [afterRemoval, hmove] at hstep
          have hrun := hlater.act trivial hstep
          obtain ⟨k, u, q, next, name, hname⟩ := ih (t := max t r.deadline)
            (p := { o.pool with scaler := w }) (Nat.lt_of_lt_of_le hrest (Nat.le_of_lt_succ hn)) hw
            (by dsimp only; rw [hactive, hsettings]; exact hm)
          exact ⟨_, _, _, hrun.trans next, name, List.mem_append_right _ hname⟩

/-! ## All runs -/

/-- The phases go forward, at most one start succeeds, and a stop is final just when nobody is
active and the scaler is not about to replace anybody. -/
theorem Run.stopped_final {R : Regime α} {t₀ t : Instant} {s : PoolSettings} {p₀ : Pool α}
    (made : make s = .ok p₀) (run : Run R t₀ p₀ h t p) :
    (∀ k u q, Run .any t p k u q → ReflTransGen PoolPhase.Next p.phase q.phase) ∧
      (∀ r r', h.Started r → h.Started r' → r = r') ∧ (h.answers.map (·.1)).Nodup ∧
      (p.phase = .stopped → (Final t p ↔ AtRest p)) := by
  obtain ⟨rfl, hmin⟩ := make_eq_ok made
  refine ⟨fun k u q => run.reaches, run.startedOnce.unique,
    (List.nodup_append.mp run.docket.nodup).1, fun hp => ⟨fun hf => ?_, fun hr => hr.final run⟩⟩
  have hactive := (hf _ _ _ .here).1
  refine ⟨hp, hactive, fun r hplace => ?_⟩
  obtain ⟨k, u, q, next, name, hname⟩ := exists_hire (t := t) _ (Nat.lt_succ_self _) hplace
    (by rw [hactive, run.settings_eq]; exact hmin)
  exact (hf k u q next).2.2 name hname

theorem final_of_punctual : ∃ h t p, (ofSettings hasty).play calm 0 punctual = some (h, t, p) ∧
    make hasty = .ok (ofSettings hasty : Pool Nat) ∧ p.phase = .stopped ∧ Final t p := by
  have hplay : ((ofSettings hasty).play calm 0 punctual).map
      (fun w => (w.2.2.phase, w.2.2.active, w.2.2.scaler.place)) =
      some (.stopped, [], .finished .stopRequested) := by
    rfl
  obtain ⟨h, t, p, hp, he⟩ := play_of_map hplay
  simp only [Prod.mk.injEq] at he
  obtain ⟨hphase, hactive, hplace⟩ := he
  have hmade : make hasty = .ok (ofSettings hasty : Pool Nat) := by rfl
  have hrun : Run .any 0 _ h t p := Run.play (fun _ _ _ => trivial) hp
  refine ⟨h, t, p, hp, hmade, hphase, ?_⟩
  exact ((hrun.stopped_final hmade).2.2.2 hphase).mpr ⟨hphase, hactive, by simp [hplace]⟩

/-- A hasty pool with two members. -/
def hastyPair : PoolSettings := { hasty with minWorkers := 2, maxWorkers := 2 }

/-- Both members are taken out while they handle an item, and the pool shuts down without
waiting for the scaler to the end. -/
def desertion : List (Instant × Action Nat) :=
  [(0, .start), (0, .offer 1 0), (0, .offer 2 0), (0, .member 0 (.turn 0)),
    (0, .member 1 (.turn 0)), (0, .scaler .turn), (ofMillis 10, .scaler .evaluate),
    (ofMillis 15, .shutdown true), (ofMillis 30, .scaler .retired), (ofMillis 35, .resume 3)]

/-- A pool that is stopped can get members again. -/
theorem revived_of_desertion : ∃ h t p k u q,
    make hastyPair = .ok (ofSettings hastyPair : Pool Nat) ∧
      (ofSettings hastyPair).play distrustful 0 desertion = some (h, t, p) ∧
      (3, .ended (.ok ())) ∈ h.answers ∧ p.phase = .stopped ∧ p.active = [] ∧
      p.play distrustful t [(ofMillis 50, .scaler .retired)] = some (k, u, q) ∧
      q.phase = .stopped ∧ q.active = [2, 3] ∧ q.isAlive := by
  have hplay : ((ofSettings hastyPair).play distrustful 0 desertion).map
      (fun w => (w.1.answers[3]?, w.2.2.phase, w.2.2.active,
        (w.2.2.play distrustful w.2.1 [(ofMillis 50, .scaler .retired)]).map
          fun v => (v.2.2.phase, v.2.2.active, v.2.2.isAlive))) =
      some (some (3, .ended (.ok ())), .stopped, [], some (.stopped, [2, 3], true)) := by
    rfl
  obtain ⟨h, t, p, hp, he⟩ := play_of_map hplay
  simp only [Prod.mk.injEq] at he
  obtain ⟨hok, hphase, hactive, hnext⟩ := he
  obtain ⟨k, u, q, hq, he⟩ := play_of_map hnext
  simp only [Prod.mk.injEq] at he
  exact ⟨h, t, p, k, u, q, rfl, hp, List.mem_of_getElem? hok, hphase, hactive, hq, he⟩

end Backpressure.Pool
