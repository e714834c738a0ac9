import Backpressure.Proofs.Pool.Leader
import Mathlib.Logic.Relation

/-!
# The phases of a pool

The phases of a pool go forward only, whatever happens and in whatever order, and at
most one start succeeds.  A start that goes wrong makes the pool run for a moment, but
it is answered with its error when the shutdown that follows is done.
-/

namespace Backpressure

variable {α : Type}

/-- The ways from one phase of a pool to the next. -/
inductive PoolPhase.Next : PoolPhase → PoolPhase → Prop where
  /-- The pool is started. -/
  | start : Next .created .running
  /-- A running pool is shut down. -/
  | drain : Next .running .draining
  /-- The shutdown is over. -/
  | stop : Next .draining .stopped
  /-- A pool that was never started is shut down. -/
  | abandon : Next .created .stopped

namespace Pool

open Relation (ReflTransGen)

variable {env : Surroundings α} {now : Instant} {p q : Pool α} {a : Action α} {o : PoolOutcome α}
  {c : CallId} {graceful : Bool} {afterStart : Option PoolError} {h : History α}
  {es : List (PoolEvent α)}

/-! ## The order of the phases -/

theorem retireAll_phase (p : Pool α) (pending : List (MemberId × Instant)) (n : Nat) :
    (p.retireAll now c graceful afterStart pending n).pool.phase = .stopped ∨
      (p.retireAll now c graceful afterStart pending n).pool.phase = p.phase := by
  by_cases hl : pending.filter (p.waitsFor now) = []
  · rw [retireAll_of_nil hl]
    exact .inl rfl
  · rw [retireAll_of_ne_nil hl]
    exact .inr (by simp [await])

theorem retireCrew_phase :
    (p.retireCrew now c graceful afterStart).pool.phase = .stopped ∨
      (p.retireCrew now c graceful afterStart).pool.phase = p.phase := by
  rw [retireCrew_eq]
  simpa only [PoolOutcome.after, phase_disbanded, phase_sealed] using
    retireAll_phase (p.sealed graceful).pool.disbanded (p.leavers now) 0

theorem Opening.reaches {p' : Pool α} (ho : Opening env now p a c graceful afterStart es p') :
    ReflTransGen PoolPhase.Next p.phase .draining := by
  cases ho with
  | asked hp =>
      rw [hp]
      exact .single .drain
  | failed hp hs =>
      rw [hp]
      exact .tail (.single .start) .drain

/-- A shutdown that drains the pool leaves it draining or stops it. -/
theorem reaches_of_draining {phase phase' : PoolPhase}
    (hp : ReflTransGen PoolPhase.Next phase .draining)
    (hq : phase' = .stopped ∨ phase' = .draining) : ReflTransGen PoolPhase.Next phase phase' := by
  rcases hq with rfl | rfl
  · exact hp.tail .stop
  · exact hp

/-- Every step goes forward through the phases. -/
theorem Led.reaches (hl : Led p) (hs : Deed env now p a o) :
    ReflTransGen PoolPhase.Next p.phase o.pool.phase := by
  cases hs with
  | spurned | queued | follows | restarted | flushed | member => exact .refl
  | accepted ho | returned ho => cases ho <;> exact .refl
  | followed hf => cases hf <;> exact .refl
  | abandoned hp =>
      rw [hp]
      exact .single .abandon
  | opens ho hw => exact ho.reaches
  | rushes ho hw => exact reaches_of_draining ho.reaches retireCrew_phase
  | gathers hc hw =>
      have hp := hl.phase_eq (mem_of_lookup hc) rfl
      rw [hp]
      exact reaches_of_draining .refl (hp ▸ retireCrew_phase)
  | sweeps hc =>
      have hp := hl.phase_eq (mem_of_lookup hc) rfl
      rw [hp]
      exact reaches_of_draining .refl (hp ▸ retireAll_phase _ _ _)
  | started hp hs' hw | stuck hp hs' hw =>
      have hphase := congrArg Pool.phase (spawnMany_chain hs').eq_staff
      rw [hp]
      simp only [answer, hphase]
      exact .single .start
  | scaler hs' =>
      rw [congrArg Pool.phase (scalerStep_chain hs').eq_staff]

/-- Along a run, the phases go forward. -/
theorem Run.reaches {R R' : Regime α} {t₀ t u : Instant} {s : PoolSettings} {k : History α}
    (run : Run R t₀ (ofSettings s) h t p) (next : Run R' t p k u q) :
    ReflTransGen PoolPhase.Next p.phase q.phase := by
  induction next with
  | here => exact .refl
  | act next _ hs ih =>
      have hled := (run.toAny.trans next.toAny).led
      exact ih.trans (hled.reaches (step_deed hs))
  | pass _ _ ih => exact ih

/-! ## One start succeeds -/

theorem retireAll_ok {pending : List (MemberId × Instant)} {n : Nat} {c' : CallId}
    (hx : (c', .ended (.ok ())) ∈
      answersIn (p.retireAll now c graceful afterStart pending n).events) :
    c' = c ∧ afterStart = none := by
  have hanswers := (sweep_chain now pending n p).staffing.answersIn_eq
  by_cases hl : pending.filter (p.waitsFor now) = []
  · rw [retireAll_of_nil hl] at hx
    simp only [endShutdown, answer, PoolOutcome.after, closed, discardAll, answersIn_append,
      hanswers, answersIn_discarded, answersIn_answered, List.nil_append, List.mem_singleton,
      Prod.mk.injEq, PoolAnswer.ended.injEq] at hx
    refine ⟨hx.1, ?_⟩
    cases afterStart with
    | none => rfl
    | some error => cases hx.2
  · rw [retireAll_of_ne_nil hl, await, hanswers] at hx
    cases hx

theorem retireCrew_ok {c' : CallId}
    (hx : (c', .ended (.ok ())) ∈ answersIn (p.retireCrew now c graceful afterStart).events) :
    c' = c ∧ afterStart = none := by
  rw [retireCrew_eq, PoolOutcome.after, answersIn_append, sealed_aside.answers,
    List.nil_append] at hx
  exact retireAll_ok hx

theorem endOffer_not_ok {c' : CallId} (accepted : Bool) :
    (c, .ended (.ok ())) ∉ answersIn (p.endOffer c' accepted).events := by
  obtain ⟨o, he, haside⟩ := endOffer_eq (q := p) (c := c') accepted
  rw [he]
  simp [answer, haside.answers]

/-- A success is told now: of a start that made a new pool run, of a new shutdown, or of a
shutdown that waited. -/
theorem Deed.of_ok (hs : Deed env now p a o) (hx : (c, .ended (.ok ())) ∈ answersIn o.events) :
    a = .start ∧ c = p.nextCall ∧ p.phase = .created ∧ o.pool.phase = .running ∨
      (∃ graceful, a = .shutdown graceful ∧ c = p.nextCall) ∨
        ∃ graceful point, (c, .shutdown graceful point none) ∈ p.calls := by
  cases hs with
  | spurned | restarted => simp [answer] at hx
  | accepted ho hq hs' => exact absurd hx (endOffer_not_ok true)
  | returned ho hs' => exact absurd hx (endOffer_not_ok false)
  | queued | follows | flushed => cases hx
  | member => simp at hx
  | followed hf hr =>
      simp only [endShutdown, answer, List.nil_append, answersIn_answered, List.mem_singleton,
        Prod.mk.injEq, PoolAnswer.ended.injEq] at hx
      obtain ⟨rfl, hx⟩ := hx
      cases hf with
      | new hp => exact .inr (.inl ⟨_, rfl, rfl⟩)
      | waited hc =>
          split at hx
          · cases hx
          · exact .inr (.inr ⟨_, _, mem_of_lookup hc⟩)
  | abandoned hp =>
      simp only [endShutdown, answer, List.nil_append, answersIn_answered, List.mem_singleton,
        Prod.mk.injEq] at hx
      exact .inr (.inl ⟨_, rfl, hx.1⟩)
  | opens ho hw =>
      rw [PoolOutcome.after, answersIn_append, ho.answersIn_eq] at hx
      cases hx
  | rushes ho hw =>
      rw [PoolOutcome.after, answersIn_append, ho.answersIn_eq, List.nil_append] at hx
      obtain ⟨rfl, rfl⟩ := retireCrew_ok hx
      cases ho with
      | asked hp => exact .inr (.inl ⟨_, rfl, rfl⟩)
  | gathers hc hw =>
      obtain ⟨rfl, rfl⟩ := retireCrew_ok hx
      exact .inr (.inr ⟨_, _, mem_of_lookup hc⟩)
  | sweeps hc =>
      obtain ⟨rfl, rfl⟩ := retireAll_ok hx
      exact .inr (.inr ⟨_, _, mem_of_lookup hc⟩)
  | started hp hs' hw =>
      have hphase := congrArg Pool.phase (spawnMany_chain hs').eq_staff
      simp only [answer, answersIn_append, (spawnMany_chain hs').answersIn_eq, answersIn_answered,
        List.nil_append, List.mem_singleton, Prod.mk.injEq] at hx
      exact .inl ⟨rfl, hx.1, hp, hphase⟩
  | stuck hp hs' hw =>
      simp [answer, (spawnMany_chain hs').answersIn_eq] at hx
  | scaler hs' =>
      rw [(scalerStep_chain hs').answersIn_eq] at hx
      cases hx

/-- A request is a start that has succeeded. -/
def History.Started (h : History α) (r : Request α) : Prop :=
  r ∈ h.requests ∧ r.asked = .start ∧ (r.call, .ended (.ok ())) ∈ h.answers

/-- At most one start has succeeded, and none has before the pool runs. -/
structure StartedOnce (h : History α) (p : Pool α) : Prop where
  /-- None has before the pool runs. -/
  created : p.phase = .created → ∀ r, ¬h.Started r
  /-- There is only one. -/
  unique : ∀ r r', h.Started r → h.Started r' → r = r'

/-- A start succeeds now, or had succeeded before. -/
theorem Docket.started_step (hd : Docket h p) (hs : p.step env now a = some o) {r : Request α}
    (hr : (h ++ .ofStep p a o).Started r) :
    h.Started r ∨ r.call = p.nextCall ∧ p.phase = .created ∧ o.pool.phase = .running := by
  obtain ⟨hmem, hasked, hok⟩ := hr
  rw [History.answers_append, History.answers_ofStep] at hok
  cases List.mem_append.mp hok with
  | inl hok =>
      have hlt := hd.lt_nextCall (List.mem_append_left _ (List.mem_map_of_mem (f := (·.1)) hok))
      exact .inl ⟨mem_requests_of_lt hmem hlt, hasked, hok⟩
  | inr hok =>
      rcases (step_deed hs).of_ok hok with ⟨-, hnew, hp, hq⟩ | ⟨g, rfl, hnew⟩ | ⟨g, point, hc⟩
      · exact .inr ⟨hnew, hp, hq⟩
      · have hshutdown := (hd.request_new hmem hnew).1
        rw [hasked] at hshutdown
        cases hshutdown
      · have hlt := hd.lt_nextCall (List.mem_append_right _ (List.mem_map_of_mem (f := (·.1)) hc))
        obtain ⟨r', hr', hcall, hconcerns⟩ := hd.concerns _ hc
        have heq := hd.request_unique (mem_requests_of_lt hmem hlt) hr' hcall.symm
        rw [← heq, hasked] at hconcerns
        obtain ⟨_, _, he⟩ := hconcerns
        cases he

theorem PoolPhase.ne_created {phase phase' : PoolPhase} (h : ReflTransGen PoolPhase.Next phase phase')
    (hp : phase ≠ .created) : phase' ≠ .created := by
  cases h with
  | refl => exact hp
  | tail _ hn => cases hn <;> exact (by intro h; cases h)

/-- Every step keeps the starts in order. -/
theorem StartedOnce.keep (ho : StartedOnce h p) (hd : Docket h p) (hl : Led p)
    (hs : p.step env now a = some o) : StartedOnce (h ++ .ofStep p a o) o.pool where
  created hq r hr := by
    rcases hd.started_step hs hr with hold | ⟨-, -, hrun⟩
    · by_cases hp : p.phase = .created
      · exact ho.created hp r hold
      · exact PoolPhase.ne_created (hl.reaches (step_deed hs)) hp hq
    · rw [hrun] at hq
      cases hq
  unique r r' hr hr' := by
    rcases hd.started_step hs hr with hold | ⟨hnew, hp, -⟩ <;>
      rcases hd.started_step hs hr' with hold' | ⟨hnew', hp', -⟩
    · exact ho.unique r r' hold hold'
    · exact absurd hold (ho.created hp' r)
    · exact absurd hold' (ho.created hp r')
    · exact (hd.keep hs).request_unique hr.1 hr'.1 (hnew.trans hnew'.symm)

/-- At most one start succeeds in a run of a new pool. -/
theorem Run.startedOnce {R : Regime α} {t₀ t : Instant} {s : PoolSettings}
    (run : Run R t₀ (ofSettings s) h t p) : StartedOnce h p := by
  induction run with
  | here =>
      have hnone : ∀ r, ¬({} : History α).Started r := fun r hr => by cases hr.1
      exact ⟨fun _ => hnone, fun r _ hr => absurd hr (hnone r)⟩
  | act run _ hs ih => exact ih.keep run.docket run.led hs
  | pass _ _ ih => exact ih

end Pool

end Backpressure
