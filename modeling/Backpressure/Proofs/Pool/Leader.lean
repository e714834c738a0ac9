import Backpressure.Proofs.Pool.Docket
import Backpressure.Proofs.Pool.Ends

/-!
# The shutdown that leads

The first shutdown of a running pool leads: it waits for the scaler and then for
the members.  All others follow it.  While a pool drains, exactly one of the calls
that wait leads, and at any other time none does.

A shutdown that found the pool running leads for as long as it waits.
-/

namespace Backpressure

variable {α : Type}

/-- Whether a call with this errand leads the shutdown. -/
def PoolErrand.leads : PoolErrand α → Bool
  | .shutdown _ (.awaitingScaler _) _ | .shutdown _ (.retiring _ _) _ => true
  | .shutdown _ (.awaitingOther _) _ | .offer _ _ _ => false

namespace Pool

/-- A draining pool has one leader, and any other has none. -/
def Led (p : Pool α) : Prop :=
  p.calls.countP (·.2.leads) = if p.phase = .draining then 1 else 0

variable {env : Surroundings α} {now : Instant} {p q : Pool α} {a : Action α} {o : PoolOutcome α}
  {c : CallId} {graceful : Bool} {afterStart : Option PoolError} {h : History α}
  {e : PoolErrand α}

/-- The leaders among the calls, beside one call that waits. -/
theorem Docket.countP_filter (hd : Docket h p) (hc : (c, e) ∈ p.calls) :
    p.calls.countP (·.2.leads) =
      (p.calls.filter (·.1 != c)).countP (·.2.leads) + if e.leads then 1 else 0 := by
  rw [(perm_cons_filter hd.nodup_calls hc).countP_eq, List.countP_cons]

/-- Only a draining pool has a leader. -/
theorem Led.phase_eq (hl : Led p) (hc : (c, e) ∈ p.calls) (he : e.leads) :
    p.phase = .draining := by
  simp only [Led] at hl
  split at hl
  · assumption
  · rw [List.countP_eq_zero] at hl
    exact absurd he (hl _ hc)

/-- The leaders after an action that leaves the phase alone, with the leading call settled
or not. -/
theorem Led.of_eq (hl : Led p) (hp : q.phase = p.phase)
    (hc : q.calls.countP (·.2.leads) = p.calls.countP (·.2.leads)) : Led q := by
  simp only [Led]
  rw [hc, hp]
  exact hl

theorem retireAll_led {pending : List (MemberId × Instant)} {n : Nat}
    (hp : p.phase = .draining) (hc : (p.calls.filter (·.1 != c)).countP (·.2.leads) = 0) :
    Led (p.retireAll now c graceful afterStart pending n).pool := by
  by_cases hl : pending.filter (p.waitsFor now) = []
  · rw [retireAll_of_nil hl]
    simpa [Led, endShutdown, answer, PoolOutcome.after, closed, discardAll] using hc
  · rw [retireAll_of_ne_nil hl]
    simp only [Led, await, calls_sweep, phase_sweep, if_pos hp, List.countP_append, hc]
    rfl

theorem retireCrew_led (hp : p.phase = .draining)
    (hc : (p.calls.filter (·.1 != c)).countP (·.2.leads) = 0) :
    Led (p.retireCrew now c graceful afterStart).pool := by
  rw [retireCrew_eq]
  exact retireAll_led (by simpa using hp) (by simpa using hc)

/-- A pool that does not drain has no leader. -/
theorem Led.countP_eq (hl : Led p) (hp : p.phase ≠ .draining) : p.calls.countP (·.2.leads) = 0 := by
  rw [hl, if_neg hp]

/-- The end of a call that does not lead, in the phase in which it waited. -/
theorem Led.settled (hl : Led p) (hd : Docket h p) (hc : (c, e) ∈ p.calls) (he : e.leads = false)
    (hp : q.phase = p.phase) (hq : q.calls = p.calls.filter (·.1 != c)) : Led q := by
  refine hl.of_eq hp ?_
  rw [hq, hd.countP_filter hc, he]
  rfl

/-- The end of a new call, in the phase in which it was made. -/
theorem Led.answered (hl : Led p) (hd : Docket h p) (hp : q.phase = p.phase)
    (hq : q.calls = p.calls.filter (·.1 != p.nextCall)) : Led q :=
  hl.of_eq hp (by rw [hq, filter_fresh hd])

/-- A new call that does not lead waits. -/
theorem Led.kept (hl : Led p) (hd : Docket h p) (he : e.leads = false) (hp : q.phase = p.phase)
    (hq : q.calls = p.calls.filter (·.1 != p.nextCall) ++ [(p.nextCall, e)]) : Led q := by
  refine hl.of_eq hp ?_
  rw [hq, filter_fresh hd, List.countP_append]
  simp [he]

/-- Every step keeps the leader. -/
theorem Led.keep (hl : Led p) (hd : Docket h p) (hs : Deed env now p a o) : Led o.pool := by
  cases hs with
  | spurned hp => exact hl.answered hd rfl rfl
  | accepted ho hq hs' | returned ho hs' =>
      cases ho with
      | new hp => exact hl.answered hd rfl rfl
      | waited hc => exact hl.settled hd (mem_of_lookup hc) rfl rfl rfl
  | queued hp hs' => exact hl.kept hd rfl rfl rfl
  | followed hf hr =>
      cases hf with
      | new hp => exact hl.answered hd rfl rfl
      | waited hc => exact hl.settled hd (mem_of_lookup hc) rfl rfl rfl
  | follows hp => exact hl.kept hd rfl rfl rfl
  | abandoned hp =>
      have hcount := hl.countP_eq (by simp [hp])
      rw [← filter_fresh hd] at hcount
      exact hcount
  | opens ho hw =>
      have hcount := hl.countP_eq (by rcases ho.phase_eq with hp | hp <;> simp [hp])
      simp only [Led, PoolOutcome.after, await, draining, ho.calls_eq, ho.call_eq, filter_fresh hd,
        List.countP_append, hcount]
      rfl
  | rushes ho hw =>
      have hcount := hl.countP_eq (by rcases ho.phase_eq with hp | hp <;> simp [hp])
      refine retireCrew_led rfl ?_
      rw [ho.call_eq, draining, ho.calls_eq, filter_fresh hd, hcount]
  | gathers hc hw | sweeps hc =>
      have hmem := mem_of_lookup hc
      have hphase := hl.phase_eq hmem rfl
      have hcount := hd.countP_filter hmem
      rw [hl, if_pos hphase] at hcount
      first
        | exact retireCrew_led hphase (by simpa [PoolErrand.leads] using hcount.symm)
        | exact retireAll_led hphase (by simpa [PoolErrand.leads] using hcount.symm)
  | restarted hp => exact hl.answered hd rfl rfl
  | started hp hs' hw | stuck hp hs' hw =>
      have hcount := hl.countP_eq (by simp [hp])
      have hphase := congrArg Pool.phase (spawnMany_chain hs').eq_staff
      have hcalls := congrArg Pool.calls (spawnMany_chain hs').eq_staff
      simpa [Led, answer, hphase, hcalls, named, filter_fresh hd] using hcount
  | flushed => exact hl.of_eq rfl rfl
  | member hm hs' => exact hl.of_eq rfl rfl
  | scaler hs' =>
      have hstaff := (scalerStep_chain hs').eq_staff
      exact hl.of_eq (by rw [hstaff]) (by rw [hstaff])

/-- The leader is kept along every run of a new pool. -/
theorem Run.led {R : Regime α} {t₀ t : Instant} {s : PoolSettings}
    (run : Run R t₀ (ofSettings s) h t p) : Led p := by
  induction run with
  | here => rfl
  | act run _ hs ih => exact ih.keep run.docket (step_deed hs)
  | pass _ _ ih => exact ih

/-! ## The call that found the pool running -/

/-- Whether a request is the shutdown of a running pool. -/
def Request.Moves (r : Request α) : Prop := r.found = .running ∧ ∃ graceful, r.asked = .shutdown graceful

/-- A shutdown that found the pool running leads for as long as it waits. -/
def MoverLeads (h : History α) (p : Pool α) : Prop :=
  ∀ r ∈ h.requests, r.Moves → ∀ e, (r.call, e) ∈ p.calls → e.leads

/-- A request that was made before this step. -/
theorem mem_requests_of_lt {r : Request α} (hr : r ∈ (h ++ .ofStep p a o).requests)
    (hlt : r.call < p.nextCall) : r ∈ h.requests := by
  cases List.mem_append.mp hr with
  | inl hr => exact hr
  | inr hr =>
      rw [History.requests_ofStep, Option.mem_toList] at hr
      cases a <;> cases hr <;> exact absurd hlt (Nat.lt_irrefl _)

/-- The request of a new call. -/
theorem Docket.request_new (hd : Docket h p) {r : Request α}
    (hr : r ∈ (h ++ .ofStep p a o).requests) (hc : r.call = p.nextCall) :
    r.asked = a ∧ r.found = p.phase := by
  cases List.mem_append.mp hr with
  | inl hr =>
      have hmem : r.call ∈ List.range p.nextCall := hd.names ▸ List.mem_map_of_mem hr
      rw [hc] at hmem
      exact absurd (List.mem_range.mp hmem) (Nat.lt_irrefl _)
  | inr hr =>
      rw [History.requests_ofStep, Option.mem_toList] at hr
      cases a <;> cases hr <;> exact ⟨rfl, rfl⟩

/-- A step that adds no call, but for leaders and calls that moved nothing. -/
theorem MoverLeads.of_calls (hm : MoverLeads h p) (hd : Docket h p)
    (hc : ∀ w ∈ o.pool.calls, w ∈ p.calls ∨ w.2.leads ∨
      w.1 = p.nextCall ∧ ¬(p.phase = .running ∧ ∃ graceful, a = .shutdown graceful)) :
    MoverLeads (h ++ .ofStep p a o) o.pool := by
  intro r hr hmoves e he
  rcases hc _ he with hold | hlead | ⟨hnew, hstill⟩
  · have hlt := hd.lt_nextCall (List.mem_append_right _ (List.mem_map_of_mem (f := (·.1)) hold))
    exact hm r (mem_requests_of_lt hr hlt) hmoves e hold
  · exact hlead
  · obtain ⟨hasked, hfound⟩ := hd.request_new hr hnew
    rw [Request.Moves, hasked, hfound] at hmoves
    exact absurd hmoves hstill

theorem mem_calls_of_filter {l : List (CallId × PoolErrand α)} {w : CallId × PoolErrand α}
    (hw : w ∈ l.filter (·.1 != c) ++ [(c, e)]) (he : e.leads) : w ∈ l ∨ w.2.leads := by
  cases List.mem_append.mp hw with
  | inl hw => exact .inl (List.mem_of_mem_filter hw)
  | inr hw =>
      rw [List.mem_singleton] at hw
      exact .inr (by rw [hw]; exact he)

theorem mem_calls_retireAll {pending : List (MemberId × Instant)} {n : Nat}
    {w : CallId × PoolErrand α}
    (hw : w ∈ (p.retireAll now c graceful afterStart pending n).pool.calls) :
    w ∈ p.calls ∨ w.2.leads := by
  by_cases hl : pending.filter (p.waitsFor now) = []
  · rw [retireAll_of_nil hl] at hw
    have hmem := List.mem_of_mem_filter hw
    rw [PoolOutcome.after, closed, discardAll, calls_sweep] at hmem
    exact .inl hmem
  · rw [retireAll_of_ne_nil hl, await, calls_sweep] at hw
    exact mem_calls_of_filter hw rfl

theorem mem_calls_retireCrew {w : CallId × PoolErrand α}
    (hw : w ∈ (p.retireCrew now c graceful afterStart).pool.calls) : w ∈ p.calls ∨ w.2.leads := by
  rw [retireCrew_eq] at hw
  simpa using mem_calls_retireAll hw

/-- Every step keeps the shutdown that moved the pool in the lead. -/
theorem MoverLeads.keep (hm : MoverLeads h p) (hd : Docket h p) (hs : p.step env now a = some o) :
    MoverLeads (h ++ .ofStep p a o) o.pool := by
  refine hm.of_calls hd fun w hw => ?_
  cases step_deed hs with
  | spurned | abandoned | restarted => exact .inl (List.mem_of_mem_filter hw)
  | accepted ho hq hs' | returned ho hs' => cases ho <;> exact .inl (List.mem_of_mem_filter hw)
  | queued hp hs' =>
      cases List.mem_append.mp hw with
      | inl hw => exact .inl (List.mem_of_mem_filter hw)
      | inr hw =>
          rw [List.mem_singleton] at hw
          exact .inr (.inr ⟨by rw [hw], by simp⟩)
  | followed hf hr => cases hf <;> exact .inl (List.mem_of_mem_filter hw)
  | follows hp =>
      cases List.mem_append.mp hw with
      | inl hw => exact .inl (List.mem_of_mem_filter hw)
      | inr hw =>
          rw [List.mem_singleton] at hw
          exact .inr (.inr ⟨by rw [hw], by simp [hp]⟩)
  | opens ho hw' =>
      have hmem := mem_calls_of_filter (l := _) hw rfl
      exact (hmem.imp_left fun h => ho.calls_eq ▸ h).imp_right .inl
  | rushes ho hw' =>
      have hmem := mem_calls_retireCrew hw
      exact (hmem.imp_left fun h => ho.calls_eq ▸ h).imp_right .inl
  | gathers hc hw' => exact (mem_calls_retireCrew hw).imp_right .inl
  | sweeps hc => exact (mem_calls_retireAll hw).imp_right .inl
  | started hp hs' hw' | stuck hp hs' hw' =>
      have hcalls := congrArg Pool.calls (spawnMany_chain hs').eq_staff
      have hmem := List.mem_of_mem_filter hw
      exact .inl (hcalls ▸ hmem)
  | flushed | member => exact .inl hw
  | scaler hs' =>
      have hcalls := congrArg Pool.calls (scalerStep_chain hs').eq_staff
      exact .inl (hcalls ▸ hw)

/-- A shutdown that found the pool running leads along every run of a new pool. -/
theorem Run.moverLeads {R : Regime α} {t₀ t : Instant} {s : PoolSettings}
    (run : Run R t₀ (ofSettings s) h t p) : MoverLeads h p := by
  induction run with
  | here =>
      intro r hr
      cases hr
  | act run _ hs ih => exact ih.keep run.docket hs
  | pass _ _ ih => exact ih

end Pool

end Backpressure
