import Backpressure.Proofs.Pool.Stragglers

/-!
# Who is overlooked

A shutdown waits for the members that are active when it seals the queue.  A member that
polls then and is not active any more is overlooked: it was told to stop, but has not been
able to act since.  It is one of those whom the scaler took out
(`Run.overlooked_subset_scaledOut`), so nobody is overlooked in a pool that was never made
smaller.

*Sealing.*  The queue is sealed once, when the crew is gathered, and stays sealed while the
shutdown waits for members (`Retires`).
-/

namespace Backpressure.Pool

variable {α : Type}

/-- While the leading shutdown waits for members, the queue is sealed. -/
def Retires (p : Pool α) : Prop :=
  ∀ c graceful pending n afterStart,
    (c, .shutdown graceful (.retiring pending n) afterStart) ∈ p.calls →
      p.bench.queue.isSealed = true

variable {env : Surroundings α} {now t t₀ : Instant} {p q : Pool α} {a : Action α}
  {o : PoolOutcome α} {c : CallId} {graceful : Bool} {afterStart : Option PoolError}
  {h : History α} {R : Regime α} {s : PoolSettings} {i : MemberId}

theorem isSealed_retireAll (pending : List (MemberId × Instant)) (n : Nat)
    (hp : p.bench.queue.isSealed = true) :
    (p.retireAll now c graceful afterStart pending n).pool.bench.queue.isSealed = true := by
  by_cases hl : pending.filter (p.waitsFor now) = []
  · rw [retireAll_of_nil hl]
    rfl
  · rw [retireAll_of_ne_nil hl]
    simpa only [await, bench_sweep] using hp

/-- How the queue comes to be sealed: a shutdown begins, or no longer waits for the scaler. -/
inductive Seals (p : Pool α) : Prop where
  | begun (hp : p.phase = .created ∨ p.phase = .running)
  | awaited {c : CallId} {graceful : Bool} {deadline : Instant} {afterStart : Option PoolError}
      (hc : (c, .shutdown graceful (.awaitingScaler deadline) afterStart) ∈ p.calls)

/-- The queue stays sealed while members are waited for, and is sealed as the crew is gathered. -/
structure Sealing (p q : Pool α) : Prop where
  retires : Retires q
  seals : p.bench.queue.isSealed = false → q.bench.queue.isSealed = true → Seals p

/-- What seals nothing and lets nobody wait for members. -/
theorem Retires.sealing (hr : Retires p) (hc : ∀ w ∈ q.calls, w.2.leads → w ∈ p.calls)
    (hq : q.bench.queue.isSealed = p.bench.queue.isSealed) : Sealing p q where
  retires _ _ _ _ _ hmem := hq.trans (hr _ _ _ _ _ (hc _ hmem rfl))
  seals hopen hsealed := absurd (hopen.symm.trans (hq.symm.trans hsealed)) Bool.false_ne_true

theorem Retires.opens {es : List (PoolEvent α)} {p' : Pool α} {deadline : Instant}
    (hr : Retires p) (he : Ends p) (ho : Opening env now p a c graceful afterStart es p') :
    Sealing p ((Pool.await { pool := p'.draining } c
      (.shutdown graceful (.awaitingScaler deadline) afterStart)).after es).pool where
  retires _ _ _ _ _ hmem := by
    rcases List.mem_append.mp hmem with hmem | hmem
    · have hold := List.mem_of_mem_filter hmem
      rw [draining, ho.calls_eq] at hold
      exact (ho.bystanders he).1.trans (hr _ _ _ _ _ hold)
    · cases List.mem_singleton.mp hmem
  seals _ _ := .begun ho.phase_eq

/-- Every step keeps the queue sealed while members are waited for. -/
theorem Retires.keep (hr : Retires p) (he : Ends p) (hs : Deed env now p a o) :
    Sealing p o.pool := by
  cases hs with
  | spurned | restarted => exact hr.sealing (fun w hw _ => List.mem_of_mem_filter hw) rfl
  | accepted ho hq hslots =>
      cases ho <;> exact hr.sealing (fun w hw _ => List.mem_of_mem_filter hw) (hslots.trans hq.symm)
  | returned ho hslots =>
      cases ho <;> exact hr.sealing (fun w hw _ => List.mem_of_mem_filter hw) hslots
  | queued _ hslots => exact hr.sealing (fun w hw => leads_of_mem_append hw rfl) hslots
  | follows => exact hr.sealing (fun w hw => leads_of_mem_append hw rfl) rfl
  | followed hf => cases hf <;> exact hr.sealing (fun w hw _ => List.mem_of_mem_filter hw) rfl
  | abandoned hp =>
      refine ⟨fun _ _ _ _ _ hmem => ?_, fun _ _ => .begun (.inl hp)⟩
      have hold := List.mem_of_mem_filter hmem
      rw [named, (he.created hp).calls_eq] at hold
      cases hold
  | opens ho => exact hr.opens he ho
  | rushes ho => exact ⟨fun _ _ _ _ _ _ => isSealed_retireCrew, fun _ _ => .begun ho.phase_eq⟩
  | gathers hc =>
      exact ⟨fun _ _ _ _ _ _ => isSealed_retireCrew, fun _ _ => .awaited (mem_of_lookup hc)⟩
  | sweeps hc =>
      have hsealed := hr _ _ _ _ _ (mem_of_lookup hc)
      exact ⟨fun _ _ _ _ _ _ => isSealed_retireAll _ _ hsealed,
        fun hopen => absurd (hopen.symm.trans hsealed) Bool.false_ne_true⟩
  | started hp hs | stuck hp hs =>
      have hstaff := (spawnMany_chain hs).eq_staff
      refine hr.sealing (fun w hw _ => ?_) (congrArg (·.bench.queue.isSealed) hstaff)
      have hold := List.mem_of_mem_filter hw
      rwa [hstaff] at hold
  | flushed => exact hr.sealing (fun w hw _ => hw) rfl
  | member hm hs' => exact hr.sealing (fun w hw _ => hw) (Poller.step_deed hs').isSealed_eq
  | scaler hs' =>
      rw [(scalerStep_chain hs').eq_staff]
      exact hr.sealing (fun w hw _ => hw) rfl

theorem Run.retires (run : Run R t₀ (ofSettings s) h t p) : Retires p := by
  induction run with
  | here => exact fun _ _ _ _ _ hmem => absurd hmem List.not_mem_nil
  | act run _ hs ih => exact (ih.keep run.ends (step_deed hs)).retires
  | pass _ _ ih => exact ih

/-- Until its crew is gathered, every member of a pool is active, was taken out, or has stopped. -/
theorem Run.covered_of_seals (run : Run R t₀ (ofSettings s) h t p) (hs : Seals p) :
    Covered p h.scaledOut [] := by
  have holds := run.onCourse (accounts_lawful R s)
  cases hs with
  | begun hp => exact holds.begun hp
  | awaited hc => exact holds.awaiting hc

/-- Whoever polls and is not active was taken out. -/
theorem Covered.mem_of_bystander {out : List MemberId} (hc : Covered p out [])
    (hi : i ∈ p.bystanders) : i ∈ out := by
  obtain ⟨hactive, m, hm, hpolls⟩ := mem_bystanders.mp hi
  rcases hc i (List.getElem?_eq_some_iff.mp hm).1 with hact | hout | hwait | ⟨m', hm', hsound, hp⟩
  · exact absurd hact hactive
  · exact hout
  · cases hwait
  · cases hm.symm.trans hm'
    exact absurd (Poller.polls_of_finished (hsound.isFinished hp)) hpolls

/-- Whoever is overlooked was taken out by the scaler. -/
theorem Run.overlooked_subset_scaledOut (run : Run R t₀ (ofSettings s) h t p) :
    h.overlooked ⊆ h.scaledOut := by
  induction run with
  | here => exact List.Subset.refl _
  | pass _ _ ih => exact ih
  | @act h t p env a o run _ hs ih =>
      intro i hi
      rw [History.scaledOut_append]
      rcases List.mem_append.mp hi with hi | hi
      · exact List.mem_append_left _ (ih hi)
      · rw [History.overlooked_ofStep, overlooked] at hi
        split at hi
        · next hsealing =>
            simp only [Bool.and_eq_true, Bool.not_eq_true'] at hsealing
            have hseals := (run.retires.keep run.ends (step_deed hs)).seals hsealing.1 hsealing.2
            exact List.mem_append_left _ ((run.covered_of_seals hseals).mem_of_bystander hi)
        · cases hi

end Backpressure.Pool
