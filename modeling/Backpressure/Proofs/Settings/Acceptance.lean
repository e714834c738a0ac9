import Backpressure.Settings.Document

/-!
# Accepted settings

Each check goes through conditions in order.  Settings are accepted exactly when all of the
conditions hold.
-/

namespace Backpressure

/-! ## Conditions in order -/

section Conditions

variable {ε ε' : Type} {e : ε} {rest : Except ε Unit}

/-- A check that refuses a condition passes if the condition fails and the rest passes. -/
theorem refuse_eq_ok {p : Prop} [Decidable p] :
    (if p then .error e else rest) = .ok () ↔ ¬p ∧ rest = .ok () := by
  by_cases h : p
  · rw [if_pos h]
    exact iff_of_false (fun hok => by cases hok) fun hall => hall.1 h
  · rw [if_neg h]
    exact (and_iff_right h).symm

theorem mapError_eq_ok {r : Except ε' Unit} {f : ε' → ε} : r.mapError f = .ok () ↔ r = .ok () := by
  cases r with
  | ok u => exact iff_of_true rfl rfl
  | error e => exact iff_of_false (fun hok => by cases hok) fun hok => by cases hok

theorem error_bind (k : Unit → Except ε Unit) : (Except.error e >>= k) = .error e := rfl

/-- Checks one after the other pass if each does. -/
theorem andThen_eq_ok {r : Except ε Unit} :
    (r >>= fun _ => rest) = .ok () ↔ r = .ok () ∧ rest = .ok () := by
  cases r with
  | ok u => exact (and_iff_right rfl).symm
  | error e => exact iff_of_false (fun hok => by cases hok) fun hall => by cases hall.1

/-- What is read and then checked comes about if both succeed. -/
theorem checked_eq_ok {σ ε'' : Type} {r : Except ε' σ} {check : σ → Except ε'' Unit} {f : ε' → ε}
    {g : ε'' → ε} {c : σ} :
    (do
      let s ← r.mapError f
      (check s).mapError g
      return s) = .ok c ↔ r = .ok c ∧ check c = .ok () := by
  cases r with
  | error e => exact iff_of_false (fun hok => by cases hok) fun hall => by cases hall.1
  | ok s =>
      show ((check s).mapError g >>= fun _ => pure s) = .ok c ↔ _
      cases h : check s with
      | error e =>
          refine iff_of_false (fun hok => by cases hok) ?_
          rintro ⟨⟨⟩, hcheck⟩
          rw [h] at hcheck
          cases hcheck
      | ok u =>
          constructor
          · rintro ⟨⟩
            exact ⟨rfl, h⟩
          · rintro ⟨⟨⟩, -⟩
            rfl

end Conditions

/-! ## The sections -/

/-- Of a poller only the order of its two sleeps is checked, neither its factor nor its jitter. -/
theorem PollerSettings.check_eq_ok {s : PollerSettings} :
    s.check = .ok () ↔ s.minIdle ≤ s.maxIdle := by
  simp only [check, refuse_eq_ok, and_true, Nat.not_lt]

theorem ScalingSettings.check_eq_ok {s : ScalingSettings} :
    s.check = .ok () ↔ ¬s.lowWatermark ≥ s.highWatermark ∧ s.evaluateInterval ≠ 0 := by
  simp only [check, refuse_eq_ok, and_true, ne_eq]

/-- A sink needs room, permits, an interval, and a writer that has no longer than a shutdown. -/
theorem SinkSettings.check_eq_ok {s : SinkSettings} :
    s.check = .ok () ↔ s.capacity ≠ 0 ∧ s.capacity ≤ largestCapacity ∧ s.permitsPerSecond ≠ 0 ∧
      s.flushInterval ≠ 0 ∧ s.writeTimeout ≠ 0 ∧ s.writeTimeout ≤ s.shutdownTimeout := by
  simp only [check, refuse_eq_ok, and_true, ne_eq, Nat.not_lt]

theorem RateSettings.check_eq_ok {s : RateSettings} : s.check = .ok () ↔ s.windowSeconds ≠ 0 := by
  simp only [check, refuse_eq_ok, and_true, ne_eq]

/-- How a pool scales is checked only if it is elastic. -/
theorem PoolSettings.check_eq_ok {s : PoolSettings} :
    s.check = .ok () ↔ s.minWorkers ≠ 0 ∧ s.minWorkers ≤ s.maxWorkers ∧ s.queueCapacity ≠ 0 ∧
      s.queueCapacity ≤ largestCapacity ∧ s.poller.check = .ok () ∧
        (s.isElastic = true → s.scaling.check = .ok ()) := by
  have hscaling : (if s.isElastic then s.scaling.check.mapError PoolFault.scaling else pure ()) =
      .ok () ↔ (s.isElastic = true → s.scaling.check = .ok ()) := by
    split
    · next h => rw [mapError_eq_ok, imp_iff_right h]
    · next h => exact iff_of_true rfl fun helastic => absurd helastic h
  simp only [check, throw, throwThe, MonadExceptOf.throw, error_bind, refuse_eq_ok, andThen_eq_ok,
    mapError_eq_ok, hscaling, ne_eq, Nat.not_lt]

theorem Settings.check_eq_ok {s : Settings} :
    s.check = .ok () ↔ s.pool.check = .ok () ∧ s.sink.check = .ok () ∧ s.rate.check = .ok () := by
  simp only [check, andThen_eq_ok, mapError_eq_ok]

end Backpressure
