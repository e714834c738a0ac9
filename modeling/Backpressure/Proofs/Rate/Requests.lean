import Backpressure.Proofs.Script
import Backpressure.Rate.Requests
import Mathlib.Algebra.Order.Field.Basic
import Mathlib.Algebra.Order.Group.MinMax
import Mathlib.Algebra.Order.Ring.NNRat
import Mathlib.Algebra.Order.Ring.Rat
import Mathlib.Tactic.FieldSimp
import Mathlib.Tactic.Linarith
import Mathlib.Tactic.Ring

/-!
# Runs of a token bucket without rounding

Tokens are rational numbers here, and so are moments; a sleep ends on time.

The tokens at hand say when they began to flow in: `emptyAt` is the moment at which the
bucket would have been empty had it filled at its rate ever since.  Taking a token moves this
moment on by the time that a token needs, and a refill only makes up for what the bound on
the tokens cuts off.  So `nextPermit`, where the moment comes to stand with the next token,
decides all that a call can come to: the permit is there if this is past, and otherwise it
is the moment at which the call would wake.

*Time.*  It passes no further than to the next moment at which a call wakes.
-/

namespace Backpressure.Rate

/-- Tokens and moments without rounding. -/
def Arithmetic.exact : Arithmetic ℚ ℚ≥0 where
  ofNat := fun n => n
  takeOne := fun tokens => tokens - 1
  hasOne := fun tokens => decide (1 ≤ tokens)
  refill := fun tokens rate burst last now => min (tokens + ((now - last : ℚ≥0) : ℚ) * rate) burst
  delay := fun tokens rate => ((1 - tokens) / rate).toNNRat
  later := fun now d => now + d
  isZero := fun d => decide (d = 0)
  longer := fun d limit => decide (limit < d)
  wakes := id

namespace TokenBucket

variable {b : TokenBucket ℚ ℚ≥0} {now t u wait : ℚ≥0}

/-! ## The bucket -/

/-- The moment at which the bucket would have been empty, had it filled ever since. -/
def emptyAt (b : TokenBucket ℚ ℚ≥0) : ℚ := b.refilledAt - b.tokens / b.permitsPerSecond

/-- The moment at which a permit has flowed in for somebody who asks now. -/
def nextPermit (b : TokenBucket ℚ ℚ≥0) (now : ℚ≥0) : ℚ :=
  max b.emptyAt (now - 1) + 1 / b.permitsPerSecond

/-- A bucket fills with time, up to the permits of one second. -/
theorem refill_tokens (hle : b.refilledAt ≤ now) : (b.refill .exact now).tokens =
    min (b.tokens + (now - b.refilledAt) * b.permitsPerSecond) b.permitsPerSecond := by
  show min (b.tokens + ((now - b.refilledAt : ℚ≥0) : ℚ) * b.permitsPerSecond) b.permitsPerSecond = _
  rw [NNRat.coe_sub hle]

/-- A refill that nobody made use of leaves no trace in a later one. -/
theorem refill_refill (hle : b.refilledAt ≤ now) (hu : now ≤ u) :
    (b.refill .exact now).refill .exact u = b.refill .exact u := by
  have hinflow : (0 : ℚ) ≤ (u - now) * b.permitsPerSecond :=
    mul_nonneg (sub_nonneg.mpr (by exact_mod_cast hu)) (Nat.cast_nonneg _)
  have htokens : ((b.refill .exact now).refill .exact u).tokens = (b.refill .exact u).tokens := by
    have hlate : (b.refill .exact now).refilledAt ≤ u := hu
    rw [refill_tokens hlate, refill_tokens hle, refill_tokens (hle.trans hu)]
    show min (min _ _ + (u - now) * (b.permitsPerSecond : ℚ)) (b.permitsPerSecond : ℚ) = _
    rcases le_total (b.tokens + (now - b.refilledAt) * b.permitsPerSecond)
      (b.permitsPerSecond : ℚ) with h | h
    · rw [min_eq_left h]
      congr 1
      ring
    · rw [min_eq_right h, min_eq_right (by linarith), min_eq_right (by linarith)]
  show TokenBucket.mk b.permitsPerSecond ((b.refill .exact now).refill .exact u).tokens u = _
  rw [htokens]
  rfl

variable (hpos : 0 < b.permitsPerSecond)
include hpos

/-- Filling a bucket leaves the moment at which it was empty, but no more than a second ago. -/
theorem emptyAt_refill (hle : b.refilledAt ≤ now) :
    (b.refill .exact now).emptyAt = max b.emptyAt (now - 1) := by
  have hrate : (0 : ℚ) < b.permitsPerSecond := by exact_mod_cast hpos
  have hline : (b.tokens + (now - b.refilledAt) * b.permitsPerSecond) / b.permitsPerSecond =
      now - b.emptyAt := by
    rw [emptyAt]
    field_simp
    ring
  show (now : ℚ) - (b.refill .exact now).tokens / b.permitsPerSecond = _
  rw [refill_tokens hle, ← min_div_div_right hrate.le, hline, div_self hrate.ne',
    ← max_sub_sub_left, sub_sub_cancel]

omit hpos in
/-- A permit moves the moment at which the bucket was empty by one interval. -/
theorem emptyAt_takeOne : (b.takeOne .exact).emptyAt = b.emptyAt + 1 / b.permitsPerSecond := by
  show (b.refilledAt : ℚ) - (b.tokens - 1) / b.permitsPerSecond = _
  rw [emptyAt, sub_div, sub_sub_eq_add_sub, add_sub_right_comm]

/-- Taking a permit moves the bucket on to where the permit is there. -/
theorem emptyAt_taken (hle : b.refilledAt ≤ now) :
    ((b.refill .exact now).takeOne .exact).emptyAt = b.nextPermit now := by
  rw [emptyAt_takeOne, emptyAt_refill hpos hle]
  rfl

/-- A permit is there just when the moment of the next one has come. -/
theorem hasOne_iff (hle : b.refilledAt ≤ now) :
    Arithmetic.exact.hasOne (b.refill .exact now).tokens = true ↔ b.nextPermit now ≤ now := by
  have hrate : (0 : ℚ) < b.permitsPerSecond := by exact_mod_cast hpos
  rw [← emptyAt_taken hpos hle]
  show decide (1 ≤ (b.refill .exact now).tokens) = true ↔
    (now : ℚ) - ((b.refill .exact now).tokens - 1) / b.permitsPerSecond ≤ now
  rw [decide_eq_true_iff, sub_le_self_iff, le_div_iff₀ hrate, zero_mul, sub_nonneg]

/-- Who finds no permit would wake when one has flowed in. -/
theorem later_delay (hle : b.refilledAt ≤ now) (hlate : now < b.nextPermit now) :
    ((now + Arithmetic.exact.delay (b.refill .exact now).tokens b.permitsPerSecond : ℚ≥0) : ℚ) =
      b.nextPermit now := by
  have hnext : b.nextPermit now =
      now + (1 - (b.refill .exact now).tokens) / b.permitsPerSecond := by
    rw [← emptyAt_taken hpos hle, ← neg_sub, neg_div, ← sub_eq_add_neg]
    rfl
  have hdelay : 0 ≤ (1 - (b.refill .exact now).tokens) / b.permitsPerSecond := by linarith
  show ((now + ((1 - (b.refill .exact now).tokens) / b.permitsPerSecond).toNNRat : ℚ≥0) : ℚ) = _
  rw [NNRat.coe_add, Rat.coe_toNNRat _ hdelay, hnext]

end TokenBucket

namespace PermitEvent

variable {τ : Type}

/-- The call that an event tells to have reserved a permit, with the moment at which it wakes. -/
def promised? : PermitEvent τ → Option (CallId × τ)
  | .promised call ready => some (call, ready)
  | .answered _ _ => none

/-- The call that an event tells to have got its permit. -/
def taken? : PermitEvent τ → Option CallId
  | .answered call true => some call
  | .answered _ false => none
  | .promised _ _ => none

end PermitEvent

namespace Requests

variable {rate : ℕ} {start now t t' wait : ℚ≥0} {r : Requests ℚ ℚ≥0} {a : Action ℚ≥0}
  {o : RequestsOutcome ℚ ℚ≥0} {call : CallId}

/-! ## One step -/

/-- How long the call that an action makes would wait. -/
def Action.wait? : Action ℚ≥0 → Option ℚ≥0
  | .tryAcquire => some 0
  | .acquire wait => some wait
  | .resume _ => none
  | .look => none

/-- What an action can come to. -/
inductive Deed (now : ℚ≥0) (r : Requests ℚ ℚ≥0) :
    Action ℚ≥0 → RequestsOutcome ℚ ℚ≥0 → Prop where
  /-- A call finds a permit. -/
  | taken {a : Action ℚ≥0} {wait : ℚ≥0} (ha : a.wait? = some wait)
      (hthere : r.bucket.nextPermit now ≤ now) :
      Deed now r a
        { events := [.answered r.nextCall true]
          requests := { r with
            bucket := (r.bucket.refill .exact now).takeOne .exact
            nextCall := r.nextCall + 1 } }
  /-- A call would have to wait too long. -/
  | refused {a : Action ℚ≥0} {wait : ℚ≥0} (ha : a.wait? = some wait)
      (hlong : now + wait < r.bucket.nextPermit now) :
      Deed now r a
        { events := [.answered r.nextCall false]
          requests := { r with
            bucket := r.bucket.refill .exact now
            nextCall := r.nextCall + 1 } }
  /-- A call goes to sleep. -/
  | promised {a : Action ℚ≥0} {wait : ℚ≥0} (ha : a.wait? = some wait) (ready : ℚ≥0)
      (hready : (ready : ℚ) = r.bucket.nextPermit now) (hlate : now < ready)
      (hwait : ready ≤ now + wait) :
      Deed now r a
        { events := [.promised r.nextCall ready]
          requests := {
            bucket := (r.bucket.refill .exact now).takeOne .exact
            pending := r.pending ++ [⟨r.nextCall, ready⟩]
            nextCall := r.nextCall + 1 } }
  /-- A call that slept has its permit. -/
  | woken (call : CallId) (q : Reservation ℚ≥0)
      (hq : r.pending.find? (·.call == call) = some q) (hdue : q.ready ≤ now) :
      Deed now r (.resume call)
        { events := [.answered call true]
          requests := { r with pending := r.pending.filter (·.call != call) } }
  | looked : Deed now r .look { requests := { r with bucket := r.bucket.refill .exact now } }

theorem tryAcquire_deed (hpos : 0 < r.bucket.permitsPerSecond) (hle : r.bucket.refilledAt ≤ now)
    (ha : a.wait? = some 0) :
    Deed now r a (r.ask .exact (if (r.bucket.tryAcquire .exact now).1 then .now else .refused)
      (r.bucket.tryAcquire .exact now).2) := by
  have hiff := TokenBucket.hasOne_iff hpos hle
  unfold TokenBucket.tryAcquire
  by_cases hthere : r.bucket.nextPermit now ≤ now
  · simp only [hiff.mpr hthere, if_true]
    exact .taken ha hthere
  · have hnone := Bool.eq_false_iff.mpr (mt hiff.mp hthere)
    simp only [hnone, Bool.false_eq_true, if_false]
    exact .refused ha (by simpa using hthere)

theorem acquire_deed (hpos : 0 < r.bucket.permitsPerSecond) (hle : r.bucket.refilledAt ≤ now) :
    Deed now r (.acquire wait) (r.ask .exact (r.bucket.acquire .exact now wait).1
      (r.bucket.acquire .exact now wait).2) := by
  have hiff := TokenBucket.hasOne_iff hpos hle
  unfold TokenBucket.acquire
  by_cases hzero : wait = 0
  · subst hzero
    have hnow : (Arithmetic.exact.isZero 0 || r.bucket.permitsPerSecond == 0) = true := rfl
    simp only [hnow, if_true]
    exact tryAcquire_deed hpos hle rfl
  · have hlasts : (Arithmetic.exact.isZero wait || r.bucket.permitsPerSecond == 0) = false := by
      simp [Arithmetic.exact, hzero, hpos.ne']
    simp only [hlasts, Bool.false_eq_true, if_false]
    by_cases hthere : r.bucket.nextPermit now ≤ now
    · simp only [hiff.mpr hthere, if_true]
      exact .taken rfl hthere
    · have hnone := Bool.eq_false_iff.mpr (mt hiff.mp hthere)
      have hready := TokenBucket.later_delay hpos hle (lt_of_not_ge hthere)
      simp only [hnone, Bool.false_eq_true, if_false]
      -- the same delay, as the bucket names it
      generalize hd : Arithmetic.exact.delay (r.bucket.refill .exact now).tokens
        (r.bucket.permitsPerSecond : ℚ) = d at hready
      have hdelay : Arithmetic.exact.delay (r.bucket.refill .exact now).tokens
        (Arithmetic.exact.ofNat (r.bucket.refill .exact now).permitsPerSecond) = d := hd
      rw [hdelay]
      by_cases hlong : wait < d
      · have hrefused : Arithmetic.exact.longer d wait = true := decide_eq_true hlong
        rw [if_pos hrefused]
        refine .refused rfl ?_
        rw [← hready]
        exact_mod_cast add_lt_add_right hlong now
      · have hsleeps : Arithmetic.exact.longer d wait = false := decide_eq_false hlong
        simp only [hsleeps, Bool.false_eq_true, if_false]
        refine .promised rfl (now + d) hready ?_ (add_le_add_right (le_of_not_gt hlong) now)
        have hlate := lt_of_not_ge hthere
        rw [← hready] at hlate
        exact_mod_cast hlate

theorem resume_deed (hs : r.resume .exact now call = some o) : Deed now r (.resume call) o := by
  simp only [resume] at hs
  split at hs
  · cases hs
  · next q hq =>
      split at hs
      · cases hs
      · next hdue =>
          cases hs
          exact .woken call q hq (by simpa [Arithmetic.exact] using hdue)

/-- Every action comes to one of the deeds. -/
theorem step_deed (hpos : 0 < r.bucket.permitsPerSecond) (hle : r.bucket.refilledAt ≤ now)
    (hs : r.step .exact now a = some o) : Deed now r a o := by
  cases a with
  | tryAcquire =>
      cases hs
      exact tryAcquire_deed hpos hle rfl
  | acquire wait =>
      cases hs
      exact acquire_deed hpos hle
  | resume call => exact resume_deed hs
  | look =>
      cases hs
      exact .looked

/-! ## Runs -/

/-- One action, with its moment, what it found and what came of it. -/
structure Act where
  now : ℚ≥0
  action : Action ℚ≥0
  found : Requests ℚ ℚ≥0
  outcome : RequestsOutcome ℚ ℚ≥0

/-- A run of a bucket with some rate from a moment up to another one. -/
inductive Run (rate : ℕ) (start : ℚ≥0) : List Act → ℚ≥0 → Requests ℚ ℚ≥0 → Prop where
  /-- Nothing has happened. -/
  | here : Run rate start [] start (ofRate .exact rate start)
  /-- An action happens. -/
  | act {h : List Act} {t : ℚ≥0} {r : Requests ℚ ℚ≥0} {a : Action ℚ≥0}
      {o : RequestsOutcome ℚ ℚ≥0} : Run rate start h t r → r.step .exact t a = some o →
      Run rate start (h ++ [⟨t, a, r, o⟩]) t o.requests
  /-- Time passes, and no sleep ends meanwhile. -/
  | pass {h : List Act} {t t' : ℚ≥0} {r : Requests ℚ ℚ≥0} : Run rate start h t r → t ≤ t' →
      (∀ q ∈ r.pending, t' ≤ q.ready) → Run rate start h t' r

variable {h : List Act}

/-- The bucket keeps its rate, and was refilled before. -/
structure Dated (rate : ℕ) (t : ℚ≥0) (b : TokenBucket ℚ ℚ≥0) : Prop where
  rate_eq : b.permitsPerSecond = rate
  refilled : b.refilledAt ≤ t

theorem Deed.dated (hd : Deed t r a o) (hb : Dated rate t r.bucket) :
    Dated rate t o.requests.bucket := by
  cases hd with
  | taken | refused | promised | looked => exact ⟨hb.rate_eq, le_refl t⟩
  | woken => exact hb

theorem step_deed_of_dated (hrate : 0 < rate) (hb : Dated rate t r.bucket)
    (hs : r.step .exact t a = some o) : Deed t r a o :=
  step_deed (hb.rate_eq ▸ hrate) hb.refilled hs

/-- Along every run the bucket was filled no later than now. -/
theorem Run.dated (hrate : 0 < rate) (run : Run rate start h t r) : Dated rate t r.bucket := by
  induction run with
  | here => exact ⟨rfl, le_refl _⟩
  | act run hs ih => exact (step_deed_of_dated hrate ih hs).dated ih
  | pass run hle hpend ih => exact ⟨ih.rate_eq, ih.refilled.trans hle⟩

/-- What happened at each act of a run. -/
theorem Run.deed (hrate : 0 < rate) (run : Run rate start h t r) : ∀ m ∈ h,
    Dated rate m.now m.found.bucket ∧ Deed m.now m.found m.action m.outcome := by
  induction run with
  | here => exact fun m hm => absurd hm List.not_mem_nil
  | pass run hle hpend ih => exact ih
  | act run hs ih =>
      intro m hm
      rcases List.mem_append.mp hm with hm | hm
      · exact ih m hm
      · cases List.mem_singleton.mp hm
        exact ⟨run.dated hrate, step_deed_of_dated hrate (run.dated hrate) hs⟩

/-! ## What could be seen -/

/-- An act in which somebody makes a call, with how long it would wait. -/
def Act.Asks (m : Act) (call : CallId) (wait : ℚ≥0) : Prop :=
  m.found.nextCall = call ∧ m.action.wait? = some wait

/-- The permits that were delivered in an act. -/
def Act.deliveries (m : Act) : List (CallId × ℚ≥0) :=
  (m.outcome.events.filterMap PermitEvent.taken?).map fun call => (call, m.now)

/-- The calls that went to sleep in an act, with the moments promised to them. -/
def Act.promises (m : Act) : List (CallId × ℚ≥0) := m.outcome.events.filterMap PermitEvent.promised?

/-- The calls that got their permits, in order, with the moments. -/
def deliveries (h : List Act) : List (CallId × ℚ≥0) := h.flatMap Act.deliveries

/-- The calls that went to sleep, in order, with the moments promised to them. -/
def promised (h : List Act) : List (CallId × ℚ≥0) := h.flatMap Act.promises

/-- The permits delivered to calls that had to wait. -/
def awaited (h : List Act) : List (CallId × ℚ≥0) :=
  (deliveries h).filter fun d => d.1 ∈ (promised h).map (·.1)

theorem deliveries_concat (m : Act) : deliveries (h ++ [m]) = deliveries h ++ m.deliveries := by
  simp [deliveries]

theorem promised_concat (m : Act) : promised (h ++ [m]) = promised h ++ m.promises := by
  simp [promised]

end Requests

end Backpressure.Rate
