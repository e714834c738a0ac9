import Backpressure.Proofs.Poller.Iterations
import Backpressure.Proofs.Poller.Solo
import Mathlib.Algebra.Order.Field.Rat
import Mathlib.Tactic.Linarith
import Mathlib.Tactic.Positivity
import Mathlib.Tactic.Ring

/-!
# The range of the idle interval

What happens to the idle interval of a poller is a sequence of a few steps: an item is found, a
sleep begins, runs out, is ended by a wake-up, or gives way to a stop.  `Pace.interval` is the
interval after such a sequence, for any arithmetic of factors, and a run of a poller goes through
just these steps in double precision (`Solo.Run.paced`).

*The longest interval* is never exceeded, whatever the factors and their arithmetic.

*The shortest one* is another matter.  Settings are accepted with any factors.  Without rounding
the interval stays in its range, never shrinks while nothing is found, and no iteration panics, if
the factors are those that the settings can be given one by one, and no product reaches the longest
length of time there is (`Tame`).  A factor below one makes the interval shrink out of its range,
and one below zero makes the iteration panic (`Factors.scale_eq_none`).
-/

namespace Backpressure.Idle

variable {ρ : Type}

/-! ## Steps -/

/-- What happens to the idle interval of a poller. -/
inductive Step (ρ : Type) where
  | found
  /-- Nothing was found, and a sleep is to begin; `draw` spreads it. -/
  | lull (draw : ρ)
  | ranOut
  /-- The sleep was ended by a wake-up. -/
  | woken
  /-- A poll or a sleep gave way to a stop. -/
  | stopped
  deriving DecidableEq

/-- Whether a step sets the interval back. -/
def Step.resets : Step ρ → Bool
  | .found | .woken => true
  | .lull _ | .ranOut | .stopped => false

namespace Pace

/-- The interval after a step, unless the step panics. -/
def step (A : Factors ρ) (s : Pace ρ) (current : Duration) : Step ρ → Option Duration
  | .found | .woken => some s.least
  | .lull draw => (s.spread A draw current).map fun _ => current
  | .ranOut => s.increase A current
  | .stopped => some current

/-- The interval after a step; a panic leaves it as it was. -/
def after (A : Factors ρ) (s : Pace ρ) (current : Duration) (x : Step ρ) : Duration :=
  (s.step A current x).getD current

/-- The interval after some steps of a new poller. -/
def interval (A : Factors ρ) (s : Pace ρ) (xs : List (Step ρ)) : Duration :=
  xs.foldl (s.after A) s.least

variable {A : Factors ρ} {s : Pace ρ} {current next : Duration} {xs : List (Step ρ)} {x : Step ρ}

@[simp] theorem interval_nil : s.interval A [] = s.least := rfl

@[simp] theorem interval_append_singleton :
    s.interval A (xs ++ [x]) = s.after A (s.interval A xs) x := List.foldl_concat ..

/-- The sleep never grows beyond the most. -/
theorem step_le (hrange : s.least ≤ s.most) (hle : current ≤ s.most)
    (h : s.step A current x = some next) : next ≤ s.most := by
  cases x with
  | found | woken =>
      cases h
      exact hrange
  | lull draw =>
      obtain ⟨-, -, rfl⟩ := Option.map_eq_some_iff.mp h
      exact hle
  | ranOut =>
      obtain ⟨d, -, rfl⟩ := Option.map_eq_some_iff.mp h
      exact Nat.min_le_right _ _
  | stopped =>
      cases h
      exact hle

theorem after_le (hrange : s.least ≤ s.most) (hle : current ≤ s.most) :
    s.after A current x ≤ s.most := by
  rw [after]
  cases h : s.step A current x with
  | none => exact hle
  | some next => exact step_le hrange hle h

theorem interval_le (hrange : s.least ≤ s.most) (xs : List (Step ρ)) : s.interval A xs ≤ s.most := by
  induction xs using List.reverseRecOn with
  | nil => exact hrange
  | append_singleton xs x ih =>
      rw [interval_append_singleton]
      exact after_le hrange ih

end Pace

/-! ## Factors without rounding -/

/-- The first number of nanoseconds that is no length of time. -/
def limit : Nat := Nat.pow 2 64 * Duration.perSecond

/-- Factors that are rational numbers.  Only the product is rounded, to whole nanoseconds. -/
def Factors.exact : Factors ℚ where
  scale := fun d factor =>
    if d * factor < 0 ∨ (limit : ℚ) ≤ d * factor then none
    else some (Duration.divHalfEven (d * factor.num.toNat) factor.den)
  isStill := fun jitter => decide (jitter ≤ 0)

/-- There is no product just if it would be negative or too long. -/
theorem Factors.scale_eq_none {d : Duration} {factor : ℚ} :
    Factors.exact.scale d factor = none ↔ d * factor < 0 ∨ (limit : ℚ) ≤ d * factor := by
  simp only [exact]
  split <;> simp_all

/-- Rounding to the nearest nanosecond loses no whole one. -/
theorem div_le_divHalfEven (n m : Nat) : n / m ≤ Duration.divHalfEven n m := by
  simp only [Duration.divHalfEven]
  split
  · exact Nat.le_refl _
  · split
    · exact Nat.le_succ _
    · split
      · exact Nat.le_refl _
      · exact Nat.le_succ _

/-- A factor of one at least does not shorten. -/
theorem Factors.le_scale {d e : Duration} {factor : ℚ} (hf : 1 ≤ factor)
    (h : Factors.exact.scale d factor = some e) : d ≤ e := by
  simp only [exact] at h
  split at h
  · cases h
  · cases h
    -- compared as a numerator and a denominator, as the rounding has them
    have hnum : factor.den ≤ factor.num.toNat := by
      have hle : (factor.den : ℤ) ≤ factor.num := by
        have hcast := Rat.num_div_den factor
        have hden : (0 : ℚ) < factor.den := by exact_mod_cast factor.den_pos
        rw [← hcast, le_div_iff₀ hden, one_mul] at hf
        exact_mod_cast hf
      omega
    calc d = d * factor.den / factor.den := (Nat.mul_div_cancel _ factor.den_pos).symm
      _ ≤ d * factor.num.toNat / factor.den := Nat.div_le_div_right (Nat.mul_le_mul_left _ hnum)
      _ ≤ Duration.divHalfEven (d * factor.num.toNat) factor.den := div_le_divHalfEven _ _

namespace Pace

variable {s : Pace ℚ} {current next : Duration} {xs : List (Step ℚ)} {x : Step ℚ}

/-- A step panics if its draw or its factor asks for a negative or an endless sleep. -/
theorem step_eq_none : s.step .exact current x = none ↔
    (∃ draw, x = .lull draw ∧ 0 < s.jitter ∧ current ≠ 0 ∧
      (current * draw < 0 ∨ (limit : ℚ) ≤ current * draw)) ∨
    x = .ranOut ∧ (current * s.backoff < 0 ∨ (limit : ℚ) ≤ current * s.backoff) := by
  cases x with
  | found | woken | stopped => simp [step]
  | ranOut => simp [step, increase, Factors.scale_eq_none]
  | lull draw =>
      have hstill : Factors.exact.isStill s.jitter = decide (s.jitter ≤ 0) := rfl
      simp only [step, spread, hstill, Option.map_eq_none_iff]
      split
      · next h =>
          simp only [Bool.or_eq_true, decide_eq_true_eq, beq_iff_eq] at h
          simp only [reduceCtorEq, false_iff, not_or, not_exists, not_and]
          refine ⟨?_, fun h => absurd h (by simp)⟩
          rintro d hd hpos hne
          rcases h with h | h
          · exact absurd hpos (not_lt.mpr h)
          · exact absurd h hne
      · next h =>
          simp only [Bool.or_eq_true, decide_eq_true_eq, beq_iff_eq, not_or, not_le] at h
          simp [Factors.scale_eq_none, h.1, h.2]

/-- The draw of a lull is one that chance can have come up with. -/
def Drawn (s : Pace ℚ) : Step ℚ → Prop
  | .lull draw => 1 - s.jitter ≤ draw ∧ draw ≤ 1 + s.jitter
  | .found | .ranOut | .woken | .stopped => True

/-- The factors are in the ranges of the functions that set them one by one, and no product is too
long. -/
structure Tame (s : Pace ℚ) : Prop where
  grows : 1 ≤ s.backoff
  mild : s.jitter ≤ 1
  backoff_short : s.most * s.backoff < limit
  jitter_short : s.most * (1 + s.jitter) < limit

/-- With a tame factor and a tame jitter no step panics. -/
theorem Tame.step_isSome (ht : s.Tame) (hle : current ≤ s.most) (hx : s.Drawn x) :
    (s.step .exact current x).isSome := by
  have hcurrent : (0 : ℚ) ≤ current := Nat.cast_nonneg _
  have hmost : (current : ℚ) ≤ s.most := by exact_mod_cast hle
  rw [Option.isSome_iff_ne_none, Ne, step_eq_none]
  rintro (⟨draw, rfl, hjitter, -, hbad⟩ | ⟨rfl, hbad⟩)
  · obtain ⟨hlow, hhigh⟩ := hx
    have hdraw : 0 ≤ draw := by linarith [ht.mild]
    have hpos : 0 ≤ current * draw := mul_nonneg hcurrent hdraw
    have hshort : current * draw ≤ s.most * (1 + s.jitter) :=
      mul_le_mul hmost hhigh hdraw (hcurrent.trans hmost)
    rcases hbad with hbad | hbad
    · linarith
    · linarith [ht.jitter_short]
  · have hgrows : 0 ≤ s.backoff := zero_le_one.trans ht.grows
    have hpos : 0 ≤ current * s.backoff := mul_nonneg hcurrent hgrows
    have hshort : current * s.backoff ≤ s.most * s.backoff :=
      mul_le_mul_of_nonneg_right hmost hgrows
    rcases hbad with hbad | hbad
    · linarith
    · linarith [ht.backoff_short]

/-- With a factor of at least one the sleep does not get shorter. -/
theorem Tame.le_step (ht : s.Tame) (hle : current ≤ s.most) (hx : x.resets = false)
    (h : s.step .exact current x = some next) : current ≤ next := by
  cases x with
  | found | woken => cases hx
  | lull draw =>
      obtain ⟨-, -, rfl⟩ := Option.map_eq_some_iff.mp h
      exact Nat.le_refl _
  | ranOut =>
      obtain ⟨d, hd, rfl⟩ := Option.map_eq_some_iff.mp h
      exact Nat.le_min.mpr ⟨Factors.le_scale ht.grows hd, hle⟩
  | stopped =>
      cases h
      exact Nat.le_refl _

theorem Tame.le_after (ht : s.Tame) (hle : current ≤ s.most) (hx : x.resets = false) :
    current ≤ s.after .exact current x := by
  rw [after]
  cases h : s.step .exact current x with
  | none => exact Nat.le_refl _
  | some next => exact ht.le_step hle hx h

/-- The sleep never falls below the least. -/
theorem Tame.le_interval (ht : s.Tame) (hrange : s.least ≤ s.most) (xs : List (Step ℚ)) :
    s.least ≤ s.interval .exact xs := by
  induction xs using List.reverseRecOn with
  | nil => exact Nat.le_refl _
  | append_singleton xs x ih =>
      rw [interval_append_singleton]
      cases hx : x.resets with
      | false => exact Nat.le_trans ih (ht.le_after (interval_le hrange xs) hx)
      | true =>
          cases x with
          | found | woken => exact Nat.le_refl s.least
          | lull | ranOut | stopped => cases hx

end Pace

end Backpressure.Idle

namespace Backpressure

variable {α : Type}

/-! ## The steps of a poller -/

namespace Poller

variable {p : Poller α} {b : Bench α} {o : Outcome α}

@[simp] theorem idle_nudge : p.nudge.idle = p.idle := by
  simp only [nudge]
  split <;> rfl

@[simp] theorem idle_tally (how : HandlerEnd) : (p.tally how b).1.idle = p.idle := by
  cases how <;> rfl

theorem handled_idle {how : HandlerEnd} (h : p.handled how b = some o) :
    o.poller.idle = p.idle := by
  simp only [Poller.handled] at h
  split at h
  · next a hp =>
      by_cases hh : how = .burst
      · rw [if_pos hh, panic_eq (by rw [worker_tally]; exact hp)] at h
        cases h
        exact idle_tally how
      · rw [if_neg hh, finish_eq (by rw [worker_tally]; exact hp)] at h
        cases h
        exact idle_tally how
  · next reason a hp =>
      by_cases hh : how = .burst
      · rw [if_pos hh, put_finishHook (by rw [worker_tally]; exact hp)] at h
        cases h
        exact idle_tally how
      · rw [if_neg hh, put_moveHook _ (by rw [worker_tally]; exact hp)] at h
        cases h
        exact idle_tally how
  · cases h

theorem drain_idle (h : p.drain b = some o) : o.poller.idle = p.idle := by
  simp only [Poller.drain] at h
  split at h
  · next reason hp =>
      rw [put_finishHook hp] at h
      split at h
      · split at h
        · rw [put_moveHook _ hp] at h
          cases h
          rfl
        · cases h
          rfl
      · cases h
        rfl
  · cases h

end Poller

namespace Solo

open Idle (pace)

/-- What an act of a poller is for its idle interval, if it is anything. -/
def Act.idleStep? (m : Act α) : Option (Idle.Step Float) :=
  match m.action with
  | .poller (.turn draw) | .poller (.look draw) =>
    match m.outcome.poller.worker.place with
    | .inside (.handling _) => some .found
    | .inside (.idling _ _) | .between _ => some (.lull draw)
    | _ => none
  | .poller .rise => some .ranOut
  | .poller .wake => some .woken
  | .poller .quit => some .stopped
  | _ => none

def idleSteps (h : List (Act α)) : List (Idle.Step Float) := h.filterMap Act.idleStep?

variable {s : PollerSettings} {capacity : Nat} {h : List (Act α)} {t : Instant} {w : Solo α}
  {m : Act α} {x : Idle.Step Float}

/-- An act that is a step of the idle interval does to it what the step does, and the iteration
panics just if the step does. -/
structure Act.Steps (m : Act α) (s : PollerSettings) (x : Idle.Step Float) : Prop where
  idle : m.outcome.poller.idle = (pace s).after .doubles m.found.poller.idle x
  panics : Poller.Event.panicked ∈ m.events ↔
    (pace s).step .doubles m.found.poller.idle x = none

theorem Act.Steps.of_some {next : Duration}
    (hs : (pace s).step .doubles m.found.poller.idle x = some next)
    (hi : m.outcome.poller.idle = next) (he : Poller.Event.panicked ∉ m.events) : m.Steps s x where
  idle := by rw [Idle.Pace.after, hs, hi, Option.getD_some]
  panics := by simp [hs, he]

/-- A step that panics leaves the sleep as it was. -/
theorem Act.Steps.of_none (hs : (pace s).step .doubles m.found.poller.idle x = none)
    (hi : m.outcome.poller.idle = m.found.poller.idle) (he : Poller.Event.panicked ∈ m.events) :
    m.Steps s x where
  idle := by rw [Idle.Pace.after, hs, hi, Option.getD_none]
  panics := by simp [hs, he]

/-- What follows a poll is a reset or a lull. -/
theorem Act.steps_of_polling {draw : Float} {o : Poller.Outcome α}
    (hp : Poller.Polling s m.now draw m.found.poller.idle o)
    (hm : m.action = .poller (.turn draw) ∨ m.action = .poller (.look draw))
    (he : m.events = o.events) (ho : m.outcome.poller = o.poller) :
    ∃ x, m.idleStep? = some x ∧ m.Steps s x := by
  cases hp with
  | found a hplace hevents hidle =>
      refine ⟨.found, ?_, .of_some rfl (ho ▸ hidle) (by simp [he, hevents])⟩
      rcases hm with hm | hm <;> simp [idleStep?, hm, ho, hplace]
  | lull d hd hplace hevents hidle =>
      refine ⟨.lull draw, ?_, .of_some ?_ (ho ▸ hidle) (by simp [he, hevents])⟩
      · rcases hm with hm | hm <;> simp [idleStep?, hm, ho, hplace]
      · show ((pace s).spread .doubles draw _).map _ = _
        rw [show (pace s).spread .doubles draw m.found.poller.idle = some d from hd]
        rfl
  | panic hd hplace hevents hidle =>
      refine ⟨.lull draw, ?_, .of_none ?_ (ho ▸ hidle) (by simp [he, hevents])⟩
      · rcases hm with hm | hm <;> simp [idleStep?, hm, ho, hplace]
      · show ((pace s).spread .doubles draw _).map _ = _
        rw [show (pace s).spread .doubles draw m.found.poller.idle = none from hd]
        rfl

/-- An act is a step of the idle interval, or leaves it alone. -/
theorem steps_or_idle (hs : m.found.step s m.now m.action = some (m.events, m.outcome)) :
    (∃ x, m.idleStep? = some x ∧ m.Steps s x) ∨
      m.idleStep? = none ∧ m.outcome.poller.idle = m.found.poller.idle := by
  obtain ⟨now, action, found, events, outcome⟩ := m
  dsimp only at hs
  cases action with
  | start =>
      obtain ⟨worker, -, he⟩ := Option.map_eq_some_iff.mp hs
      cases he
      exact .inr ⟨rfl, rfl⟩
  | requestStop | drop | drainOnStop on =>
      cases hs
      exact .inr ⟨rfl, rfl⟩
  | nudge =>
      cases hs
      exact .inr ⟨rfl, Poller.idle_nudge⟩
  | queue a =>
      obtain ⟨o, -, he⟩ := Option.map_eq_some_iff.mp hs
      cases he
      exact .inr ⟨rfl, rfl⟩
  | poller a =>
      obtain ⟨o, hstep, he⟩ := Option.map_eq_some_iff.mp hs
      cases he
      cases a with
      | turn draw =>
          obtain ⟨-, hturning⟩ := Poller.turn_turning hstep
          cases hturning with
          | leaves hstop hplace hevents hidle =>
              exact .inr ⟨by simp [Act.idleStep?, left, hplace], hidle⟩
          | waits hstop htimeout hq hplace hevents hidle =>
              exact .inr ⟨by simp [Act.idleStep?, left, hplace], hidle⟩
          | polls hstop hq hp => exact .inl (Act.steps_of_polling hp (.inl rfl) rfl rfl)
      | look draw =>
          obtain ⟨-, -, -, hp, -⟩ := Poller.look_polling hstep
          exact .inl (Act.steps_of_polling hp (.inr rfl) rfl rfl)
      | quit =>
          obtain ⟨-, -, -, hevents, hidle⟩ := Poller.quit_between hstep
          exact .inl ⟨.stopped, rfl, .of_some rfl hidle (by simp [hevents])⟩
      | rise =>
          refine .inl ⟨.ranOut, rfl, ?_⟩
          obtain ⟨-, -, hends⟩ := Poller.rise_between hstep
          rcases hends with ⟨d, hd, hevents, hidle⟩ | ⟨hd, hevents, hidle⟩
          · exact .of_some hd hidle (by simp [hevents])
          · exact .of_none hd hidle (by simp [hevents])
      | wake =>
          obtain ⟨-, -, hevents, hidle⟩ := Poller.wake_between hstep
          exact .inl ⟨.woken, rfl, .of_some rfl hidle (by simp [hevents])⟩
      | handled how => exact .inr ⟨rfl, Poller.handled_idle hstep⟩
      | drain => exact .inr ⟨rfl, Poller.drain_idle hstep⟩

/-- The idle interval of a poller goes through the steps of its run. -/
theorem Run.idle_eq (run : Run s capacity h t w) :
    w.poller.idle = (pace s).interval .doubles (idleSteps h) := by
  induction run with
  | here t => rfl
  | pass run hle ih => exact ih
  | @act h t w w' a es run hs ih =>
      have hm := steps_or_idle (m := ⟨t, a, w, es, w'⟩) hs
      rw [idleSteps, List.filterMap_append]
      rcases hm with ⟨x, hx, hsteps⟩ | ⟨hx, hidle⟩
      · simp only [List.filterMap_cons, hx, List.filterMap_nil]
        rw [Idle.Pace.interval_append_singleton]
        exact hsteps.idle.trans (by rw [ih]; rfl)
      · simp only [List.filterMap_cons, hx, List.filterMap_nil, List.append_nil]
        exact hidle.trans ih

end Solo

/-! ## Accepted settings -/

open Idle (pace)

/-- The idle intervals of a poller with some settings. -/
structure PollerSettings.Idles (s : PollerSettings) : Prop where
  /-- They are those of the steps of its runs, with factors in double precision.  An iteration
  panics over an interval just if the step does. -/
  follows : ∀ {α : Type} capacity (h : List (Solo.Act α)) t w, Solo.Run s capacity h t w →
    w.poller.idle = (pace s).interval .doubles (Solo.idleSteps h) ∧
      ∀ m ∈ h, ∀ x, m.idleStep? = some x → m.Steps s x
  /-- None is longer than the longest, whatever the factors and their arithmetic. -/
  bounded : ∀ {ρ : Type} (A : Idle.Factors ρ) (backoff jitter : ρ) xs,
    (Idle.Pace.mk s.minIdle s.maxIdle backoff jitter).interval A xs ≤ s.maxIdle
  /-- Without rounding a step panics just if it scales an interval and the product is negative or
  too long. -/
  panics : ∀ (backoff jitter : ℚ) current x,
    (Idle.Pace.mk s.minIdle s.maxIdle backoff jitter).step .exact current x = none ↔
      (∃ draw, x = .lull draw ∧ 0 < jitter ∧ current ≠ 0 ∧
        (current * draw < 0 ∨ (Idle.limit : ℚ) ≤ current * draw)) ∨
      x = .ranOut ∧ (current * backoff < 0 ∨ (Idle.limit : ℚ) ≤ current * backoff)
  /-- Without rounding, and with factors in their ranges and no product too long, none panics, none
  leaves the range, and none is shorter than the one before it unless it was set back. -/
  ranged : ∀ (backoff jitter : ℚ), (Idle.Pace.mk s.minIdle s.maxIdle backoff jitter).Tame →
    ∀ xs x, let f := Idle.Pace.mk s.minIdle s.maxIdle backoff jitter
      s.minIdle ≤ f.interval .exact xs ∧ f.interval .exact xs ≤ s.maxIdle ∧
        (f.Drawn x → (f.step .exact (f.interval .exact xs) x).isSome) ∧
        (x.resets = false → f.interval .exact xs ≤ f.interval .exact (xs ++ [x]))

theorem PollerSettings.range_of_check {s : PollerSettings} (h : s.check = .ok ()) :
    s.minIdle ≤ s.maxIdle := by
  unfold check at h
  split at h
  · cases h
  · next hlt => exact Nat.le_of_not_lt hlt

/-- With accepted settings these are the idle intervals of a poller. -/
theorem PollerSettings.idles {s : PollerSettings} (h : s.check = .ok ()) : s.Idles where
  follows capacity h t w run := by
    refine ⟨run.idle_eq, fun m hm x hx => ?_⟩
    obtain ⟨k, l, hh⟩ := List.append_of_mem hm
    rcases Solo.steps_or_idle (run.cut hh).2 with ⟨y, hy, hsteps⟩ | ⟨hnone, -⟩
    · cases hx.symm.trans hy
      exact hsteps
    · cases hx.symm.trans hnone
  bounded A backoff jitter xs := Idle.Pace.interval_le (range_of_check h) xs
  panics backoff jitter current x := Idle.Pace.step_eq_none
  ranged backoff jitter tame xs x := by
    have hrange := range_of_check h
    have hmost := Idle.Pace.interval_le (A := .exact)
      (s := Idle.Pace.mk s.minIdle s.maxIdle backoff jitter) hrange xs
    refine ⟨tame.le_interval hrange xs, hmost, fun hx => tame.step_isSome hmost hx, fun hx => ?_⟩
    rw [Idle.Pace.interval_append_singleton]
    exact tame.le_after hmost hx

open Duration (ofMillis)

/-- With the factors of a new poller the interval is doubled twice, set back, and doubled. -/
theorem idles_of_default : ({} : PollerSettings).check = .ok () ∧ ({} : PollerSettings).Idles ∧
    (Idle.Pace.mk (ofMillis 10) (ofMillis 500) (2 : ℚ) (1 / 10)).Tame ∧
    (Idle.Pace.mk (ofMillis 10) (ofMillis 500) (2 : ℚ) (1 / 10)).interval .exact
      [.lull 1, .ranOut, .lull (9 / 10), .ranOut, .woken, .lull 1, .ranOut] = ofMillis 20 := by
  have haccepted : ({} : PollerSettings).check = .ok () := by rfl
  refine ⟨haccepted, PollerSettings.idles haccepted, ⟨?_, ?_, ?_, ?_⟩, by decide +kernel⟩
  · norm_num
  · norm_num
  · norm_num [ofMillis, Duration.perMilli, Idle.limit, Duration.perSecond]
  · norm_num [ofMillis, Duration.perMilli, Idle.limit, Duration.perSecond]

def recoiling : PollerSettings where
  pollTimeout := ofMillis 20
  minIdle := ofMillis 5
  maxIdle := ofMillis 20
  backoff := -1.0
  jitter := 0.0

def dwindling : PollerSettings := { recoiling with backoff := 0.5 }

/-- A poller finds nothing, and its sleep runs out. -/
def emptyHanded : List (Instant × Solo.Action Unit) :=
  [(0, .start), (0, .poller (.turn 1)), (ofMillis 20, .poller (.look 1)),
    (ofMillis 25, .poller .rise)]

theorem out_of_range_of_emptyHanded : recoiling.check = .ok () ∧ dwindling.check = .ok () ∧
    (∃ h t w, enact (Solo.note recoiling) 0 (.ofSettings recoiling 4) emptyHanded = some (h, t, w) ∧
      Solo.Run recoiling 4 h t w ∧ h.flatMap (·.events) = [.panicked]) ∧
    ∃ h t w, enact (Solo.note dwindling) 0 (.ofSettings dwindling 4) emptyHanded = some (h, t, w) ∧
      Solo.Run dwindling 4 h t w ∧ h.flatMap (·.events) = [.iterated] ∧
      w.poller.idle < dwindling.minIdle := by
  refine ⟨rfl, rfl, ?_, ?_⟩
  · have hplay : (enact (Solo.note recoiling) 0 (.ofSettings recoiling 4) emptyHanded).map (fun w =>
        w.1.flatMap (·.events)) = some [.panicked] := by
      decide +kernel
    obtain ⟨⟨h, t, w⟩, hp, hread⟩ := Option.map_eq_some_iff.mp hplay
    have run : Solo.Run recoiling 4 ([] ++ h) t w := (Solo.Run.here 0).enact hp
    exact ⟨h, t, w, hp, run, hread⟩
  · have hplay : (enact (Solo.note dwindling) 0 (.ofSettings dwindling 4) emptyHanded).map (fun w =>
        (w.1.flatMap (·.events), decide (w.2.2.poller.idle < dwindling.minIdle))) =
        some ([.iterated], true) := by
      decide +kernel
    obtain ⟨⟨h, t, w⟩, hp, hread⟩ := Option.map_eq_some_iff.mp hplay
    simp only [Prod.mk.injEq, decide_eq_true_eq] at hread
    have run : Solo.Run dwindling 4 ([] ++ h) t w := (Solo.Run.here 0).enact hp
    exact ⟨h, t, w, hp, run, hread⟩

end Backpressure
