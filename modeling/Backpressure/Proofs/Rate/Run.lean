import Backpressure.Proofs.Script
import Backpressure.Rate.Calls

/-!
# Runs of a controller and its calls

A run is a sequence of actions at moments that never go back.  It keeps each action with
its moment, what it found and what came of it.  What an action can come to is listed by
`Deed`, the new state written out in full.

*Promptness.*  Nothing in a run makes an attempt look in time.  `Act.Prompt` says that no
attempt is left waiting beyond its deadline.
-/

namespace Backpressure.Rate

variable {ρ : Type}

namespace CallEvent

/-- The attempt that an event tells to make its call, with the time that the call has. -/
def invoked? : CallEvent ρ → Option (CallId × Duration)
  | .invoked attempt limit => some (attempt, limit)
  | .answered _ _ => none

/-- The attempt that an event tells to end, with what it ends with. -/
def answered? : CallEvent ρ → Option (CallId × Except CallError ρ)
  | .answered attempt result => some (attempt, result)
  | .invoked _ _ => none

end CallEvent

namespace Calls

/-- One action, with its moment, what it found and what came of it. -/
structure Act (ρ : Type) where
  now : Instant
  action : Action ρ
  found : Calls ρ
  outcome : CallsOutcome ρ

/-- A run of a controller with some settings, up to a moment. -/
inductive Run (settings : RateSettings) : List (Act ρ) → Instant → Calls ρ → Prop where
  /-- Nothing has happened. -/
  | here (t : Instant) : Run settings [] t (ofSettings settings)
  /-- An action happens. -/
  | act {h : List (Act ρ)} {t : Instant} {c : Calls ρ} {a : Action ρ} {clock : WallClock}
      {o : CallsOutcome ρ} : Run settings h t c → c.step clock t a = some o →
      Run settings (h ++ [⟨t, a, c, o⟩]) t o.calls
  /-- Time passes. -/
  | pass {h : List (Act ρ)} {t t' : Instant} {c : Calls ρ} :
      Run settings h t c → t ≤ t' → Run settings h t' c

variable {settings : RateSettings} {clock : WallClock} {now t : Instant} {c : Calls ρ}
  {a : Action ρ} {o : CallsOutcome ρ} {h : List (Act ρ)} {attempt : CallId}

/-! ## One step -/

/-- The calls without one. -/
def without (c : Calls ρ) (attempt : CallId) : Calls ρ :=
  { c with running := c.running.filter (·.attempt != attempt) }

/-- What an action can come to. -/
inductive Deed (now : Instant) (c : Calls ρ) : Action ρ → CallsOutcome ρ → Prop where
  /-- An attempt finds the controller switched off. -/
  | disabled (limit : Duration) (plan : CallPlan ρ) (hoff : c.controller.switch.enabled = false) :
      Deed now c (.attempt limit plan)
        { events := [.answered c.nextAttempt (.error .disabled)]
          calls := { c with nextAttempt := c.nextAttempt + 1 } }
  /-- An attempt is refused by the cap.  The log is pruned, unless the cap is zero. -/
  | refused (limit : Duration) (plan : CallPlan ρ) (wait : Int) (log : List Instant)
      (hon : c.controller.switch.enabled = true)
      (hcap : c.controller.settings.callsPerSecond ≤
        (Controller.recent c.controller.admissions now).length)
      (hlog : log = c.controller.admissions ∨ log = Controller.recent c.controller.admissions now) :
      Deed now c (.attempt limit plan)
        { events := [.answered c.nextAttempt
            (.error (.rateExceeded c.controller.settings.callsPerSecond wait))]
          calls := { c with
            controller := { c.controller with
              admissions := log
              stats.rejected := c.controller.stats.rejected + 1 }
            nextAttempt := c.nextAttempt + 1 } }
  /-- An attempt makes its call. -/
  | admitted (limit : Duration) (plan : CallPlan ρ) (counter : Counter)
      (hon : c.controller.switch.enabled = true)
      (hroom : (Controller.recent c.controller.admissions now).length <
        c.controller.settings.callsPerSecond) :
      Deed now c (.attempt limit plan)
        { events := [.invoked c.nextAttempt limit]
          calls := {
            controller := { c.controller with
              admissions := Controller.recent c.controller.admissions now ++ [now]
              counter
              stats.admitted := c.controller.stats.admitted + 1 }
            running := c.running ++ [plan.start now c.nextAttempt limit]
            nextAttempt := c.nextAttempt + 1 } }
  /-- A call is over, and its attempt with it. -/
  | ended (attempt : CallId) (i : Invocation ρ)
      (hi : c.running.find? (·.attempt == attempt) = some i) (hover : i.isOver now = true) :
      Deed now c (.resume attempt)
        { events := [.answered attempt i.result], calls := c.without attempt }
  /-- A call has used up its time. -/
  | cancelled (attempt : CallId) (i : Invocation ρ)
      (hi : c.running.find? (·.attempt == attempt) = some i) (hover : i.isOver now = false)
      (hdue : i.deadline ≤ now) :
      Deed now c (.resume attempt)
        { events := [.answered attempt (.error (.cancelled i.limit))]
          calls := { c.without attempt with
            controller := { c.controller with
              stats.cancelled := c.controller.stats.cancelled + 1 } } }
  | enable : Deed now c .enable { calls := { c with controller := c.controller.enable } }
  | disable : Deed now c .disable { calls := { c with controller := c.controller.disable } }

/-- An attempt that begins is refused, answered at once, or runs. -/
theorem begin_deed (limit : Duration) (plan : CallPlan ρ) :
    Deed now c (.attempt limit plan) (c.begin clock now limit plan) := by
  simp only [begin, Controller.allow]
  cases hon : c.controller.switch.enabled with
  | false => exact .disabled limit plan hon
  | true =>
      simp only [Bool.not_true, Bool.false_eq_true, if_false]
      by_cases hzero : c.controller.settings.callsPerSecond = 0
      · simp only [hzero, if_true]
        have hcap : c.controller.settings.callsPerSecond ≤
            (Controller.recent c.controller.admissions now).length := by omega
        have hdeed := Deed.refused limit plan (-1) c.controller.admissions hon hcap (.inl rfl)
        rwa [hzero] at hdeed
      · simp only [hzero, if_false]
        by_cases hcap : c.controller.settings.callsPerSecond ≤
            (Controller.recent c.controller.admissions now).length
        · simp only [hcap, if_true]
          exact .refused limit plan _ _ hon hcap (.inr rfl)
        · simp only [hcap, if_false]
          exact .admitted limit plan _ hon (Nat.lt_of_not_le hcap)

/-- An attempt that runs goes on when its call is over or its deadline is there. -/
theorem resume_deed (hs : c.resume now attempt = some o) : Deed now c (.resume attempt) o := by
  simp only [resume] at hs
  split at hs
  · cases hs
  · next i hi =>
      split at hs
      · next hover =>
          cases hs
          exact .ended attempt i hi hover
      · next hover =>
          split at hs
          · cases hs
          · next hdue =>
              cases hs
              exact .cancelled attempt i hi (Bool.eq_false_iff.mpr hover) (Nat.le_of_not_lt hdue)

/-- Every action comes to one of the deeds. -/
theorem step_deed (hs : c.step clock now a = some o) : Deed now c a o := by
  cases a with
  | attempt limit plan =>
      cases hs
      exact begin_deed limit plan
  | resume attempt => exact resume_deed hs
  | enable =>
      cases hs
      exact .enable
  | disable =>
      cases hs
      exact .disable

/-! ## What could be seen -/

/-- What could be seen in a run, in order. -/
def seen (h : List (Act ρ)) : List (CallEvent ρ) := h.flatMap (·.outcome.events)

/-- The attempts that made their calls, in order. -/
def invoked (es : List (CallEvent ρ)) : List (CallId × Duration) := es.filterMap CallEvent.invoked?

/-- The attempts that ended, in order, with their answers. -/
def answered (es : List (CallEvent ρ)) : List (CallId × Except CallError ρ) :=
  es.filterMap CallEvent.answered?

theorem seen_append_singleton (m : Act ρ) : seen (h ++ [m]) = seen h ++ m.outcome.events := by
  simp [seen]

@[simp] theorem invoked_append (es fs : List (CallEvent ρ)) :
    invoked (es ++ fs) = invoked es ++ invoked fs := List.filterMap_append

@[simp] theorem answered_append (es fs : List (CallEvent ρ)) :
    answered (es ++ fs) = answered es ++ answered fs := List.filterMap_append

namespace Act

/-- Whether a call is made in an act. -/
def admits (m : Act ρ) : Bool := !(invoked m.outcome.events).isEmpty

/-- No attempt is left waiting beyond its deadline. -/
def Prompt (m : Act ρ) : Prop := ∀ i ∈ m.found.running, m.now ≤ i.deadline

instance (m : Act ρ) : Decidable m.Prompt :=
  inferInstanceAs (Decidable (∀ i ∈ m.found.running, m.now ≤ i.deadline))

end Act

/-! ## Runs -/

/-- A part of a run is a run, and what follows it is a step. -/
theorem Run.cut {k l : List (Act ρ)} {m : Act ρ} (run : Run settings h t c) (hh : h = k ++ m :: l) :
    Run settings k m.now m.found ∧ Deed m.now m.found m.action m.outcome := by
  induction run generalizing l with
  | here t => simp at hh
  | pass run hle ih => exact ih hh
  | act run hs ih =>
      rcases List.eq_nil_or_concat l with rfl | ⟨l', m', rfl⟩
      · obtain ⟨rfl, hm⟩ := List.append_inj' hh rfl
        cases hm
        exact ⟨run, step_deed hs⟩
      · rw [List.concat_eq_append, ← List.cons_append, ← List.append_assoc] at hh
        exact ih (List.append_inj' hh rfl).1

theorem Run.deed (run : Run settings h t c) {m : Act ρ} (hm : m ∈ h) :
    Deed m.now m.found m.action m.outcome := by
  obtain ⟨k, l, hh⟩ := List.append_of_mem hm
  exact (run.cut hh).2

/-- The settings stay. -/
theorem Deed.settings_eq (hd : Deed now c a o) :
    o.calls.controller.settings = c.controller.settings := by
  cases hd <;> rfl

theorem Run.settings_eq (run : Run settings h t c) : c.controller.settings = settings := by
  induction run with
  | here t => rfl
  | act run hs ih => exact (step_deed hs).settings_eq.trans ih
  | pass run hle ih => exact ih

/-! ## Scripts -/

/-- Lets an action happen, and makes a note of it. -/
def note (clock : WallClock) (t : Instant) (c : Calls ρ) (a : Action ρ) :
    Option (Act ρ × Calls ρ) :=
  (c.step clock t a).map fun o => (⟨t, a, c, o⟩, o.calls)

/-- A script that can be enacted goes on with a run. -/
theorem Run.enact {script : List (Instant × Action ρ)} {k : List (Act ρ)} {u : Instant}
    {r : Calls ρ} (run : Run settings h t c)
    (hp : Backpressure.enact (note clock) t c script = some (k, u, r)) :
    Run settings (h ++ k) u r := by
  refine reach_of_enact (R := Run settings) ?act .pass run hp
  case act =>
    intro h t c a m c' run hm
    obtain ⟨o, hs, he⟩ := Option.map_eq_some_iff.mp hm
    cases he
    exact run.act hs

end Calls

end Backpressure.Rate
