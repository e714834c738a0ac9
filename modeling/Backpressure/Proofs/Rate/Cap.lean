import Backpressure.Proofs.Rate.Run

/-!
# The cap is exact

A controller keeps a log of its admissions and prunes it from the front, and only when an
attempt looks.  `Log` is what the log has to do with the admissions of the whole run: it is
their end, and what is missing is at least a second old.  The admissions come in order, so
pruning the log leaves just those of the last second (`Log.recent_eq`).

From this follows that an attempt is refused just when the cap is reached in the second
before it, and that the cap is never exceeded in any second.

*Seconds.*  The second that ends at a moment leaves out its first moment, and the second
that begins at a moment leaves out its last.  The cap holds for both.
-/

namespace Backpressure.Rate

open Controller (window recent)

/-- The moments in the half-open second that ends at a moment. -/
def upTo (us : List Instant) (t : Instant) : List Instant :=
  us.filter fun u => t < u + window ∧ u ≤ t

/-- The moments in the half-open second that begins at a moment. -/
def since (us : List Instant) (t : Instant) : List Instant :=
  us.filter fun u => t ≤ u ∧ u < t + window

variable {us : List Instant} {now t u : Instant}

theorem old_iff : window ≤ now - u ↔ ¬ now < u + window := by
  have hpos : 0 < window := by decide
  unfold Instant Duration at *
  omega

/-- Pruning leaves of moments in order just those less than a second old. -/
theorem recent_eq_filter (hus : us.Pairwise (· ≤ ·)) :
    recent us now = us.filter fun u => now < u + window := by
  induction us with
  | nil => rfl
  | cons u us ih =>
      rw [List.pairwise_cons] at hus
      by_cases hold : window ≤ now - u
      · have hnot := old_iff.mp hold
        rw [recent, List.dropWhile_cons_of_pos (by simpa using hold), List.filter_cons_of_neg
          (by simpa using hnot)]
        exact ih hus.2
      · have hall : ∀ v ∈ u :: us, now < v + window := by
          intro v hv
          have hle : u ≤ v := by
            rcases List.mem_cons.mp hv with rfl | hv
            · exact Nat.le_refl _
            · exact hus.1 v hv
          have hnow : now < u + window := Decidable.of_not_not fun h => hold (old_iff.mpr h)
          exact Nat.lt_of_lt_of_le hnow (Nat.add_le_add_right hle window)
        rw [recent, List.dropWhile_cons_of_neg (by simpa using hold)]
        exact (List.filter_eq_self.mpr fun v hv => by simpa using hall v hv).symm

/-- Moments that are past are in the last second if they are less than a second old. -/
theorem upTo_eq_filter (hus : ∀ u ∈ us, u ≤ t) : upTo us t = us.filter fun u => t < u + window :=
  List.filter_congr fun u hu => by simp [hus u hu]

/-- What lies in the second up to a moment lies in a second that begins at some moment. -/
theorem length_upTo_le : (upTo us t).length ≤ (since us (t + 1 - window)).length := by
  have hpos : 0 < window := by decide
  rw [upTo, since, ← List.countP_eq_length_filter, ← List.countP_eq_length_filter]
  refine List.countP_mono_left fun u _ hu => ?_
  rw [decide_eq_true_eq] at hu ⊢
  unfold Instant Duration at *
  omega

namespace Calls

variable {ρ : Type} {settings : RateSettings} {c : Calls ρ} {a : Action ρ} {o : CallsOutcome ρ}
  {h : List (Act ρ)}

/-- The moments at which an attempt made its call, in order. -/
def admissions (h : List (Act ρ)) : List Instant := (h.filter Act.admits).map (·.now)

theorem admissions_append_singleton (m : Act ρ) :
    admissions (h ++ [m]) = admissions h ++ if m.admits then [m.now] else [] := by
  cases hm : m.admits <;> simp [admissions, List.filter_append, hm]

/-- The log of a controller is the end of its admissions, and what is missing is old. -/
structure Log (h : List (Act ρ)) (t : Instant) (c : Calls ρ) : Prop where
  sorted : (admissions h).Pairwise (· ≤ ·)
  past : ∀ u ∈ admissions h, u ≤ t
  pruned : ∃ old, admissions h = old ++ c.controller.admissions ∧ ∀ u ∈ old, u + window ≤ t
  /-- No second has more admissions than the cap. -/
  capped : ∀ x, (since (admissions h) x).length ≤ c.controller.settings.callsPerSecond

/-- The admissions that still count are those of the last second. -/
theorem Log.recent_eq (hl : Log h t c) :
    recent c.controller.admissions t = upTo (admissions h) t := by
  obtain ⟨old, hlog, hold⟩ := hl.pruned
  have hsorted : c.controller.admissions.Pairwise (· ≤ ·) :=
    (List.pairwise_append.mp (hlog ▸ hl.sorted)).2.1
  have hnone : old.filter (fun u => t < u + window) = [] :=
    List.filter_eq_nil_iff.mpr fun u hu => by simpa using hold u hu
  calc recent c.controller.admissions t
      = c.controller.admissions.filter fun u => t < u + window := recent_eq_filter hsorted
    _ = (admissions h).filter fun u => t < u + window := by
        rw [hlog, List.filter_append, hnone, List.nil_append]
    _ = upTo (admissions h) t := (upTo_eq_filter hl.past).symm

/-- What is pruned from a log is old. -/
theorem Log.prune {log : List Instant} (hl : Log h t c)
    (hlog : log = c.controller.admissions ∨ log = recent c.controller.admissions t) :
    ∃ old, admissions h = old ++ log ∧ ∀ u ∈ old, u + window ≤ t := by
  rcases hlog with rfl | rfl
  · exact hl.pruned
  · obtain ⟨old, hall, hold⟩ := hl.pruned
    refine ⟨old ++ c.controller.admissions.takeWhile fun u => window ≤ t - u, ?_, ?_⟩
    · rw [List.append_assoc, recent, List.takeWhile_append_dropWhile, hall]
    · intro u hu
      rcases List.mem_append.mp hu with hu | hu
      · exact hold u hu
      · have hpast : window ≤ t - u := by
          simpa using List.all_eq_true.mp List.all_takeWhile u hu
        exact Nat.le_of_not_lt (old_iff.mp hpast)

/-- An act that admits nothing and at most prunes the log. -/
theorem Log.keep {m : Act ρ} {c' : Calls ρ} (hl : Log h t c) (hm : m.admits = false)
    (hlog : c'.controller.admissions = c.controller.admissions ∨
      c'.controller.admissions = recent c.controller.admissions t)
    (hset : c'.controller.settings = c.controller.settings) : Log (h ++ [m]) t c' := by
  have hsame : admissions (h ++ [m]) = admissions h := by
    rw [admissions_append_singleton, hm]
    exact List.append_nil _
  exact ⟨hsame ▸ hl.sorted, hsame ▸ hl.past, hsame ▸ hl.prune hlog,
    by rw [hsame, hset]; exact hl.capped⟩

/-- An admission below the cap exceeds it in no second. -/
theorem Log.capped_append (hl : Log h t c)
    (hroom : (recent c.controller.admissions t).length < c.controller.settings.callsPerSecond)
    (x : Instant) :
    (since (admissions h ++ [t]) x).length ≤ c.controller.settings.callsPerSecond := by
  have hsplit : since (admissions h ++ [t]) x = since (admissions h) x ++ since [t] x :=
    List.filter_append _ _
  rw [hsplit, List.length_append]
  by_cases hx : x ≤ t ∧ t < x + window
  · -- what was admitted in this second counts at `t`
    have hsub : (since (admissions h) x).length ≤ (upTo (admissions h) t).length := by
      rw [upTo, since, ← List.countP_eq_length_filter, ← List.countP_eq_length_filter]
      refine List.countP_mono_left fun u hu hin => ?_
      rw [decide_eq_true_eq] at hin ⊢
      exact ⟨Nat.lt_of_lt_of_le hx.2 (Nat.add_le_add_right hin.1 window), hl.past u hu⟩
    have hone : (since [t] x).length ≤ 1 := List.length_filter_le _ _
    rw [hl.recent_eq] at hroom
    omega
  · have hnone : since [t] x = [] := List.filter_eq_nil_iff.mpr fun u hu => by
      simpa [List.mem_singleton.mp hu] using hx
    rw [hnone]
    exact hl.capped x

/-- An attempt that makes its call. -/
theorem Log.enter {m : Act ρ} {c' : Calls ρ} (hl : Log h t c) (hm : m.admits = true)
    (hnow : m.now = t)
    (hroom : (recent c.controller.admissions t).length < c.controller.settings.callsPerSecond)
    (hlog : c'.controller.admissions = recent c.controller.admissions t ++ [t])
    (hset : c'.controller.settings = c.controller.settings) : Log (h ++ [m]) t c' := by
  have hmore : admissions (h ++ [m]) = admissions h ++ [t] := by
    rw [admissions_append_singleton, hm, hnow]
    rfl
  refine ⟨?_, ?_, ?_, ?_⟩
  · rw [hmore, List.pairwise_append]
    refine ⟨hl.sorted, List.pairwise_singleton _ _, fun u hu v hv => ?_⟩
    exact List.mem_singleton.mp hv ▸ hl.past u hu
  · intro u hu
    rw [hmore] at hu
    rcases List.mem_append.mp hu with hu | hu
    · exact hl.past u hu
    · exact Nat.le_of_eq (List.mem_singleton.mp hu)
  · obtain ⟨old, hall, hold⟩ := hl.prune (.inr rfl)
    refine ⟨old, ?_, hold⟩
    rw [hmore, hlog, ← List.append_assoc, ← hall]
  · rw [hmore, hset]
    exact hl.capped_append hroom

/-- An action keeps the log in order. -/
theorem Log.deed (hl : Log h t c) (hd : Deed t c a o) : Log (h ++ [⟨t, a, c, o⟩]) t o.calls := by
  cases hd with
  | refused limit plan wait log hon hcap hlog => exact hl.keep rfl hlog rfl
  | admitted limit plan counter hon hroom => exact hl.enter rfl rfl hroom rfl rfl
  | disabled | ended | cancelled | enable | disable => exact hl.keep rfl (.inl rfl) rfl

theorem Run.log {t : Instant} (run : Run settings h t c) : Log h t c := by
  induction run with
  | here t =>
      refine ⟨List.Pairwise.nil, ?_, ⟨[], rfl, ?_⟩, fun x => Nat.zero_le _⟩
      · exact fun u hu => absurd hu List.not_mem_nil
      · exact fun u hu => absurd hu List.not_mem_nil
  | act run hs ih => exact ih.deed (step_deed hs)
  | pass run hle ih =>
      refine ⟨ih.sorted, fun u hu => Nat.le_trans (ih.past u hu) hle, ?_, ih.capped⟩
      obtain ⟨old, hlog, hold⟩ := ih.pruned
      exact ⟨old, hlog, fun u hu => Nat.le_trans (hold u hu) hle⟩

/-- An attempt that is refused by the cap. -/
def Act.Refused (m : Act ρ) (cap : Nat) : Prop :=
  ∃ wait, m.outcome.events = [.answered m.found.nextAttempt (.error (.rateExceeded cap wait))]

/-- An attempt is refused just when the cap is reached in the second up to it. -/
theorem Log.refused_iff {m : Act ρ} {limit : Duration} {plan : CallPlan ρ}
    (hl : Log h m.now m.found) (hd : Deed m.now m.found m.action m.outcome)
    (ha : m.action = .attempt limit plan) (hon : m.found.controller.switch.enabled = true) :
    (m.Refused m.found.controller.settings.callsPerSecond ↔
        (upTo (admissions h) m.now).length = m.found.controller.settings.callsPerSecond) ∧
      ((upTo (admissions h) m.now).length ≠ m.found.controller.settings.callsPerSecond →
        m.outcome.events = [.invoked m.found.nextAttempt limit]) := by
  obtain ⟨now, action, found, outcome⟩ := m
  dsimp only at hl hd ha hon ⊢
  subst ha
  have hrecent := hl.recent_eq
  cases hd with
  | disabled limit plan hoff => simp [hoff] at hon
  | refused limit plan wait log _ hcap hlog =>
      rw [hrecent] at hcap
      have hfull := Nat.le_antisymm (Nat.le_trans length_upTo_le (hl.capped _)) hcap
      exact ⟨⟨fun _ => hfull, fun _ => ⟨wait, rfl⟩⟩, fun hne => absurd hfull hne⟩
  | admitted limit plan counter _ hroom =>
      rw [hrecent] at hroom
      refine ⟨⟨?_, fun hfull => absurd hfull (Nat.ne_of_lt hroom)⟩, fun _ => rfl⟩
      rintro ⟨wait, hevents⟩
      simp at hevents

/-- The cap is exact. -/
structure Capped (cap : Nat) (h : List (Act ρ)) : Prop where
  /-- An attempt to a controller that is on is refused just when there were as many admissions
  as the cap allows in the second up to it.  Otherwise it makes its call. -/
  exact : ∀ k m l, h = k ++ m :: l → ∀ limit plan, m.action = .attempt limit plan →
    m.found.controller.switch.enabled = true →
      (m.Refused cap ↔ (upTo (admissions k) m.now).length = cap) ∧
        ((upTo (admissions k) m.now).length ≠ cap →
          m.outcome.events = [.invoked m.found.nextAttempt limit])
  /-- Every attempt is refused if the cap is zero. -/
  zero : cap = 0 → ∀ m ∈ h, ∀ limit plan, m.action = .attempt limit plan →
    m.found.controller.switch.enabled = true → m.Refused cap
  /-- No half-open second has more admissions than the cap allows. -/
  seconds : ∀ t, (upTo (admissions h) t).length ≤ cap ∧ (since (admissions h) t).length ≤ cap

/-- Along every run the cap is exact. -/
theorem Run.capped {t : Instant} (run : Run settings h t c) :
    Capped settings.callsPerSecond h := by
  have hlog := run.log
  have hexact : ∀ k m l, h = k ++ m :: l → ∀ limit plan, m.action = .attempt limit plan →
      m.found.controller.switch.enabled = true →
        (m.Refused settings.callsPerSecond ↔
            (upTo (admissions k) m.now).length = settings.callsPerSecond) ∧
          ((upTo (admissions k) m.now).length ≠ settings.callsPerSecond →
            m.outcome.events = [.invoked m.found.nextAttempt limit]) := by
    intro k m l hh limit plan ha hon
    obtain ⟨before, hd⟩ := run.cut hh
    exact before.settings_eq ▸ before.log.refused_iff hd ha hon
  have hsince : ∀ t, (since (admissions h) t).length ≤ settings.callsPerSecond :=
    run.settings_eq ▸ hlog.capped
  refine ⟨hexact, ?_, fun t => ⟨Nat.le_trans length_upTo_le (hsince _), hsince t⟩⟩
  intro hzero m hm limit plan ha hon
  obtain ⟨k, l, hh⟩ := List.append_of_mem hm
  have hnone : (upTo (admissions k) m.now).length ≤ settings.callsPerSecond := by
    have before := (run.cut hh).1
    exact before.settings_eq ▸ Nat.le_trans length_upTo_le (before.log.capped _)
  exact (hexact k m l hh limit plan ha hon).1.mpr (by omega)

/-- With a cap of two, two attempts at one moment fill a second.  A third is refused one
nanosecond before they stop counting, and one more is not when they do. -/
def burst : List (Instant × Action Unit) :=
  [(5, .attempt 7 { result := .ok () }), (5, .attempt 7 { result := .ok () }), (5, .resume 0),
    (6, .disable), (6, .attempt 7 { result := .ok () }), (7, .enable),
    (1000000004, .attempt 7 { result := .ok () }), (1000000005, .attempt 7 { result := .ok () })]

theorem capped_of_burst : ∃ h t c,
    enact (note ⟨0⟩) 0 (ofSettings (.ofCalls 2)) burst = some (h, t, c) ∧
      Capped 2 h ∧ admissions h = [5, 5, 1000000005] ∧ c.controller.stats.rejected = 1 := by
  have hplay : (enact (note ⟨0⟩) 0 (ofSettings (.ofCalls 2)) burst).map (fun w =>
      (admissions w.1, w.2.2.controller.stats.rejected)) = some ([5, 5, 1000000005], 1) := by
    decide +kernel
  obtain ⟨⟨h, t, c⟩, hp, hread⟩ := Option.map_eq_some_iff.mp hplay
  simp only [Prod.mk.injEq] at hread
  have run : Run (.ofCalls 2) ([] ++ h) t c := (Run.here 0).enact hp
  exact ⟨h, t, c, hp, run.capped, hread⟩

end Calls

end Backpressure.Rate
