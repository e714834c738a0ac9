import Backpressure.Proofs.Rate.Cap

/-!
# The hint of a refusal

A refused attempt is told how many milliseconds the oldest admission still counts.  In the
second up to a refusal there are exactly as many admissions as the cap allows, so one place
is free as soon as the oldest of them is a second old: `Run.retried_iff`.

*Rounding.*  The hint cuts off what is finer than a millisecond, and is at least one.  It
covers the time that is left just when that is a whole number of milliseconds, as it is on a
clock of milliseconds, or shorter than one (`remaining_le_retryHint_iff`).  Otherwise who keeps
to the hint comes too early.  One millisecond more always does.
-/

namespace Backpressure.Rate

open Controller (window recent retryHint)

variable {us : List Instant} {now t u : Instant}

/-! ## What the hint says about the time that is left -/

def remaining (u now : Instant) : Duration := window - (now - u)

theorem one_le_retryHint (u now : Instant) : 1 ≤ retryHint u now := Nat.le_max_left _ _

theorem retryHint_le (u now : Instant) : retryHint u now ≤ 1000 := by
  have hle : Duration.wholeMillis (remaining u now) ≤ Duration.wholeMillis window :=
    Nat.div_le_div_right (Nat.sub_le _ _)
  have hsecond : Duration.wholeMillis window = 1000 := by decide
  rw [hsecond] at hle
  exact Nat.max_le.mpr ⟨by decide, hle⟩

/-- The admission has stopped counting one millisecond after the hint at the latest. -/
theorem remaining_lt (u now : Instant) :
    remaining u now < Duration.ofMillis (retryHint u now + 1) := by
  have hcut : remaining u now / Duration.perMilli ≤ retryHint u now := Nat.le_max_right _ _
  have hpos : 0 < Duration.perMilli := by decide
  calc remaining u now
      < (remaining u now / Duration.perMilli + 1) * Duration.perMilli := by
        rw [Nat.add_mul, Nat.one_mul, Nat.mul_comm]
        exact Nat.lt_mul_div_succ _ hpos
    _ ≤ (retryHint u now + 1) * Duration.perMilli :=
        Nat.mul_le_mul_right _ (Nat.succ_le_succ hcut)

/-- Nothing is cut off that counts: the time left is in whole milliseconds, or under one. -/
def Spaced (u now : Instant) : Prop :=
  remaining u now % Duration.perMilli = 0 ∨ remaining u now < Duration.perMilli

instance (u now : Instant) : Decidable (Spaced u now) :=
  inferInstanceAs (Decidable (_ ∨ _))

theorem spaced_of_whole (hu : u % Duration.perMilli = 0) (hnow : now % Duration.perMilli = 0) :
    Spaced u now := by
  have hwindow : window % Duration.perMilli = 0 := by decide
  exact .inl (Nat.sub_mod_eq_zero_of_mod_eq (hwindow.trans (Nat.sub_mod_eq_zero_of_mod_eq
    (hnow.trans hu.symm)).symm))

/-- The hint covers the time that is left just when nothing is cut off that counts. -/
theorem remaining_le_retryHint_iff :
    remaining u now ≤ Duration.ofMillis (retryHint u now) ↔ Spaced u now := by
  constructor
  · intro hle
    rcases Nat.lt_or_ge (remaining u now) Duration.perMilli with hshort | hlong
    · exact .inr hshort
    · have hpos : 0 < Duration.perMilli := by decide
      have hhint : retryHint u now = remaining u now / Duration.perMilli :=
        Nat.max_eq_right (Nat.div_pos hlong hpos)
      rw [hhint] at hle
      have hwhole : remaining u now / Duration.perMilli * Duration.perMilli = remaining u now :=
        Nat.le_antisymm (Nat.div_mul_le_self _ _) hle
      exact .inl (Nat.mod_eq_zero_of_dvd ⟨_, hwhole.symm.trans (Nat.mul_comm _ _)⟩)
  rintro (hwhole | hshort)
  · calc remaining u now
        = remaining u now / Duration.perMilli * Duration.perMilli :=
          (Nat.div_mul_cancel (Nat.dvd_of_mod_eq_zero hwhole)).symm
      _ ≤ retryHint u now * Duration.perMilli :=
          Nat.mul_le_mul_right _ (Nat.le_max_right _ _)
  · calc remaining u now
        ≤ 1 * Duration.perMilli := by rw [Nat.one_mul]; exact Nat.le_of_lt hshort
      _ ≤ retryHint u now * Duration.perMilli :=
          Nat.mul_le_mul_right _ (one_le_retryHint u now)

/-! ## A second that has passed its oldest admission -/

/-- Later fewer of the admissions count, if the oldest of them does not count any more. -/
theorem length_upTo_lt {oldest : Instant} {rest : List Instant} (hpast : ∀ u ∈ us, u ≤ now)
    (hfirst : upTo us now = oldest :: rest) (hnow : now ≤ t) (hold : oldest + window ≤ t) :
    (upTo us t).length < (upTo us now).length := by
  have hlater : ∀ u ∈ us, u ≤ t := fun u hu => Nat.le_trans (hpast u hu) hnow
  have hsame : upTo us t = (upTo us now).filter fun u => t < u + window := by
    rw [upTo_eq_filter hlater, upTo_eq_filter hpast, List.filter_filter]
    refine List.filter_congr fun u _ => ?_
    simp only [← Bool.decide_and, decide_eq_decide]
    exact ⟨fun h => ⟨h, Nat.lt_of_le_of_lt hnow h⟩, And.left⟩
  rw [hsame, List.length_filter_lt_length_iff_exists]
  refine ⟨oldest, hfirst ▸ List.mem_cons_self, ?_⟩
  simpa using hold

/-- Later as many of the admissions count, while the oldest of them still does. -/
theorem upTo_eq_of_young {oldest : Instant} {rest : List Instant} (hus : us.Pairwise (· ≤ ·))
    (hpast : ∀ u ∈ us, u ≤ now) (hfirst : upTo us now = oldest :: rest) (hnow : now ≤ t)
    (hyoung : t < oldest + window) : upTo us t = upTo us now := by
  have hlater : ∀ u ∈ us, u ≤ t := fun u hu => Nat.le_trans (hpast u hu) hnow
  rw [upTo_eq_filter hlater, upTo_eq_filter hpast]
  refine List.filter_congr fun u hu => ?_
  rw [decide_eq_decide]
  refine ⟨Nat.lt_of_le_of_lt hnow, fun hcounts => ?_⟩
  have hsorted : (oldest :: rest).Pairwise (· ≤ ·) := hfirst ▸ hus.sublist List.filter_sublist
  have hmem : u ∈ oldest :: rest := hfirst ▸ List.mem_filter.mpr ⟨hu, by simp [hcounts, hpast u hu]⟩
  have hle : oldest ≤ u := by
    rcases List.mem_cons.mp hmem with rfl | hmem
    · exact Nat.le_refl _
    · exact (List.pairwise_cons.mp hsorted).1 u hmem
  exact Nat.lt_of_lt_of_le hyoung (Nat.add_le_add_right hle window)

namespace Calls

variable {ρ : Type} {settings : RateSettings} {clock : WallClock} {c : Calls ρ} {a : Action ρ}
  {o : CallsOutcome ρ} {h k l : List (Act ρ)} {m m' : Act ρ}

/-! ## What is refused, and with which hint -/

/-- An attempt that the controller itself refuses is told the cap and the hint. -/
theorem error_of_begin {limit : Duration} {plan : CallPlan ρ} {attempt : CallId} {e : CallError}
    (hcap : 1 ≤ c.controller.settings.callsPerSecond)
    (he : .answered attempt (.error e) ∈ (c.begin clock now limit plan).events) :
    e = .disabled ∨ c.controller.switch.enabled = true ∧
      c.controller.settings.callsPerSecond ≤ (recent c.controller.admissions now).length ∧
      e = .rateExceeded c.controller.settings.callsPerSecond
        (retryHint ((recent c.controller.admissions now).headD now) now) := by
  have hzero : c.controller.settings.callsPerSecond ≠ 0 := by omega
  simp only [begin, Controller.allow, hzero, if_false] at he
  cases hon : c.controller.switch.enabled with
  | false =>
      simp only [hon, Bool.not_false, if_true, List.mem_singleton] at he
      cases he
      exact .inl rfl
  | true =>
      simp only [hon, Bool.not_true, Bool.false_eq_true, if_false] at he
      split at he
      · next hreached =>
          split at hreached
          · next hfull =>
              cases hreached
              cases List.mem_singleton.mp he
              exact .inr ⟨rfl, hfull, rfl⟩
          · cases hreached
      · cases List.mem_singleton.mp he

/-- An attempt is refused by the cap, with a hint. -/
def Act.Hinted (m : Act ρ) (cap wait : Nat) : Prop :=
  (∃ limit plan, m.action = .attempt limit plan) ∧
    m.outcome.events = [.answered m.found.nextAttempt (.error (.rateExceeded cap wait))]

theorem Act.Hinted.mem {cap wait : Nat} (hm : m.Hinted cap wait) :
    CallEvent.answered m.found.nextAttempt (.error (.rateExceeded cap wait)) ∈
      m.outcome.events := by
  rw [hm.2]
  exact List.mem_cons_self

def Act.Aside (m : Act ρ) : Prop := ∀ limit plan, m.action ≠ .attempt limit plan

theorem Act.Hinted.admits_eq {cap wait : Nat} (hm : m.Hinted cap wait) : m.admits = false := by
  rw [Act.admits, hm.2]
  rfl

theorem Deed.admits_of_aside (hd : Deed m.now m.found m.action m.outcome) (hm : m.Aside) :
    m.admits = false := by
  obtain ⟨now, action, found, outcome⟩ := m
  dsimp only at hd
  cases hd with
  | disabled limit plan | refused limit plan | admitted limit plan =>
      exact absurd rfl (hm limit plan)
  | ended | cancelled | enable | disable => rfl

/-- Who attempts nothing passes on such an error of a call that is over, and makes none. -/
theorem Deed.rateExceeded_passed (hd : Deed m.now m.found m.action m.outcome) (hm : m.Aside)
    {attempt : CallId} {rate : Nat} {wait : Int}
    (he : .answered attempt (.error (.rateExceeded rate wait)) ∈ m.outcome.events) :
    ∃ i ∈ m.found.running, i.attempt = attempt ∧ i.isOver m.now = true ∧
      i.result = .error (.rateExceeded rate wait) := by
  obtain ⟨now, action, found, outcome⟩ := m
  dsimp only at hd he ⊢
  cases hd with
  | disabled limit plan | refused limit plan | admitted limit plan =>
      exact absurd rfl (hm limit plan)
  | ended attempt' i hi hover =>
      have hsame := List.mem_singleton.mp he
      simp only [CallEvent.answered.injEq] at hsame
      obtain ⟨rfl, hresult⟩ := hsame
      exact ⟨i, List.mem_of_find?_eq_some hi, by simpa using List.find?_some hi, hover, hresult.symm⟩
  | cancelled => cases List.mem_singleton.mp he
  | enable | disable => cases he

theorem Run.stepped (run : Run settings h t c) (hm : m ∈ h) :
    ∃ clock, m.found.step clock m.now m.action = some m.outcome := by
  induction run with
  | here t => exact absurd hm List.not_mem_nil
  | pass run hle ih => exact ih hm
  | act run hs ih =>
      rcases List.mem_append.mp hm with hm | hm
      · exact ih hm
      · cases List.mem_singleton.mp hm
        exact ⟨_, hs⟩

/-- The oldest admission in the second up to a moment. -/
def oldest (us : List Instant) (t : Instant) : Instant := (upTo us t).headD t

theorem oldest_mem (us : List Instant) (t : Instant) : oldest us t ∈ us ∨ oldest us t = t := by
  rw [oldest]
  cases hfirst : upTo us t with
  | nil => exact .inr rfl
  | cons u rest =>
      have hmem : u ∈ upTo us t := hfirst ▸ List.mem_cons_self
      exact .inl (List.mem_filter.mp hmem).1

/-- In a run the hint of a refusal is that of the oldest admission in the second up to it. -/
theorem Run.hinted (run : Run settings h t c) (hcap : 1 ≤ settings.callsPerSecond)
    (hh : h = k ++ m :: l) {limit : Duration} {plan : CallPlan ρ}
    (ha : m.action = .attempt limit plan) {attempt : CallId} {e : CallError}
    (he : .answered attempt (.error e) ∈ m.outcome.events) (hne : e ≠ .disabled) :
    (upTo (admissions k) m.now).length = settings.callsPerSecond ∧
      e = .rateExceeded settings.callsPerSecond
        (retryHint (oldest (admissions k) m.now) m.now) ∧
      m.Hinted settings.callsPerSecond (retryHint (oldest (admissions k) m.now) m.now) := by
  obtain ⟨before, hd⟩ := run.cut hh
  obtain ⟨clock, hs⟩ := run.stepped (hh ▸ List.mem_append_right k List.mem_cons_self)
  obtain ⟨now, action, found, outcome⟩ := m
  dsimp only at before hd hs ha he ⊢
  subst ha
  have hset := before.settings_eq
  have hbegin := he
  rw [← Option.some.inj hs] at hbegin
  rcases error_of_begin (hset ▸ hcap) hbegin with hoff | ⟨hon, hfull, hhint⟩
  · exact absurd hoff hne
  · rw [before.log.recent_eq, hset] at hfull hhint
    refine ⟨Nat.le_antisymm ?_ hfull, hhint, ⟨limit, plan, rfl⟩, ?_⟩
    · exact hset ▸ Nat.le_trans length_upTo_le (before.log.capped _)
    · subst hhint
      -- the only answer of an attempt at its beginning is that of the attempt itself
      cases hd with
      | disabled => cases List.mem_singleton.mp he
      | admitted => cases List.mem_singleton.mp he
      | refused =>
          have hsame := List.mem_singleton.mp he
          simp only [CallEvent.answered.injEq, Except.error.injEq] at hsame
          dsimp only
          rw [← hsame.2]
          rfl

/-- A refused attempt is told the hint. -/
theorem Run.wait_eq (run : Run settings h t c) (hh : h = k ++ m :: l)
    (hcap : 1 ≤ settings.callsPerSecond) {wait : Nat} (hm : m.Hinted settings.callsPerSecond wait) :
    wait = retryHint (oldest (admissions k) m.now) m.now := by
  obtain ⟨limit, plan, ha⟩ := hm.1
  have hhint := (run.hinted hcap hh ha hm.mem (by simp)).2.1
  simpa only [CallError.rateExceeded.injEq, Int.natCast_inj, true_and] using hhint

/-- Acts that are no attempts leave the admissions as they are. -/
theorem Run.admissions_eq (run : Run settings h t c) {mid : List (Act ρ)} {cap wait : Nat}
    (hh : h = (k ++ m :: mid) ++ l) (hm : m.Hinted cap wait) (hmid : ∀ n ∈ mid, n.Aside) :
    admissions (k ++ m :: mid) = admissions k := by
  have hnone : (m :: mid).filter Act.admits = [] := by
    refine List.filter_eq_nil_iff.mpr fun n hn => ?_
    rw [Bool.not_eq_true]
    rcases List.mem_cons.mp hn with rfl | hin
    · exact hm.admits_eq
    · have hmem : n ∈ h := by
        rw [hh]
        exact List.mem_append_left _ (List.mem_append_right _ hn)
      exact (run.deed hmem).admits_of_aside (hmid n hin)
  rw [admissions, List.filter_append, hnone, List.append_nil, admissions]

/-- The next attempt after a refusal makes its call just when the oldest admission that counted
then is a second old. -/
theorem Run.retried_iff (run : Run settings h t c) {mid : List (Act ρ)}
    (hh : h = k ++ m :: (mid ++ m' :: l)) (hcap : 1 ≤ settings.callsPerSecond) {wait : Nat}
    (hm : m.Hinted settings.callsPerSecond wait) (hmid : ∀ n ∈ mid, n.Aside)
    {limit : Duration} {plan : CallPlan ρ} (ha : m'.action = .attempt limit plan)
    (hon : m'.found.controller.switch.enabled = true) (hlater : m.now ≤ m'.now) :
    m'.outcome.events = [.invoked m'.found.nextAttempt limit] ↔
      oldest (admissions k) m.now + window ≤ m'.now := by
  obtain ⟨before, hd⟩ := run.cut hh
  obtain ⟨limit₀, plan₀, hattempt⟩ := hm.1
  have hfull := (run.hinted hcap hh hattempt hm.mem (by simp)).1
  have hh' : h = (k ++ m :: mid) ++ m' :: l := by rw [hh, List.append_assoc, List.cons_append]
  obtain ⟨before', hd'⟩ := run.cut hh'
  have hexact := before'.log.refused_iff hd' ha hon
  rw [before'.settings_eq, run.admissions_eq hh' hm hmid] at hexact
  obtain ⟨u, rest, hfirst⟩ : ∃ u rest, upTo (admissions k) m.now = u :: rest :=
    List.exists_cons_of_ne_nil (List.ne_nil_of_length_pos (by omega))
  have hfront : oldest (admissions k) m.now = u := by rw [oldest, hfirst, List.headD_cons]
  rw [hfront]
  constructor
  · intro hevents
    refine Nat.le_of_not_lt fun hyoung => ?_
    have hsame := upTo_eq_of_young before.log.sorted before.log.past hfirst hlater hyoung
    obtain ⟨wait', hrefused⟩ := hexact.1.mpr (hsame ▸ hfull)
    rw [hevents] at hrefused
    cases hrefused
  · intro hold
    exact hexact.2 (Nat.ne_of_lt (hfull ▸ length_upTo_lt before.log.past hfirst hlater hold))

/-! ## A whole run -/

/-- A refusal comes with a hint that has bounds, and that suffices unless it was cut off. -/
structure RetryHints (cap : Nat) (h : List (Act ρ)) : Prop where
  /-- An attempt that is refused by a controller that is on is told the cap and a wait of a
  millisecond at least and a second at most, and that it may try again after it. -/
  told : ∀ m ∈ h, ∀ limit plan, m.action = .attempt limit plan → ∀ attempt e,
    .answered attempt (.error e) ∈ m.outcome.events → e ≠ .disabled →
      ∃ wait : Nat, m.Hinted cap wait ∧ e = .rateExceeded cap wait ∧ 1 ≤ wait ∧ wait ≤ 1000 ∧
        e.isRetryable = true ∧ e.retryAfter = some (Duration.ofMillis wait)
  /-- If that is the next attempt, and the controller is on, the wait suffices where the oldest
  admission that counted at the refusal had a whole number of milliseconds left, or less than
  one.  A millisecond more always suffices. -/
  helps : ∀ k m mid m' l, h = k ++ m :: (mid ++ m' :: l) → ∀ wait, m.Hinted cap wait →
    (∀ n ∈ mid, n.Aside) → ∀ limit plan, m'.action = .attempt limit plan →
      m'.found.controller.switch.enabled = true →
      (Spaced (oldest (admissions k) m.now) m.now ∧ m.now + Duration.ofMillis wait ≤ m'.now ∨
        m.now + Duration.ofMillis (wait + 1) ≤ m'.now) →
      m'.outcome.events = [.invoked m'.found.nextAttempt limit]
  /-- Where neither is so, the wait is too short, and the next attempt is refused after it. -/
  exact : ∀ k m mid m' l, h = k ++ m :: (mid ++ m' :: l) → ∀ wait, m.Hinted cap wait →
    (∀ n ∈ mid, n.Aside) → ∀ limit plan, m'.action = .attempt limit plan →
      m'.found.controller.switch.enabled = true → m'.now = m.now + Duration.ofMillis wait →
      (m'.outcome.events = [.invoked m'.found.nextAttempt limit] ↔
        Spaced (oldest (admissions k) m.now) m.now)
  /-- Any other such error is the one that the call itself ended with. -/
  passed : ∀ m ∈ h, m.Aside → ∀ attempt rate wait,
    .answered attempt (.error (.rateExceeded rate wait)) ∈ m.outcome.events →
      ∃ i ∈ m.found.running, i.attempt = attempt ∧ i.isOver m.now = true ∧
        i.result = .error (.rateExceeded rate wait)
  /-- On a clock of whole milliseconds the oldest admission always has a whole number left. -/
  spaced : (∀ m ∈ h, m.now % Duration.perMilli = 0) → ∀ k m l, h = k ++ m :: l →
    Spaced (oldest (admissions k) m.now) m.now

/-- The oldest admission that counts is past, and its second is over when its time is up. -/
theorem Log.oldest_add_le_iff (hl : Log h t c) (htu : t ≤ u) :
    oldest (admissions h) t + window ≤ u ↔ t + remaining (oldest (admissions h) t) t ≤ u := by
  have hpast : oldest (admissions h) t ≤ t :=
    (oldest_mem (admissions h) t).elim (hl.past _) Nat.le_of_eq
  unfold remaining
  unfold Instant Duration at *
  omega

/-- Along every run with a positive cap the hints of the refusals have bounds, and it is known
which of them suffice. -/
theorem Run.retryHints_bounded_and_exact (run : Run settings h t c)
    (hcap : 1 ≤ settings.callsPerSecond) :
    RetryHints settings.callsPerSecond h where
  told m hm limit plan ha attempt e he hne := by
    obtain ⟨k, l, hh⟩ := List.append_of_mem hm
    obtain ⟨-, rfl, hhint⟩ := run.hinted hcap hh ha he hne
    have hpos := one_le_retryHint (oldest (admissions k) m.now) m.now
    refine ⟨_, hhint, rfl, hpos, retryHint_le _ _, ?_, ?_⟩
    · simp [CallError.isRetryable]
    · have hint : (0 : Int) < retryHint (oldest (admissions k) m.now) m.now := by omega
      rw [CallError.retryAfter, if_pos hint, Int.toNat_natCast]
  helps k m mid m' l hh wait hm hmid limit plan ha hon hwait := by
    have hhint := run.wait_eq hh hcap hm
    have hleft : m.now + remaining (oldest (admissions k) m.now) m.now ≤ m'.now := by
      rcases hwait with ⟨hspaced, hle⟩ | hle
      · have hcovers := remaining_le_retryHint_iff.mpr hspaced
        exact Nat.le_trans (Nat.add_le_add_left (hhint ▸ hcovers) _) hle
      · have hlt := remaining_lt (oldest (admissions k) m.now) m.now
        rw [← hhint] at hlt
        exact Nat.le_trans (Nat.add_le_add_left (Nat.le_of_lt hlt) _) hle
    have hlater : m.now ≤ m'.now := Nat.le_trans (Nat.le_add_right _ _) hleft
    rw [run.retried_iff hh hcap hm hmid ha hon hlater]
    exact ((run.cut hh).1.log.oldest_add_le_iff hlater).mpr hleft
  exact k m mid m' l hh wait hm hmid limit plan ha hon hnow := by
    have hlater : m.now ≤ m'.now := hnow ▸ Nat.le_add_right _ _
    rw [run.retried_iff hh hcap hm hmid ha hon hlater,
      (run.cut hh).1.log.oldest_add_le_iff hlater, hnow, run.wait_eq hh hcap hm,
      ← remaining_le_retryHint_iff]
    exact Nat.add_le_add_iff_left
  passed m hm haside attempt rate wait he := (run.deed hm).rateExceeded_passed haside he
  spaced hwhole k m l hh := by
    have hnow : m.now % Duration.perMilli = 0 :=
      hwhole m (hh ▸ List.mem_append_right k List.mem_cons_self)
    refine spaced_of_whole ?_ hnow
    rcases oldest_mem (admissions k) m.now with hmem | heq
    · obtain ⟨n, hn, he⟩ := List.mem_map.mp hmem
      rw [← he]
      exact hwhole n (hh ▸ List.mem_append_left _ (List.mem_filter.mp hn).1)
    · rw [heq]
      exact hnow

def failures (es : List (CallEvent ρ)) : List (CallId × CallError) :=
  (answered es).filterMap fun
    | (attempt, .error e) => some (attempt, e)
    | (_, .ok _) => none

/-- With a cap of one, an attempt that is refused a quarter of a second after an admission,
and tries again after the wait that it is told. -/
def patient : List (Instant × Action Unit) :=
  [(0, .attempt 7 { result := .ok () }), (250000000, .attempt 7 { result := .ok () }),
    (250000000, .resume 0), (1000000000, .attempt 7 { result := .ok () })]

theorem retryHints_of_patient : ∃ h t c,
    enact (note ⟨0⟩) 0 (ofSettings (.ofCalls 1)) patient = some (h, t, c) ∧
      1 ≤ (RateSettings.ofCalls 1).callsPerSecond ∧ RetryHints 1 h ∧
      failures (seen h) = [(1, .rateExceeded 1 750)] ∧ admissions h = [0, 1000000000] ∧
      Spaced (oldest [0] 250000000) 250000000 := by
  have hplay : (enact (note ⟨0⟩) 0 (ofSettings (.ofCalls 1)) patient).map (fun w =>
      (failures (seen w.1), admissions w.1)) =
      some ([(1, .rateExceeded 1 750)], [0, 1000000000]) := by
    decide +kernel
  obtain ⟨⟨h, t, c⟩, hp, hread⟩ := Option.map_eq_some_iff.mp hplay
  simp only [Prod.mk.injEq] at hread
  have run : Run (.ofCalls 1) ([] ++ h) t c := (Run.here 0).enact hp
  have hcap : 1 ≤ (RateSettings.ofCalls 1).callsPerSecond := by decide
  exact ⟨h, t, c, hp, hcap, run.retryHints_bounded_and_exact hcap, hread.1, hread.2, by decide⟩

/-- With a cap of one, a call that is itself refused elsewhere, and two more attempts: the
second keeps to the wait that the first is told. -/
def hasty : List (Instant × Action Unit) :=
  [(0, .attempt 7 { result := .error (.rateExceeded 7 (-1)) }), (0, .resume 0),
    (300000, .attempt 7 { result := .ok () }), (999300000, .attempt 7 { result := .ok () })]

theorem refused_of_hasty : ∃ h t c,
    enact (note ⟨0⟩) 0 (ofSettings (.ofCalls 1)) hasty = some (h, t, c) ∧
      Run (.ofCalls 1) h t c ∧
      failures (seen h) =
        [(0, .rateExceeded 7 (-1)), (1, .rateExceeded 1 999), (2, .rateExceeded 1 1)] ∧
      (CallError.rateExceeded 7 (-1)).isRetryable = false ∧
      300000 + Duration.ofMillis 999 = 999300000 := by
  have hplay : (enact (note ⟨0⟩) 0 (ofSettings (.ofCalls 1)) hasty).map (fun w =>
      failures (seen w.1)) =
      some [(0, .rateExceeded 7 (-1)), (1, .rateExceeded 1 999), (2, .rateExceeded 1 1)] := by
    decide +kernel
  obtain ⟨⟨h, t, c⟩, hp, hread⟩ := Option.map_eq_some_iff.mp hplay
  have run : Run (.ofCalls 1) ([] ++ h) t c := (Run.here 0).enact hp
  exact ⟨h, t, c, hp, run, hread, rfl, rfl⟩

end Calls

end Backpressure.Rate
