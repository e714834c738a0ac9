import Backpressure.Rate.Throttle
import Mathlib.Data.List.Basic
import Mathlib.Data.List.Induction

/-!
# The firings of a throttled trigger

A throttle keeps of its history only where the switch stands and when the trigger fired last
(`Recalls`).  That is enough: the firings are an interval apart, so the last one is the latest,
and if it has ceased to hold the trigger back, then so have all before it.

*Calls that do not fire.*  They leave nothing behind but the place of the switch.  If all of them
are struck from a history, the same calls fire as before (`acts_fired`).

*The switch.*  Turning it off and on again neither shortens nor restarts the interval, which is
counted from the last firing alone.
-/

namespace Backpressure.Rate.Throttle

/-! ## Calls -/

/-- What is done with a throttle. -/
inductive Action where
  /-- The switch is turned on. -/
  | enable
  /-- The switch is turned off. -/
  | disable
  /-- The trigger is pulled. -/
  | trigger
  deriving DecidableEq, Repr

/-- Where an action puts the switch, if it turns it. -/
def Action.switch? : Action → Option Bool
  | .enable => some true
  | .disable => some false
  | .trigger => none

/-- An action with its moment, and with the wall clock by which it is made. -/
structure Call where
  now : Instant
  clock : WallClock
  action : Action
  deriving DecidableEq, Repr

/-- The firing that a call notes, if it fires. -/
def Call.firing (c : Call) : Firing := ⟨c.now, c.clock.at c.now⟩

/-- A call with what it found, and whether it fired. -/
structure Act extends Call where
  found : Throttle
  fired : Bool
  deriving DecidableEq, Repr

/-- One call, which tells whether it fired. -/
def step (t : Throttle) (c : Call) : Bool × Throttle :=
  match c.action with
  | .enable => (false, t.enable)
  | .disable => (false, t.disable)
  | .trigger => t.trigger c.clock c.now

/-- What calls come to, one after the other. -/
def acts : Throttle → List Call → List Act
  | _, [] => []
  | t, c :: rest => ⟨c, t, (t.step c).1⟩ :: (t.step c).2.acts rest

/-- A throttle after calls. -/
def after : Throttle → List Call → Throttle
  | t, [] => t
  | t, c :: rest => (t.step c).2.after rest

/-- The firings, in order. -/
def firings (h : List Act) : List Firing := (h.filter (·.fired)).map (·.firing)

/-- A moment lies in the interval up to another; the first moment of the interval is left out. -/
def Within (d : Duration) (u f : Instant) : Prop := (u : Int) - d < f ∧ f ≤ u

/-- Where the switch stands after a history: where it was put last, and at first it is on. -/
def isOn (h : List Act) : Bool := (h.filterMap (·.action.switch?)).getLast?.getD true

variable {d : Duration} {t : Throttle} {u : Instant} {c : Call} {a : Act} {h : List Act}
  {calls : List Call} {o : Bool × Throttle}

theorem firings_append_singleton (h : List Act) (a : Act) :
    firings (h ++ [a]) = firings h ++ if a.fired then [a.firing] else [] := by
  cases ha : a.fired <;> simp [firings, List.filter_append, ha]

theorem isOn_append_singleton (h : List Act) (a : Act) :
    isOn (h ++ [a]) = a.action.switch?.getD (isOn h) := by
  cases ha : a.action.switch? <;> simp [isOn, List.filterMap_append, ha]

theorem acts_append_singleton (t : Throttle) (calls : List Call) (c : Call) :
    t.acts (calls ++ [c]) =
      t.acts calls ++ [⟨c, t.after calls, ((t.after calls).step c).1⟩] := by
  induction calls generalizing t with
  | nil => rfl
  | cons first rest ih => rw [List.cons_append, acts, acts, ih, after, List.cons_append]

theorem after_append_singleton (t : Throttle) (calls : List Call) (c : Call) :
    t.after (calls ++ [c]) = ((t.after calls).step c).2 := by
  induction calls generalizing t with
  | nil => rfl
  | cons first rest ih => rw [List.cons_append, after, after, ih]

theorem toCall_acts (t : Throttle) (calls : List Call) :
    (t.acts calls).map (·.toCall) = calls := by
  induction calls generalizing t with
  | nil => rfl
  | cons c rest ih => rw [acts, List.map_cons, ih]

/-- An act of a history comes after the calls before it. -/
theorem acts_cut {past later : List Act} (hh : t.acts calls = past ++ a :: later) :
    ∃ cs ds, calls = cs ++ a.toCall :: ds ∧ t.acts cs = past ∧ a.found = t.after cs ∧
      a.fired = (a.found.step a.toCall).1 := by
  induction calls generalizing t past with
  | nil => simp [acts] at hh
  | cons c rest ih =>
      cases past with
      | nil =>
          obtain ⟨rfl, -⟩ := List.cons.inj hh
          exact ⟨[], rest, rfl, rfl, rfl, rfl⟩
      | cons first past =>
          obtain ⟨rfl, htail⟩ := List.cons.inj hh
          obtain ⟨cs, ds, rfl, hpast, ha⟩ := ih htail
          exact ⟨c :: cs, ds, rfl, by rw [acts, hpast], ha⟩

/-! ## One call -/

/-- What a call can come to. -/
inductive Deed (t : Throttle) (c : Call) : Bool × Throttle → Prop where
  /-- The trigger fires. -/
  | fired (ha : c.action = .trigger) (hdue : t.isDue c.now = true) :
      Deed t c (true, { t with lastFired := some c.firing })
  /-- The trigger does not fire. -/
  | held (ha : c.action = .trigger) (hdue : t.isDue c.now = false) : Deed t c (false, t)
  /-- The switch is turned. -/
  | turned (on : Bool) (ha : c.action.switch? = some on) :
      Deed t c (false, { t with enabled := on })

theorem trigger_fst (t : Throttle) (clock : WallClock) (u : Instant) :
    (t.trigger clock u).1 = t.isDue u := by
  unfold trigger
  split
  · next hdue => exact hdue.symm
  · next hdue => exact (Bool.eq_false_iff.mpr hdue).symm

theorem step_fst (t : Throttle) (ha : c.action = .trigger) : (t.step c).1 = t.isDue c.now := by
  simp only [step, ha, trigger_fst]

theorem step_deed (t : Throttle) (c : Call) : Deed t c (t.step c) := by
  cases ha : c.action with
  | enable =>
      simp only [step, ha]
      exact .turned true (by rw [ha]; rfl)
  | disable =>
      simp only [step, ha]
      exact .turned false (by rw [ha]; rfl)
  | trigger =>
      simp only [step, ha, trigger]
      split
      · next hdue => exact .fired ha hdue
      · next hdue => exact .held ha (Bool.eq_false_iff.mpr hdue)

/-- What is due has its switch on. -/
theorem enable_of_isDue (hdue : t.isDue u = true) : t.enable = t := by
  have hon : t.enabled = true := (Bool.and_eq_true_iff.mp hdue).1
  rw [enable, ← hon]

theorem isDue_of_zero (hzero : t.minInterval = 0) : t.isDue u = t.enabled := by
  rw [isDue, hzero]
  cases t.lastFired with
  | none => exact Bool.and_true _
  | some f => simp

/-- A trigger is due if the switch is on and the last firing is the interval ago. -/
theorem isDue_iff (hpast : ∀ f ∈ t.lastFired, f.moment ≤ u) :
    t.isDue u = true ↔ t.enabled = true ∧ ∀ f ∈ t.lastFired, f.moment + t.minInterval ≤ u := by
  rw [isDue, Bool.and_eq_true]
  refine and_congr_right fun _ => ?_
  cases hlast : t.lastFired with
  | none => simp
  | some f =>
      have hle : f.moment ≤ u := hpast f hlast
      simp only [Option.all_some, decide_eq_true_eq, Option.mem_some_iff, forall_eq']
      unfold Instant Duration at *
      omega

/-! ## What is kept of a history -/

/-- A throttle keeps of its history where the switch stands and when the trigger fired last. -/
structure Recalls (d : Duration) (t : Throttle) (h : List Act) : Prop where
  interval : t.minInterval = d
  switch : t.enabled = isOn h
  last : t.lastFired = (firings h).getLast?
  /-- Any two firings are the interval apart. -/
  spaced : (firings h).Pairwise fun f g => f.moment + d ≤ g.moment

theorem Recalls.mem_firings (hr : Recalls d t h) {f : Firing} (hf : f ∈ t.lastFired) :
    f ∈ firings h :=
  List.mem_of_getLast? (hr.last ▸ hf)

/-- The last firing is the latest. -/
theorem Recalls.le_last (hr : Recalls d t h) {f : Firing} (hf : f ∈ firings h) :
    ∃ l ∈ t.lastFired, f.moment ≤ l.moment := by
  have hspaced := hr.spaced
  rw [hr.last]
  rcases List.eq_nil_or_concat' (firings h) with hnil | ⟨before, l, hl⟩
  · rw [hnil] at hf
    exact absurd hf List.not_mem_nil
  · rw [hl] at hf hspaced ⊢
    refine ⟨l, List.getLast?_concat, ?_⟩
    rcases List.mem_append.mp hf with hf | hf
    · have hapart := (List.pairwise_append.mp hspaced).2.2 f hf l List.mem_cons_self
      exact Nat.le_trans (Nat.le_add_right f.moment d) hapart
    · exact Nat.le_of_eq (congrArg Firing.moment (List.mem_singleton.mp hf))

/-- The last firing answers for all of them. -/
theorem Recalls.forall_last_iff (hr : Recalls d t h) :
    (∀ f ∈ t.lastFired, f.moment + d ≤ u) ↔ ∀ f ∈ firings h, f.moment + d ≤ u := by
  constructor
  · intro hlast f hf
    obtain ⟨l, hl, hle⟩ := hr.le_last hf
    exact Nat.le_trans (Nat.add_le_add_right hle d) (hlast l hl)
  · exact fun hall f hf => hall f (hr.mem_firings hf)

/-- A call that does not fire at most turns the switch. -/
theorem Recalls.keep {t' : Throttle} (hr : Recalls d t h)
    (hinterval : t'.minInterval = t.minInterval) (hlast : t'.lastFired = t.lastFired)
    (hon : t'.enabled = c.action.switch?.getD t.enabled) :
    Recalls d t' (h ++ [⟨c, t, false⟩]) := by
  have hfirings : firings (h ++ [⟨c, t, false⟩]) = firings h := by
    rw [firings_append_singleton]
    exact List.append_nil _
  refine ⟨hinterval.trans hr.interval, ?_, ?_, ?_⟩
  · rw [isOn_append_singleton, ← hr.switch]
    exact hon
  · rw [hfirings, ← hr.last]
    exact hlast
  · rw [hfirings]
    exact hr.spaced

/-- A call that fires comes the interval after all that fired before. -/
theorem Recalls.fire (hr : Recalls d t h) (hpast : ∀ f ∈ firings h, f.moment ≤ c.now)
    (ha : c.action = .trigger) (hdue : t.isDue c.now = true) :
    Recalls d { t with lastFired := some c.firing } (h ++ [⟨c, t, true⟩]) := by
  have hfirings : firings (h ++ [⟨c, t, true⟩]) = firings h ++ [c.firing] :=
    firings_append_singleton h _
  have hapart := ((isDue_iff fun f hf => hpast f (hr.mem_firings hf)).mp hdue).2
  rw [hr.interval, hr.forall_last_iff] at hapart
  refine ⟨hr.interval, ?_, ?_, ?_⟩
  · rw [isOn_append_singleton, ha]
    exact hr.switch
  · rw [hfirings, List.getLast?_concat]
  · rw [hfirings, List.pairwise_append]
    refine ⟨hr.spaced, List.pairwise_singleton _ _, fun f hf g hg => ?_⟩
    exact List.mem_singleton.mp hg ▸ hapart f hf

theorem Recalls.deed (hr : Recalls d t h) (hpast : ∀ f ∈ firings h, f.moment ≤ c.now)
    (hd : Deed t c o) : Recalls d o.2 (h ++ [⟨c, t, o.1⟩]) := by
  cases hd with
  | fired ha hdue => exact hr.fire hpast ha hdue
  | held ha hdue => exact hr.keep rfl rfl (by rw [ha]; rfl)
  | turned on ha => exact hr.keep rfl rfl (by rw [ha]; rfl)

/-! ## Whole histories -/

theorem firing_of_mem_firings {f : Firing} (hf : f ∈ firings (t.acts calls)) :
    ∃ c ∈ calls, c.firing = f := by
  obtain ⟨a, ha, rfl⟩ := List.mem_map.mp hf
  have hcall : a.toCall ∈ (t.acts calls).map (·.toCall) :=
    List.mem_map_of_mem (List.mem_of_mem_filter ha)
  exact ⟨a.toCall, toCall_acts t calls ▸ hcall, rfl⟩

theorem recalls_acts (hcalls : calls.Pairwise fun c c' => c.now ≤ c'.now) :
    Recalls d ((ofInterval d).after calls) ((ofInterval d).acts calls) := by
  -- from the end, so that all that fired before a call is known to be past when it is made
  induction calls using List.reverseRecOn with
  | nil => exact ⟨rfl, rfl, rfl, List.Pairwise.nil⟩
  | append_singleton calls c ih =>
      obtain ⟨hbefore, -, hle⟩ := List.pairwise_append.mp hcalls
      rw [acts_append_singleton, after_append_singleton]
      refine (ih hbefore).deed (fun f hf => ?_) (step_deed _ c)
      obtain ⟨c', hc', rfl⟩ := firing_of_mem_firings hf
      exact hle c' hc' c List.mem_cons_self

/-- What a call of a history found is kept of what came before it. -/
theorem recalls_cut {past later : List Act} (hcalls : calls.Pairwise fun c c' => c.now ≤ c'.now)
    (hh : (ofInterval d).acts calls = past ++ a :: later) :
    Recalls d a.found past ∧ (∀ f ∈ firings past, f.moment ≤ a.now) ∧
      a.fired = (a.found.step a.toCall).1 := by
  obtain ⟨cs, ds, rfl, rfl, hfound, hfired⟩ := acts_cut hh
  obtain ⟨hbefore, -, hle⟩ := List.pairwise_append.mp hcalls
  refine ⟨hfound ▸ recalls_acts hbefore, fun f hf => ?_, hfired⟩
  obtain ⟨c, hc, rfl⟩ := firing_of_mem_firings hf
  exact hle c hc a.toCall List.mem_cons_self

/-- Calls that do not fire leave nothing behind but the place of the switch: the calls that fire
would do so without them. -/
theorem acts_fired (t : Throttle) (calls : List Call) :
    t.enable.acts (((t.acts calls).filter (·.fired)).map (·.toCall)) =
        (t.acts calls).filter (·.fired) ∧
      t.enable.after (((t.acts calls).filter (·.fired)).map (·.toCall)) =
        (t.after calls).enable := by
  induction calls generalizing t with
  | nil => exact ⟨rfl, rfl⟩
  | cons c rest ih =>
      have ih := ih (t.step c).2
      have hd := step_deed t c
      rw [acts, after]
      generalize ho : t.step c = o at ih hd ⊢
      cases hd with
      | fired ha hdue =>
          -- the switch is on already, so this call comes to the same without the others
          have hon := enable_of_isDue hdue
          have hfired : ({ t with lastFired := some c.firing } : Throttle).enable =
              { t with lastFired := some c.firing } :=
            congrArg (fun t : Throttle => { t with lastFired := some c.firing }) hon
          rw [hfired] at ih
          rw [List.filter_cons_of_pos rfl, List.map_cons, acts, after, hon, ho]
          exact ⟨congrArg _ ih.1, ih.2⟩
      | held ha hdue => exact ih
      | turned on ha => exact ih

/-- What does not lie in the interval up to a moment is the interval before it. -/
theorem not_within_iff {f : Instant} (hf : f ≤ u) : ¬Within d u f ↔ f + d ≤ u := by
  unfold Within Instant Duration at *
  omega

/-- A trigger fires just when the switch is on and no firing lies in the interval up to it. -/
theorem Recalls.isDue_iff_within (hr : Recalls d t h) (hpast : ∀ f ∈ firings h, f.moment ≤ u) :
    t.isDue u = true ↔ t.enabled = true ∧ ∀ f ∈ firings h, ¬Within d u f.moment := by
  rw [isDue_iff fun f hf => hpast f (hr.mem_firings hf), hr.interval, hr.forall_last_iff]
  exact and_congr_right fun _ => forall₂_congr fun f hf => (not_within_iff (hpast f hf)).symm

/-- With the switch on, the trigger fires again once the interval since the last firing is over. -/
theorem Recalls.again_iff (hr : Recalls d t h) (hpast : ∀ f ∈ firings h, f.moment ≤ u)
    (clock : WallClock) :
    (t.enable.trigger clock u).1 = true ↔ ∀ f ∈ (firings h).getLast?, f.moment + d ≤ u := by
  have hdue : t.enable.isDue u = true ↔
      true = true ∧ ∀ f ∈ t.lastFired, f.moment + t.minInterval ≤ u :=
    isDue_iff fun f hf => hpast f (hr.mem_firings hf)
  rw [trigger_fst, hdue, ← hr.last, ← hr.interval]
  exact and_iff_right rfl

/-- What the calls of a throttle come to. -/
structure Throttled (d : Duration) (h : List Act) (t : Throttle) : Prop where
  /-- A trigger fires just when the switch is on and nothing has fired in the interval up to it. -/
  exact : ∀ past a later, h = past ++ a :: later → a.action = .trigger →
    (a.fired = true ↔ a.found.enabled = true ∧ ∀ f ∈ firings past, ¬Within d a.now f.moment)
  /-- Each call finds the switch where it was put last, and there it is in the end. -/
  switched : t.enabled = isOn h ∧
    ∀ past a later, h = past ++ a :: later → a.found.enabled = isOn past
  /-- Without an interval all triggers fire while the switch is on. -/
  zero : d = 0 → ∀ a ∈ h, a.action = .trigger → a.fired = a.found.enabled
  /-- Any two firings are the interval apart. -/
  spaced : (firings h).Pairwise fun f g => f.moment + d ≤ g.moment
  /-- Whatever has been called since the last firing, the trigger can fire again as soon as the
  interval is over, and not before. -/
  next : ∀ clock u, (∀ a ∈ h, a.now ≤ u) →
    ((t.enable.trigger clock u).1 = true ↔ ∀ f ∈ (firings h).getLast?, f.moment + d ≤ u)
  /-- The calls that fired would have done so without all others. -/
  alone : (ofInterval d).acts ((h.filter (·.fired)).map (·.toCall)) = h.filter (·.fired) ∧
    (ofInterval d).after ((h.filter (·.fired)).map (·.toCall)) = t.enable
  /-- What is kept is the last firing: its moment, and its time by the clock of its own call. -/
  latest : t.lastFired = (firings h).getLast?
  /-- The timestamp shown is the one that the last firing noted. -/
  shown : t.lastFiredAt = (firings h).getLast?.map (·.time)

/-- Whatever is called, and whenever, a throttled trigger keeps to its interval. -/
theorem throttled (d : Duration) (calls : List Call)
    (hcalls : calls.Pairwise fun c c' => c.now ≤ c'.now) :
    Throttled d ((ofInterval d).acts calls) ((ofInterval d).after calls) where
  exact past a later hh ha := by
    obtain ⟨hfound, hpast, hfired⟩ := recalls_cut hcalls hh
    rw [hfired, step_fst _ ha]
    exact hfound.isDue_iff_within hpast
  switched := by
    refine ⟨(recalls_acts hcalls).switch, fun past a later hh => ?_⟩
    exact (recalls_cut hcalls hh).1.switch
  zero hzero a hmem ha := by
    obtain ⟨past, later, hh⟩ := List.append_of_mem hmem
    obtain ⟨hfound, -, hfired⟩ := recalls_cut hcalls hh
    rw [hfired, step_fst _ ha, isDue_of_zero (hfound.interval.trans hzero)]
  spaced := (recalls_acts hcalls).spaced
  next clock u hu := by
    refine (recalls_acts hcalls).again_iff (fun f hf => ?_) clock
    obtain ⟨a, ha, rfl⟩ := List.mem_map.mp hf
    exact hu a (List.mem_of_mem_filter ha)
  alone := acts_fired (ofInterval d) calls
  latest := (recalls_acts hcalls).last
  shown := by rw [lastFiredAt, (recalls_acts hcalls).last]

/-- With an interval of ten, a trigger one moment too early is refused, and the switch is off when
the interval is over.  Once it is on again, the trigger fires at that very moment, and one pulled
again at once is refused.  The wall clock has been set since the first firing. -/
def toggling : List Call :=
  [⟨5, ⟨1000⟩, .trigger⟩, ⟨14, ⟨1000⟩, .trigger⟩, ⟨14, ⟨1000⟩, .disable⟩, ⟨15, ⟨2000⟩, .trigger⟩,
    ⟨15, ⟨2000⟩, .enable⟩, ⟨15, ⟨2000⟩, .trigger⟩, ⟨15, ⟨3000⟩, .trigger⟩]

theorem throttled_of_toggling :
    toggling.Pairwise (fun c c' => c.now ≤ c'.now) ∧
      Throttled 10 ((ofInterval 10).acts toggling) ((ofInterval 10).after toggling) ∧
      firings ((ofInterval 10).acts toggling) = [⟨5, 1005⟩, ⟨15, 2015⟩] ∧
      ((ofInterval 10).after toggling).lastFiredAt = some 2015 := by
  have hcalls : toggling.Pairwise fun c c' => c.now ≤ c'.now := by decide
  exact ⟨hcalls, throttled 10 toggling hcalls, by decide, by decide⟩

end Backpressure.Rate.Throttle
