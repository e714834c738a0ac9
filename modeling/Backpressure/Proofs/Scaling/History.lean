import Backpressure.Scaling.Policy
import Mathlib.Data.List.DropRight

/-!
# The backlog policy and its history

The policy keeps two moments, the start of the pressure and the start of the idleness that
count.  Both can be read off the evaluations so far (`Remembers`): a load counts from the
last evaluation of its unbroken run that recommended a change, or else from the first of the
run (`origin`).  An evaluation of another load breaks the run; one that recommends nothing,
because the time is too short or there is no room, leaves the start where it is.

So a decision is a function of the history (`backlog_history`).  The comparisons of the
ratio with the watermarks are taken as they come out, so nothing is assumed about numbers,
and watermarks that are the wrong way round are allowed.  Moments may go back: a load that
counts from a later moment has lasted for no time.
-/

namespace Backpressure.Scaling

/-- An observation, with what the comparisons of its ratio with the watermarks give. -/
structure Sighting where
  /-- Whether the ratio is at or above the high watermark. -/
  atHigh : Bool
  /-- Whether the ratio is at or below the low watermark. -/
  atLow : Bool
  /-- What was observed. -/
  seen : Observation
  deriving DecidableEq, Repr, Inhabited

namespace Sighting

/-- The load: the high watermark is looked at first. -/
def load (x : Sighting) : Load :=
  if x.atHigh then .pressed else if x.atLow then .idle else .between

/-- An observation under settings. -/
def of (s : ScalingSettings) (o : Observation) : Sighting where
  atHigh := o.ratio ≥ s.highWatermark
  atLow := o.ratio ≤ s.lowWatermark
  seen := o

@[simp] theorem load_of (s : ScalingSettings) (o : Observation) : (of s o).load = Load.of s o := by
  simp only [load, of, Load.of, decide_eq_true_eq]

@[simp] theorem seen_of (s : ScalingSettings) (o : Observation) : (of s o).seen = o := rfl

end Sighting

/-- An evaluation: what was seen, and what was recommended. -/
structure Evaluation extends Sighting where
  decision : Decision
  deriving DecidableEq, Repr, Inhabited

/-- The evaluations of a backlog policy, one for each sighting. -/
def evaluations (s : ScalingSettings) : Backlog → List Sighting → List Evaluation
  | _, [] => []
  | b, x :: rest =>
    ⟨x, (b.decide s x.load x.seen).1⟩ :: evaluations s (b.decide s x.load x.seen).2 rest

/-- What a policy recommends, one decision for each observation. -/
def Policy.decisions : Policy → List Observation → List Decision
  | _, [] => []
  | p, o :: rest => (p.evaluate o).1 :: (p.evaluate o).2.decisions rest

theorem toSighting_evaluations (s : ScalingSettings) (b : Backlog) (w : List Sighting) :
    (evaluations s b w).map (·.toSighting) = w := by
  induction w generalizing b with
  | nil => rfl
  | cons x rest ih => rw [evaluations, List.map_cons, ih]

/-- The policy itself compares the ratios of what it observes. -/
theorem decisions_backlog (s : ScalingSettings) (b : Backlog) (os : List Observation) :
    (Policy.backlog s b).decisions os =
      (evaluations s b (os.map (.of s))).map (·.decision) := by
  induction os generalizing b with
  | nil => rfl
  | cons o rest ih =>
      simp only [Policy.decisions, Policy.evaluate, List.map_cons, evaluations, ih,
        Sighting.load_of, Sighting.seen_of]

/-! ## What a history says -/

/-- Whether a decision is the change that a load calls for. -/
def Load.calls : Load → Decision → Bool
  | .pressed, .grow _ => true
  | .idle, .shrink _ => true
  | _, _ => false

/-- How many workers a load leaves to be added or removed. -/
def Load.room : Load → Observation → Nat
  | .pressed, o => o.headroom
  | .idle, o => o.surplus
  | .between, _ => 0

/-- How long a load lasts before something is done. -/
def Load.patience (s : ScalingSettings) : Load → Duration
  | .pressed => s.growAfter
  | .idle => s.shrinkAfter
  | .between => 0

/-- The unbroken run of a load that a history ends with. -/
def spell (l : Load) (past : List Evaluation) : List Evaluation :=
  past.rtakeWhile fun e => e.load = l

/-- The evaluation that a load counts from after a history: the last of its unbroken run that
recommended the change called for, or else the first. -/
def origin (l : Load) (past : List Evaluation) : Option Evaluation :=
  ((spell l past).filter fun e => l.calls e.decision).getLast?.or (spell l past).head?

/-- The moment that a load counts from when it is seen after a history: a run that only
begins counts from here. -/
def countsFrom (l : Load) (past : List Evaluation) (x : Sighting) : Instant :=
  ((origin l past).map (·.seen.moment)).getD x.seen.moment

/-- A change by `n` workers is due under a load, after a history. -/
structure Due (s : ScalingSettings) (past : List Evaluation) (x : Sighting) (l : Load) (n : Nat) :
    Prop where
  load_eq : x.load = l
  /-- The amount is the step, as far as there is room. -/
  amount : n = min s.step (l.room x.seen)
  pos : 0 < n
  /-- The load has lasted long enough; a moment that is later has lasted for no time. -/
  lasted : l.patience s ≤ x.seen.moment - countsFrom l past x

/-- A decision is the one that is due after a history, and otherwise to hold. -/
structure Evaluation.Follows (s : ScalingSettings) (past : List Evaluation) (e : Evaluation) :
    Prop where
  grow : ∀ n, e.decision = .grow n ↔ Due s past e.toSighting .pressed n
  shrink : ∀ n, e.decision = .shrink n ↔ Due s past e.toSighting .idle n
  hold : e.decision = .hold ↔ ∀ l n, ¬Due s past e.toSighting l n

/-! ## The starts of the loads -/

variable {s : ScalingSettings} {b : Backlog} {past : List Evaluation} {e : Evaluation}
  {x : Sighting} {l : Load} {n : Nat}

theorem spell_append_singleton (l : Load) (past : List Evaluation) (e : Evaluation) :
    spell l (past ++ [e]) = if e.load = l then spell l past ++ [e] else [] := by
  simp only [spell, List.rtakeWhile_concat, decide_eq_true_eq]

/-- An evaluation of another load breaks the run. -/
theorem origin_broken (past : List Evaluation) (h : e.load ≠ l) :
    origin l (past ++ [e]) = none := by
  simp [origin, spell_append_singleton, h]

/-- After the change called for the load counts anew. -/
theorem origin_renewed (past : List Evaluation) (h : e.load = l) (hd : l.calls e.decision = true) :
    origin l (past ++ [e]) = some e := by
  simp [origin, spell_append_singleton, h, hd]

/-- Without it the start of the load stays, and is here if the run only begins. -/
theorem origin_kept (past : List Evaluation) (h : e.load = l) (hd : l.calls e.decision = false) :
    origin l (past ++ [e]) = some ((origin l past).getD e) := by
  have hrest : [e].filter (fun e => l.calls e.decision) = [] := by simp [hd]
  rw [origin, spell_append_singleton, if_pos h, List.filter_append, hrest, List.append_nil,
    List.head?_append, ← Option.or_assoc, origin]
  cases ((spell l past).filter fun e => l.calls e.decision).getLast?.or (spell l past).head? <;> rfl

/-! ## One evaluation -/

/-- The change that a load calls for. -/
def Load.change : Load → Nat → Decision
  | .pressed, n => .grow n
  | .idle, n => .shrink n
  | .between, _ => .hold

/-- Since when a load has counted, as far as the memory goes. -/
def Backlog.since (b : Backlog) : Load → Option Instant
  | .pressed => b.pressedSince
  | .idle => b.idleSince
  | .between => none

def Backlog.only : Load → Instant → Backlog
  | .pressed, t => { pressedSince := some t }
  | .idle, t => { idleSince := some t }
  | .between, _ => {}

theorem Load.calls_change (hl : l ≠ .between) (n : Nat) : l.calls (l.change n) = true := by
  cases l with
  | between => exact absurd rfl hl
  | _ => rfl

theorem Load.calls_hold (l : Load) : l.calls .hold = false := by cases l <;> rfl

theorem Load.change_ne_hold (hl : l ≠ .between) (n : Nat) : l.change n ≠ .hold := by
  cases l with
  | between => exact absurd rfl hl
  | _ => exact Decision.noConfusion

theorem Load.change_inj {l' : Load} {m : Nat} (hl : l ≠ .between) (h : l'.change m = l.change n) :
    l' = l ∧ m = n := by
  cases l <;> cases l' <;> simp_all [Load.change]

theorem Backlog.since_only (hl : l ≠ .between) (t : Instant) :
    (Backlog.only l t).since l = some t := by
  cases l with
  | between => exact absurd rfl hl
  | _ => rfl

theorem Backlog.since_only_of_ne {l' : Load} (h : l' ≠ l) (t : Instant) :
    (Backlog.only l' t).since l = none := by
  cases l <;> cases l' <;> first | rfl | exact absurd rfl h

theorem due_eq_succ {since now : Instant} {long : Duration} {step room : Nat} :
    due since now long step room = n + 1 ↔ n + 1 = min step room ∧ long ≤ now - since := by
  unfold due
  split
  · next hlong => exact ⟨fun h => ⟨h.symm, hlong⟩, fun h => h.1.symm⟩
  · next hlong => exact ⟨fun h => absurd h (Nat.succ_ne_zero n).symm, fun h => absurd h.2 hlong⟩

/-- The loads are treated alike: between the watermarks there is no room and nothing to remember. -/
theorem decide_eq (s : ScalingSettings) (b : Backlog) (l : Load) (o : Observation) :
    b.decide s l o =
      match due ((b.since l).getD o.moment) o.moment (l.patience s) s.step (l.room o) with
      | 0 => (.hold, .only l ((b.since l).getD o.moment))
      | n + 1 => (l.change (n + 1), .only l o.moment) := by
  cases l with
  | between => simp [due, Load.room, Backlog.decide, Backlog.only]
  | _ => rfl

/-- The memory of a policy holds where the loads count from. -/
def Remembers (b : Backlog) (past : List Evaluation) : Prop :=
  ∀ l, l ≠ .between → b.since l = (origin l past).map (·.seen.moment)

theorem Remembers.nothing : Remembers {} [] := by
  intro l hl
  cases l with
  | between => exact absurd rfl hl
  | _ => rfl

theorem Remembers.countsFrom_eq (hb : Remembers b past) (hl : l ≠ .between) (x : Sighting) :
    (b.since l).getD x.seen.moment = countsFrom l past x := by
  rw [hb l hl, countsFrom]

theorem Due.ne_between (h : Due s past x l n) : l ≠ .between := by
  intro hl
  have hamount := h.amount
  rw [hl, Load.room, Nat.min_zero] at hamount
  exact absurd h.pos (by omega)

/-- The change recommended is the one that is due. -/
theorem Remembers.decide_eq_change (hb : Remembers b past) (x : Sighting) (hl : l ≠ .between) :
    (b.decide s x.load x.seen).1 = l.change n ↔ Due s past x l n := by
  rw [decide_eq]
  split
  · next hnone =>
      -- whoever says that a change is due says that the number of workers is not zero
      refine ⟨fun h => absurd h.symm (Load.change_ne_hold hl n), fun h => ?_⟩
      obtain ⟨rfl, hamount, hpos, hlasted⟩ := h
      obtain ⟨m, rfl⟩ := Nat.exists_eq_succ_of_ne_zero (Nat.ne_of_gt hpos)
      rw [due_eq_succ.mpr ⟨hamount, by rwa [hb.countsFrom_eq hl]⟩] at hnone
      cases hnone
  · next m hsome =>
      obtain ⟨hamount, hlasted⟩ := due_eq_succ.mp hsome
      constructor
      · intro h
        obtain ⟨rfl, rfl⟩ := Load.change_inj hl h
        exact ⟨rfl, hamount, Nat.succ_pos m, by rwa [← hb.countsFrom_eq hl]⟩
      · intro h
        rw [h.load_eq, hamount, h.load_eq, ← h.amount]

theorem Remembers.follows (hb : Remembers b past) (x : Sighting) :
    Evaluation.Follows s past ⟨x, (b.decide s x.load x.seen).1⟩ := by
  have hgrow : ∀ n, _ ↔ _ := fun n => hb.decide_eq_change (s := s) (n := n) x (l := .pressed) nofun
  have hshrink : ∀ n, _ ↔ _ := fun n => hb.decide_eq_change (s := s) (n := n) x (l := .idle) nofun
  refine ⟨hgrow, hshrink, ?_, ?_⟩
  · intro hhold l n hdue
    have hchange := (hb.decide_eq_change x hdue.ne_between).mpr hdue
    exact Load.change_ne_hold hdue.ne_between n (hchange.symm.trans hhold)
  · intro hnone
    show (b.decide s x.load x.seen).1 = .hold
    cases hd : (b.decide s x.load x.seen).1 with
    | hold => rfl
    | grow n => exact absurd ((hgrow n).mp hd) (hnone .pressed n)
    | shrink n => exact absurd ((hshrink n).mp hd) (hnone .idle n)

/-- The memory after an evaluation is the one of the longer history. -/
theorem Remembers.step (hb : Remembers b past) (x : Sighting) :
    Remembers (b.decide s x.load x.seen).2 (past ++ [⟨x, (b.decide s x.load x.seen).1⟩]) := by
  intro l hl
  by_cases hx : x.load = l
  · subst hx
    rw [decide_eq]
    split
    · next =>
        -- nothing was recommended, so the load counts from where it did
        have hkept := origin_kept (e := ⟨x, .hold⟩) past rfl (Load.calls_hold _)
        rw [hkept, Backlog.since_only hl, hb _ hl]
        cases origin x.load past <;> rfl
    · next n _ =>
        -- a change was recommended, so the load counts from here
        have hrenewed := origin_renewed (e := ⟨x, x.load.change (n + 1)⟩) past rfl
          (Load.calls_change hl _)
        rw [hrenewed, Backlog.since_only hl]
        rfl
  · rw [origin_broken past hx, decide_eq]
    split <;> exact Backlog.since_only_of_ne hx _

/-! ## Every evaluation -/

/-- Every evaluation of a policy that remembers a history follows from what came before it. -/
theorem Remembers.evaluations {w : List Sighting} {before rest : List Evaluation}
    (hb : Remembers b past) (hw : evaluations s b w = before ++ e :: rest) :
    e.Follows s (past ++ before) := by
  -- along the sightings: each evaluation moves from the future into the past that is remembered
  induction w generalizing b past before with
  | nil => exact absurd hw (by simp [Scaling.evaluations])
  | cons x w ih =>
      cases before with
      | nil =>
          obtain ⟨rfl, -⟩ := List.cons.inj hw
          rw [List.append_nil]
          exact hb.follows x
      | cons first before =>
          obtain ⟨rfl, htail⟩ := List.cons.inj hw
          have hfollows := ih (hb.step x) htail
          rwa [List.append_assoc] at hfollows

/-- The backlog policy does what its history calls for: each decision follows from the
evaluations before it and from what is observed, whatever the comparisons with the watermarks
give.  There is one evaluation for each observation, and the policy itself makes the comparisons
that its settings say. -/
theorem backlog_history (s : ScalingSettings) :
    (∀ w, (evaluations s {} w).map (·.toSighting) = w ∧
      ∀ past e rest, evaluations s {} w = past ++ e :: rest → e.Follows s past) ∧
    ∀ os, (Policy.backlog s {}).decisions os =
      (evaluations s {} (os.map (.of s))).map (·.decision) := by
  refine ⟨fun w => ⟨toSighting_evaluations s {} w, fun past e rest hw => ?_⟩,
    decisions_backlog s {}⟩
  exact Remembers.nothing.evaluations hw

/-- Pressure that finds no room does not start the time anew, and neither does a moment that
goes back: growth that had to wait for room comes as soon as there is some. -/
theorem backlog_grows_once_possible :
    let s : ScalingSettings := { growAfter := 2, step := 2 }
    let seen (t active : Nat) : Sighting := ⟨true, true, ⟨active, 1, 4, 9, 9, t⟩⟩
    ∃ past e, evaluations s {} [seen 10 4, seen 13 4, seen 11 3, seen 12 3] = past ++ [e] ∧
      e.decision = .grow 1 ∧ countsFrom .pressed past e.toSighting = 10 ∧
      Due s past e.toSighting .pressed 1 := by
  intro s seen
  obtain ⟨-, hfollows⟩ := (backlog_history s).1 [seen 10 4, seen 13 4, seen 11 3, seen 12 3]
  refine ⟨evaluations s {} [seen 10 4, seen 13 4, seen 11 3], ⟨seen 12 3, .grow 1⟩, rfl, rfl, rfl, ?_⟩
  exact ((hfollows _ _ [] rfl).grow 1).mp rfl

end Backpressure.Scaling
