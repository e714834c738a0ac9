import Backpressure.Worker.Vigil
import Mathlib.Data.List.Induction

/-!
# What the events of a worker tell

The events of a run are read from the past to the present.  `lastPhase` and `lastEnd`
tell in which phase they leave the worker and how its last iteration ended.

*The law.*  `Permitted past e` says when an event may happen after those of the past,
and `Goes` that each event of a list may.  The law speaks of events only: the worker,
its flag and the place of its loop do not occur in it.
-/

namespace Backpressure

variable {ι η : Type}

/-- Before or inside an iteration. -/
def Place.isLooping : Place ι η → Bool
  | .between _ | .inside _ => true
  | _ => false

/-- In the hook. -/
def Place.isLeaving : Place ι η → Bool
  | .leaving _ _ => true
  | _ => false

/-- At the end. -/
def Place.isFinished : Place ι η → Bool
  | .finished _ => true
  | _ => false

/-- The ways from one phase to another. -/
inductive WorkerPhase.Follows : WorkerPhase → WorkerPhase → Prop where
  | start : Follows .created .running
  | neverStart : Follows .created .stopped
  | tell : Follows .running .stopRequested
  | giveUp : Follows .running .stopped
  | finish : Follows .stopRequested .stopped

namespace Vigil

namespace Event

/-- A start succeeded. -/
def isStart : Event → Bool
  | .started => true
  | _ => false

/-- The hook began. -/
def isLeaving : Event → Bool
  | .leaving _ => true
  | _ => false

/-- The phase after an event, given that before it. -/
@[simp] def phase (p : WorkerPhase) : Event → WorkerPhase
  | .became q => q
  | _ => p

/-- How the last iteration ended after an event, given how before it. -/
@[simp] def iterationEnd (r : Option IterationEnd) : Event → Option IterationEnd
  | .ended how => some how
  | _ => r

end Event

/-- The phase in which events leave a worker. -/
def lastPhase (es : List Event) : WorkerPhase := es.foldl Event.phase .created

/-- How the last iteration ended, if one did. -/
def lastEnd (es : List Event) : Option IterationEnd := es.foldl Event.iterationEnd none

@[simp] theorem lastPhase_append (es fs : List Event) :
    lastPhase (es ++ fs) = fs.foldl Event.phase (lastPhase es) := List.foldl_append

@[simp] theorem lastEnd_append (es fs : List Event) :
    lastEnd (es ++ fs) = fs.foldl Event.iterationEnd (lastEnd es) := List.foldl_append

/-- The hook has begun. -/
def Leaves (es : List Event) : Prop := ∃ reason, .leaving reason ∈ es

/-- When an event may happen. -/
def Permitted (past : List Event) : Event → Prop
  -- a start succeeds once, and only for a worker that is new
  | .started => lastPhase past = .created ∧ .started ∉ past
  | .refused found => lastPhase past = found ∧ found ≠ .created
  | .told | .dropped => True
  | .became p => (lastPhase past).Follows p
  -- after a request to stop, in the hook and after the end no iteration begins
  | .began => .started ∈ past ∧ .told ∉ past ∧ ¬ Leaves past ∧ lastPhase past ≠ .stopped
  | .ended _ => .started ∈ past ∧ ¬ Leaves past
  -- the loop ends because somebody wants it to or because its last iteration failed for good
  | .leaving reason =>
    .started ∈ past ∧ ¬ Leaves past ∧ lastPhase past ≠ .stopped ∧
      (∀ m, reason = .fatal m ↔ lastEnd past = some (.failed (.fatal m))) ∧
      (reason = .stopRequested → .told ∈ past ∨ .dropped ∈ past)
  | .left => Leaves past ∧ .left ∉ past
  -- a shutdown succeeds only at the end, and the hook has ended by then
  | .answered _ (.ok ()) => lastPhase past = .stopped ∧ (.started ∈ past → .left ∈ past)
  | .answered _ (.error _) => True

/-- Events may happen one after the other. -/
def Goes : List Event → List Event → Prop
  | _, [] => True
  | past, e :: rest => Permitted past e ∧ Goes (past ++ [e]) rest

/-- What happens later is permitted after all that came before. -/
theorem goes_append (past es fs : List Event) :
    Goes past (es ++ fs) ↔ Goes past es ∧ Goes (past ++ es) fs := by
  induction es generalizing past with
  | nil => simp [Goes]
  | cons e es ih =>
      simp only [List.cons_append, Goes, ih, and_assoc, List.append_assoc, List.nil_append]

/-- Each event of a trace was permitted when it happened. -/
theorem Goes.permitted {past es pre rest : List Event} {e : Event} (h : Goes past es)
    (hs : es = pre ++ e :: rest) : Permitted (past ++ pre) e := by
  rw [hs, goes_append] at h
  exact h.2.1

/-- What forbids itself happens once at most. -/
theorem Goes.countP_le_one {p : Event → Bool}
    (once : ∀ past e, Permitted past e → p e = true → past.countP p = 0) {es : List Event}
    (h : Goes [] es) : es.countP p ≤ 1 := by
  induction es using List.reverseRecOn with
  | nil => exact Nat.zero_le _
  | append_singleton es e ih =>
      obtain ⟨hes, hlast⟩ := (goes_append _ _ _).mp h
      have hfew := ih hes
      rw [List.countP_append, List.countP_singleton]
      split
      · next he =>
          -- the newest event may happen, so none of its kind came before
          have hnone := once es e (by simpa using hlast.1) he
          omega
      · exact hfew

theorem countP_isStart {es : List Event} : es.countP Event.isStart = 0 ↔ .started ∉ es := by
  rw [List.countP_eq_zero]
  constructor
  · intro h hm
    exact h _ hm rfl
  · intro h e hm he
    cases e with
    | started => exact h hm
    | _ => cases he

theorem countP_isLeaving {es : List Event} : es.countP Event.isLeaving = 0 ↔ ¬ Leaves es := by
  rw [List.countP_eq_zero]
  constructor
  · rintro h ⟨reason, hm⟩
    exact h _ hm rfl
  · intro h e hm he
    cases e with
    | leaving reason => exact h ⟨reason, hm⟩
    | _ => cases he

variable {es fs : List Event}

/-- No event takes a worker out of its last phase. -/
theorem Goes.stopped (h : Goes es fs) (hp : lastPhase es = .stopped) :
    lastPhase (es ++ fs) = .stopped := by
  induction fs generalizing es with
  | nil => rwa [List.append_nil]
  | cons e fs ih =>
      have hnext : lastPhase (es ++ [e]) = .stopped := by
        rw [lastPhase_append]
        cases e with
        | became p =>
            have hfollows : (lastPhase es).Follows p := h.1
            rw [hp] at hfollows
            cases hfollows
        | _ => exact hp
      simpa using ih h.2 hnext

/-- A start succeeds once at most, since it leaves the phase in which it is permitted for good. -/
theorem Goes.start_le_one (h : Goes [] es) : es.countP Event.isStart ≤ 1 := by
  refine h.countP_le_one ?_
  intro past e hpermitted he
  cases e with
  | started => exact countP_isStart.mpr hpermitted.2
  | _ => cases he

/-- The hook begins once at most. -/
theorem Goes.hook_le_one (h : Goes [] es) : es.countP Event.isLeaving ≤ 1 := by
  refine h.countP_le_one ?_
  intro past e hpermitted he
  cases e with
  | leaving reason => exact countP_isLeaving.mpr hpermitted.2.1
  | _ => cases he

theorem countP_isStart_pos (h : .started ∈ es) : 0 < es.countP Event.isStart :=
  Nat.pos_of_ne_zero fun h0 => countP_isStart.mp h0 h

theorem countP_isLeaving_pos (h : Leaves es) : 0 < es.countP Event.isLeaving :=
  Nat.pos_of_ne_zero fun h0 => countP_isLeaving.mp h0 h

end Vigil

end Backpressure
