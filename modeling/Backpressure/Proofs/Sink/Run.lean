import Backpressure.Proofs.Sink.Deeds

/-!
# Runs of a sink

A run is a sequence of actions of a sink in orderly surroundings, at moments that never
go back.  Who acts next, what the writer replies and when it is given up are left open.
So is what the wall clock shows, which may change between two actions.

*Parcels.*  A parcel is what could be seen of a batch: the records with which it began,
how many lines the writer took for it, and whether the writer flushed it.  It is read
off the moments of a run; the counter of the sink plays no part in it.
-/

namespace Backpressure

open Telemetry (Record)

/-- The line of a request, if there is one. -/
def WriterRequest.line? : WriterRequest → Option String
  | .append line => some line
  | .flush | .close => none

namespace Sink

/-- One step of a run. -/
structure Moment where
  /-- The sink before it. -/
  found : Sink
  /-- The sink after it, with what could be seen. -/
  outcome : SinkOutcome

/-- What could be seen in a list of moments, in order. -/
def events (h : List Moment) : List SinkEvent := h.flatMap (·.outcome.events)

/-- The lines that the writer took, in order. -/
def appended (es : List SinkEvent) : List String := (served es).filterMap WriterRequest.line?

/-- A run of a sink with some settings, from a moment to a moment, with what happened. -/
inductive Run (settings : SinkSettings) (t₀ : Instant) : List Moment → Instant → Sink → Prop where
  /-- Nothing has happened. -/
  | here : Run settings t₀ [] t₀ (ofSettings settings t₀)
  /-- An action happens. -/
  | act {h : List Moment} {t : Instant} {s : Sink} {a : Action} {clock : WallClock}
      {o : SinkOutcome} : Run settings t₀ h t s → s.Orderly a → s.step clock t a = some o →
      Run settings t₀ (h ++ [⟨s, o⟩]) t o.sink
  /-- Time passes. -/
  | pass {h : List Moment} {t t' : Instant} {s : Sink} :
      Run settings t₀ h t s → t ≤ t' → Run settings t₀ h t' s

/-! ## Parcels -/

/-- What could be seen of a batch. -/
structure Parcel where
  /-- The records of the batch. -/
  records : List Record
  /-- The number of lines that the writer took for it. -/
  taken : Nat := 0
  /-- Whether the writer flushed it. -/
  flushed : Bool := false

namespace Parcel

/-- A parcel after the writer did something. -/
def after (p : Parcel) : WriterRequest → Parcel
  | .append _ => { p with taken := p.taken + 1 }
  | .flush => { p with flushed := true }
  | .close => p

/-- Whether the writer took a line for every record and then flushed. -/
def isComplete (p : Parcel) : Bool := p.taken == p.records.length && p.flushed

/-- The parcel of a batch that begins when the worker goes from one stage to another. -/
def opened : Stage → Stage → List Parcel
  | .writing _, _ => []
  | _, .writing b => [{ records := b.records }]
  | _, _ => []

/-- The newest parcel, which stands first, after the writer did something. -/
def serve : List Parcel → List WriterRequest → List Parcel
  | [], _ => []
  | p :: older, requests => requests.foldl after p :: older

/-- The number of records in the parcels that are complete. -/
def written (ps : List Parcel) : Nat := ((ps.filter isComplete).flatMap (·.records)).length

theorem opened_self (st : Stage) : opened st st = [] := by
  cases st <;> rfl

/-- A pipeline that is spent opens no parcel. -/
theorem opened_spent (st : Stage) : opened st .spent = [] := by
  cases st <;> rfl

@[simp] theorem serve_nil (ps : List Parcel) : serve ps [] = ps := by
  cases ps <;> rfl

/-- Closing tells nothing about a batch. -/
theorem serve_close (ps : List Parcel) : serve ps [.close] = ps := by
  cases ps <;> rfl

/-- A parcel that is not complete does not count. -/
theorem written_incomplete {p : Parcel} {ps : List Parcel} (hp : p.isComplete = false) :
    written (p :: ps) = written ps := by
  simp [written, hp]

/-- A parcel counts as written with all its records. -/
theorem written_complete {p : Parcel} {ps : List Parcel} (hp : p.isComplete = true) :
    written (p :: ps) = p.records.length + written ps := by
  simp [written, hp]

end Parcel

/-- The parcels of a list of moments, the newest first. -/
def parcels (h : List Moment) : List Parcel :=
  h.foldl (fun ps m => Parcel.opened m.found.pipeline.stage m.outcome.sink.pipeline.stage
    ++ Parcel.serve ps (served m.outcome.events)) []

variable {settings : SinkSettings} {t₀ t : Instant} {h : List Moment} {s : Sink} {o : SinkOutcome}

theorem parcels_append_singleton (m : Moment) :
    parcels (h ++ [m]) = Parcel.opened m.found.pipeline.stage m.outcome.sink.pipeline.stage
      ++ Parcel.serve (parcels h) (served m.outcome.events) := by
  rw [parcels, List.foldl_append]
  rfl

theorem events_append_singleton (m : Moment) : events (h ++ [m]) = events h ++ m.outcome.events := by
  simp [events]

@[simp] theorem appended_append (es fs : List SinkEvent) :
    appended (es ++ fs) = appended es ++ appended fs := by
  simp [appended]

/-! ## Plays -/

/-- Lets actions happen one after the other, each at its moment. -/
def play (clock : WallClock) : Instant → Sink → List (Instant × Action) →
    Option (List Moment × Instant × Sink)
  | t, s, [] => some ([], t, s)
  | t, s, (t', a) :: rest =>
    if t' < t then none
    else
      match s.step clock t' a with
      | none => none
      | some o => (play clock t' o.sink rest).map fun (k, u, r) => (⟨s, o⟩ :: k, u, r)

/-- A play whose writer never panics goes on with a run. -/
theorem Run.play {clock : WallClock} {script : List (Instant × Action)} {k : List Moment}
    {u : Instant} {r : Sink} (run : Run settings t₀ h t s)
    (calm : ∀ w ∈ script, ∀ s : Sink, s.Orderly w.2)
    (hp : Sink.play clock t s script = some (k, u, r)) : Run settings t₀ (h ++ k) u r := by
  induction script generalizing h k t s with
  | nil =>
      cases hp
      rwa [List.append_nil]
  | cons head rest ih =>
      obtain ⟨t', a⟩ := head
      simp only [Sink.play] at hp
      split at hp
      · cases hp
      · next hle =>
          split at hp
          · cases hp
          · next o hs =>
              obtain ⟨⟨k', u', r'⟩, hrest, he⟩ := Option.map_eq_some_iff.mp hp
              cases he
              have hnow := (run.pass (Nat.le_of_not_lt hle)).act
                (calm (t', a) List.mem_cons_self s) hs
              have hall := ih hnow (fun w hw => calm w (List.mem_cons_of_mem _ hw)) hrest
              rwa [List.append_assoc] at hall

end Sink

end Backpressure
