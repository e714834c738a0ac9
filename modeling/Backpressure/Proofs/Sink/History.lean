import Backpressure.Proofs.Script
import Backpressure.Proofs.Sink.Run

/-!
# Histories of a sink

A history is a run of a sink that keeps, for each step, the action and its moment beside
what came of it.  Nothing is asked of the surroundings: contents need not have a text, and
the writer may fail, hang or panic.  A statement that needs more says so about the acts.

*Ends of batches.*  Whether an action writes a batch or makes its flush fail is read off
the batch under way and the action: what the writer replied, or that it was given up.
The counters of the sink play no part in it.
-/

namespace Backpressure

open Telemetry (Record)

namespace SinkEvent

/-- The records that an event throws away. -/
def thrownAway : SinkEvent → List Record
  | .discarded records => records
  | _ => []

/-- The alert that an event raises, with its subject. -/
def alarm? : SinkEvent → Option (String × String)
  | .alerted subject body => some (subject, body)
  | _ => none

/-- The call that an event tells to have brought the sink down. -/
def initiator? : SinkEvent → Option CallId
  | .answered call (.shutDown true) => some call
  | _ => none

end SinkEvent

namespace Sink

/-- One action, with the moment at which it happened. -/
structure Act extends Moment where
  now : Instant
  action : Action

/-- A history of a sink with some settings, from a moment to a moment. -/
inductive History (settings : SinkSettings) (t₀ : Instant) : List Act → Instant → Sink → Prop where
  /-- Nothing has happened. -/
  | here : History settings t₀ [] t₀ (ofSettings settings t₀)
  /-- An action happens. -/
  | act {h : List Act} {t : Instant} {s : Sink} {a : Action} {clock : WallClock} {o : SinkOutcome} :
      History settings t₀ h t s → s.step clock t a = some o →
      History settings t₀ (h ++ [⟨⟨s, o⟩, t, a⟩]) t o.sink
  /-- Time passes. -/
  | pass {h : List Act} {t t' : Instant} {s : Sink} :
      History settings t₀ h t s → t ≤ t' → History settings t₀ h t' s

variable {settings : SinkSettings} {t₀ t : Instant} {h : List Act} {s : Sink} {a : Action}

/-! ## What could be seen -/

/-- What could be seen in a history, in order. -/
def seen (h : List Act) : List SinkEvent := h.flatMap (·.outcome.events)

/-- The records that were thrown away. -/
def discarded (es : List SinkEvent) : List Record := es.flatMap SinkEvent.thrownAway

/-- The alerts that were raised. -/
def alarms (es : List SinkEvent) : List (String × String) := es.filterMap SinkEvent.alarm?

/-- The calls that were told to have brought the sink down. -/
def initiators (es : List SinkEvent) : List CallId := es.filterMap SinkEvent.initiator?

theorem seen_append_singleton (m : Act) : seen (h ++ [m]) = seen h ++ m.outcome.events := by
  simp [seen]

@[simp] theorem discarded_append (es fs : List SinkEvent) :
    discarded (es ++ fs) = discarded es ++ discarded fs := List.flatMap_append

@[simp] theorem alarms_append (es fs : List SinkEvent) :
    alarms (es ++ fs) = alarms es ++ alarms fs := List.filterMap_append

@[simp] theorem initiators_append (es fs : List SinkEvent) :
    initiators (es ++ fs) = initiators es ++ initiators fs := List.filterMap_append

/-! ## Batches -/

/-- The records of the batch under way. -/
def underway (s : Sink) : List Record :=
  match s.flushing? with
  | some (.writing b) => b.records
  | _ => []

/-- The records that an action writes: the writer took a line for each of them, and now it has
flushed. -/
def deliveredBy (s : Sink) (a : Action) : List Record :=
  match s.flushing?, a with
  | some (.writing b), .worker (.reply .done) =>
    if b.rest = [] ∧ b.appended = b.records.length then b.records else []
  | _, _ => []

/-- The batch whose flush an action makes fail, and why it fails. -/
def failureBy (s : Sink) (a : Action) : Option (Batch × FlushFault) :=
  match s.flushing?, a with
  | some (.writing b), .worker (.reply (.failed error)) =>
    some (b, .refused b.appended b.records.length error)
  | some (.writing b), .worker (.reply .done) =>
    if b.rest = [] ∧ b.appended ≠ b.records.length then
      some (b, .incomplete b.appended b.records.length)
    else none
  | some (.writing b), .worker .runOut =>
    some (b, .late b.records.length s.settings.writeTimeout)
  | _, _ => none

/-- The records that were written, in order. -/
def delivered (h : List Act) : List Record := h.flatMap fun m => m.found.deliveredBy m.action

/-- The batches whose flush failed, with the faults. -/
def failures (h : List Act) : List (Batch × FlushFault) :=
  h.filterMap fun m => m.found.failureBy m.action

/-- The records of the batches whose flush failed. -/
def lost (h : List Act) : List Record := (failures h).flatMap (·.1.records)

theorem delivered_append_singleton (m : Act) :
    delivered (h ++ [m]) = delivered h ++ m.found.deliveredBy m.action := by
  simp [delivered]

theorem filterMap_append_singleton {α β : Type} (f : α → Option β) (l : List α) (x : α) :
    (l ++ [x]).filterMap f = l.filterMap f ++ (f x).toList := by
  cases hx : f x <;> simp [hx]

theorem failures_append_singleton (m : Act) :
    failures (h ++ [m]) = failures h ++ (m.found.failureBy m.action).toList :=
  filterMap_append_singleton _ h m

theorem lost_append_singleton (m : Act) :
    lost (h ++ [m]) = lost h ++ (m.found.failureBy m.action).toList.flatMap (·.1.records) := by
  rw [lost, failures_append_singleton, List.flatMap_append]
  rfl

/-- With no batch under way there is none to write or to lose. -/
theorem no_end (a : Action) (hs : ∀ b, s.flushing? ≠ some (.writing b)) :
    s.underway = [] ∧ s.deliveredBy a = [] ∧ s.failureBy a = none := by
  cases hf : s.flushing? with
  | none => simp [underway, deliveredBy, failureBy, hf]
  | some f =>
      cases f with
      | writing b => exact absurd hf (hs b)
      | alerting reason deadline => simp [underway, deliveredBy, failureBy, hf]

/-- What holds of every act that can come next holds of every act of a history. -/
theorem History.each {Q : Act → Prop}
    (hQ : ∀ {h : List Act} {t : Instant} {s : Sink} {a : Action} {clock : WallClock}
      {o : SinkOutcome}, History settings t₀ h t s → s.step clock t a = some o →
        Q ⟨⟨s, o⟩, t, a⟩)
    (hist : History settings t₀ h t s) : ∀ m ∈ h, Q m := by
  induction hist with
  | here => exact fun m hm => absurd hm List.not_mem_nil
  | pass hist hle ih => exact ih
  | act hist hs ih =>
      intro m hm
      rcases List.mem_append.mp hm with hm | hm
      · exact ih m hm
      · exact List.mem_singleton.mp hm ▸ hQ hist hs

/-- The writer does not panic in a flush. -/
def Act.Calm (m : Act) : Prop :=
  ∀ b, m.found.flushing? = some (.writing b) → m.action ≠ .worker (.reply .panicked)

/-! ## Scripts -/

/-- Lets an action happen, and makes a note of it. -/
def note (clock : WallClock) (t : Instant) (s : Sink) (a : Action) : Option (Act × Sink) :=
  (s.step clock t a).map fun o => (⟨⟨s, o⟩, t, a⟩, o.sink)

/-- A script that can be enacted goes on with a history. -/
theorem History.enact {clock : WallClock} {script : List (Instant × Action)} {k : List Act}
    {u : Instant} {r : Sink} (hist : History settings t₀ h t s)
    (hp : Backpressure.enact (note clock) t s script = some (k, u, r)) :
    History settings t₀ (h ++ k) u r := by
  refine reach_of_enact (R := History settings t₀) ?act .pass hist hp
  case act =>
    intro h t s a m s' hist hm
    obtain ⟨o, hs, he⟩ := Option.map_eq_some_iff.mp hm
    cases he
    exact hist.act hs

/-- An enacted script leaves its actions in the history. -/
theorem action_mem_of_enact {clock : WallClock} {script : List (Instant × Action)} {k : List Act}
    {u : Instant} {r : Sink} (hp : enact (note clock) t s script = some (k, u, r)) :
    ∀ m ∈ k, m.action ∈ script.map (·.2) := by
  intro m hm
  obtain ⟨t', s', a, s'', ha, hnote⟩ := mem_of_enact hp m hm
  obtain ⟨o, -, he⟩ := Option.map_eq_some_iff.mp hnote
  cases he
  exact ha

end Sink

end Backpressure
