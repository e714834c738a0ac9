import Backpressure.Sink.Machine

/-!
# The way of the records of a sink

A record is accepted into the buffer, leaves it with a batch, and is appended by the
writer line by line; the batch counts when the writer has flushed.  `Pipeline` is what
matters for this way, and `Deed` lists what one action can do to it.

*Stages.*  The flush worker can begin a batch (`ready`), is at work on one
(`writing`), or will never begin one again (`spent`).  A batch that fails is the last.

*Order.*  `Orderly` is what the surroundings keep to: contents can be encoded, and the
writer does not panic at a line or a flush.  It may fail or hang.
-/

namespace Backpressure

open Telemetry (Record)

/-! ## What events say about records -/

namespace SinkEvent

/-- The record that an event accepts. -/
def accepted? : SinkEvent → Option Record
  | .accepted r => some r
  | _ => none

/-- The request that an event says was done. -/
def served? : SinkEvent → Option WriterRequest
  | .served q => some q
  | _ => none

end SinkEvent

namespace Sink

/-- The records that were accepted, in order. -/
def accepted (es : List SinkEvent) : List Record := es.filterMap SinkEvent.accepted?

/-- What the writer did, in order. -/
def served (es : List SinkEvent) : List WriterRequest := es.filterMap SinkEvent.served?

@[simp] theorem accepted_append (es fs : List SinkEvent) :
    accepted (es ++ fs) = accepted es ++ accepted fs := List.filterMap_append

@[simp] theorem served_append (es fs : List SinkEvent) :
    served (es ++ fs) = served es ++ served fs := List.filterMap_append

/-! ## The way of the records -/

/-- What the flush worker is about. -/
inductive Stage where
  | ready
  | writing (batch : Batch)
  | spent

end Sink

/-- A call does not offer anything without a text. -/
def SinkErrand.Legible : SinkErrand → Prop
  | .awaitingPermit content _ _ _ => content.isSome = true
  | .awaitingSlot record _ _ _ => record.content.isSome = true
  | .awaitingStop _ _ => True

/-- The stage of a flush worker in a flush. -/
def Flushing.stage : Flushing → Sink.Stage
  | .writing b => .writing b
  | .alerting _ _ => .spent

/-- The stage of a flush worker at a place. -/
def Place.stage : Place FlushPoint ClosingPoint → Sink.Stage
  | .inside (.flushing f) | .leaving _ (.flushing f) => f.stage
  | .unstarted | .between _ | .inside (.waiting _) | .leaving .stopRequested .start => .ready
  | .leaving (.fatal _) .start | .leaving _ (.closing _) | .finished _ => .spent

namespace Sink

/-- What matters for the way of the records. -/
structure Pipeline where
  /-- The records in the buffer. -/
  items : List Record
  /-- What the flush worker is about. -/
  stage : Stage
  /-- The records that count as written. -/
  written : Nat
  /-- Whether the sink is down. -/
  down : Bool
  /-- The calls that wait. -/
  calls : List (CallId × SinkErrand)

/-- What matters for the way of the records of a sink. -/
def pipeline (s : Sink) : Pipeline where
  items := s.buffer.items
  stage := s.worker.place.stage
  written := s.written
  down := s.isDown
  calls := s.calls

/-- In a flush the stage is that of the flush. -/
theorem stage_of_flushing {s : Sink} {f : Flushing} (h : s.flushing? = some f) :
    s.pipeline.stage = f.stage := by
  simp only [pipeline, Place.stage]
  simp only [flushing?] at h
  split at h
  · next hplace =>
      cases h
      rw [hplace]
  · next hplace =>
      cases h
      rw [hplace]
  · cases h

/-- The sink is at work on a batch just when its stage says so. -/
theorem stage_eq_writing {s : Sink} {b : Batch} :
    s.pipeline.stage = .writing b ↔ s.flushing? = some (.writing b) := by
  have hstage : ∀ f : Flushing, f.stage = .writing b ↔ f = .writing b := by
    intro f
    cases f <;> simp [Flushing.stage]
  simp only [pipeline, flushing?]
  generalize s.worker.place = place
  cases place with
  | unstarted | between _ | finished _ => simp [Place.stage]
  | inside point => cases point <;> simp [Place.stage, hstage]
  | leaving reason point => cases point <;> cases reason <;> simp [Place.stage, hstage]

/-- What one action can do to the records, given what can be seen of it. -/
inductive Deed (p : Pipeline) (es : List SinkEvent) (p' : Pipeline) : Prop where
  /-- Nothing, but the sink may go down and calls may come and go. -/
  | idle (ha : accepted es = []) (hs : served es = []) (hdown : p.down = true → p'.down = true)
      (hcalls : ∀ c ∈ p'.calls, c ∈ p.calls ∨ c.2.Legible)
      (hp : p' = { p with down := p'.down, calls := p'.calls })
  /-- A record with a text is accepted. -/
  | accept (r : Record) (hr : r.content.isSome = true) (ha : accepted es = [r])
      (hs : served es = []) (hcalls : ∀ c ∈ p'.calls, c ∈ p.calls)
      (hp : p' = { p with items := p.items ++ [r], calls := p'.calls })
  /-- A batch begins with the first records of the buffer. -/
  | begin (records : List Record) (deadline : Instant) (hstage : p.stage = .ready)
      (ha : accepted es = []) (hs : served es = []) (hitems : p.items = records ++ p'.items)
      (hp : p' = { p with
        items := p'.items, stage := .writing (Batch.ofRecords records deadline) })
  /-- The writer takes a line. -/
  | take (b : Batch) (line : String) (rest : List String) (hstage : p.stage = .writing b)
      (hrest : b.rest = line :: rest) (ha : accepted es = []) (hs : served es = [.append line])
      (hp : p' = { p with stage := .writing { b with rest, appended := b.appended + 1 } })
  /-- The batch is written; the buffer may be emptied for good at the same time. -/
  | deliver (b : Batch) (hstage : p.stage = .writing b) (hrest : b.rest = [])
      (hall : b.appended = b.records.length) (ha : accepted es = []) (hs : served es = [.flush])
      (hnext : p'.stage = .ready ∧ p'.items = p.items ∨ p'.stage = .spent)
      (hp : p' = { p with
        items := p'.items, stage := p'.stage, written := p.written + b.records.length })
  /-- The batch fails, and the sink is down. -/
  | lose (b : Batch) (hstage : p.stage = .writing b) (ha : accepted es = [])
      (hs : served es = [] ∨ served es = [.flush] ∧ b.appended ≠ b.records.length)
      (hp : p' = { p with items := p'.items, stage := .spent, down := true })
  /-- The worker leaves for good with no batch under way. -/
  | leave (hstage : ∀ b, p.stage ≠ .writing b) (ha : accepted es = [])
      (hs : served es = [] ∨ served es = [.close])
      (hp : p' = { p with items := p'.items, stage := .spent })

theorem Deed.still {p p' : Pipeline} {es : List SinkEvent} (ha : accepted es = [])
    (hs : served es = []) (hp : p' = p) : Deed p es p' := by
  subst hp
  exact .idle ha hs id (fun _ hc => .inl hc) rfl

/-- What the surroundings of a sink keep to: contents can be encoded, and the writer does not
panic at a line or a flush. -/
def Orderly (s : Sink) : Action → Prop
  | .offer content _ _ _ => content.isSome = true
  | .worker (.reply .panicked) => ∀ b, s.flushing? ≠ some (.writing b)
  | _ => True

end Sink

end Backpressure
