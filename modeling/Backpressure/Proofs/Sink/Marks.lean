import Backpressure.Proofs.Registry
import Backpressure.Proofs.Sink.Balance

/-!
# Records on their way are not marked

A record is marked as written only when its batch is, and then it is gone.  So nothing that a
sink still holds has a mark: not in the buffer, not in the batch under way, and not with an offer
that waits for a place (`Unmarked`).

Records come from offers, which make them without a mark (`step_arrivals`).  All that the flush
worker does is to move them on (`Posting.flow`) or to lose them.
-/

namespace Backpressure

open Telemetry (Record)

/-- If the call holds a record, it is not marked. -/
def SinkErrand.Unmarked : SinkErrand → Prop
  | .awaitingSlot record _ _ _ => record.writtenAt = none
  | .awaitingPermit _ _ _ _ | .awaitingStop _ _ => True

namespace Sink

variable {settings : SinkSettings} {t₀ t now : Instant} {h : List Act} {clock : WallClock}
  {s : Sink} {o : SinkOutcome} {a : Action} {call : CallId} {mayDrop : Bool}

/-! ## Arrivals -/

/-- What comes in is not marked, given the calls that waited before. -/
structure Arrivals (calls : List (CallId × SinkErrand)) (o : SinkOutcome) : Prop where
  accepted : ∀ r ∈ accepted o.events, r.writtenAt = none
  calls : ∀ c ∈ o.sink.calls, c ∈ calls ∨ c.2.Unmarked

/-- Nothing comes in, and no call begins to wait. -/
theorem Arrivals.still {calls : List (CallId × SinkErrand)}
    (hacc : Sink.accepted o.events = []) (hcalls : o.sink.calls ⊆ calls) :
    Arrivals calls o where
  accepted r hr := by
    rw [hacc] at hr
    cases hr
  calls _ hc := .inl (hcalls hc)

theorem Arrivals.refuse (why : OfferRefusal) : Arrivals s.calls (s.refuse call mayDrop why) := by
  unfold Sink.refuse
  split <;> exact .still rfl fun _ hc => (List.mem_filter.mp hc).1

theorem Arrivals.turnBack : Arrivals s.calls (s.turnBack call mayDrop) := .refuse _

/-- A record that is accepted has not been written. -/
theorem Arrivals.accept {r : Record} (hr : r.writtenAt = none) :
    Arrivals s.calls (s.accept call r) where
  accepted q hq := by
    rw [List.mem_singleton.mp hq]
    exact hr
  calls _ hc := .inl (List.mem_filter.mp hc).1

theorem Arrivals.await {e : SinkErrand} (he : e.Unmarked) : Arrivals s.calls (s.await call e) where
  accepted _ hr := by cases hr
  calls c hc := by
    rcases List.mem_append.mp hc with hold | hnew
    · exact .inl (List.mem_filter.mp hold).1
    · rw [List.mem_singleton.mp hnew]
      exact .inr he

/-- A record is made without a mark when its permit is there. -/
theorem enterBuffer_arrivals (content : Option Json.Value) (wait : Duration) :
    Arrivals s.calls (s.enterBuffer clock now call content wait mayDrop) := by
  have hfresh : ({ content, createdAt := clock.at now } : Record).writtenAt = none := rfl
  simp only [enterBuffer]
  split
  · split
    · next buffer _ => exact Arrivals.accept (s := { s with buffer }) hfresh
    · next buffer _ => exact Arrivals.turnBack (s := { s with buffer })
  · split
    · next buffer _ => exact Arrivals.accept (s := { s with buffer }) hfresh
    · next buffer _ => exact Arrivals.turnBack (s := { s with buffer })
    · next buffer _ =>
        exact Arrivals.await (s := { s with buffer, nextTicket := s.nextTicket + 1 })
          (e := .awaitingSlot _ _ _ _) hfresh

theorem beginOffer_arrivals (content : Option Json.Value) (permitWait slotWait : Duration) :
    Arrivals s.calls (s.beginOffer clock now call content permitWait slotWait mayDrop) := by
  simp only [beginOffer]
  split
  · exact .refuse _
  split
  · exact .refuse _
  split
  · next limiter _ => exact Arrivals.refuse (s := { s with limiter }) _
  · next limiter _ => exact enterBuffer_arrivals (s := { s with limiter }) content slotWait
  · next limiter _ =>
      split
      · exact enterBuffer_arrivals (s := { s with limiter }) content slotWait
      · exact Arrivals.await (s := { s with limiter }) (e := .awaitingPermit _ _ _ _) trivial

theorem resumeOffer_arrivals {record : Record} {ticket : Ticket} {deadline : Instant}
    (hr : record.writtenAt = none)
    (h : s.resumeOffer now call record ticket deadline mayDrop = some o) : Arrivals s.calls o := by
  simp only [resumeOffer] at h
  split at h
  · next buffer _ =>
      cases h
      exact Arrivals.accept (s := { s with buffer }) hr
  · next buffer _ =>
      cases h
      exact Arrivals.turnBack (s := { s with buffer })
  · next buffer _ =>
      split at h
      · cases h
      · cases h
        exact Arrivals.turnBack (s := { s with buffer := buffer.leaveOffer ticket })

theorem resume_arrivals (hcalls : ∀ c ∈ s.calls, c.2.Unmarked)
    (h : s.resume clock now call = some o) : Arrivals s.calls o := by
  simp only [resume] at h
  split at h
  · cases h
  · split at h
    · cases h
    · cases h
      exact enterBuffer_arrivals _ _
  · next hc => exact resumeOffer_arrivals (hcalls _ (mem_of_lookup hc)) h
  · obtain ⟨_, -, rfl⟩ := Option.map_eq_some_iff.mp h
    exact .still rfl fun _ hc => (List.mem_filter.mp hc).1

theorem Stride.arrivals {w : FlushAction} (h : Stride clock now s w o) : Arrivals s.calls o := by
  cases h with
  | begin w ends signal es hp hes => exact .still (accepted_of_dealing hes) (List.Subset.refl _)
  | beginLast es hp hes => exact .still (accepted_of_dealing hes) (List.Subset.refl _)
  | take post b line rest es hp hrest hes =>
      exact .still (accepted_of_dealing hes) (List.Subset.refl _)
  | deliver b es hp hrest hall hes => exact .still (accepted_of_dealing hes) (List.Subset.refl _)
  | deliverLast b es hp hrest hall hes =>
      exact .still (clearance hes s.buffer.items).1 (List.Subset.refl _)
  | strike w b fault es hp hfail hup hes =>
      refine .still ?_ (List.Subset.refl _)
      rw [accepted_append, accepted_of_dealing hes]
      rfl
  | giveUp w b fault es hp hfail hdown hes =>
      exact .still (accepted_of_dealing hes) (List.Subset.refl _)
  | giveUpLast w b fault es hp hfail hes =>
      exact .still (clearance hes s.buffer.items).1 (List.Subset.refl _)
  | warned w reason deadline es hp hes =>
      exact .still (accepted_of_dealing hes) (List.Subset.refl _)
  | close w reason deadline es hp hes =>
      exact .still (accepted_of_dealing hes) (List.Subset.refl _)
  | _ => exact .still rfl (List.Subset.refl _)

/-- Only offers bring records, and they bring them without a mark. -/
theorem step_arrivals (hs : Steady s) (hcalls : ∀ c ∈ s.calls, c.2.Unmarked)
    (h : s.step clock now a = some o) : Arrivals s.calls o := by
  cases step_motion hs h with
  | offer content permitWait slotWait mayDrop o ho =>
      cases h
      exact beginOffer_arrivals (s := s.named) content permitWait slotWait
  | offerOn call e mayDrop o hc he ho => exact resume_arrivals hcalls h
  | stopSeen call initiated deadline hc => exact resume_arrivals hcalls h
  | shutDown reason =>
      obtain ⟨why, buffer, -, heq⟩ := s.dismissed_eq reason
      rw [heq]
      exact .still rfl fun _ hc => (List.mem_filter.mp hc).1
  | shutDownWaits reason deadline =>
      obtain ⟨why, buffer, -, heq⟩ := s.dismissed_eq reason
      have hcalls : (s.dismissed reason).calls = s.calls := by rw [heq]; rfl
      exact hcalls ▸ Arrivals.await (s := s.dismissed reason) (e := .awaitingStop _ _) trivial
  | flush => exact .still rfl (List.Subset.refl _)
  | enable => exact .still rfl (List.Subset.refl _)
  | disable => exact .still rfl (List.Subset.refl _)
  | worker w o ho => exact ho.arrivals

/-! ## What a sink holds -/

/-- Nothing that a sink holds is marked as written. -/
structure Unmarked (s : Sink) : Prop where
  records : ∀ r ∈ s.underway ++ s.buffer.items, r.writtenAt = none
  calls : ∀ c ∈ s.calls, c.2.Unmarked

/-- An action leaves no record where none was, except one that it accepts. -/
theorem Motion.held_subset (hs : Steady s) (h : Motion clock now s a o) :
    o.sink.underway ++ o.sink.buffer.items ⊆
      s.underway ++ s.buffer.items ++ accepted o.events := by
  by_cases hpanic : ∃ b, s.flushing? = some (.writing b) ∧ a = .worker (.reply .panicked)
  · -- a panic loses the batch, so there is no balance to read this off
    obtain ⟨b, hb, rfl⟩ := hpanic
    cases h with
    | worker w o ho =>
        cases ho with
        | lose b' hp => exact fun r hr => List.mem_append_left _ (List.mem_append_right _ hr)
        | loseLast b' hp => exact fun r hr => List.mem_append_left _ (List.mem_append_right _ hr)
        | idle w ends signal hp hitems ha => simp at ha
        | begin w ends signal es hp hes ha => simp at ha
        | strike w b' fault es hp hfail hup hes => simp [failureBy, hb] at hfail
        | giveUp w b' fault es hp hfail hdown hes => simp [failureBy, hb] at hfail
        | giveUpLast w b' fault es hp hfail hes => simp [failureBy, hb] at hfail
        | warned w reason deadline es hp hes => simp [flushing?, hp] at hb
        | close w reason deadline es hp hes => simp [flushing?, hp] at hb
  · have hcalm : ∀ b, s.flushing? = some (.writing b) → a ≠ .worker (.reply .panicked) :=
      fun b hb ha => hpanic ⟨b, hb, ha⟩
    rw [(h.posting hs hcalm).flow]
    intro r hr
    simp only [List.mem_append] at hr ⊢
    tauto

/-- A step marks no record that is still held. -/
theorem Unmarked.step (hu : Unmarked s) (hs : Steady s) (h : s.step clock now a = some o) :
    Unmarked o.sink := by
  have harrivals := step_arrivals hs hu.calls h
  refine ⟨fun r hr => ?_, fun c hc => (harrivals.calls c hc).elim (hu.calls c) id⟩
  rcases List.mem_append.mp ((step_motion hs h).held_subset hs hr) with hold | hnew
  · exact hu.records r hold
  · exact harrivals.accepted r hnew

/-- Along every history no record that is held has a mark. -/
theorem History.unmarked (hist : History settings t₀ h t s) : Unmarked s := by
  induction hist with
  | here =>
      refine ⟨fun r hr => ?_, fun c hc => ?_⟩
      · cases hr
      · cases hc
  | act hist hs ih => exact ih.step hist.steady hs
  | pass _ _ ih => exact ih

/-- No record of the batch that is at the writer is marked as written. -/
theorem History.unmarked_batch {b : Batch} (hist : History settings t₀ h t s)
    (hb : s.flushing? = some (.writing b)) : ∀ r ∈ b.records, r.writtenAt = none := by
  intro r hr
  refine hist.unmarked.records r (List.mem_append_left _ ?_)
  simpa [underway, hb] using hr

end Sink

end Backpressure
