import Backpressure.Proofs.Queue.Effects
import Backpressure.Proofs.Sink.Pipeline
import Backpressure.Proofs.Sink.Reception

/-!
# What can happen to the records of a sink

`step_deed` says that each action of a sink in orderly surroundings does to its records
what `Deed` lists.

*Landing.*  A flush goes on inside an iteration or inside the hook.  `Lands` says for
both what becomes of the worker then, so no later argument asks where it was.
-/

namespace Backpressure.Sink

open Telemetry (Record)

variable {clock : WallClock} {now : Instant} {s : Sink} {o o' : SinkOutcome} {f : Flushing}
  {turn : FlushTurn}

/-! ## The worker -/

/-- What becomes of the worker after a flush did something. -/
inductive Lands (o : SinkOutcome) (o' : SinkOutcome) : FlushTurn → Prop where
  /-- The flush goes on. -/
  | on {f : Flushing} (hes : o'.events = o.events)
      (hp : o'.sink.pipeline = { o.sink.pipeline with stage := f.stage }) : Lands o o' (.underway f)
  /-- The loop goes on. -/
  | back {how : IterationEnd} (hgo : ∀ m, how ≠ .failed (.fatal m)) (hes : o'.events = o.events)
      (hp : o'.sink.pipeline = { o.sink.pipeline with stage := .ready }) : Lands o o' (.ended how)
  /-- There will be no more batches. -/
  | off {how : IterationEnd} (ha : accepted o'.events = accepted o.events)
      (hs : served o'.events = served o.events)
      (hp : o'.sink.pipeline =
        { o.sink.pipeline with items := o'.sink.buffer.items, stage := .spent }) :
      Lands o o' (.ended how)

theorem put_eq_some {w : Option (Worker FlushPoint ClosingPoint)} (h : put o w = some o') :
    ∃ worker, w = some worker ∧ o' = { o with sink.worker := worker } := by
  obtain ⟨worker, hw, ho⟩ := Option.map_eq_some_iff.mp h
  exact ⟨worker, hw, ho.symm⟩

theorem inIteration_lands (h : inIteration (turn, o) = some o') : Lands o o' turn := by
  cases turn with
  | underway f =>
      obtain ⟨w, hw, rfl⟩ := put_eq_some h
      simp only [Worker.move] at hw
      split at hw
      · cases hw
        exact .on rfl rfl
      · cases hw
  | ended how =>
      obtain ⟨w, hw, rfl⟩ := put_eq_some h
      simp only [Worker.finish] at hw
      split at hw
      · cases hw
        cases how with
        | done => exact .back (by simp) rfl rfl
        | panicked => exact .back (by simp) rfl rfl
        | failed fault =>
            cases fault with
            | recoverable m => exact .back (by simp) rfl rfl
            | fatal m => exact .off rfl rfl rfl
      · cases hw

theorem closeDown_lands {how : IterationEnd} (h : o.sink.closeDown now = some o') :
    Lands o (o'.after o.events) (.ended how) := by
  simp only [closeDown] at h
  obtain ⟨w, hw, rfl⟩ := put_eq_some h
  simp only [Worker.moveHook] at hw
  split at hw
  · cases hw
    refine .off ?_ ?_ rfl
    · simp [SinkOutcome.after, accepted, SinkEvent.accepted?]
    · simp [SinkOutcome.after, served, SinkEvent.served?]
  · cases hw

theorem inHook_lands (h : inHook now (turn, o) = some o') : Lands o o' turn := by
  cases turn with
  | underway f =>
      obtain ⟨w, hw, rfl⟩ := put_eq_some h
      simp only [Worker.moveHook] at hw
      split at hw
      · cases hw
        exact .on rfl rfl
      · cases hw
  | ended how =>
      cases how with
      | panicked =>
          obtain ⟨w, hw, rfl⟩ := put_eq_some h
          simp only [Worker.finishHook] at hw
          split at hw
          · cases hw
            exact .off rfl rfl rfl
          · cases hw
      | done | failed fault =>
          obtain ⟨o₁, hclose, rfl⟩ := Option.map_eq_some_iff.mp h
          exact closeDown_lands hclose

theorem goOn_lands (h : goOn now (turn, o) = some o') : Lands o o' turn := by
  simp only [goOn] at h
  split at h
  · exact inIteration_lands h
  · exact inHook_lands h
  · cases h

/-! ## Flushes -/

theorem beginFlush_cases (now : Instant) (s : Sink) :
    ∃ records buffer, s.buffer.items = records ++ buffer.items ∧
      (records = [] ∧ s.beginFlush now = (.ended .done, { sink := { s with buffer } }) ∨
        s.beginFlush now =
          (.underway (.writing (Batch.ofRecords records (s.patience now))),
            { events := [.asked (Batch.ofRecords records (s.patience now)).request]
              sink := { s with buffer } })) := by
  obtain ⟨n, r, hdrain, -⟩ := s.buffer.drain_eq s.buffer.length
  refine ⟨s.buffer.items.take n, { s.buffer with items := s.buffer.items.drop n, ready := r }.freeSlots
    (s.buffer.items.take n).length, ?_, ?_⟩
  · simp
  · simp only [beginFlush, hdrain]
    split
    · next hnone => exact .inl ⟨List.isEmpty_iff.mp hnone, rfl⟩
    · exact .inr rfl

/-- A flush that has nothing to write or has failed is over. -/
theorem ended_deed {how : IterationEnd} (hp : o.sink.pipeline = s.pipeline)
    (ha : accepted o.events = []) (hs : served o.events = [])
    (hstage : s.pipeline.stage = .ready ∨
      s.pipeline.stage = .spent ∧ ∃ m, how = .failed (.fatal m))
    (h : Lands o o' (.ended how)) : Deed s.pipeline o'.events o'.sink.pipeline := by
  have hnot : ∀ b, s.pipeline.stage ≠ .writing b := by
    rcases hstage with h | ⟨h, -⟩ <;> simp [h]
  cases h with
  | back hgo hes hp' =>
      rcases hstage with hready | ⟨-, m, hm⟩
      · refine .still (by rw [hes, ha]) (by rw [hes, hs]) ?_
        rw [hp', hp, ← hready]
      · exact absurd hm (hgo m)
  | off ha' hs' hp' =>
      refine .leave hnot (by rw [ha', ha]) (.inl (by rw [hs', hs])) ?_
      rw [hp', hp]

/-- A flush begins with all records of the buffer, or is over at once. -/
theorem beginFlush_deed (hready : s.pipeline.stage = .ready)
    (h : Lands (s.beginFlush now).2 o' (s.beginFlush now).1) :
    Deed s.pipeline o'.events o'.sink.pipeline := by
  obtain ⟨records, buffer, hsplit, ⟨rfl, hbegin⟩ | hbegin⟩ := beginFlush_cases now s
  · rw [hbegin] at h
    have hsame : ({ s with buffer } : Sink).pipeline = s.pipeline := by
      simp [pipeline, isDown, hsplit]
    exact ended_deed hsame rfl rfl (.inl hready) h
  · rw [hbegin] at h
    cases h with
    | on hes hp =>
        refine .begin records (s.patience now) hready (by rw [hes]; rfl) (by rw [hes]; rfl) ?_ ?_
        · rw [hp]
          exact hsplit
        · rw [hp]
          rfl

theorem pipeline_bringDown (reason : String) (s : Sink) :
    (s.bringDown reason).2.pipeline = { s.pipeline with down := true } := by
  simp only [bringDown]
  split
  · next hdown => rw [pipeline, hdown]
  · rfl

/-- A flush that fails brings the sink down, and ends at once or with its alert. -/
theorem failFlush_cases (clock : WallClock) (now : Instant) (fault : FlushFault) (s : Sink) :
    ((∃ d reason, (s.failFlush clock now fault).1 = .underway (.alerting reason d)) ∨
      ∃ m, (s.failFlush clock now fault).1 = .ended (.failed (.fatal m))) ∧
    accepted (s.failFlush clock now fault).2.events = [] ∧ served (s.failFlush clock now fault).2.events = [] ∧
    (s.failFlush clock now fault).2.sink.pipeline = { s.pipeline with down := true } := by
  have hdown := pipeline_bringDown fault.message { s with failedFlushes := s.failedFlushes + 1 }
  simp only [failFlush]
  split
  · next s' hbring =>
      rw [hbring] at hdown
      exact ⟨.inr ⟨_, rfl⟩, rfl, rfl, hdown⟩
  · next s' hbring =>
      rw [hbring] at hdown
      split
      · exact ⟨.inr ⟨_, rfl⟩, rfl, rfl, hdown⟩
      · exact ⟨.inl ⟨_, _, rfl⟩, rfl, rfl, hdown⟩

/-- A flush that failed leaves nothing to come. -/
theorem failFlush_deed {fault : FlushFault} {b : Batch} {seen : List SinkEvent}
    (hstage : s.pipeline.stage = .writing b) (ha : accepted seen = [])
    (hs : served seen = [] ∨ served seen = [.flush] ∧ b.appended ≠ b.records.length)
    (h : Lands ((s.failFlush clock now fault).2.after seen) o' (s.failFlush clock now fault).1) :
    Deed s.pipeline o'.events o'.sink.pipeline := by
  obtain ⟨hturn, hnone, hnone', hsink⟩ := failFlush_cases clock now fault s
  have hevents : accepted ((s.failFlush clock now fault).2.after seen).events = [] ∧
      served ((s.failFlush clock now fault).2.after seen).events = served seen := by
    simp [SinkOutcome.after, ha, hnone, hnone']
  have hpipe : ((s.failFlush clock now fault).2.after seen).sink.pipeline =
      { s.pipeline with down := true } := hsink
  rcases hturn with ⟨d, reason, hturn⟩ | ⟨m, hturn⟩
  · rw [hturn] at h
    cases h with
    | on hes hp =>
        refine .lose b hstage (by rw [hes, hevents.1]) (by rw [hes, hevents.2]; exact hs) ?_
        rw [hp, hpipe]
        rfl
  · rw [hturn] at h
    cases h with
    | back hgo => exact absurd rfl (hgo m)
    | off ha' hs' hp =>
        refine .lose b hstage (by rw [ha', hevents.1]) (by rw [hs', hevents.2]; exact hs) ?_
        rw [hp, hpipe]

/-- The writer replies, and does not panic. -/
theorem afterReply_deed {b : Batch} {r : WriterReply} (hstage : s.pipeline.stage = .writing b)
    (hr : r ≠ .panicked) (h : Lands (s.afterReply clock now b r).2 o' (s.afterReply clock now b r).1) :
    Deed s.pipeline o'.events o'.sink.pipeline := by
  cases r with
  | panicked => exact absurd rfl hr
  | failed error =>
      simp only [afterReply, Batch.afterReply] at h
      exact failFlush_deed hstage rfl (.inl rfl) h
  | done =>
      simp only [afterReply, Batch.afterReply] at h
      cases hrest : b.rest with
      | cons line rest =>
          simp only [hrest, Batch.request, if_true] at h
          cases h with
          | on hes hp =>
              refine .take b line rest hstage hrest (by rw [hes]; rfl) (by rw [hes]; rfl) ?_
              rw [hp]
              rfl
      | nil =>
          by_cases hall : b.appended = b.records.length
          · simp only [hrest, Batch.request, hall, if_true] at h
            cases h with
            | back hgo hes hp =>
                refine .deliver b hstage hrest hall (by rw [hes]; rfl) (by rw [hes]; rfl)
                  (.inl ?_) ?_
                · rw [hp]
                  exact ⟨rfl, rfl⟩
                · rw [hp]
                  rfl
            | off ha hs hp =>
                refine .deliver b hstage hrest hall ha hs (.inr ?_) ?_
                · rw [hp]
                · rw [hp]
                  rfl
          · simp only [hrest, Batch.request, hall, if_true, if_false] at h
            exact failFlush_deed hstage rfl (.inr ⟨rfl, hall⟩) h

/-! ## Actions of the worker -/

theorem stage_of_place {place : Place FlushPoint ClosingPoint} (h : s.worker.place = place) :
    s.pipeline.stage = place.stage := by
  rw [← h]
  rfl

/-- The worker has closed the writer, or no longer waits for that. -/
theorem finishHook_deed {es : List SinkEvent} {reason : ExitReason} {deadline : Instant}
    (hplace : s.worker.place = .leaving reason (.closing deadline)) (ha : accepted es = [])
    (hs : served es = [] ∨ served es = [.close])
    (h : put { events := es, sink := s } s.worker.finishHook = some o) :
    Deed s.pipeline o.events o.sink.pipeline := by
  obtain ⟨w, hw, rfl⟩ := put_eq_some h
  simp only [Worker.finishHook, hplace, Option.some.injEq] at hw
  subst hw
  refine .leave (fun b => ?_) ha hs rfl
  rw [stage_of_place hplace]
  simp [Place.stage]

theorem turn_deed (h : s.flushStep clock now .turn = some o) :
    Deed s.pipeline o.events o.sink.pipeline := by
  obtain ⟨w, hw, rfl⟩ := put_eq_some h
  simp only [Worker.turn] at hw
  split at hw
  · next aside hplace =>
      cases hw
      refine .still rfl rfl ?_
      cases hstop : s.worker.stop <;> simp [pipeline, isDown, hplace, Place.stage]
  · cases hw

/-- The hook flushes once more after a stop, and closes the writer at once after a failure. -/
theorem leave_deed (h : s.flushStep clock now .leave = some o) :
    Deed s.pipeline o.events o.sink.pipeline := by
  simp only [flushStep] at h
  split at h
  · next hplace => exact beginFlush_deed (stage_of_place hplace) (inHook_lands h)
  · next m hplace =>
      have hlands : Lands { sink := s } (o.after []) (.ended (.failed (.fatal m))) :=
        closeDown_lands h
      exact ended_deed rfl rfl rfl (.inr ⟨stage_of_place hplace, m, rfl⟩) hlands
  · cases h

theorem reply_deed {r : WriterReply} (hr : r = .panicked → ∀ b, s.flushing? ≠ some (.writing b))
    (h : s.flushStep clock now (.reply r) = some o) : Deed s.pipeline o.events o.sink.pipeline := by
  simp only [flushStep] at h
  split at h
  · next b hflush =>
      have hpanic : r ≠ .panicked := fun hp => hr hp b hflush
      exact afterReply_deed (stage_eq_writing.mpr hflush) hpanic (goOn_lands h)
  · next hplace =>
      by_cases hdone : r = .done
      · rw [if_pos hdone] at h
        exact finishHook_deed hplace rfl (.inr rfl) h
      · rw [if_neg hdone] at h
        exact finishHook_deed hplace rfl (.inl rfl) h
  · cases h

/-- A wait that runs out fails the flush, gives the alert up, or ends the hook. -/
theorem runOut_deed (h : s.flushStep clock now .runOut = some o) :
    Deed s.pipeline o.events o.sink.pipeline := by
  simp only [flushStep] at h
  split at h
  · next f hflush =>
      obtain ⟨turn, hrun, hgo⟩ := Option.bind_eq_some_iff.mp h
      have hlands := goOn_lands hgo
      simp only [Sink.runOut] at hrun
      split at hrun
      · next b =>
          split at hrun
          · cases hrun
          · cases hrun
            exact failFlush_deed (stage_eq_writing.mpr hflush) rfl (.inl rfl) hlands
      · next reason deadline =>
          split at hrun
          · cases hrun
          · cases hrun
            have hspent := stage_of_flushing hflush
            exact ended_deed rfl rfl rfl (.inr ⟨hspent, reason, rfl⟩) hlands
  · next hplace =>
      split at h
      · cases h
      · exact finishHook_deed hplace rfl (.inl rfl) h
  · cases h

/-- The worker acts, and the writer does not panic at a line or a flush. -/
theorem flushStep_deed {a : FlushAction}
    (ha : a = .reply .panicked → ∀ b, s.flushing? ≠ some (.writing b))
    (h : s.flushStep clock now a = some o) : Deed s.pipeline o.events o.sink.pipeline := by
  cases a with
  | turn => exact turn_deed h
  | leave => exact leave_deed h
  | runOut => exact runOut_deed h
  | reply r => exact reply_deed (fun hr => ha (hr ▸ rfl)) h
  | tick =>
      simp only [flushStep] at h
      split at h
      · next hplace =>
          split at h
          · cases h
          · exact beginFlush_deed (stage_of_place hplace) (inIteration_lands h)
      · cases h
  | notice =>
      simp only [flushStep] at h
      split at h
      · next hplace =>
          split at h
          · have hready : ({ s with signal := false } : Sink).pipeline.stage = .ready :=
              stage_of_place hplace
            exact beginFlush_deed (s := { s with signal := false }) hready (inIteration_lands h)
          · cases h
      · cases h
  | quit =>
      simp only [flushStep] at h
      split at h
      · next hplace =>
          split at h
          · exact ended_deed rfl rfl rfl (.inl (stage_of_place hplace)) (inIteration_lands h)
          · cases h
      · cases h
  | alertDone =>
      simp only [flushStep] at h
      split at h
      · next reason deadline hflush =>
          have hspent := stage_of_flushing hflush
          exact ended_deed rfl rfl rfl (.inr ⟨hspent, reason, rfl⟩) (goOn_lands h)
      · cases h

/-! ## Actions of callers -/

variable {call : CallId} {mayDrop : Bool} {content : Option Json.Value} {r : Record}

/-- A call ends, and the sink may be down. -/
theorem answer_deed {a : SinkAnswer} (hes : o.events = [])
    (hdown : s.isDown = true → o.sink.isDown = true)
    (hp : o.sink.pipeline = { s.pipeline with down := o.sink.isDown }) :
    Deed s.pipeline (answer o call a).events (answer o call a).sink.pipeline := by
  have hcalls : o.sink.calls = s.calls := congrArg Pipeline.calls hp
  refine .idle (by rw [answer, hes]; rfl) (by rw [answer, hes]; rfl) hdown ?_ ?_
  · intro c hc
    rw [← show s.calls = s.pipeline.calls from rfl, ← hcalls]
    exact .inl (List.mem_filter.mp hc).1
  · show ({ o.sink.pipeline with calls := _ } : Pipeline) = _
    rw [hp]
    rfl

/-- A call waits, and the sink may be down. -/
theorem await_deed {s' : Sink} {e : SinkErrand} (hdown : s.isDown = true → s'.isDown = true)
    (hp : s'.pipeline = { s.pipeline with down := s'.isDown }) (he : e.Legible) :
    Deed s.pipeline (s'.await call e).events (s'.await call e).sink.pipeline := by
  have hcalls : s'.calls = s.calls := congrArg Pipeline.calls hp
  refine .idle rfl rfl hdown ?_ ?_
  · intro c hc
    rw [← show s.calls = s.pipeline.calls from rfl, ← hcalls]
    rcases List.mem_append.mp hc with hold | hnew
    · exact .inl (List.mem_filter.mp hold).1
    · rw [List.mem_singleton.mp hnew]
      exact .inr he
  · show ({ s'.pipeline with calls := _ } : Pipeline) = _
    rw [hp]
    rfl

theorem refuse_deed {why : OfferRefusal} :
    Deed s.pipeline (s.refuse call mayDrop why).events (s.refuse call mayDrop why).sink.pipeline := by
  simp only [refuse]
  split <;> exact answer_deed rfl id rfl

theorem accept_deed {buffer : Queue Record} (hr : r.content.isSome = true)
    (hitems : buffer.items = s.buffer.items ++ [r]) :
    Deed s.pipeline ({ s with buffer }.accept call r).events
      ({ s with buffer }.accept call r).sink.pipeline := by
  refine .accept r hr rfl rfl (fun c hc => (List.mem_filter.mp hc).1) ?_
  show ({ s.pipeline with items := buffer.items, calls := _ } : Pipeline) = _
  rw [hitems]
  rfl

theorem Aside.pipeline_eq {s' : Sink} (h : Aside s s') : s'.pipeline = s.pipeline := by
  obtain ⟨_, _, _, _, _, _, rfl⟩ := h
  rfl

theorem SinkErrand.legible_of_offer {e : SinkErrand} (he : e.offer? = some (content, mayDrop))
    (hc : content.isSome = true) : e.Legible := by
  cases e with
  | awaitingPermit | awaitingSlot =>
      cases he
      exact hc
  | awaitingStop => cases he

/-- An offer of something that has a text. -/
theorem Reception.deed {b : Bid} {far : Reach} (h : Reception s b far o)
    (hc : b.content.isSome = true) : Deed s.pipeline o.events o.sink.pipeline := by
  cases h with
  | refuse s' hs hup => exact hs.pipeline_eq ▸ refuse_deed
  | accept s' r hs hfar hopen hr => exact hs.pipeline_eq ▸ accept_deed (hr ▸ hc) rfl
  | wait s' e hs hfar he =>
      exact hs.pipeline_eq ▸ await_deed id rfl (SinkErrand.legible_of_offer he hc)

theorem beginShutdown_deed {reason : String} :
    Deed s.pipeline (s.beginShutdown now call reason).events
      (s.beginShutdown now call reason).sink.pipeline := by
  have hdown := pipeline_bringDown reason s
  generalize hs' : (s.bringDown reason).2 = s' at hdown
  have hisDown : s'.isDown = true := congrArg Pipeline.down hdown
  have hstopped : ({ s' with worker := s'.worker.requestStop } : Sink).pipeline =
      { s.pipeline with down := s'.isDown } := by
    rw [hisDown, ← hdown]
    rfl
  simp only [beginShutdown, hs']
  split
  · exact answer_deed rfl (fun _ => hisDown) hstopped
  · exact await_deed (fun _ => hisDown) hstopped trivial

theorem resume_deed (hlegible : ∀ c ∈ s.calls, c.2.Legible)
    (h : s.resume clock now call = some o) : Deed s.pipeline o.events o.sink.pipeline := by
  -- a call that waits may bring a content into the buffer only now
  have hknown : ∀ e, s.calls.lookup call = some e → e.Legible := by
    intro e he
    obtain ⟨l₁, l₂, hl, -⟩ := List.lookup_eq_some_iff.mp he
    have hmem : (call, e) ∈ s.calls := by simp [hl]
    exact hlegible _ hmem
  have hoffer : ∀ content mayDrop e, s.calls.lookup call = some e →
      e.offer? = some (content, mayDrop) → content.isSome = true →
        Deed s.pipeline o.events o.sink.pipeline := by
    intro content mayDrop e hc he hcontent
    have hbid : s.bidOf (.resume call) = some ⟨call, content, mayDrop⟩ := by
      simp [bidOf, hc, he]
    exact (step_reception hbid h).deed hcontent
  cases hc : s.calls.lookup call with
  | none => simp [resume, hc] at h
  | some e =>
      cases e with
      | awaitingPermit content ready wait mayDrop =>
          exact hoffer content mayDrop _ hc rfl (hknown _ hc)
      | awaitingSlot record ticket deadline mayDrop =>
          exact hoffer record.content mayDrop _ hc rfl (hknown _ hc)
      | awaitingStop initiated deadline =>
          simp only [resume, hc] at h
          obtain ⟨stopped, -, rfl⟩ := Option.map_eq_some_iff.mp h
          exact answer_deed rfl id rfl

/-- Whatever a sink does is a deed of its pipeline. -/
theorem step_deed {a : Action} (hlegible : ∀ c ∈ s.calls, c.2.Legible) (ha : s.Orderly a)
    (h : s.step clock now a = some o) : Deed s.pipeline o.events o.sink.pipeline := by
  cases a with
  | offer content permitWait slotWait mayDrop =>
      have hbid : s.bidOf (.offer content permitWait slotWait mayDrop) =
          some ⟨s.nextCall, content, mayDrop⟩ := rfl
      exact (step_reception hbid h).deed ha
  | shutDown reason =>
      cases h
      exact beginShutdown_deed (s := s.named)
  | resume call =>
      exact resume_deed hlegible h
  | flush | enable | disable =>
      cases h
      exact .still rfl rfl rfl
  | worker a =>
      refine flushStep_deed ?_ h
      rintro rfl
      exact ha

end Backpressure.Sink
