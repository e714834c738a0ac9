import Backpressure.Proofs.Sink.Sway

/-!
# How a sink goes down

A sink goes down at most once, and for one cause.  `History.goes_down_once` says what the cause
settles: who is told `true`, whether an alert is raised, and the reason.  And it says what
offers come to in a sink that is down.

Nothing is asked of the surroundings: the writer may fail, hang or panic, and nobody need
ever hear of an alert.
-/

namespace Backpressure

/-- What an event tells a call that offered something. -/
def SinkEvent.reply? : SinkEvent → Option (CallId × Except CallError Bool)
  | .answered call (.offered result) => some (call, result)
  | _ => none

namespace Sink

variable {settings : SinkSettings} {t₀ t : Instant} {h : List Act} {clock : WallClock}
  {now : Instant} {s s' : Sink} {a : Action} {o : SinkOutcome} {call : CallId} {mayDrop : Bool}
  {name reason : String}

/-- What the calls that offered something were told. -/
def replies (es : List SinkEvent) : List (CallId × Except CallError Bool) :=
  es.filterMap SinkEvent.reply?

/-- The acts that brought the sink down. -/
def falls (h : List Act) : List Act :=
  h.filter fun m => !m.found.isDown && m.outcome.sink.isDown

/-! ## Offers in a sink that is down -/

/-- An offer to a sink that is down is refused for that. -/
theorem events_refuse_shutDown :
    (s.refuse call mayDrop .shutDown).events =
      [.answered call (.offered (.error (OfferRefusal.shutDown.error s.settings.name)))] := by
  simp [refuse, OfferRefusal.canDrop, answer]

theorem Offering.down (hdown : s.isDown = true) (h : Offering s call mayDrop o) :
    accepted o.events = [] ∧
      ∀ w ∈ replies o.events, w.2 = .error (OfferRefusal.shutDown.error s.settings.name) := by
  cases h with
  | refuse s' why hs hwhy =>
      obtain rfl := hwhy.mpr hdown
      obtain ⟨_, _, _, _, _, _, rfl⟩ := hs
      rw [events_refuse_shutDown]
      exact ⟨rfl, by simp [replies, SinkEvent.reply?]⟩
  | accept s' r hs hup => exact absurd hdown (by simp [hup])
  | wait s' e hs he => exact ⟨rfl, fun w hw => absurd hw List.not_mem_nil⟩

theorem Stride.accepted_eq_nil {w : FlushAction} (h : Stride clock now s w o) :
    accepted o.events = [] :=
  h.silent (SinkEvent.read_dealing (fun _ => rfl) (fun _ => rfl) rfl) (fun _ _ => rfl) fun _ => rfl

theorem Stride.replies_eq_nil {w : FlushAction} (h : Stride clock now s w o) :
    replies o.events = [] :=
  h.silent (SinkEvent.read_dealing (fun _ => rfl) (fun _ => rfl) rfl) (fun _ _ => rfl) fun _ => rfl

/-- A sink that is down accepts nothing, and refuses for that. -/
theorem Motion.down (hdown : s.isDown = true) (h : Motion clock now s a o) :
    accepted o.events = [] ∧
      ∀ w ∈ replies o.events, w.2 = .error (OfferRefusal.shutDown.error s.settings.name) := by
  cases h with
  | offer content permitWait slotWait mayDrop o ho =>
      exact Offering.down (s := s.named) hdown ho
  | offerOn call e mayDrop o hc he ho => exact ho.down hdown
  | shutDown | shutDownWaits | stopSeen | flush | enable | disable =>
      exact ⟨rfl, fun w hw => absurd hw List.not_mem_nil⟩
  | worker w o ho =>
      exact ⟨ho.accepted_eq_nil, fun w hw => absurd (ho.replies_eq_nil ▸ hw) List.not_mem_nil⟩

/-- An offer that begins at a sink that is down is refused at once. -/
theorem offer_down (hdown : s.isDown = true) (clock : WallClock) (now : Instant)
    (content : Option Json.Value) (permitWait slotWait : Duration) (mayDrop : Bool) :
    (s.step clock now (.offer content permitWait slotWait mayDrop)).map (·.events) =
      some [.answered s.nextCall (.offered (.error
        (OfferRefusal.shutDown.error s.settings.name)))] := by
  have hnamed : s.named.isDown = true := hdown
  simp only [step, beginOffer, hnamed, if_true, Option.map_some, events_refuse_shutDown]
  rfl

/-! ## What stays -/

theorem Motion.settings_eq (h : Motion clock now s a o) : o.sink.settings = s.settings := by
  cases h with
  | offer content permitWait slotWait mayDrop o ho => exact ho.untouched.settings
  | offerOn call e mayDrop o hc he ho => exact ho.untouched.settings
  | shutDown reason | shutDownWaits reason deadline =>
      obtain ⟨_, _, -, heq⟩ := s.dismissed_eq reason
      show (s.dismissed reason).settings = s.settings
      rw [heq]
      rfl
  | stopSeen | flush | enable | disable => rfl
  | worker w o ho => cases ho <;> rfl

/-- A sink that is down keeps its reason. -/
theorem Motion.reason_eq (hdown : s.isDown = true) (h : Motion clock now s a o) :
    o.sink.reason = s.reason := by
  cases h with
  | offer content permitWait slotWait mayDrop o ho => exact ho.untouched.reason
  | offerOn call e mayDrop o hc he ho => exact ho.untouched.reason
  | shutDown reason | shutDownWaits reason deadline =>
      show (s.dismissed reason).reason = s.reason
      rw [dismissed_down hdown]
      rfl
  | stopSeen | flush | enable | disable => rfl
  | worker w o ho =>
      cases ho with
      | strike w b fault es hp hfail hup => exact absurd hdown (by simp [hup])
      | _ => rfl

/-- A reason is kept for good. -/
theorem History.reason_eq (hist : History settings t₀ h t s) :
    ∀ m ∈ h, m.found.isDown = true → s.reason = m.found.reason := by
  intro m hm hdown
  obtain ⟨reason, hr⟩ := Option.isSome_iff_exists.mp hdown
  have hnow := hist.keeps (P := fun s => s.reason = some reason)
    (fun _ hmotion hP => (hmotion.reason_eq (by simp [isDown, hP])).trans hP) m hm hr
  exact hnow.trans hr.symm

theorem History.settings_eq (hist : History settings t₀ h t s) : s.settings = settings := by
  induction hist with
  | here => rfl
  | act hist hs ih => exact (step_motion hist.steady hs).settings_eq.trans ih
  | pass hist hle ih => exact ih

/-! ## The cause -/

/-- The cause for which a sink with a name is down, and what it settles. -/
inductive Cause (name : String) (h : List Act) (s : Sink) (reason : String) : Prop where
  /-- A call brought the sink down.  It alone is told so, or will be, and no alert was raised. -/
  | call (m : Act) (hfall : falls h = [m]) (ha : m.action = .shutDown reason)
      (hcalls : initiators (seen h) ++ s.owed = [m.found.nextCall])
      (halarms : alarms (seen h) = [])
  /-- A flush that failed brought the sink down.  No call is told that it did, and one alert was
  raised, with the reason. -/
  | flush (m : Act) (b : Batch) (fault : FlushFault) (hfall : falls h = [m])
      (hfail : m.found.failureBy m.action = some (b, fault)) (hreason : reason = fault.message)
      (hcalls : initiators (seen h) ++ s.owed = [])
      (halarms : alarms (seen h) = [alert name reason])

/-- What is settled about the cause. -/
structure Verdict (name : String) (h : List Act) (s : Sink) : Prop where
  up : s.isDown = false → falls h = [] ∧ initiators (seen h) = [] ∧ s.owed = [] ∧
    alarms (seen h) = []
  down : ∀ reason, s.reason = some reason → Cause name h s reason

theorem Verdict.length_owed (hv : Verdict name h s) : s.owed.length ≤ 1 := by
  cases hr : s.reason with
  | none =>
      have hup : s.isDown = false := by simp [isDown, hr]
      simp [(hv.up hup).2.2.1]
  | some reason =>
      have hsum : (initiators (seen h) ++ s.owed).length ≤ 1 := by
        cases hv.down reason hr with
        | call m hfall ha hcalls halarms => simp [hcalls]
        | flush m b fault hfall hfail hreason hcalls halarms => simp [hcalls]
      rw [List.length_append] at hsum
      omega

/-- A fall is an action that finds a sink up and leaves it down. -/
theorem falls_append_singleton (m : Act) :
    falls (h ++ [m]) =
      falls h ++ if !m.found.isDown && m.outcome.sink.isDown then [m] else [] := by
  simp [falls, List.filter_append, List.filter_singleton]

theorem isDown_of_reason (hr : s.reason = some reason) : s.isDown = true := by
  simp [isDown, hr]

/-- An action that settles nothing. -/
theorem Verdict.keep (hv : Verdict name h s) (hreason : o.sink.reason = s.reason)
    (hcalls : initiators o.events ++ o.sink.owed = s.owed) (halarms : alarms o.events = [])
    (t : Instant) : Verdict name (h ++ [⟨⟨s, o⟩, t, a⟩]) o.sink := by
  have hfalls : falls (h ++ [⟨⟨s, o⟩, t, a⟩]) = falls h := by
    rw [falls_append_singleton]
    simp [isDown, hreason]
  have htold : initiators (seen (h ++ [⟨⟨s, o⟩, t, a⟩])) ++ o.sink.owed =
      initiators (seen h) ++ s.owed := by
    rw [seen_append_singleton, initiators_append, List.append_assoc, hcalls]
  have hraised : alarms (seen (h ++ [⟨⟨s, o⟩, t, a⟩])) = alarms (seen h) := by
    rw [seen_append_singleton, alarms_append, halarms, List.append_nil]
  constructor
  · intro hup
    have hbefore : s.isDown = false := by rwa [isDown, hreason] at hup
    obtain ⟨hnofall, htold', howed, hnoalarm⟩ := hv.up hbefore
    rw [htold', howed, List.append_nil, List.append_eq_nil_iff] at htold
    exact ⟨hfalls.trans hnofall, htold.1, htold.2, hraised.trans hnoalarm⟩
  · intro reason hr
    cases hv.down reason (hreason ▸ hr) with
    | call m hfall ha hcalls' halarms' =>
        exact .call m (hfalls.trans hfall) ha (htold.trans hcalls') (hraised.trans halarms')
    | flush m b fault hfall hfail hreason' hcalls' halarms' =>
        exact .flush m b fault (hfalls.trans hfall) hfail hreason' (htold.trans hcalls')
          (hraised.trans halarms')

/-- The cause of a shutdown is settled by the act that brings the sink down. -/
theorem Verdict.sway (hv : Verdict s.settings.name h s) (hsway : Sway s a o) (t : Instant) :
    Verdict s.settings.name (h ++ [⟨⟨s, o⟩, t, a⟩]) o.sink := by
  cases hsway with
  | keep hreason hcalls halarms => exact hv.keep hreason hcalls halarms t
  | order reason ha hup hreason hcalls halarms =>
      obtain ⟨hnofall, htold, -, hnoalarm⟩ := hv.up hup
      have hdown := isDown_of_reason hreason
      refine ⟨fun hup' => absurd (hdown.symm.trans hup') (by simp), fun r hr => ?_⟩
      obtain rfl := Option.some.inj (hreason.symm.trans hr)
      refine .call ⟨⟨s, o⟩, t, a⟩ ?_ ha ?_ ?_
      · simp [falls_append_singleton, hnofall, hup, hdown]
      · rw [seen_append_singleton, initiators_append, htold]
        exact hcalls
      · rw [seen_append_singleton, alarms_append, hnoalarm, halarms]
        rfl
  | strike b fault hfail hup hreason hcalls halarms =>
      obtain ⟨hnofall, htold, howed, hnoalarm⟩ := hv.up hup
      have hdown := isDown_of_reason hreason
      refine ⟨fun hup' => absurd (hdown.symm.trans hup') (by simp), fun r hr => ?_⟩
      have hr' := Option.some.inj (hr.symm.trans hreason)
      refine .flush ⟨⟨s, o⟩, t, a⟩ b fault ?_ hfail hr' ?_ ?_
      · simp [falls_append_singleton, hnofall, hup, hdown]
      · rw [seen_append_singleton, initiators_append, htold]
        exact hcalls.trans howed
      · rw [seen_append_singleton, alarms_append, hnoalarm, halarms, hr']
        rfl

/-- Along every history the falls, the alerts, the answers and the reason agree. -/
theorem History.verdict (hist : History settings t₀ h t s) : Verdict settings.name h s := by
  induction hist with
  | here => exact ⟨fun _ => ⟨rfl, rfl, rfl, rfl⟩, fun reason hr => by cases hr⟩
  | pass hist hle ih => exact ih
  | act hist hs ih =>
      rw [← hist.settings_eq] at ih ⊢
      have hsway := (step_motion hist.steady hs).sway hist.registered
        (fun hup => (ih.up hup).2.2.1) ih.length_owed
      exact ih.sway hsway _

/-! ## A whole history -/

/-- A sink goes down at most once, for one cause, and for good. -/
structure OneDownfall (name : String) (h : List Act) (s : Sink) : Prop where
  /-- As long as it is not down, nobody is told so and no alert is raised. -/
  up : s.isDown = false → falls h = [] ∧ initiators (seen h) = [] ∧ s.owed = [] ∧
    alarms (seen h) = []
  /-- When it is down there is one cause. -/
  cause : ∀ reason, s.reason = some reason → Cause name h s reason
  /-- Once it is down it stays so, whatever is switched on or off, with the reason it had. -/
  final : ∀ m ∈ h, m.found.isDown = true → s.reason = m.found.reason ∧ s.phase = .shutDown
  /-- At most one flush fails. -/
  failed : s.failedFlushes ≤ 1
  /-- Once it is down no record is accepted, and every offer that ends is refused for that. -/
  refused : ∀ m ∈ h, m.found.isDown = true → accepted m.outcome.events = [] ∧
    ∀ w ∈ replies m.outcome.events,
      w.2 = .error (.unavailable ("telemetry sink " ++ name ++ " is shut down"))
  /-- An offer that begins then is refused at once, whether or not it may be dropped. -/
  offers : s.isDown = true → ∀ clock now content permitWait slotWait mayDrop,
    (s.step clock now (.offer content permitWait slotWait mayDrop)).map (·.events) =
      some [.answered s.nextCall (.offered (.error
        (.unavailable ("telemetry sink " ++ name ++ " is shut down"))))]
  /-- A shutdown that waits ends with what was settled when it began, and it can end as soon as
  its deadline is there. -/
  shutdowns : ∀ call initiated deadline,
    s.calls.lookup call = some (.awaitingStop initiated deadline) → ∀ clock now,
      (s.step clock now (.resume call)).map (·.events) =
        if s.worker.phase = .stopped ∨ deadline ≤ now then
          some [.answered call (.shutDown initiated)]
        else none

/-- A shutdown that waits ends when the worker has stopped or its deadline is there. -/
theorem resume_awaitingStop {initiated : Bool} {deadline : Instant}
    (hc : s.calls.lookup call = some (.awaitingStop initiated deadline)) :
    (s.step clock now (.resume call)).map (·.events) =
      if s.worker.phase = .stopped ∨ deadline ≤ now then some [.answered call (.shutDown initiated)]
      else none := by
  simp only [step, resume, hc, Worker.stopWait]
  by_cases hstop : s.worker.phase = .stopped
  · simp [hstop, answer]
  · by_cases hdue : deadline ≤ now <;> simp [hstop, hdue, answer]

/-- Along every history a sink goes down at most once, for one cause, and for good. -/
theorem History.goes_down_once (hist : History settings t₀ h t s) : OneDownfall settings.name h s where
  up := hist.verdict.up
  cause := hist.verdict.down
  final m hm hdown := by
    have hreason := hist.reason_eq m hm hdown
    have hnow : s.isDown = true := by rwa [isDown, hreason]
    exact ⟨hreason, by simp [phase, hnow]⟩
  failed := hist.steady.failedFlushes_le
  refused := hist.each fun hist' hs hdown => by
    have hnow := (step_motion hist'.steady hs).down hdown
    rwa [hist'.settings_eq] at hnow
  offers hdown clock now content permitWait slotWait mayDrop := by
    have hrefused := offer_down hdown clock now content permitWait slotWait mayDrop
    rwa [hist.settings_eq] at hrefused
  shutdowns _ _ _ hc _ _ := resume_awaitingStop hc

/-- A batch fails while one more record is in the buffer and a third waits for a place.  Only
then a caller shuts the sink down. -/
def outrun : List (Instant × Action) :=
  [(0, .offer (some (.text "a")) 0 0 false), (0, .flush), (0, .worker .turn), (0, .worker .notice),
    (1, .offer (some (.text "b")) 0 0 false), (1, .offer (some (.text "c")) 0 9 true),
    (2, .worker (.reply (.failed .closed))), (2, .shutDown "deploy"), (2, .resume 2),
    (3, .enable), (3, .offer (some (.text "d")) 0 0 true), (4, .worker .alertDone),
    (4, .worker .leave), (5, .worker (.reply .done)), (5, .resume 3)]

theorem goes_down_once_of_outrun : ∃ h t s,
    enact (note ⟨0⟩) 0 (ofSettings { capacity := 1 } 0) outrun = some (h, t, s) ∧
      OneDownfall "telemetry" h s ∧
      s.reason = some "write failed after 0 of 1 items: writer is closed" ∧
      initiators (seen h) = [] ∧ (alarms (seen h)).length = 1 ∧
      (replies (seen h)).map (·.2.isOk) = [true, true, false, false] := by
  have hplay : (enact (note ⟨0⟩) 0 (ofSettings { capacity := 1 } 0) outrun).map (fun w =>
      (w.2.2.reason, initiators (seen w.1), (alarms (seen w.1)).length,
        (replies (seen w.1)).map (·.2.isOk))) =
      some (some "write failed after 0 of 1 items: writer is closed", [], 1,
        [true, true, false, false]) := by
    decide +kernel
  obtain ⟨⟨h, t, s⟩, hp, hread⟩ := Option.map_eq_some_iff.mp hplay
  simp only [Prod.mk.injEq] at hread
  have hist : History { capacity := 1 } 0 ([] ++ h) t s := History.here.enact hp
  exact ⟨h, t, s, hp, hist.goes_down_once, hread⟩

end Sink

end Backpressure
