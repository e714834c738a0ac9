import Backpressure.Proofs.Sink.Offers

/-!
# No flush is forgotten

Somebody who asks for a flush leaves a signal, and the flush worker notices it when it next
waits.  `History.flush_heard` says what that comes to: where the worker waits and nothing can happen
by itself, all that was accepted before any flush was asked for has left the buffer.

*The signal.*  It may be raised while a batch is at the writer, and more than once.  The end of an
interval may come first, and then it stays raised.  It is put out only by the worker that notices
it, and what is in the buffer leaves with that; so as long as it is not raised, what is in the
buffer was accepted since (`History.signal_or_since`).
-/

namespace Backpressure

open Telemetry (Record)

namespace Sink

variable {settings : SinkSettings} {t₀ t : Instant} {h past later : List Act} {m : Act}
  {clock : WallClock} {now ends : Instant} {s : Sink} {a : Action} {o : SinkOutcome}

/-! ## Settled states -/

/-- Whether an action of the flush worker is its own, not the end of something it waits for. -/
def FlushAction.IsOwn : FlushAction → Prop
  | .reply _ | .alertDone => False
  | .turn | .tick | .notice | .quit | .runOut | .leave => True

/-- Whether an action happens by itself, without a new call and without the writer or the
alerter. -/
def Action.IsOwn : Action → Prop
  | .worker w => w.IsOwn
  | .resume _ => True
  | .offer _ _ _ _ | .shutDown _ | .flush | .enable | .disable => False

/-- Nothing can happen by itself before time passes. -/
def IsSettled (now : Instant) (s : Sink) : Prop :=
  ∀ clock (a : Action), a.IsOwn → s.step clock now a = none

theorem notice_isSome (clock : WallClock) (now : Instant)
    (hp : s.worker.place = .inside (.waiting ends)) (hsignal : s.signal = true) :
    (s.step clock now (.worker .notice)).isSome = true := by
  simp only [step, flushStep, hp, hsignal, if_true, beginFlush]
  split
  · rw [inIteration_ended hp]
    rfl
  · rw [inIteration_underway hp]
    rfl

/-- A worker that waits in a settled sink has noticed every signal. -/
theorem IsSettled.signal_eq_false (hs : s.IsSettled now)
    (hp : s.worker.place = .inside (.waiting ends)) : s.signal = false := by
  cases hsignal : s.signal with
  | false => rfl
  | true =>
      have hsome := notice_isSome ⟨0⟩ now hp hsignal
      rw [hs ⟨0⟩ (.worker .notice) trivial] at hsome
      cases hsome

/-- A worker that waits rests until the interval ends, unless somebody asked for a flush or told
it to stop. -/
theorem isSettled_of_waiting (hp : s.worker.place = .inside (.waiting ends)) (hnow : now < ends)
    (hsignal : s.signal = false) (hstop : s.worker.stop = false) (hcalls : s.calls = []) :
    s.IsSettled now := by
  intro clock a ha
  cases a with
  | worker w =>
      cases w with
      | reply | alertDone => exact ha.elim
      | turn => simp [step, flushStep, put, Worker.turn, hp]
      | tick => simp [step, flushStep, hp, hnow]
      | notice => simp [step, flushStep, hp, hsignal]
      | quit => simp [step, flushStep, hp, hstop]
      | runOut | leave => simp [step, flushStep, flushing?, hp]
  | resume call => simp [step, resume, hcalls]
  | offer | shutDown | flush | enable | disable => exact ha.elim

/-! ## The signal -/

theorem Stride.signal {w : FlushAction} (hs : Steady s) (h : Stride clock now s w o) :
    o.sink.signal = s.signal ∨ o.sink.buffer.items = [] := by
  have hdrained := hs.unpolled.drain.2.1
  cases h with
  | idle | begin => exact .inr hdrained
  | _ => exact .inl rfl

/-- The signal stays raised until the buffer is empty. -/
theorem Motion.signal (hs : Steady s) (h : Motion clock now s a o) (hsignal : s.signal = true) :
    o.sink.signal = true ∨ o.sink.buffer.items = [] := by
  cases h with
  | offer content permitWait slotWait mayDrop o ho => exact .inl (ho.untouched.signal.trans hsignal)
  | offerOn call e mayDrop o hc he ho => exact .inl (ho.untouched.signal.trans hsignal)
  | shutDown reason | shutDownWaits reason deadline =>
      obtain ⟨_, _, -, heq⟩ := s.dismissed_eq reason
      rw [heq]
      exact .inl hsignal
  | stopSeen | enable | disable => exact .inl hsignal
  | flush => exact .inl rfl
  | worker w o ho => exact (ho.signal hs).imp (·.trans hsignal) id

/-! ## Since an act -/

/-- What holds after an act of a history and is kept by every act that can come next holds at the
end. -/
theorem History.onward {P : List Act → Sink → Prop} (hist : History settings t₀ h t s)
    (hh : h = past ++ m :: later) (first : P [] m.outcome.sink)
    (keep : ∀ {h later t s a clock o}, History settings t₀ h t s → s.step clock t a = some o →
      P later s → P (later ++ [⟨⟨s, o⟩, t, a⟩]) o.sink) : P later s := by
  -- the last act of the history is the one in question, or one of the later ones
  induction hist generalizing later with
  | here => simp at hh
  | pass _ _ ih => exact ih hh
  | act hist hs ih =>
      rcases List.eq_nil_or_concat later with rfl | ⟨before, last, rfl⟩
      · obtain ⟨-, hm⟩ := List.append_inj' hh rfl
        cases hm
        exact first
      · rw [List.concat_eq_append, ← List.cons_append, ← List.append_assoc] at hh
        obtain ⟨hbefore, hlast⟩ := List.append_inj' hh rfl
        cases hlast
        rw [List.concat_eq_append]
        exact keep hist hs (ih hbefore)

/-- Who asks for a flush raises the signal, and that is all. -/
theorem History.outcome_of_flush (hist : History settings t₀ h t s) :
    ∀ m ∈ h, m.action = .flush → m.outcome = { sink := { m.found with signal := true } } := by
  refine hist.each fun hist' hs ha => ?_
  obtain rfl := ha
  exact (Option.some.inj hs).symm

/-- Since a flush was asked for the signal is raised, or all that was in the buffer then has
left. -/
theorem History.signal_or_since (hist : History settings t₀ (past ++ m :: later) t s)
    (hm : m.action = .flush) : s.signal = true ∨ s.buffer.items <:+ accepted (seen later) := by
  refine hist.onward (P := fun later s => s.signal = true ∨ s.buffer.items <:+ accepted (seen later))
    rfl ?first ?keep
  case first =>
    rw [hist.outcome_of_flush m (by simp) hm]
    exact .inl rfl
  case keep =>
    intro h later t s a clock o hist hs hbefore
    have hentry := step_entry hist.steady hist.registered hs
    rcases hbefore with hsignal | hsince
    · refine ((step_motion hist.steady hs).signal hist.steady hsignal).imp_right fun hitems => ?_
      rw [hitems]
      exact List.nil_suffix
    · exact .inr (hentry.suffix hsince)

/-- A flush that was asked for has been made. -/
structure Heard (past later h : List Act) (s : Sink) : Prop where
  /-- What is in the buffer was accepted since. -/
  since : s.buffer.items <:+ accepted (seen later)
  /-- What was accepted before has left the buffer. -/
  left : ∃ gone, accepted (seen h) = gone ++ s.buffer.items ∧ accepted (seen past) <+: gone
  /-- It was written, unless the writer panicked over it. -/
  written : (∀ n ∈ h, n.Calm) → accepted (seen past) <+: delivered h

/-- A flush that was asked for is never forgotten. -/
theorem History.flush_heard (hist : History settings t₀ (past ++ m :: later) t s)
    (hm : m.action = .flush) (hs : s.IsSettled t) (hp : s.worker.place = .inside (.waiting ends)) :
    Heard past later (past ++ m :: later) s := by
  have hsince : s.buffer.items <:+ accepted (seen later) :=
    (hist.signal_or_since hm).resolve_left (by simp [hs.signal_eq_false hp])
  have hquiet : m.outcome.events = [] := by rw [hist.outcome_of_flush m (by simp) hm]
  obtain ⟨more, hmore⟩ := hsince
  have hall : accepted (seen (past ++ m :: later)) =
      accepted (seen past) ++ more ++ s.buffer.items := by
    have hseen : seen (past ++ m :: later) = seen past ++ seen later := by simp [seen, hquiet]
    rw [hseen, accepted_append, ← hmore, List.append_assoc]
  refine ⟨⟨more, hmore⟩, ⟨_, hall, List.prefix_append _ _⟩, fun hcalm => ?_⟩
  -- where the worker waits no flush has failed, no batch is under way and nothing was thrown away
  have hb := hist.books hcalm
  have hfailed : s.failedFlushes = 0 := by
    have hplace := hist.steady.place
    rwa [hp] at hplace
  have hkept : discarded (seen (past ++ m :: later)) = [] := hb.kept (by simp [isCleared, hp])
  have hidle : s.underway = [] := by simp [underway, flushing?, hp]
  have hplaces : accepted (seen past) ++ more ++ s.buffer.items =
      delivered (past ++ m :: later) ++ s.buffer.items := by
    rw [← hall, hb.places, hb.lost_eq_nil hfailed, hidle, hkept]
    simp
  exact ⟨more, List.append_cancel_right hplaces⟩

/-- When the wait of the flush worker ends, if it waits. -/
def waitsUntil? (s : Sink) : Option Instant :=
  match s.worker.place with
  | .inside (.waiting ends) => some ends
  | _ => none

theorem place_of_waitsUntil (h : s.waitsUntil? = some ends) :
    s.worker.place = .inside (.waiting ends) := by
  simp only [waitsUntil?] at h
  split at h
  · next hp =>
      cases h
      exact hp
  · cases h

def Action.isFlush : Action → Bool
  | .flush => true
  | _ => false

theorem Action.eq_flush (ha : a.isFlush = true) : a = .flush := by
  cases a with
  | flush => rfl
  | offer | shutDown | resume | enable | disable | worker => cases ha

/-- Flushes are asked for while the worker waits, and twice in a row while it writes a batch.  The
record that comes after that stays in the buffer. -/
def hurried : List (Instant × Action) :=
  [(0, .worker .turn), (0, .offer (some (.text "a")) 0 0 false), (0, .flush), (0, .worker .notice),
    (1, .offer (some (.text "b")) 0 0 false), (1, .flush),
    (2, .offer (some (.text "c")) 0 0 false), (2, .flush), (3, .worker (.reply .done)),
    (3, .worker (.reply .done)), (3, .worker .turn), (3, .worker .notice),
    (4, .worker (.reply .done)), (4, .worker (.reply .done)), (4, .worker (.reply .done)),
    (4, .worker .turn), (5, .offer (some (.text "d")) 0 0 false)]

theorem flush_heard_of_hurried : ∃ past m later t s ends,
    enact (note ⟨0⟩) 0 (ofSettings {} 0) hurried = some (past ++ m :: later, t, s) ∧
      m.action = .flush ∧ m.found.offered = 3 ∧ s.IsSettled t ∧
      s.worker.place = .inside (.waiting ends) ∧ Heard past later (past ++ m :: later) s ∧
      s.written = 3 ∧ s.buffered = 1 := by
  let told (m : Act) := (m.action.isFlush, m.found.offered)
  have hplay : (enact (note ⟨0⟩) 0 (ofSettings {} 0) hurried).map (fun w =>
      (w.1.map told, w.2.1, w.2.2.waitsUntil?,
        w.2.2.signal || w.2.2.worker.stop || !w.2.2.calls.isEmpty, w.2.2.written, w.2.2.buffered)) =
      some ([(false, 0), (false, 0), (true, 1), (false, 1), (false, 1), (true, 2), (false, 2)] ++
        (true, 3) :: [(false, 3), (false, 3), (false, 3), (false, 3), (false, 3), (false, 3),
          (false, 3), (false, 3), (false, 3)], 5, some 1001000000, false, 3, 1) := by
    decide +kernel
  obtain ⟨⟨h, t, s⟩, hp, hread⟩ := Option.map_eq_some_iff.mp hplay
  simp only [Prod.mk.injEq, Bool.or_eq_false_iff, Bool.not_eq_false', List.isEmpty_iff] at hread
  obtain ⟨hread, rfl, hwaits, ⟨⟨hsignal, hstop⟩, hcalls⟩, hwritten, hbuffered⟩ := hread
  obtain ⟨past, rest, rfl, -, hread⟩ := List.map_eq_append_iff.mp hread
  obtain ⟨m, later, rfl, hm, -⟩ := List.map_eq_cons_iff.mp hread
  simp only [told, Prod.mk.injEq] at hm
  have hflush := Action.eq_flush hm.1
  have hplace := place_of_waitsUntil hwaits
  have hsettled : s.IsSettled 5 := isSettled_of_waiting hplace (by decide) hsignal hstop hcalls
  have hist : History {} 0 (past ++ m :: later) 5 s := History.here.enact hp
  exact ⟨past, m, later, 5, s, _, hp, hflush, hm.2, hsettled, hplace,
    hist.flush_heard hflush hsettled hplace, hwritten, hbuffered⟩

end Sink

end Backpressure
