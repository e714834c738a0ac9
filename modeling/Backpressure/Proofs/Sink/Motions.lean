import Backpressure.Proofs.Sink.Strides

/-!
# Every step of a sink

`step_motion` adds what callers can do to what the flush worker can do, and `History.steady`
says that a sink is steady along every history.

*Offers.*  Wherever an offer goes on, it is refused, accepted, or made to wait, and changes
nothing else but the stock of permits and places.  It is refused with the sink being down
just when the sink is down, and accepted only while it is not.

*Shutdown.*  A call brings the sink down, or finds it down, before it waits.  So whether
it did is settled when it begins.
-/

namespace Backpressure

open Telemetry (Record)

/-- The call is an offer. -/
def SinkErrand.isOffer : SinkErrand → Bool
  | .awaitingPermit _ _ _ _ | .awaitingSlot _ _ _ _ => true
  | .awaitingStop _ _ => false

namespace Sink

variable {settings : SinkSettings} {t₀ t : Instant} {h : List Act} {clock : WallClock}
  {now : Instant} {s s' s'' : Sink} {o : SinkOutcome} {call : CallId} {mayDrop : Bool}
  {content : Option Json.Value} {r : Record}

/-! ## Offers -/

/-- What an offer can come to. -/
inductive Offering (s : Sink) (call : CallId) (mayDrop : Bool) : SinkOutcome → Prop where
  | refuse (s' : Sink) (why : OfferRefusal) (hs : Aside s s')
      (hwhy : why = .shutDown ↔ s.isDown = true) :
      Offering s call mayDrop (s'.refuse call mayDrop why)
  | accept (s' : Sink) (r : Record) (hs : Aside s s') (hup : s.isDown = false) :
      Offering s call mayDrop ({ s' with buffer := s'.buffer.push r }.accept call r)
  | wait (s' : Sink) (e : SinkErrand) (hs : Aside s s') (he : e.isOffer = true) :
      Offering s call mayDrop (s'.await call e)

/-- At the door and at the buffer an offer is refused as shut down just when the sink is down. -/
theorem refusal_eq_shutDown {far : Reach} (hseal : s.buffer.isSealed = s.isDown)
    (hup : far = .limiter → s.isDown = false) : s.refusal far = .shutDown ↔ s.isDown = true := by
  cases far with
  | door | buffer => cases hd : s.isDown <;> simp [refusal, hseal, hd]
  | limiter => simp [refusal, hup rfl]

theorem SinkErrand.isOffer_of_offer {e : SinkErrand} {b : Bid}
    (he : e.offer? = some (b.content, b.mayDrop)) : e.isOffer = true := by
  cases e with
  | awaitingPermit | awaitingSlot => rfl
  | awaitingStop => cases he

/-- What becomes of an offer, with the reason told by the sink being down. -/
theorem Reception.offering {b : Bid} {far : Reach} (h : Reception s b far o)
    (hseal : s.buffer.isSealed = s.isDown) : Offering s b.call b.mayDrop o := by
  cases h with
  | refuse s' hs hup => exact .refuse s' _ hs (refusal_eq_shutDown hseal hup)
  | accept s' r hs hfar hopen hr => exact .accept s' r hs (hseal ▸ hopen)
  | wait s' e hs hfar he => exact .wait s' e hs (SinkErrand.isOffer_of_offer he)

/-! ## All actions -/

/-- What an action can come to. -/
inductive Motion (clock : WallClock) (now : Instant) (s : Sink) : Action → SinkOutcome → Prop where
  /-- An offer begins. -/
  | offer (content : Option Json.Value) (permitWait slotWait : Duration) (mayDrop : Bool)
      (o : SinkOutcome) (ho : Offering s.named s.nextCall mayDrop o) :
      Motion clock now s (.offer content permitWait slotWait mayDrop) o
  /-- An offer that waits goes on. -/
  | offerOn (call : CallId) (e : SinkErrand) (mayDrop : Bool) (o : SinkOutcome)
      (hc : s.calls.lookup call = some e) (he : e.isOffer = true)
      (ho : Offering s call mayDrop o) : Motion clock now s (.resume call) o
  /-- A shutdown finds the worker at its end, or has no time to wait for it. -/
  | shutDown (reason : String) :
      Motion clock now s (.shutDown reason)
        (answer { sink := s.dismissed reason } s.nextCall (.shutDown !s.isDown))
  /-- A shutdown waits for the worker. -/
  | shutDownWaits (reason : String) (deadline : Instant) :
      Motion clock now s (.shutDown reason)
        ((s.dismissed reason).await s.nextCall (.awaitingStop (!s.isDown) deadline))
  /-- A shutdown that waits ends. -/
  | stopSeen (call : CallId) (initiated : Bool) (deadline : Instant)
      (hc : s.calls.lookup call = some (.awaitingStop initiated deadline)) :
      Motion clock now s (.resume call) (answer { sink := s } call (.shutDown initiated))
  | flush : Motion clock now s .flush { sink := { s with signal := true } }
  | enable : Motion clock now s .enable { sink := { s with switch := s.switch.enable } }
  | disable : Motion clock now s .disable { sink := { s with switch := s.switch.disable } }
  /-- The flush worker acts. -/
  | worker (a : FlushAction) (o : SinkOutcome) (ho : Stride clock now s a o) :
      Motion clock now s (.worker a) o

/-- A call that goes on is an offer or a shutdown. -/
theorem resume_motion (hs : Steady s) (h : s.resume clock now call = some o) :
    Motion clock now s (.resume call) o := by
  simp only [resume] at h
  split at h
  · cases h
  · next hc =>
      split at h
      · cases h
      · cases h
        exact .offerOn call _ _ _ hc rfl
          (enterBuffer_reception (b := ⟨call, _, _⟩) |>.offering hs.sealing)
  · next record ticket deadline mayDrop hc =>
      have hoffer := resumeOffer_reception (b := ⟨call, record.content, mayDrop⟩) rfl h
      exact .offerOn call _ mayDrop o hc rfl (hoffer.offering hs.sealing)
  · next initiated deadline hc =>
      obtain ⟨_, -, rfl⟩ := Option.map_eq_some_iff.mp h
      exact .stopSeen call initiated deadline hc

theorem worker_bringDown (reason : String) : (s.bringDown reason).2.worker = s.worker := by
  simp only [bringDown]
  split <;> rfl

theorem fst_bringDown (reason : String) : (s.bringDown reason).1 = !s.isDown := by
  simp only [bringDown]
  cases s.isDown <;> rfl

/-- A shutdown brings the sink down if it was not, tells the worker to stop, and waits for it or
not. -/
theorem beginShutdown_motion (reason : String) :
    Motion clock now s (.shutDown reason) (s.named.beginShutdown now s.nextCall reason) := by
  have hfirst : (s.named.bringDown reason).1 = !s.isDown := fst_bringDown reason
  have hsame : ({ (s.named.bringDown reason).2 with
      worker := (s.named.bringDown reason).2.worker.requestStop } : Sink) = s.dismissed reason := by
    rw [worker_bringDown]
    rfl
  simp only [beginShutdown, hfirst, hsame]
  split
  · exact .shutDown reason
  · exact .shutDownWaits reason _

/-- Whatever a sink does is one of its motions. -/
theorem step_motion {a : Action} (hs : Steady s) (h : s.step clock now a = some o) :
    Motion clock now s a o := by
  cases a with
  | offer content permitWait slotWait mayDrop =>
      cases h
      have hoffer : Reception s.named ⟨s.nextCall, content, mayDrop⟩ _
          (s.named.beginOffer clock now s.nextCall content permitWait slotWait mayDrop) :=
        beginOffer_reception
      exact .offer content permitWait slotWait mayDrop _ (hoffer.offering hs.sealing)
  | shutDown reason =>
      cases h
      exact beginShutdown_motion reason
  | resume call => exact resume_motion hs h
  | flush =>
      cases h
      exact .flush
  | enable =>
      cases h
      exact .enable
  | disable =>
      cases h
      exact .disable
  | worker a => exact .worker a o (flushStep_stride hs h)

/-! ## Steadiness -/

section Even

variable {reason : String}

theorem Even.goTo (hs : Even s) (place : Place FlushPoint ClosingPoint) : Even (s.goTo place) :=
  { hs with }

theorem Even.failed (hs : Even s) : Even s.failed :=
  { hs with }

/-- A drain takes all records with all their permits, since nobody polls a buffer. -/
theorem Even.drain (hs : Even s) : Even s.drained := by
  obtain ⟨-, -, hseal, hfree⟩ := hs.unpolled.drain
  exact { hs with sealing := hseal.trans hs.sealing, unpolled := hfree }

/-- A strike brings the sink down and seals the buffer together. -/
theorem Even.struck (hs : Even s) : Even (s.struck clock now reason) where
  sealing := rfl
  told _ := rfl
  unpolled := ⟨hs.unpolled.waiting, hs.unpolled.stock⟩
  armed h := by cases h
  started := hs.started

/-- A sink is emptied only once it is down. -/
theorem Even.emptied {why : ExitReason} (hs : Even s) (hdown : s.isDown = true) :
    Even (s.emptied now why) where
  sealing := hdown.symm
  told := hs.told
  unpolled := ⟨rfl, by intro h; cases h⟩
  armed := hs.armed
  started := hs.started

theorem Even.stopped {why : ExitReason} (hs : Even s) : Even (s.stopped why) :=
  { hs with started := by intro h; cases h }

theorem Even.bringDown (hs : Even s) : Even (s.bringDown reason).2 := by
  simp only [Sink.bringDown]
  split
  · exact hs
  · exact { hs with
      sealing := rfl
      told := fun _ => rfl
      unpolled := ⟨hs.unpolled.waiting, hs.unpolled.stock⟩
      armed := fun h => by cases h }

theorem isDown_bringDown : (s.bringDown reason).2.isDown = true := by
  simp only [bringDown]
  split
  · next hdown => exact hdown
  · rfl

theorem dismissed_down (hdown : s.isDown = true) :
    s.dismissed reason = { s.named with worker := s.worker.requestStop } := by
  have hdown' : s.named.isDown = true := hdown
  simp only [dismissed, bringDown, hdown', if_true]

theorem dismissed_up (hup : s.isDown = false) :
    s.dismissed reason = { s.named with
      reason := some reason, buffer := s.buffer.sealUp, worker := s.worker.requestStop } := by
  have hup' : s.named.isDown = false := hup
  simp only [dismissed, bringDown, hup', Bool.false_eq_true, if_false]
  rfl

/-- A dismissal changes no records. -/
theorem dismissed_eq (reason : String) : ∃ (why : Option String) (buffer : Queue Record),
    buffer.items = s.buffer.items ∧ s.dismissed reason =
      { s.named with reason := why, buffer, worker := s.worker.requestStop } := by
  cases hd : s.isDown with
  | true => exact ⟨_, _, rfl, dismissed_down hd⟩
  | false => exact ⟨_, s.buffer.sealUp, rfl, dismissed_up hd⟩

theorem isDown_dismissed : (s.dismissed reason).isDown = true :=
  isDown_bringDown (s := s.named)

/-- A dismissal brings the sink down and seals the buffer together. -/
theorem Even.dismissed (hs : Even s) : Even (s.dismissed reason) := by
  have hdown : Even (s.named.bringDown reason).2 := Even.bringDown { hs with }
  refine { hdown with told := fun _ => isDown_dismissed, started := ?_ }
  have hstarted := hs.started
  simp only [Sink.dismissed, Worker.requestStop]
  cases hphase : s.worker.phase with
  | created => exact absurd hphase hstarted
  | running | stopRequested | stopped => simp

theorem Aside.even (h : Aside s s') (hs : Even s) : Even s' := by
  obtain ⟨_, _, _, _, _, hc, rfl⟩ := h
  exact { hs with
    sealing := hc.trans hs.sealing
    unpolled := ⟨hs.unpolled.waiting, hs.unpolled.stock⟩ }

theorem Even.push (hs : Even s) (r : Record) : Even { s with buffer := s.buffer.push r } :=
  { hs with unpolled := hs.unpolled.push r }

end Even

/-- A place fits a sink that goes down and, once it is down, takes nothing in. -/
theorem Fits.mono {p : Place FlushPoint ClosingPoint} (hs : s.Fits p)
    (hdown : s.isDown = true → s'.isDown = true) (hfailed : s'.failedFlushes = s.failedFlushes)
    (hitems : s.isDown = true → s'.buffer.items = s.buffer.items) : s'.Fits p := by
  unfold Fits at hs ⊢
  split at hs <;> simp_all

/-- A worker that has not ended is not stopped. -/
theorem Steady.active (hs : Steady s) (hp : ∀ reason, s.worker.place ≠ .finished reason) :
    s.worker.phase ≠ .stopped := by
  intro h
  obtain ⟨reason, hreason⟩ := hs.phase.mp h
  exact hp reason hreason

theorem Steady.goTo {p : Place FlushPoint ClosingPoint} (hs : Even s)
    (hactive : s.worker.phase ≠ .stopped) (hp : ∀ reason, p ≠ .finished reason) (hfit : s.Fits p) :
    Steady (s.goTo p) where
  toEven := hs.goTo p
  phase := by
    constructor
    · intro h
      exact absurd h hactive
    · rintro ⟨reason, hreason⟩
      exact absurd hreason (hp reason)
  place := hfit

/-- A worker that has emptied the buffer of a sink that is down closes the writer next. -/
theorem Steady.emptied {why : ExitReason} (hs : Even s) (hactive : s.worker.phase ≠ .stopped)
    (hdown : s.isDown = true) (hfailed : s.failedFlushes ≤ 1) : Steady (s.emptied now why) where
  toEven := hs.emptied hdown
  phase := by
    constructor
    · intro h
      exact absurd h hactive
    · rintro ⟨reason, hreason⟩
      cases hreason
  place := by cases why <;> exact ⟨hdown, hfailed, rfl⟩

/-- A worker that has stopped leaves a sink that is down with an empty buffer. -/
theorem Steady.stopped {why : ExitReason} (hs : Even s)
    (hfit : s.isDown = true ∧ s.failedFlushes ≤ 1 ∧ s.buffer.items = []) :
    Steady (s.stopped why) where
  toEven := hs.stopped
  phase := ⟨fun _ => ⟨why, rfl⟩, fun _ => rfl⟩
  place := hfit

/-- The flush worker keeps a sink steady. -/
theorem Stride.steady {a : FlushAction} (hs : Steady s) (h : Stride clock now s a o) :
    Steady o.sink := by
  have hplace := hs.place
  have heven := hs.toEven
  have hactive : ∀ {p}, s.worker.place = p → (∀ reason, p ≠ .finished reason) →
      s.worker.phase ≠ .stopped := fun hp hnot => hs.active (hp ▸ hnot)
  cases h with
  | rest aside ends hp hstop =>
      rw [hp] at hplace
      exact .goTo heven (hactive hp (by simp)) (by simp) hplace
  | heed aside hp hstop =>
      rw [hp] at hplace
      exact .goTo heven (hactive hp (by simp)) (by simp) ⟨hs.told hstop, hplace⟩
  | quit ends hp =>
      rw [hp] at hplace
      exact .goTo heven (hactive hp (by simp)) (by simp) hplace
  | idle a ends signal hp hitems ha =>
      rw [hp] at hplace
      exact .goTo { heven.drain with } (hactive hp (by simp)) (by simp) hplace
  | begin a ends signal es hp hes ha =>
      rw [hp] at hplace
      exact .goTo { heven.drain with } (hactive hp (by simp)) (by simp [Post.busy]) hplace
  | beginLast es hp hes =>
      rw [hp] at hplace
      exact .goTo heven.drain (hactive hp (by simp)) (by simp [Post.busy])
        ⟨hplace.1, hplace.2, hs.unpolled.drain.2.1⟩
  | take post b line rest es hp hrest hes =>
      rw [hp] at hplace
      cases post <;>
        exact .goTo heven (hactive hp (by simp [Post.busy])) (by simp [Post.busy]) hplace
  | deliver b es hp hrest hall hes =>
      rw [hp] at hplace
      exact .goTo { heven with } (hactive hp (by simp [Post.busy])) (by simp) hplace
  | deliverLast b es hp hrest hall hes =>
      rw [hp] at hplace
      exact .emptied { heven with } (hactive hp (by simp [Post.busy])) hplace.1
        (Nat.le_succ_of_le (Nat.le_of_eq hplace.2.1))
  | strike a b fault es hp hfail hup hes =>
      rw [hp] at hplace
      exact .goTo heven.struck (hactive hp (by simp [Post.busy])) (by simp [Post.busy])
        ⟨rfl, congrArg (· + 1) hplace⟩
  | giveUp a b fault es hp hfail hdown hes =>
      rw [hp] at hplace
      exact .goTo heven.failed (hactive hp (by simp [Post.busy])) (by simp)
        ⟨hdown, congrArg (· + 1) hplace⟩
  | giveUpLast a b fault es hp hfail hes =>
      rw [hp] at hplace
      exact .emptied heven.failed (hactive hp (by simp [Post.busy])) hplace.1
        (Nat.le_of_eq (congrArg (· + 1) hplace.2.1))
  | lose b hp =>
      rw [hp] at hplace
      exact .goTo heven (hactive hp (by simp [Post.busy])) (by simp) hplace
  | loseLast b hp =>
      rw [hp] at hplace
      exact .stopped heven ⟨hplace.1, Nat.le_succ_of_le (Nat.le_of_eq hplace.2.1), hplace.2.2⟩
  | warned a reason deadline es hp hes =>
      rw [hp] at hplace
      exact .goTo heven (hactive hp (by simp)) (by simp) hplace
  | clearIdle hp hitems =>
      rw [hp] at hplace
      exact .emptied heven.drain (hactive hp (by simp)) hplace.1
        (Nat.le_succ_of_le (Nat.le_of_eq hplace.2))
  | clearFatal m hp =>
      rw [hp] at hplace
      exact .emptied heven (hactive hp (by simp)) hplace.1 (Nat.le_of_eq hplace.2)
  | close a reason deadline es hp hes =>
      rw [hp] at hplace
      cases reason <;> exact .stopped heven hplace

/-- What callers do to a sink that stays as it is where its worker looks. -/
theorem Steady.beside (hs : Steady s) (heven : Even s')
    (hphase : s'.worker.phase = .stopped ↔ s.worker.phase = .stopped)
    (hplace : s'.worker.place = s.worker.place) (hdown : s.isDown = true → s'.isDown = true)
    (hfailed : s'.failedFlushes = s.failedFlushes)
    (hitems : s.isDown = true → s'.buffer.items = s.buffer.items) : Steady s' where
  toEven := heven
  phase := by rw [hphase, hplace, hs.phase]
  place := by
    rw [hplace]
    exact hs.place.mono hdown hfailed hitems

theorem Aside.steady (h : Aside s s') (hs : Steady s) : Steady s' := by
  have heven := h.even hs.toEven
  obtain ⟨_, _, _, _, _, _, rfl⟩ := h
  exact hs.beside heven Iff.rfl rfl id rfl fun _ => rfl

theorem Offering.steady (hs : Steady s) (h : Offering s call mayDrop o) : Steady o.sink := by
  cases h with
  | refuse s' why haside hwhy =>
      have hs' := haside.steady hs
      simp only [Sink.refuse]
      split <;> exact { hs' with }
  | accept s' r haside hup =>
      have hs' := haside.steady hs
      refine hs'.beside { hs'.push r with } Iff.rfl rfl id rfl fun hdown => ?_
      exact absurd hdown (by simp [haside.isDown_eq, hup])
  | wait s' e haside he => exact { haside.steady hs with }

theorem Steady.dismissed (hs : Steady s) (reason : String) : Steady (s.dismissed reason) := by
  refine hs.beside hs.toEven.dismissed ?_ rfl (fun _ => isDown_dismissed) ?_ ?_
  · simp only [Sink.dismissed, Worker.requestStop]
    cases hphase : s.worker.phase with
    | created => exact absurd hphase hs.started
    | running | stopRequested | stopped => simp
  · simp only [Sink.dismissed, bringDown]
    split <;> rfl
  · intro hdown
    rw [dismissed_down hdown]
    rfl

/-- A sink stays steady. -/
theorem Motion.steady {a : Action} (hs : Steady s) (h : Motion clock now s a o) :
    Steady o.sink := by
  cases h with
  | offer content permitWait slotWait mayDrop o ho =>
      have hnamed : Steady s.named := { hs with }
      exact ho.steady hnamed
  | offerOn call e mayDrop o hc he ho => exact ho.steady hs
  | shutDown reason => exact { hs.dismissed reason with }
  | shutDownWaits reason deadline => exact { hs.dismissed reason with }
  | stopSeen call initiated deadline hc => exact { hs with }
  | flush | enable | disable => exact { hs with }
  | worker a o ho => exact ho.steady hs

theorem steady_ofSettings : Steady (ofSettings settings t₀) where
  sealing := rfl
  told := by intro h; cases h
  unpolled := ⟨rfl, fun _ => rfl⟩
  armed _ _ := rfl
  started := by intro h; cases h
  phase := by
    constructor
    · intro h
      cases h
    · rintro ⟨reason, h⟩
      cases h
  place := rfl

/-- Along every history the sink is steady. -/
theorem History.steady (hist : History settings t₀ h t s) : Steady s := by
  induction hist with
  | here => exact steady_ofSettings
  | act hist hs ih => exact (step_motion ih hs).steady ih
  | pass hist hle ih => exact ih

/-- A sink to which nothing was done but what offers do. -/
structure Untouched (s s' : Sink) : Prop where
  worker : s'.worker = s.worker
  reason : s'.reason = s.reason
  settings : s'.settings = s.settings
  signal : s'.signal = s.signal
  written : s'.written = s.written
  failedFlushes : s'.failedFlushes = s.failedFlushes
  nextCall : s.nextCall ≤ s'.nextCall

theorem Offering.untouched (h : Offering s call mayDrop o) : Untouched s o.sink := by
  cases h with
  | refuse s' why hs hwhy =>
      obtain ⟨_, _, _, _, hcall, _, rfl⟩ := hs
      simp only [Sink.refuse]
      split <;> exact ⟨rfl, rfl, rfl, rfl, rfl, rfl, hcall⟩
  | accept s' r hs hup =>
      obtain ⟨_, _, _, _, hcall, _, rfl⟩ := hs
      exact ⟨rfl, rfl, rfl, rfl, rfl, rfl, hcall⟩
  | wait s' e hs he =>
      obtain ⟨_, _, _, _, hcall, _, rfl⟩ := hs
      exact ⟨rfl, rfl, rfl, rfl, rfl, rfl, hcall⟩

/-- What every motion of a steady sink keeps has been so ever since it was. -/
theorem History.keeps {P : Sink → Prop}
    (hkeep : ∀ {clock : WallClock} {now : Instant} {s : Sink} {a : Action} {o : SinkOutcome},
      Steady s → Motion clock now s a o → P s → P o.sink)
    (hist : History settings t₀ h t s) : ∀ m ∈ h, P m.found → P s := by
  induction hist with
  | here => exact fun m hm => absurd hm List.not_mem_nil
  | pass hist hle ih => exact ih
  | act hist hs ih =>
      intro m hm hP
      have hmotion := step_motion hist.steady hs
      rcases List.mem_append.mp hm with hm | hm
      · exact hkeep hist.steady hmotion (ih m hm hP)
      · obtain rfl := List.mem_singleton.mp hm
        exact hkeep hist.steady hmotion hP

/-- A flush worker that has ended does nothing more. -/
theorem Stride.active {a : FlushAction} (h : Stride clock now s a o) (reason : ExitReason) :
    s.worker.place ≠ .finished reason := by
  cases h with
  | take post b line rest es hp hrest hes => cases post <;> simp [hp, Post.busy]
  | _ => simp_all [Post.busy]

/-- A flush worker that has stopped stays so. -/
theorem Motion.stopped {a : Action} (hs : Steady s) (h : Motion clock now s a o)
    (hstop : s.worker.phase = .stopped) : o.sink.worker.phase = .stopped := by
  cases h with
  | worker a o ho =>
      obtain ⟨reason, hp⟩ := hs.phase.mp hstop
      exact absurd hp (ho.active reason)
  | offer content permitWait slotWait mayDrop o ho => rwa [ho.untouched.worker]
  | offerOn call e mayDrop o hc he ho => rwa [ho.untouched.worker]
  | shutDown reason => simp [answer, dismissed, Worker.requestStop, hstop]
  | shutDownWaits reason deadline => simp [await, dismissed, Worker.requestStop, hstop]
  | stopSeen | flush | enable | disable => exact hstop

/-- At most one flush fails. -/
theorem Steady.failedFlushes_le (hs : Steady s) : s.failedFlushes ≤ 1 := by
  have hplace := hs.place
  unfold Fits at hplace
  split at hplace <;> first | omega | exact False.elim hplace

end Sink

end Backpressure
