import Backpressure.Proofs.Queue.Stock
import Backpressure.Proofs.Sink.Deeds
import Backpressure.Proofs.Sink.History

/-!
# What a sink can do next

`Steady` is what holds of a sink along every history, by the place of its flush worker.
For a steady sink `step_motion` lists what an action can come to, the new sink written
out in full; every later invariant is a case analysis on this list.

*Down and sealed.*  The buffer is sealed just when the sink is down, and the worker is told
to stop only by a call that has brought the sink down.  So in the hook nothing comes in any
more, and a batch that is begun there empties the buffer.

*Nobody polls.*  The flush worker is the only one who takes records out, and it drains.
So all that is in the buffer is free to be drained, and a drain leaves nothing behind.
-/

namespace Backpressure

open Telemetry (Record)

/-- An event between the flush worker and those it asks. -/
def SinkEvent.isDealing : SinkEvent → Bool
  | .asked _ | .served _ | .abandoned => true
  | _ => false

/-- What reads the same off all dealings. -/
theorem SinkEvent.read_dealing {β : Type} {f : SinkEvent → β} {b : β}
    (hasked : ∀ r, f (.asked r) = b) (hserved : ∀ r, f (.served r) = b)
    (habandoned : f .abandoned = b) (e : SinkEvent) (he : e.isDealing = true) : f e = b := by
  cases e with
  | asked r => exact hasked r
  | served r => exact hserved r
  | abandoned => exact habandoned
  | accepted | alerted | discarded | answered => cases he

/-- Dealings say nothing about anything else. -/
theorem filterMap_of_dealing {β : Type} {f : SinkEvent → Option β} {es : List SinkEvent}
    (hf : ∀ e, e.isDealing = true → f e = none) (hes : es.all SinkEvent.isDealing = true) :
    es.filterMap f = [] :=
  List.filterMap_eq_nil_iff.mpr fun e he => hf e (List.all_eq_true.mp hes e he)

namespace Queue

variable {α : Type} {q : Queue α}

/-- A queue at which nobody waits for an item. -/
structure Unpolled (q : Queue α) : Prop where
  waiting : q.ready.waiting = []
  stock : q.ready.closed = false → q.ready.free = q.items.length

theorem Unpolled.push (hq : q.Unpolled) (a : α) : (q.push a).Unpolled where
  waiting := by simp [Queue.push, Permits.release, hq.waiting]
  stock hc := by
    have hfree := hq.stock hc
    simp [Queue.push, Permits.release, hq.waiting, hfree]

/-- A drain of a queue at which nobody waits takes everything. -/
theorem Unpolled.drain (hq : q.Unpolled) :
    (q.drain q.length).1 = q.items ∧ (q.drain q.length).2.items = [] ∧
      (q.drain q.length).2.isSealed = q.isSealed ∧ (q.drain q.length).2.Unpolled := by
  obtain ⟨n, r, hdrain, hn⟩ := q.drain_eq q.length
  have hall : n = q.items.length ∧ r.waiting = [] ∧ (r.closed = false → r.free = 0) := by
    rcases hn with ⟨hclosed, rfl, rfl⟩ | ⟨hopen, rfl, rfl⟩
    · exact ⟨rfl, hq.waiting, fun h => by simp [hclosed] at h⟩
    · have hfree := hq.stock hopen
      refine ⟨?_, hq.waiting, fun _ => ?_⟩ <;> simp only [Queue.length, hfree] <;> omega
  obtain ⟨rfl, hwaiting, hfree⟩ := hall
  rw [hdrain]
  refine ⟨by simp, by simp, by rw [isSealed_freeSlots]; rfl, ?_, ?_⟩
  · simpa using hwaiting
  · simpa using hfree

end Queue

namespace Sink

variable {clock : WallClock} {now : Instant} {s s' : Sink} {o : SinkOutcome}

/-! ## Sinks after something -/

/-- The sink with its worker at a place. -/
def goTo (s : Sink) (place : Place FlushPoint ClosingPoint) : Sink :=
  { s with worker.place := place }

/-- The sink with its buffer drained. -/
def drained (s : Sink) : Sink := { s with buffer := (s.buffer.drain s.buffer.length).2 }

/-- The sink with one more flush that failed. -/
def failed (s : Sink) : Sink := { s with failedFlushes := s.failedFlushes + 1 }

/-- The sink brought down by a flush that failed, with an alert raised. -/
def struck (s : Sink) (clock : WallClock) (now : Instant) (reason : String) : Sink :=
  { s.failed with
    reason := some reason
    buffer := s.buffer.sealUp
    alerts := { s.alerts with lastFired := some ⟨now, clock.at now⟩ } }

/-- The sink with its buffer cleared for good and its writer being closed. -/
def emptied (s : Sink) (now : Instant) (reason : ExitReason) : Sink :=
  { s with
    buffer := s.buffer.closeAndClear.2
    dropped := s.dropped + s.buffer.length }.goTo (.leaving reason (.closing (s.patience now)))

/-- The sink with its worker at the end. -/
def stopped (s : Sink) (reason : ExitReason) : Sink :=
  { s with worker := { s.worker with phase := .stopped, place := .finished reason } }

/-- The sink brought down by a call, if it was not down, with its worker told to stop. -/
def dismissed (s : Sink) (reason : String) : Sink :=
  { (s.named.bringDown reason).2 with worker := s.worker.requestStop }

/-- Where a flush happens. -/
inductive Post where
  | iteration
  | hook

/-- The place of a worker in a flush. -/
def Post.busy (f : Flushing) : Post → Place FlushPoint ClosingPoint
  | .iteration => .inside (.flushing f)
  | .hook => .leaving .stopRequested (.flushing f)

/-! ## Steady sinks -/

/-- What holds of a sink whose worker is at a place. -/
def Fits (s : Sink) : Place FlushPoint ClosingPoint → Prop
  | .between _ | .inside (.waiting _) | .inside (.flushing (.writing _)) => s.failedFlushes = 0
  | .leaving .stopRequested .start => s.isDown = true ∧ s.failedFlushes = 0
  | .leaving .stopRequested (.flushing (.writing _)) =>
    s.isDown = true ∧ s.failedFlushes = 0 ∧ s.buffer.items = []
  | .inside (.flushing (.alerting _ _)) | .leaving (.fatal _) .start =>
    s.isDown = true ∧ s.failedFlushes = 1
  | .leaving _ (.closing _) | .finished _ =>
    s.isDown = true ∧ s.failedFlushes ≤ 1 ∧ s.buffer.items = []
  | .unstarted | .leaving _ (.flushing _) => False

/-- What holds of a sink along every history, wherever its worker is. -/
structure Even (s : Sink) : Prop where
  /-- The buffer is sealed just when the sink is down. -/
  sealing : s.buffer.isSealed = s.isDown
  /-- Who tells the worker to stop has seen to it that the sink is down. -/
  told : s.worker.stop = true → s.isDown = true
  unpolled : s.buffer.Unpolled
  /-- No alert has been raised yet. -/
  armed : s.isDown = false → ∀ t, s.alerts.isDue t = true
  started : s.worker.phase ≠ .created

/-- What holds of a sink along every history. -/
structure Steady (s : Sink) : Prop extends Even s where
  phase : s.worker.phase = .stopped ↔ ∃ reason, s.worker.place = .finished reason
  place : s.Fits s.worker.place

/-- A worker in a flush is in an iteration or in the hook after a stop. -/
theorem Steady.busy {f : Flushing} (hs : Steady s) (hf : s.flushing? = some f) :
    ∃ post : Post, s.worker.place = post.busy f := by
  have hplace := hs.place
  simp only [flushing?] at hf
  split at hf
  · next hp =>
      cases hf
      exact ⟨.iteration, hp⟩
  · next reason f' hp =>
      cases hf
      rw [hp] at hplace
      cases reason with
      | stopRequested => exact ⟨.hook, hp⟩
      | fatal m => cases f <;> exact hplace.elim
  · cases hf

theorem flushing_of_busy {f : Flushing} {post : Post} (hp : s.worker.place = post.busy f) :
    s.flushing? = some f := by
  cases post <;> simp only [flushing?, hp, Post.busy]

/-- An alert is waited for in an iteration only. -/
theorem Steady.alerting {reason : String} {deadline : Instant} (hs : Steady s)
    (hf : s.flushing? = some (.alerting reason deadline)) :
    s.worker.place = .inside (.flushing (.alerting reason deadline)) := by
  obtain ⟨post, hp⟩ := hs.busy hf
  cases post with
  | iteration => exact hp
  | hook =>
      have hplace := hs.place
      rw [hp] at hplace
      exact hplace.elim

/-! ## What the flush worker can do -/

/-- What an action of the flush worker can come to. -/
inductive Stride (clock : WallClock) (now : Instant) (s : Sink) :
    FlushAction → SinkOutcome → Prop where
  /-- An iteration begins. -/
  | rest (aside : Bool) (ends : Instant) (hp : s.worker.place = .between aside)
      (hstop : s.worker.stop = false) :
      Stride clock now s .turn { sink := s.goTo (.inside (.waiting ends)) }
  /-- The hook begins. -/
  | heed (aside : Bool) (hp : s.worker.place = .between aside) (hstop : s.worker.stop = true) :
      Stride clock now s .turn { sink := s.goTo (.leaving .stopRequested .start) }
  /-- The wait gives way to a stop. -/
  | quit (ends : Instant) (hp : s.worker.place = .inside (.waiting ends)) :
      Stride clock now s .quit { sink := s.goTo (.between false) }
  /-- The wait ends, and there is nothing to write. -/
  | idle (a : FlushAction) (ends : Instant) (signal : Bool)
      (hp : s.worker.place = .inside (.waiting ends)) (hitems : s.buffer.items = [])
      (ha : a = .tick ∧ signal = s.signal ∨ a = .notice ∧ s.signal = true ∧ signal = false) :
      Stride clock now s a { sink := { s.drained with signal }.goTo (.between false) }
  /-- The wait ends, and a batch begins. -/
  | begin (a : FlushAction) (ends : Instant) (signal : Bool) (es : List SinkEvent)
      (hp : s.worker.place = .inside (.waiting ends)) (hes : es.all SinkEvent.isDealing = true)
      (ha : a = .tick ∧ signal = s.signal ∨ a = .notice ∧ s.signal = true ∧ signal = false)
      (hitems : s.buffer.items ≠ []) :
      Stride clock now s a
        { events := es
          sink := { s.drained with signal }.goTo (Post.iteration.busy
            (.writing (.ofRecords s.buffer.items (s.patience now)))) }
  /-- The last batch begins. -/
  | beginLast (es : List SinkEvent) (hp : s.worker.place = .leaving .stopRequested .start)
      (hes : es.all SinkEvent.isDealing = true) (hitems : s.buffer.items ≠ []) :
      Stride clock now s .leave
        { events := es
          sink := s.drained.goTo (Post.hook.busy
            (.writing (.ofRecords s.buffer.items (s.patience now)))) }
  /-- The writer takes a line. -/
  | take (post : Post) (b : Batch) (line : String) (rest : List String) (es : List SinkEvent)
      (hp : s.worker.place = post.busy (.writing b)) (hrest : b.rest = line :: rest)
      (hes : es.all SinkEvent.isDealing = true) :
      Stride clock now s (.reply .done)
        { events := es
          sink := s.goTo (post.busy (.writing { b with rest, appended := b.appended + 1 })) }
  /-- A batch is written. -/
  | deliver (b : Batch) (es : List SinkEvent)
      (hp : s.worker.place = Post.iteration.busy (.writing b)) (hrest : b.rest = [])
      (hall : b.appended = b.records.length) (hes : es.all SinkEvent.isDealing = true) :
      Stride clock now s (.reply .done)
        { events := es, sink := (s.confirm (clock.at now) b).goTo (.between false) }
  /-- The last batch is written, and the buffer is cleared. -/
  | deliverLast (b : Batch) (es : List SinkEvent)
      (hp : s.worker.place = Post.hook.busy (.writing b)) (hrest : b.rest = [])
      (hall : b.appended = b.records.length) (hes : es.all SinkEvent.isDealing = true) :
      Stride clock now s (.reply .done)
        { events := es ++ [.discarded s.buffer.items, .asked .close]
          sink := (s.confirm (clock.at now) b).emptied now .stopRequested }
  /-- A flush fails and brings the sink down. -/
  | strike (a : FlushAction) (b : Batch) (fault : FlushFault) (es : List SinkEvent)
      (hp : s.worker.place = Post.iteration.busy (.writing b))
      (hfail : s.failureBy (.worker a) = some (b, fault)) (hup : s.isDown = false)
      (hes : es.all SinkEvent.isDealing = true) :
      Stride clock now s a
        { events := es ++
            [.alerted ("telemetry sink " ++ s.settings.name ++ " shut down") fault.message]
          sink := (s.struck clock now fault.message).goTo (Post.iteration.busy
            (.alerting fault.message (s.patience now))) }
  /-- A flush fails in a sink that is down. -/
  | giveUp (a : FlushAction) (b : Batch) (fault : FlushFault) (es : List SinkEvent)
      (hp : s.worker.place = Post.iteration.busy (.writing b))
      (hfail : s.failureBy (.worker a) = some (b, fault)) (hdown : s.isDown = true)
      (hes : es.all SinkEvent.isDealing = true) :
      Stride clock now s a
        { events := es, sink := s.failed.goTo (.leaving (.fatal fault.message) .start) }
  /-- The last flush fails, and the buffer is cleared. -/
  | giveUpLast (a : FlushAction) (b : Batch) (fault : FlushFault) (es : List SinkEvent)
      (hp : s.worker.place = Post.hook.busy (.writing b))
      (hfail : s.failureBy (.worker a) = some (b, fault))
      (hes : es.all SinkEvent.isDealing = true) :
      Stride clock now s a
        { events := es ++ [.discarded s.buffer.items, .asked .close]
          sink := s.failed.emptied now .stopRequested }
  /-- The writer panics, and the loop goes on. -/
  | lose (b : Batch) (hp : s.worker.place = Post.iteration.busy (.writing b)) :
      Stride clock now s (.reply .panicked) { sink := s.goTo (.between true) }
  /-- The writer panics in the last flush. -/
  | loseLast (b : Batch) (hp : s.worker.place = Post.hook.busy (.writing b)) :
      Stride clock now s (.reply .panicked) { sink := s.stopped .stopRequested }
  /-- An alert has been sent, or is no longer waited for. -/
  | warned (a : FlushAction) (reason : String) (deadline : Instant) (es : List SinkEvent)
      (hp : s.worker.place = .inside (.flushing (.alerting reason deadline)))
      (hes : es.all SinkEvent.isDealing = true) :
      Stride clock now s a { events := es, sink := s.goTo (.leaving (.fatal reason) .start) }
  /-- The hook finds nothing to write, and clears the buffer. -/
  | clearIdle (hp : s.worker.place = .leaving .stopRequested .start)
      (hitems : s.buffer.items = []) :
      Stride clock now s .leave
        { events := [.discarded [], .asked .close]
          sink := s.drained.emptied now .stopRequested }
  /-- The hook clears the buffer after a flush that failed. -/
  | clearFatal (m : String) (hp : s.worker.place = .leaving (.fatal m) .start) :
      Stride clock now s .leave
        { events := [.discarded s.buffer.items, .asked .close]
          sink := s.emptied now (.fatal m) }
  /-- The writer is closed, or no longer waited for. -/
  | close (a : FlushAction) (reason : ExitReason) (deadline : Instant) (es : List SinkEvent)
      (hp : s.worker.place = .leaving reason (.closing deadline))
      (hes : es.all SinkEvent.isDealing = true) :
      Stride clock now s a { events := es, sink := s.stopped reason }

/-! ## Going on after a flush -/

section GoingOn

variable {f f' : Flushing} {post : Post} {how : IterationEnd} {point : FlushPoint}
  {last : ClosingPoint} {reason : ExitReason}

theorem inIteration_underway (hp : o.sink.worker.place = .inside point) :
    inIteration (.underway f', o) =
      some { o with sink := o.sink.goTo (.inside (.flushing f')) } := by
  simp [inIteration, put, Worker.move, hp, goTo]

theorem inIteration_ended (hp : o.sink.worker.place = .inside point) :
    inIteration (.ended how, o) = some { o with
      sink := o.sink.goTo (match how with
        | .done => .between false
        | .failed (.recoverable _) | .panicked => .between true
        | .failed (.fatal reason) => .leaving (.fatal reason) .start) } := by
  cases how with
  | done | panicked => simp [inIteration, put, Worker.finish, hp, goTo]
  | failed fault => cases fault <;> simp [inIteration, put, Worker.finish, hp, goTo]

theorem inHook_underway (hp : o.sink.worker.place = .leaving reason last) :
    inHook now (.underway f', o) =
      some { o with sink := o.sink.goTo (.leaving reason (.flushing f')) } := by
  simp [inHook, put, Worker.moveHook, hp, goTo]

theorem closeDown_eq (hp : s.worker.place = .leaving reason last) :
    s.closeDown now = some
      { events := [.discarded s.buffer.items, .asked .close], sink := s.emptied now reason } := by
  simp [closeDown, put, Worker.moveHook, hp, emptied, goTo, patience, Queue.closeAndClear,
    Queue.length, Queue.close, Queue.sealUp]

theorem inHook_ended (hp : o.sink.worker.place = .leaving reason last) (hhow : how ≠ .panicked) :
    inHook now (.ended how, o) = some
      { events := o.events ++ [.discarded o.sink.buffer.items, .asked .close]
        sink := o.sink.emptied now reason } := by
  cases how with
  | panicked => exact absurd rfl hhow
  | done | failed fault => simp [inHook, closeDown_eq hp, SinkOutcome.after]

theorem goOn_underway (hp : o.sink.worker.place = post.busy f) :
    goOn now (.underway f', o) = some { o with sink := o.sink.goTo (post.busy f') } := by
  cases post with
  | iteration =>
      have hp' : o.sink.worker.place = .inside (.flushing f) := hp
      simp only [goOn, hp']
      exact inIteration_underway hp'
  | hook =>
      have hp' : o.sink.worker.place = .leaving .stopRequested (.flushing f) := hp
      simp only [goOn, hp']
      exact inHook_underway hp'

theorem goOn_iteration (hp : o.sink.worker.place = Post.iteration.busy f) :
    goOn now (.ended how, o) = inIteration (.ended how, o) := by
  have hp' : o.sink.worker.place = .inside (.flushing f) := hp
  simp only [goOn, hp']

theorem goOn_hook (hp : o.sink.worker.place = Post.hook.busy f) :
    goOn now (.ended how, o) = inHook now (.ended how, o) := by
  have hp' : o.sink.worker.place = .leaving .stopRequested (.flushing f) := hp
  simp only [goOn, hp']

end GoingOn

/-! ## Flushes -/

/-- A flush takes all that is in the buffer. -/
theorem beginFlush_eq (hq : s.buffer.Unpolled) :
    s.beginFlush now =
      if s.buffer.items = [] then (.ended .done, { sink := s.drained })
      else (.underway (.writing (.ofRecords s.buffer.items (s.patience now))),
        { events := [.asked (Batch.ofRecords s.buffer.items (s.patience now)).request]
          sink := s.drained }) := by
  have hall := hq.drain.1
  simp only [beginFlush, hall, List.isEmpty_iff]
  rfl

theorem failFlush_down {fault : FlushFault} (hdown : s.isDown = true) :
    s.failFlush clock now fault = (.ended (.failed (.fatal fault.message)), { sink := s.failed }) := by
  have hdown' : ({ s with failedFlushes := s.failedFlushes + 1 } : Sink).isDown = true := hdown
  simp only [failFlush, bringDown, hdown', if_true]
  rfl

theorem failFlush_up {fault : FlushFault} (hup : s.isDown = false)
    (hdue : s.alerts.isDue now = true) :
    s.failFlush clock now fault = (.underway (.alerting fault.message (s.patience now)),
      { events := [.alerted ("telemetry sink " ++ s.settings.name ++ " shut down") fault.message]
        sink := s.struck clock now fault.message }) := by
  have hup' : ({ s with failedFlushes := s.failedFlushes + 1 } : Sink).isDown = false := hup
  simp only [failFlush, bringDown, hup', Bool.false_eq_true, if_false, Rate.Throttle.trigger, hdue,
    if_true]
  rfl

section Strides

variable {a : FlushAction} {b : Batch} {fault : FlushFault} {es : List SinkEvent} {post : Post}

/-- A flush that fails. -/
theorem fail_stride (hs : Steady s) (hp : s.worker.place = post.busy (.writing b))
    (hfail : s.failureBy (.worker a) = some (b, fault)) (hes : es.all SinkEvent.isDealing = true)
    (h : goOn now ((s.failFlush clock now fault).1, (s.failFlush clock now fault).2.after es) = some o) :
    Stride clock now s a o := by
  cases hd : s.isDown with
  | false =>
      rw [failFlush_up hd (hs.armed hd now)] at h
      cases post with
      | iteration =>
          rw [goOn_underway (f := .writing b) hp] at h
          cases h
          exact .strike a b fault es hp hfail hd hes
      | hook =>
          -- in the hook the sink is down
          have hplace := hs.place
          rw [hp] at hplace
          exact absurd hplace.1 (by simp [hd])
  | true =>
      rw [failFlush_down hd] at h
      cases post with
      | iteration =>
          rw [goOn_iteration (f := .writing b) hp, inIteration_ended hp] at h
          cases h
          simpa [SinkOutcome.after] using Stride.giveUp a b fault es hp hfail hd hes
      | hook =>
          rw [goOn_hook (f := .writing b) hp, inHook_ended hp (by simp)] at h
          cases h
          simpa [SinkOutcome.after, failed] using Stride.giveUpLast a b fault es hp hfail hes

/-- A wait that ends with a flush. -/
theorem wake_stride {ends : Instant} (signal : Bool) (hs : Steady s)
    (hp : s.worker.place = .inside (.waiting ends))
    (ha : a = .tick ∧ signal = s.signal ∨ a = .notice ∧ s.signal = true ∧ signal = false)
    (h : inIteration ({ s with signal }.beginFlush now) = some o) : Stride clock now s a o := by
  have hq : ({ s with signal } : Sink).buffer.Unpolled := hs.unpolled
  rw [beginFlush_eq hq] at h
  split at h
  · next hitems =>
      rw [inIteration_ended hp] at h
      cases h
      exact .idle a ends signal hp hitems ha
  · next hitems =>
      rw [inIteration_underway hp] at h
      cases h
      exact .begin a ends signal _ hp rfl ha hitems

theorem leave_stride (hs : Steady s) (h : s.flushStep clock now .leave = some o) :
    Stride clock now s .leave o := by
  simp only [flushStep] at h
  split at h
  · next hp =>
      rw [beginFlush_eq hs.unpolled] at h
      split at h
      · next hitems =>
          rw [inHook_ended hp (by simp)] at h
          cases h
          have hnone : s.drained.buffer.items = [] := hs.unpolled.drain.2.1
          simpa [hnone] using Stride.clearIdle hp hitems
      · next hitems =>
          rw [inHook_underway hp] at h
          cases h
          exact .beginLast _ hp rfl hitems
  · next m hp =>
      rw [closeDown_eq hp] at h
      cases h
      exact .clearFatal m hp
  · cases h

theorem close_stride {reason : ExitReason} {deadline : Instant}
    (hp : s.worker.place = .leaving reason (.closing deadline))
    (hes : es.all SinkEvent.isDealing = true)
    (h : put { events := es, sink := s } s.worker.finishHook = some o) :
    Stride clock now s a o := by
  obtain ⟨w, hw, rfl⟩ := put_eq_some h
  simp only [Worker.finishHook, hp, Option.some.injEq] at hw
  subst hw
  exact .close a reason deadline es hp hes

theorem turn_stride (h : s.flushStep clock now .turn = some o) : Stride clock now s .turn o := by
  obtain ⟨w, hw, rfl⟩ := put_eq_some h
  simp only [Worker.turn] at hw
  split at hw
  · next aside hp =>
      cases hw
      cases hstop : s.worker.stop with
      | false => simpa [goTo, hstop] using Stride.rest aside _ hp hstop
      | true => simpa [goTo, hstop] using Stride.heed aside hp hstop
  · cases hw

/-- The writer replies in a flush. -/
theorem flushReply_stride {r : WriterReply} (hs : Steady s) (hf : s.flushing? = some (.writing b))
    (h : goOn now (s.afterReply clock now b r) = some o) : Stride clock now s (.reply r) o := by
  obtain ⟨post, hp⟩ := hs.busy hf
  cases r with
  | panicked =>
      simp only [afterReply, Batch.afterReply] at h
      cases post with
      | iteration =>
          rw [goOn_iteration (f := .writing b) hp, inIteration_ended hp] at h
          cases h
          exact .lose b hp
      | hook =>
          have hp' : s.worker.place = .leaving .stopRequested (.flushing (.writing b)) := hp
          rw [goOn_hook (f := .writing b) hp] at h
          simp only [inHook, put, Worker.finishHook, hp'] at h
          cases h
          exact .loseLast b hp
  | failed error =>
      simp only [afterReply, Batch.afterReply] at h
      exact fail_stride hs hp (by simp [failureBy, hf]) rfl h
  | done =>
      simp only [afterReply, Batch.afterReply] at h
      cases hrest : b.rest with
      | cons line rest =>
          simp only [hrest, if_true] at h
          rw [goOn_underway (f := .writing b) hp] at h
          cases h
          exact .take post b line rest _ hp hrest rfl
      | nil =>
          by_cases hall : b.appended = b.records.length
          · simp only [hrest, hall, if_true] at h
            cases post with
            | iteration =>
                rw [goOn_iteration (f := .writing b) hp, inIteration_ended hp] at h
                cases h
                exact .deliver b _ hp hrest hall rfl
            | hook =>
                rw [goOn_hook (f := .writing b) hp, inHook_ended hp (by simp)] at h
                cases h
                exact .deliverLast b _ hp hrest hall rfl
          · simp only [hrest, hall, if_true, if_false] at h
            exact fail_stride hs hp (by simp [failureBy, hf, hrest, hall]) rfl h

/-- The wait for an alert is over. -/
theorem warned_stride {reason : String} {deadline : Instant} (hs : Steady s)
    (hf : s.flushing? = some (.alerting reason deadline)) (hes : es.all SinkEvent.isDealing = true)
    (h : goOn now (.ended (.failed (.fatal reason)), { events := es, sink := s }) = some o) :
    Stride clock now s a o := by
  have hp := hs.alerting hf
  rw [goOn_iteration (f := .alerting reason deadline) hp, inIteration_ended hp] at h
  cases h
  exact .warned a reason deadline es hp hes

theorem runOut_stride (hs : Steady s) (h : s.flushStep clock now .runOut = some o) :
    Stride clock now s .runOut o := by
  simp only [flushStep] at h
  split at h
  · next f hf =>
      obtain ⟨turn, hrun, hgo⟩ := Option.bind_eq_some_iff.mp h
      simp only [runOut] at hrun
      split at hrun
      · next b =>
          split at hrun
          · cases hrun
          · cases hrun
            obtain ⟨post, hp⟩ := hs.busy hf
            exact fail_stride hs hp (by simp [failureBy, hf]) rfl hgo
      · split at hrun
        · cases hrun
        · cases hrun
          exact warned_stride hs hf rfl hgo
  · next hp =>
      split at h
      · cases h
      · exact close_stride hp rfl h
  · cases h

theorem flushStep_stride (hs : Steady s) (h : s.flushStep clock now a = some o) :
    Stride clock now s a o := by
  cases a with
  | turn => exact turn_stride h
  | leave => exact leave_stride hs h
  | runOut => exact runOut_stride hs h
  | tick =>
      simp only [flushStep] at h
      split at h
      · next ends hp =>
          split at h
          · cases h
          · exact wake_stride s.signal hs hp (.inl ⟨rfl, rfl⟩) h
      · cases h
  | notice =>
      simp only [flushStep] at h
      split at h
      · next ends hp =>
          split at h
          · next hsignal => exact wake_stride false hs hp (.inr ⟨rfl, hsignal, rfl⟩) h
          · cases h
      · cases h
  | quit =>
      simp only [flushStep] at h
      split at h
      · next ends hp =>
          split at h
          · rw [inIteration_ended hp] at h
            cases h
            exact .quit ends hp
          · cases h
      · cases h
  | reply r =>
      simp only [flushStep] at h
      split at h
      · next b hf => exact flushReply_stride hs hf h
      · next reason deadline hf hp =>
          refine close_stride hp ?_ h
          split <;> rfl
      · cases h
  | alertDone =>
      simp only [flushStep] at h
      split at h
      · next reason deadline hf => exact warned_stride hs hf rfl h
      · cases h

end Strides

end Sink

end Backpressure
