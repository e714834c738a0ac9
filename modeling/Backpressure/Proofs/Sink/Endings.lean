import Backpressure.Proofs.Sink.Motions

/-!
# How batches end

A flush takes all that is in the buffer.  This batch ends by a reply of the writer, or when
the wait for it runs out.  `Motion.handover` says what an action does to the batch that is at
the writer, and `History.batches_settled` what becomes of all of them.

*Written or failed.*  A batch that was written counts in full, and each of its records has a
text.  One that failed brings the sink down for good, and no batch is begun after it, be it in
an iteration or in the hook.

*Panics.*  A writer that panics ends the batch as well, but then nothing is counted, and an
iteration is followed by the next.  So a batch is `Accounted` for just when the writer did not
panic over it.
-/

namespace Backpressure

open Telemetry (Record)

/-- How a batch ends. -/
inductive Ending where
  /-- The writer took a line for each record, and flushed. -/
  | written
  | failed (fault : FlushFault)
  /-- The writer panicked. -/
  | lost
  deriving DecidableEq, Repr

namespace Ending

def isFailure : Ending → Bool
  | .failed _ => true
  | .written | .lost => false

/-- The records of a batch that are written when it ends so. -/
def delivered (b : Batch) : Ending → List Record
  | .written => b.records
  | .failed _ | .lost => []

/-- What a sink makes of a batch that ends. -/
def Booked (b : Batch) (s s' : Sink) : Ending → Prop
  | .written =>
    s'.written = s.written + b.records.length ∧ s'.failedFlushes = s.failedFlushes ∧
      s'.reason = s.reason ∧ ∀ r ∈ b.records, (Record.encode r).isSome = true
  | .failed fault =>
    s'.written = s.written ∧ s'.failedFlushes = s.failedFlushes + 1 ∧ s'.isDown = true ∧
      (s.isDown = false → s'.reason = some fault.message)
  | .lost =>
    s'.written = s.written ∧ s'.failedFlushes = s.failedFlushes ∧ s'.reason = s.reason ∧
      (s'.worker.place = .between true ∨ s'.worker.place = .finished .stopRequested)

end Ending

namespace Batch

/-- How a reply of the writer ends a batch, if it does. -/
def endingOf (b : Batch) : WriterReply → Option Ending
  | .panicked => some .lost
  | .failed error => some (.failed (.refused b.appended b.records.length error))
  | .done =>
    if b.rest ≠ [] then none
    else if b.appended = b.records.length then some .written
    else some (.failed (.incomplete b.appended b.records.length))

/-- A batch with records, of which the lines that the writer took and the others are the texts. -/
structure Whole (b : Batch) : Prop where
  some_record : b.records ≠ []
  lines : b.appended + b.rest.length = (b.records.filterMap Record.encode).length

theorem whole_ofRecords {records : List Record} (deadline : Instant) (hrecords : records ≠ []) :
    (ofRecords records deadline).Whole :=
  ⟨hrecords, Nat.zero_add _⟩

variable {b : Batch}

theorem Whole.take {line : String} {rest : List String} (hb : b.Whole)
    (hrest : b.rest = line :: rest) :
    { b with rest, appended := b.appended + 1 : Batch }.Whole where
  some_record := hb.some_record
  lines := by
    have hlines := hb.lines
    rw [hrest, List.length_cons] at hlines
    show b.appended + 1 + rest.length = (b.records.filterMap Record.encode).length
    omega

/-- If the writer took as many lines as there are records, each record has a text. -/
theorem Whole.texts (hb : b.Whole) (hrest : b.rest = []) (hall : b.appended = b.records.length) :
    ∀ r ∈ b.records, (Record.encode r).isSome = true := by
  -- as many records have a text as there are records
  have hlines := hb.lines
  rw [hrest, List.length_nil, Nat.add_zero, hall] at hlines
  exact List.filterMap_length_eq_length.mp hlines.symm

end Batch

namespace Sink

variable {settings : SinkSettings} {t₀ t : Instant} {h : List Act} {clock : WallClock}
  {now : Instant} {s s' : Sink} {a : Action} {w : FlushAction} {o : SinkOutcome} {call : CallId}
  {mayDrop : Bool} {b : Batch} {post : Post} {fault : FlushFault} {e : Ending}

/-! ## Batches -/

/-- The batch at the writer. -/
def atWriter (s : Sink) : Option Batch :=
  match s.flushing? with
  | some (.writing b) => some b
  | some (.alerting _ _) | none => none

/-- The batch that an action ends, and how. -/
def endingBy (s : Sink) (a : Action) : Option (Batch × Ending) :=
  s.atWriter.bind fun b =>
    match a with
    | .worker (.reply r) => (b.endingOf r).map (b, ·)
    | .worker .runOut => some (b, .failed (.late b.records.length s.settings.writeTimeout))
    | _ => none

/-- The batch that an act begins. -/
def Act.begun? (m : Act) : Option Batch :=
  if m.found.atWriter.isNone then m.outcome.sink.atWriter else none

/-- The batch that an act ends, and how. -/
def Act.ending? (m : Act) : Option (Batch × Ending) := m.found.endingBy m.action

def begun (h : List Act) : List Batch := h.filterMap Act.begun?

/-- The batches that ended, in order, and how. -/
def endings (h : List Act) : List (Batch × Ending) := h.filterMap Act.ending?

theorem begun_append_singleton (m : Act) : begun (h ++ [m]) = begun h ++ m.begun?.toList := by
  cases hm : m.begun? <;> simp [begun, hm]

theorem endings_append_singleton (m : Act) :
    endings (h ++ [m]) = endings h ++ m.ending?.toList := by
  cases hm : m.ending? <;> simp [endings, hm]

theorem atWriter_eq_some : s.atWriter = some b ↔ s.flushing? = some (.writing b) := by
  unfold atWriter
  split <;> simp_all

theorem atWriter_of_busy (hp : s.worker.place = post.busy (.writing b)) : s.atWriter = some b :=
  atWriter_eq_some.mpr (flushing_of_busy hp)

theorem atWriter_of_place (hp : s'.worker.place = s.worker.place) : s'.atWriter = s.atWriter := by
  simp only [atWriter, flushing?, hp]

theorem endingBy_eq_none (hidle : s.atWriter = none) : s.endingBy a = none := by
  rw [endingBy, hidle]
  rfl

theorem endingBy_of_caller (ha : ∀ w, a ≠ .worker w) : s.endingBy a = none := by
  unfold endingBy
  cases s.atWriter with
  | none => rfl
  | some b =>
      cases a with
      | worker w => exact absurd rfl (ha w)
      | offer | shutDown | resume | flush | enable | disable => rfl

theorem endingBy_reply (hb : s.atWriter = some b) (r : WriterReply) :
    s.endingBy (.worker (.reply r)) = (b.endingOf r).map (b, ·) := by
  rw [endingBy, hb]
  rfl

theorem endingBy_of_failureBy (hfail : s.failureBy a = some (b, fault)) :
    s.endingBy a = some (b, .failed fault) := by
  unfold failureBy at hfail
  split at hfail
  · next b' error hf =>
      cases hfail
      rw [endingBy_reply (atWriter_eq_some.mpr hf)]
      rfl
  · next b' hf =>
      split at hfail
      · next hall =>
          cases hfail
          rw [endingBy_reply (atWriter_eq_some.mpr hf)]
          simp [Batch.endingOf, hall]
      · cases hfail
  · next b' hf =>
      cases hfail
      rw [endingBy, atWriter_eq_some.mpr hf]
      rfl
  · cases hfail

/-! ## One action -/

def SameCount (s s' : Sink) : Prop := s'.written = s.written ∧ s'.failedFlushes = s.failedFlushes

/-- What an action does to the batch at the writer. -/
inductive Handover (now : Instant) (s : Sink) (a : Action) (s' : Sink) : Prop where
  /-- Nothing. -/
  | keep (hnone : s.endingBy a = none) (hsame : s'.atWriter = s.atWriter)
      (hcount : SameCount s s')
  /-- The writer takes a line. -/
  | take (b : Batch) (line : String) (rest : List String) (hnone : s.endingBy a = none)
      (hb : s.atWriter = some b) (hrest : b.rest = line :: rest)
      (hb' : s'.atWriter = some { b with rest, appended := b.appended + 1 })
      (hcount : SameCount s s')
  /-- A batch is made of all that is in the buffer. -/
  | begin (hidle : s.atWriter = none)
      (hb' : s'.atWriter = some (.ofRecords s.buffer.items (s.patience now)))
      (hitems : s.buffer.items ≠ []) (hempty : s'.buffer.items = [])
      (hfirst : s.failedFlushes = 0) (hcount : SameCount s s')
  | finish (b : Batch) (e : Ending) (hb : s.atWriter = some b)
      (hend : s.endingBy a = some (b, e)) (hb' : s'.atWriter = none) (hbook : e.Booked b s s')

theorem Handover.idle (hidle : s.atWriter = none) (hidle' : s'.atWriter = none)
    (hcount : SameCount s s') : Handover now s a s' :=
  .keep (endingBy_eq_none hidle) (hidle'.trans hidle.symm) hcount

theorem Handover.fail (hp : s.worker.place = post.busy (.writing b))
    (hfail : s.failureBy a = some (b, fault)) (hb' : s'.atWriter = none)
    (hbook : (Ending.failed fault).Booked b s s') : Handover now s a s' :=
  .finish b _ (atWriter_of_busy hp) (endingBy_of_failureBy hfail) hb' hbook

/-- An offer has no business with the batch at the writer. -/
theorem Offering.aloof (ho : Offering s call mayDrop o) :
    o.sink.atWriter = s.atWriter ∧ SameCount s o.sink := by
  have hsame := ho.untouched
  exact ⟨atWriter_of_place (congrArg _ hsame.worker), hsame.written, hsame.failedFlushes⟩

/-- The flush worker begins a batch, hands it to the writer line by line, and settles it. -/
theorem Stride.handover (hs : Steady s) (hwhole : ∀ b, s.atWriter = some b → b.Whole)
    (h : Stride clock now s w o) : Handover now s (.worker w) o.sink := by
  have hplace := hs.place
  have hdrained := hs.unpolled.drain.2.1
  cases h with
  | rest aside ends hp | heed aside hp | quit ends hp | idle _ ends signal hp
  | warned _ reason deadline es hp | clearIdle hp | clearFatal m hp
  | close _ reason deadline es hp =>
      exact .idle (by simp [atWriter, flushing?, hp]) rfl ⟨rfl, rfl⟩
  | begin _ ends signal es hp hes ha hitems =>
      rw [hp] at hplace
      exact .begin (by simp [atWriter, flushing?, hp]) rfl hitems hdrained hplace ⟨rfl, rfl⟩
  | beginLast es hp hes hitems =>
      rw [hp] at hplace
      exact .begin (by simp [atWriter, flushing?, hp]) rfl hitems hdrained hplace.2 ⟨rfl, rfl⟩
  | take post b line rest es hp hrest =>
      have hb := atWriter_of_busy hp
      refine .take b line rest ?_ hb hrest (atWriter_of_busy rfl) ⟨rfl, rfl⟩
      rw [endingBy_reply hb]
      simp [Batch.endingOf, hrest]
  | deliver b es hp hrest hall | deliverLast b es hp hrest hall =>
      have hb := atWriter_of_busy hp
      refine .finish b .written hb ?_ rfl ⟨rfl, rfl, rfl, (hwhole b hb).texts hrest hall⟩
      rw [endingBy_reply hb]
      simp [Batch.endingOf, hrest, hall]
  | strike _ b fault es hp hfail hup =>
      exact .fail hp hfail rfl ⟨rfl, rfl, rfl, fun _ => rfl⟩
  | giveUp _ b fault es hp hfail hdown =>
      exact .fail hp hfail rfl ⟨rfl, rfl, hdown, fun hup => absurd hdown (by simp [hup])⟩
  | giveUpLast _ b fault es hp hfail =>
      rw [hp] at hplace
      exact .fail hp hfail rfl ⟨rfl, rfl, hplace.1, fun hup => absurd hplace.1 (by simp [hup])⟩
  | lose b hp =>
      have hb := atWriter_of_busy hp
      exact .finish b .lost hb (endingBy_reply hb .panicked) rfl ⟨rfl, rfl, rfl, .inl rfl⟩
  | loseLast b hp =>
      have hb := atWriter_of_busy hp
      exact .finish b .lost hb (endingBy_reply hb .panicked) rfl ⟨rfl, rfl, rfl, .inr rfl⟩

theorem Motion.handover (hs : Steady s) (hwhole : ∀ b, s.atWriter = some b → b.Whole)
    (h : Motion clock now s a o) : Handover now s a o.sink := by
  cases h with
  | offer content permitWait slotWait mayDrop o ho =>
      obtain ⟨hsame, hcount⟩ := ho.aloof
      exact .keep (endingBy_of_caller (by simp)) hsame hcount
  | offerOn call e mayDrop o hc he ho =>
      obtain ⟨hsame, hcount⟩ := ho.aloof
      exact .keep (endingBy_of_caller (by simp)) hsame hcount
  | shutDown reason | shutDownWaits reason deadline =>
      obtain ⟨_, _, -, heq⟩ := s.dismissed_eq reason
      refine .keep (endingBy_of_caller (by simp)) (atWriter_of_place ?_) ?_ <;>
        simp only [answer, await, heq]
      · rfl
      · exact ⟨rfl, rfl⟩
  | stopSeen | flush | enable | disable =>
      exact .keep (endingBy_of_caller (by simp)) rfl ⟨rfl, rfl⟩
  | worker w o ho => exact ho.handover hs hwhole

theorem Handover.whole (hover : Handover now s a s') (hwhole : ∀ b, s.atWriter = some b → b.Whole) :
    ∀ b, s'.atWriter = some b → b.Whole := by
  intro b hb
  cases hover with
  | keep hnone hsame => exact hwhole b (hsame ▸ hb)
  | take b₀ line rest hnone hb₀ hrest hb' =>
      -- a line goes from those that are left to those that were taken
      obtain rfl := Option.some.inj (hb'.symm.trans hb)
      exact (hwhole b₀ hb₀).take hrest
  | begin hidle hb' hitems =>
      obtain rfl := Option.some.inj (hb'.symm.trans hb)
      exact Batch.whole_ofRecords _ hitems
  | finish b₀ e hb₀ hend hb' => exact absurd hb (by simp [hb'])

/-- A batch that was at the writer, or is begun, ends or is there still. -/
theorem Handover.flow (hover : Handover now s a o.sink) (t : Instant) :
    s.atWriter.toList.map (·.records) ++ (Act.begun? ⟨⟨s, o⟩, t, a⟩).toList.map (·.records) =
      (s.endingBy a).toList.map (·.1.records) ++ o.sink.atWriter.toList.map (·.records) := by
  cases hover with
  | keep hnone hsame => cases hb : s.atWriter <;> simp [Act.begun?, hnone, hsame, hb]
  | take b line rest hnone hb hrest hb' => simp [Act.begun?, hnone, hb, hb']
  | begin hidle hb' => simp [Act.begun?, endingBy_eq_none hidle, hidle, hb']
  | finish b e hb hend hb' => simp [Act.begun?, hb, hend, hb']

/-- The counters of a sink count batches that end. -/
theorem Handover.counted (hover : Handover now s a s') :
    s'.written = s.written + ((s.endingBy a).toList.flatMap fun x => x.2.delivered x.1).length ∧
      s'.failedFlushes = s.failedFlushes + (s.endingBy a).toList.countP (·.2.isFailure) := by
  cases hover with
  | keep hnone _ hcount | take _ _ _ hnone _ _ _ hcount => simpa [hnone, SameCount] using hcount
  | begin hidle _ _ _ _ hcount => simpa [endingBy_eq_none hidle, SameCount] using hcount
  | finish b e _ hend _ hbook =>
      cases e <;> simpa [hend, Ending.delivered, Ending.isFailure] using ⟨hbook.1, hbook.2.1⟩

/-- A flush that failed is the last. -/
theorem Handover.last (hover : Handover now s a o.sink) (hf : s.failedFlushes ≠ 0) (t : Instant) :
    Act.begun? ⟨⟨s, o⟩, t, a⟩ = none := by
  cases hover with
  | keep hnone hsame => cases hb : s.atWriter <;> simp [Act.begun?, hsame, hb]
  | take b line rest hnone hb | finish b e hb => simp [Act.begun?, hb]
  | begin hidle hb' hitems hempty hfirst => exact absurd hfirst hf

/-- A sink in which a flush failed is down. -/
theorem Steady.isDown_of_failed (hs : Steady s) (hf : s.failedFlushes ≠ 0) : s.isDown = true := by
  have hplace := hs.place
  unfold Fits at hplace
  split at hplace
  all_goals first | exact hplace.1 | exact absurd hplace hf | exact hplace.elim

/-! ## Going on -/

theorem worker_failFlush : (s.failFlush clock now fault).2.sink.worker = s.worker := by
  have hsame := worker_bringDown (s := { s with failedFlushes := s.failedFlushes + 1 })
    fault.message
  simp only [failFlush]
  split
  · next heq => rwa [heq] at hsame
  · next heq =>
      rw [heq] at hsame
      split <;> exact hsame

theorem worker_afterReply (r : WriterReply) :
    (s.afterReply clock now b r).2.sink.worker = s.worker := by
  simp only [afterReply]
  split
  · rfl
  · rfl
  · exact worker_failFlush
  · rfl

/-- The worker can go on whatever a flush comes to. -/
theorem isSome_goOn {turn : FlushTurn × SinkOutcome} {f : Flushing}
    (hp : turn.2.sink.worker.place = post.busy f) : (goOn now turn).isSome = true := by
  obtain ⟨turn, o⟩ := turn
  cases turn with
  | underway f' => rw [goOn_underway hp, Option.isSome_some]
  | ended how =>
      cases post with
      | iteration => rw [goOn_iteration hp, inIteration_ended hp, Option.isSome_some]
      | hook =>
          rw [goOn_hook hp]
          by_cases hhow : how = .panicked
          · subst hhow
            have hp' : o.sink.worker.place = .leaving .stopRequested (.flushing f) := hp
            simp [inHook, put, Worker.finishHook, hp']
          · rw [inHook_ended hp hhow, Option.isSome_some]

/-- Whatever the writer replies, the flush worker takes it up. -/
theorem isSome_reply (hs : Steady s) (hb : s.atWriter = some b) (clock : WallClock)
    (r : WriterReply) : (s.step clock now (.worker (.reply r))).isSome = true := by
  have hf := atWriter_eq_some.mp hb
  obtain ⟨post, hp⟩ := hs.busy hf
  have hp' : (s.afterReply clock now b r).2.sink.worker.place = post.busy (.writing b) := by
    rw [worker_afterReply, hp]
  simp only [step, flushStep, hf]
  exact isSome_goOn hp'

/-- The wait for the writer can end from the deadline on. -/
theorem isSome_runOut (hs : Steady s) (hb : s.atWriter = some b) (clock : WallClock)
    (hdue : b.deadline ≤ now) : (s.step clock now (.worker .runOut)).isSome = true := by
  have hf := atWriter_eq_some.mp hb
  obtain ⟨post, hp⟩ := hs.busy hf
  simp only [step, flushStep, hf, runOut, Nat.not_lt.mpr hdue, if_false, Option.bind_some]
  have hp' : (s.failFlush clock now (.late b.records.length s.settings.writeTimeout)).2.sink.worker.place
      = post.busy (.writing b) := by
    rw [worker_failFlush, hp]
  exact isSome_goOn hp'

/-! ## A whole history -/

theorem History.whole (hist : History settings t₀ h t s) : ∀ b, s.atWriter = some b → b.Whole := by
  induction hist with
  | here => exact fun b hb => by cases hb
  | pass hist hle ih => exact ih
  | act hist hs ih => exact ((step_motion hist.steady hs).handover hist.steady ih).whole ih

theorem History.handover (hist : History settings t₀ h t s) (hs : s.step clock t a = some o) :
    Handover t s a o.sink :=
  (step_motion hist.steady hs).handover hist.steady hist.whole

/-- The batches that were begun are those that ended and the one at the writer. -/
theorem History.batches (hist : History settings t₀ h t s) :
    (begun h).map (·.records) =
      (endings h).map (·.1.records) ++ s.atWriter.toList.map (·.records) := by
  induction hist with
  | here => rfl
  | pass hist hle ih => exact ih
  | act hist hs ih =>
      rw [begun_append_singleton, endings_append_singleton, List.map_append, List.map_append, ih,
        List.append_assoc, List.append_assoc]
      exact congrArg _ ((hist.handover hs).flow _)

theorem History.tallied (hist : History settings t₀ h t s) :
    s.written = ((endings h).flatMap fun x => x.2.delivered x.1).length ∧
      s.failedFlushes = (endings h).countP (·.2.isFailure) := by
  induction hist with
  | here => exact ⟨rfl, rfl⟩
  | pass hist hle ih => exact ih
  | act hist hs ih =>
      obtain ⟨hwritten, hfailed⟩ := (hist.handover hs).counted
      rw [endings_append_singleton, List.flatMap_append, List.length_append, List.countP_append,
        ← ih.1, ← ih.2]
      exact ⟨hwritten, hfailed⟩

/-- What every motion of a steady sink keeps holds from the act on that brought it about. -/
theorem History.since {P : Sink → Prop}
    (hkeep : ∀ {h : List Act} {t : Instant} {s : Sink} {a : Action} {clock : WallClock}
      {o : SinkOutcome}, History settings t₀ h t s → s.step clock t a = some o → P s → P o.sink)
    (hist : History settings t₀ h t s) :
    (∀ m ∈ h, P m.outcome.sink → P s) ∧ h.Pairwise fun m m' => P m.outcome.sink → P m'.found := by
  induction hist with
  | here => exact ⟨fun m hm => absurd hm List.not_mem_nil, .nil⟩
  | pass hist hle ih => exact ih
  | act hist hs ih =>
      constructor
      · intro m hm hP
        rcases List.mem_append.mp hm with hm | hm
        · exact hkeep hist hs (ih.1 m hm hP)
        · obtain rfl := List.mem_singleton.mp hm
          exact hP
      · refine List.pairwise_append.mpr ⟨ih.2, List.pairwise_singleton _ _, ?_⟩
        intro m hm m' hm' hP
        obtain rfl := List.mem_singleton.mp hm'
        exact ih.1 m hm hP

/-- What becomes of a batch when it ends. -/
theorem History.booked (hist : History settings t₀ h t s) :
    ∀ m ∈ h, ∀ b e, m.ending? = some (b, e) → b.Whole ∧ e.Booked b m.found m.outcome.sink := by
  refine hist.each fun {h t s a clock o} hist hs b e hend => ?_
  have hend' : s.endingBy a = some (b, e) := hend
  cases hist.handover hs with
  | keep hnone | take _ _ _ hnone => exact absurd hend' (by simp [hnone])
  | begin hidle => exact absurd hend' (by simp [endingBy_eq_none hidle])
  | finish b₀ e₀ hb₀ hend₀ hb' hbook =>
      cases hend₀.symm.trans hend'
      exact ⟨hist.whole b hb₀, hbook⟩

/-- The whole batch counts as written, or its flush counts as failed and the sink is down. -/
def Accounted (b : Batch) (s s' : Sink) : Prop :=
  s'.written = s.written + b.records.length ∨
    s'.failedFlushes = s.failedFlushes + 1 ∧ s'.isDown = true

/-- A batch is accounted for unless the writer panicked over it. -/
theorem accounted_iff (hb : b.Whole) (hbook : e.Booked b s s') : Accounted b s s' ↔ e ≠ .lost := by
  cases e with
  | written => simp [Accounted, hbook.1]
  | failed fault => simp [Accounted, hbook.2.1, hbook.2.2.1]
  | lost =>
      -- a batch is never empty, so one that was lost cannot pass for written
      have hsome : b.records.length ≠ 0 := by simp [hb.some_record]
      simp [Accounted, hbook.1, hbook.2.1, hsome]

/-- What becomes of the batches of a sink. -/
structure Settled (h : List Act) (t : Instant) (s : Sink) : Prop where
  /-- A batch takes all that is in the buffer, of which there is something, and the writer has the
  write timeout for it. -/
  taken : ∀ m ∈ h, ∀ b, m.begun? = some b →
    b = .ofRecords m.found.buffer.items (m.found.patience m.now) ∧ m.found.buffer.items ≠ [] ∧
      m.outcome.sink.buffer.items = []
  /-- Each batch that was begun has ended, in the order in which they were begun, or is at the
  writer. -/
  batches : (begun h).map (·.records) =
    (endings h).map (·.1.records) ++ s.atWriter.toList.map (·.records)
  /-- A batch at the writer goes on or ends by any reply, and can end from its deadline on. -/
  progress : ∀ b, s.atWriter = some b → ∀ clock,
    (∀ r, (s.step clock t (.worker (.reply r))).isSome = true) ∧
      (b.deadline ≤ t → (s.step clock t (.worker .runOut)).isSome = true)
  /-- A batch that was written counts in full, and each of its records has a text.  One that failed
  counts as a failed flush, and the sink is down.  If the writer panicked nothing is counted, and
  the flush worker goes on, or is at its end if it was in the hook. -/
  booked : ∀ m ∈ h, ∀ b e, m.ending? = some (b, e) → e.Booked b m.found m.outcome.sink
  /-- A batch that ends is accounted for just when the writer did not panic. -/
  accounted : ∀ m ∈ h, ∀ b e, m.ending? = some (b, e) →
    (Accounted b m.found m.outcome.sink ↔ e ≠ .lost)
  /-- Nothing else is counted. -/
  counters : s.written = ((endings h).flatMap fun x => x.2.delivered x.1).length ∧
    s.failedFlushes = (endings h).countP (·.2.isFailure)
  /-- After a batch that failed the sink is down for good, and no batch is begun any more. -/
  final : (h.Pairwise fun m m' => (∃ b fault, m.ending? = some (b, .failed fault)) →
      m'.found.isDown = true ∧ m'.begun? = none) ∧
    ((∃ m ∈ h, ∃ b fault, m.ending? = some (b, .failed fault)) → s.isDown = true)

theorem History.taken (hist : History settings t₀ h t s) :
    ∀ m ∈ h, ∀ b, m.begun? = some b →
      b = .ofRecords m.found.buffer.items (m.found.patience m.now) ∧ m.found.buffer.items ≠ [] ∧
        m.outcome.sink.buffer.items = [] := by
  refine hist.each fun {h t s a clock o} hist hs b hbegun => ?_
  cases hist.handover hs with
  | keep hnone hsame => cases hb : s.atWriter <;> simp [Act.begun?, hsame, hb] at hbegun
  | take b₀ line rest hnone hb | finish b₀ e hb => simp [Act.begun?, hb] at hbegun
  | begin hidle hb' hitems hempty =>
      have hb : o.sink.atWriter = some b := by simpa [Act.begun?, hidle] using hbegun
      exact ⟨Option.some.inj (hb.symm.trans hb'), hitems, hempty⟩

/-- Along every history each batch is settled. -/
theorem History.batches_settled (hist : History settings t₀ h t s) : Settled h t s where
  taken := hist.taken
  batches := hist.batches
  progress _ hb clock :=
    ⟨isSome_reply hist.steady hb clock, isSome_runOut hist.steady hb clock⟩
  booked m hm b e hend := (hist.booked m hm b e hend).2
  accounted m hm b e hend := by
    obtain ⟨hb, hbook⟩ := hist.booked m hm b e hend
    exact accounted_iff hb hbook
  counters := hist.tallied
  final := by
    have hfailed : ∀ m ∈ h, (∃ b fault, m.ending? = some (b, .failed fault)) →
        m.outcome.sink.failedFlushes ≠ 0 := by
      rintro m hm ⟨b, fault, hend⟩
      obtain ⟨-, hmore, -⟩ := (hist.booked m hm b _ hend).2
      simp [hmore]
    have hlast : ∀ m ∈ h, m.found.failedFlushes ≠ 0 →
        m.found.isDown = true ∧ m.begun? = none :=
      hist.each fun hist hs hf => ⟨hist.steady.isDown_of_failed hf, (hist.handover hs).last hf _⟩
    -- the count of failed flushes never goes back, so what it excludes is excluded for good
    have hsince := hist.since (P := fun s => s.failedFlushes ≠ 0) fun hist hs hf => by
      rw [(hist.handover hs).counted.2]
      omega
    constructor
    · refine hsince.2.imp_of_mem fun {m m'} hm hm' hkept hend => ?_
      exact hlast m' hm' (hkept (hfailed m hm hend))
    · rintro ⟨m, hm, hend⟩
      exact hist.steady.isDown_of_failed (hsince.1 m hm (hfailed m hm hend))

/-- One batch is written.  In the next a record has no text, and another record waits in the
buffer when that flush fails. -/
def halfRead : List (Instant × Action) :=
  [(0, .offer (some (.text "a")) 0 0 false), (0, .flush), (0, .worker .turn), (0, .worker .notice),
    (1, .worker (.reply .done)), (1, .worker (.reply .done)),
    (2, .offer (some (.text "b")) 0 0 false), (2, .offer none 0 0 false), (2, .flush),
    (2, .worker .turn), (2, .worker .notice), (3, .offer (some (.text "c")) 0 0 false),
    (3, .worker (.reply .done)), (4, .worker (.reply .done)), (4, .worker .alertDone),
    (4, .worker .leave), (5, .worker (.reply .done))]

theorem settled_of_halfRead : ∃ h t s,
    enact (note ⟨0⟩) 0 (ofSettings {} 0) halfRead = some (h, t, s) ∧ Settled h t s ∧
      (endings h).map (fun x => (x.1.records.length, x.2)) =
        [(1, .written), (2, .failed (.incomplete 1 2))] ∧
      s.written = 1 ∧ s.failedFlushes = 1 ∧ s.isDown = true := by
  have hplay : (enact (note ⟨0⟩) 0 (ofSettings {} 0) halfRead).map (fun w =>
      ((endings w.1).map (fun x => (x.1.records.length, x.2)), w.2.2.written, w.2.2.failedFlushes,
        w.2.2.isDown)) =
      some ([(1, .written), (2, .failed (.incomplete 1 2))], 1, 1, true) := by
    decide +kernel
  obtain ⟨⟨h, t, s⟩, hp, hread⟩ := Option.map_eq_some_iff.mp hplay
  simp only [Prod.mk.injEq] at hread
  have hist : History {} 0 ([] ++ h) t s := History.here.enact hp
  exact ⟨h, t, s, hp, hist.batches_settled, hread⟩

/-- The writer panics over the first batch, and writes the second. -/
def startled : List (Instant × Action) :=
  [(0, .offer (some (.text "a")) 0 0 false), (0, .flush), (0, .worker .turn), (0, .worker .notice),
    (1, .worker (.reply .panicked)), (2, .offer (some (.text "b")) 0 0 false), (2, .flush),
    (2, .worker .turn), (2, .worker .notice), (3, .worker (.reply .done)),
    (3, .worker (.reply .done))]

/-- A batch can vanish: two records were accepted and one was written, nothing is left, no flush
failed, and the sink goes on. -/
theorem vanished_of_startled : ∃ h t s,
    enact (note ⟨0⟩) 0 (ofSettings {} 0) startled = some (h, t, s) ∧
      (¬ ∀ m ∈ h, ∀ b e, m.ending? = some (b, e) → Accounted b m.found m.outcome.sink) ∧
      (endings h).map (fun x => (x.1.records.length, x.2)) = [(1, .lost), (1, .written)] ∧
      s.offered = 2 ∧ s.written = 1 ∧ s.buffered = 0 ∧ s.failedFlushes = 0 ∧ s.isDown = false := by
  have hplay : (enact (note ⟨0⟩) 0 (ofSettings {} 0) startled).map (fun w =>
      ((endings w.1).map (fun x => (x.1.records.length, x.2)), w.2.2.offered, w.2.2.written,
        w.2.2.buffered, w.2.2.failedFlushes, w.2.2.isDown)) =
      some ([(1, .lost), (1, .written)], 2, 1, 0, 0, false) := by
    decide +kernel
  obtain ⟨⟨h, t, s⟩, hp, hread⟩ := Option.map_eq_some_iff.mp hplay
  simp only [Prod.mk.injEq] at hread
  have hist : History {} 0 ([] ++ h) t s := History.here.enact hp
  refine ⟨h, t, s, hp, fun hall => ?_, hread⟩
  have hmem : (1, Ending.lost) ∈ (endings h).map fun x => (x.1.records.length, x.2) := by
    rw [hread.1]
    exact List.mem_cons_self
  obtain ⟨⟨b, e⟩, hx, heq⟩ := List.mem_map.mp hmem
  obtain ⟨m, hm, hend⟩ := List.mem_filterMap.mp hx
  obtain ⟨hb, hbook⟩ := hist.booked m hm b e hend
  exact (accounted_iff hb hbook).mp (hall m hm b e hend) (congrArg Prod.snd heq)

end Sink

end Backpressure
