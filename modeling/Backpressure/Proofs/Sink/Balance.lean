import Backpressure.Proofs.Sink.Motions

/-!
# Where the records of a sink are

Each record that a sink accepted is in one of five places: it was written, it belonged to
a batch whose flush failed, it is in the batch under way, it is in the buffer, or it was
thrown away when the flush worker left.  `History.reconciled` says this for the records
themselves, in order, and the counters follow from it.

*One step.*  `Posting` is what an action does to these places.  `Motion.posting` proves it
for each action, and `Books.enter` adds it to what happened before.

*Panics.*  A writer that panics in a flush loses the batch, and the sink keeps no record
of it.  This is the one thing that is asked of the surroundings here.
-/

namespace Backpressure

open Telemetry (Record)

namespace Sink

variable {settings : SinkSettings} {t₀ t : Instant} {h : List Act} {clock : WallClock}
  {now : Instant} {s s' : Sink} {a : Action} {o : SinkOutcome} {b : Batch} {post : Post}

/-! ## Batches and places -/

theorem underway_of_busy (hp : s.worker.place = post.busy (.writing b)) :
    s.underway = b.records := by
  simp only [underway, flushing_of_busy hp]

/-- Only the flush worker ends a batch. -/
theorem no_end_of_caller (ha : ∀ w, a ≠ .worker w) :
    s.deliveredBy a = [] ∧ s.failureBy a = none := by
  constructor
  · unfold deliveredBy
    split
    · exact absurd rfl (ha _)
    · rfl
  · unfold failureBy
    split
    · exact absurd rfl (ha _)
    · exact absurd rfl (ha _)
    · exact absurd rfl (ha _)
    · rfl

/-- A flush that fails writes nothing. -/
theorem deliveredBy_of_failureBy {fault : FlushFault} (hf : s.failureBy a = some (b, fault)) :
    s.deliveredBy a = [] := by
  unfold failureBy at hf
  split at hf
  · next b' error hb => simp [deliveredBy, hb]
  · next b' hb =>
      split at hf
      · next hall => simp [deliveredBy, hb, hall]
      · cases hf
  · next b' hb => simp [deliveredBy, hb]
  · cases hf

theorem accepted_of_dealing {es : List SinkEvent} (hes : es.all SinkEvent.isDealing = true) :
    accepted es = [] :=
  filterMap_of_dealing (SinkEvent.read_dealing (fun _ => rfl) (fun _ => rfl) rfl) hes

theorem discarded_of_dealing {es : List SinkEvent} (hes : es.all SinkEvent.isDealing = true) :
    discarded es = [] := by
  refine List.flatMap_eq_nil_iff.mpr fun e he => ?_
  exact SinkEvent.read_dealing (fun _ => rfl) (fun _ => rfl) rfl e (List.all_eq_true.mp hes e he)

/-- What the hook says after a flush, when it clears the buffer of some records. -/
theorem clearance {es : List SinkEvent} (hes : es.all SinkEvent.isDealing = true)
    (rs : List Record) : accepted (es ++ [.discarded rs, .asked .close]) = [] ∧
      discarded (es ++ [.discarded rs, .asked .close]) = rs := by
  rw [accepted_append, discarded_append, accepted_of_dealing hes, discarded_of_dealing hes]
  exact ⟨rfl, List.append_nil rs⟩

/-- The hook has cleared the buffer. -/
def isCleared (s : Sink) : Bool :=
  match s.worker.place with
  | .leaving _ (.closing _) | .finished _ => true
  | .unstarted | .between _ | .inside _ | .leaving _ .start | .leaving _ (.flushing _) => false

/-- A sink whose buffer was cleared is down, and has no record left. -/
theorem Steady.empty (hs : Steady s) (hc : s.isCleared = true) :
    s.isDown = true ∧ s.underway = [] ∧ s.buffer.items = [] := by
  have hplace := hs.place
  unfold isCleared at hc
  split at hc
  · next why deadline hp =>
      rw [hp] at hplace
      have hfit : s.isDown = true ∧ s.failedFlushes ≤ 1 ∧ s.buffer.items = [] := by
        cases why <;> exact hplace
      exact ⟨hfit.1, by simp [underway, flushing?, hp], hfit.2.2⟩
  · next hp =>
      rw [hp] at hplace
      exact ⟨hplace.1, by simp [underway, flushing?, hp], hplace.2.2⟩
  all_goals cases hc

/-! ## One step -/

/-- The records that an action loses with their batch. -/
def lostBy (s : Sink) (a : Action) : List Record := (s.failureBy a).toList.flatMap (·.1.records)

/-- What an action does to the places of the records. -/
structure Posting (s : Sink) (a : Action) (o : SinkOutcome) : Prop where
  /-- What was there and came in is written, lost, still there, or thrown away. -/
  flow : s.underway ++ s.buffer.items ++ accepted o.events =
    s.deliveredBy a ++ s.lostBy a ++ o.sink.underway ++ o.sink.buffer.items ++ discarded o.events
  /-- Nothing comes in once the buffer was cleared. -/
  entry : s.isCleared = true → accepted o.events = []
  /-- Nothing is written after a flush that failed. -/
  order : s.failedFlushes ≠ 0 → s.deliveredBy a = []
  offered : o.sink.offered = s.offered + (accepted o.events).length
  written : o.sink.written = s.written + (s.deliveredBy a).length
  failed : o.sink.failedFlushes = s.failedFlushes + (s.failureBy a).toList.length
  /-- Records are thrown away only when the buffer is cleared. -/
  kept : o.sink.isCleared = false → s.isCleared = false ∧ discarded o.events = []
  /-- Records are thrown away only if a flush failed. -/
  cause : discarded o.events ≠ [] → o.sink.failedFlushes ≠ 0

/-- An action that ends no batch, takes nothing in and throws nothing away. -/
theorem Posting.still (hend : s.deliveredBy a = [] ∧ s.failureBy a = none)
    (hacc : accepted o.events = []) (hdis : discarded o.events = [])
    (hflow : s.underway ++ s.buffer.items = o.sink.underway ++ o.sink.buffer.items)
    (ho : o.sink.offered = s.offered) (hw : o.sink.written = s.written)
    (hf : o.sink.failedFlushes = s.failedFlushes)
    (hc : o.sink.isCleared = false → s.isCleared = false) : Posting s a o where
  flow := by simp [hend, hacc, hdis, hflow, lostBy]
  entry _ := hacc
  order _ := hend.1
  offered := by simp [ho, hacc]
  written := by simp [hw, hend]
  failed := by simp [hf, hend]
  kept h := ⟨hc h, hdis⟩
  cause h := absurd hdis h

/-- An action away from a batch, that leaves the buffer as it is. -/
theorem Posting.away (hidle : ∀ b, s.flushing? ≠ some (.writing b))
    (hacc : accepted o.events = []) (hdis : discarded o.events = [])
    (hu : o.sink.underway = []) (hi : o.sink.buffer.items = s.buffer.items)
    (ho : o.sink.offered = s.offered) (hw : o.sink.written = s.written)
    (hf : o.sink.failedFlushes = s.failedFlushes)
    (hc : o.sink.isCleared = false → s.isCleared = false) : Posting s a o := by
  obtain ⟨hnone, hend⟩ := no_end a hidle
  exact .still hend hacc hdis (by rw [hnone, hu, hi]) ho hw hf hc

/-- An action away from a batch, that makes one of all that is in the buffer. -/
theorem Posting.gather (hidle : ∀ b, s.flushing? ≠ some (.writing b))
    (hacc : accepted o.events = []) (hdis : discarded o.events = [])
    (hu : o.sink.underway = s.buffer.items) (hi : o.sink.buffer.items = [])
    (ho : o.sink.offered = s.offered) (hw : o.sink.written = s.written)
    (hf : o.sink.failedFlushes = s.failedFlushes)
    (hc : o.sink.isCleared = false → s.isCleared = false) : Posting s a o := by
  obtain ⟨hnone, hend⟩ := no_end a hidle
  exact .still hend hacc hdis (by simp [hnone, hu, hi]) ho hw hf hc

/-- An action that takes a record in. -/
theorem Posting.enter {r : Record} (hend : s.deliveredBy a = [] ∧ s.failureBy a = none)
    (hacc : accepted o.events = [r]) (hdis : discarded o.events = [])
    (hu : o.sink.underway = s.underway) (hi : o.sink.buffer.items = s.buffer.items ++ [r])
    (hopen : s.isCleared = false) (ho : o.sink.offered = s.offered + 1)
    (hw : o.sink.written = s.written) (hf : o.sink.failedFlushes = s.failedFlushes)
    (hc : o.sink.isCleared = false → s.isCleared = false) : Posting s a o where
  flow := by simp [hend, hacc, hdis, hu, hi, lostBy]
  entry h := by simp [hopen] at h
  order _ := hend.1
  offered := by simp [ho, hacc]
  written := by simp [hw, hend]
  failed := by simp [hf, hend]
  kept h := ⟨hc h, hdis⟩
  cause h := absurd hdis h

/-- An action away from a batch, that clears the buffer, in which there are records only if a
flush failed. -/
theorem Posting.clear (hidle : ∀ b, s.flushing? ≠ some (.writing b))
    (hacc : accepted o.events = []) (hdis : discarded o.events = s.buffer.items)
    (hgone : o.sink.underway = [] ∧ o.sink.buffer.items = [])
    (ho : o.sink.offered = s.offered) (hw : o.sink.written = s.written)
    (hf : o.sink.failedFlushes = s.failedFlushes) (hc : o.sink.isCleared = true)
    (hcause : s.buffer.items ≠ [] → s.failedFlushes ≠ 0) : Posting s a o := by
  have hend := no_end a hidle
  exact {
    flow := by simp [hend, hacc, hdis, hgone, lostBy]
    entry := fun _ => hacc
    order := fun _ => hend.2.1
    offered := by simp [ho, hacc]
    written := by simp [hw, hend]
    failed := by simp [hf, hend]
    kept := fun h => by simp [hc] at h
    cause := fun h => by simpa [hf] using hcause (hdis ▸ h) }

/-- A flush that fails, in the hook with the buffer empty. -/
theorem Posting.fail {fault : FlushFault} (hp : s.worker.place = post.busy (.writing b))
    (hfail : s.failureBy a = some (b, fault)) (hacc : accepted o.events = [])
    (hdis : discarded o.events = []) (hu : o.sink.underway = [])
    (hi : o.sink.buffer.items = s.buffer.items) (ho : o.sink.offered = s.offered)
    (hw : o.sink.written = s.written) (hf : o.sink.failedFlushes = s.failedFlushes + 1) :
    Posting s a o where
  flow := by
    simp [underway_of_busy hp, deliveredBy_of_failureBy hfail, lostBy, hfail, hacc, hdis, hu, hi]
  entry _ := hacc
  order _ := deliveredBy_of_failureBy hfail
  offered := by simp [ho, hacc]
  written := by simp [hw, deliveredBy_of_failureBy hfail]
  failed := by simp [hf, hfail]
  kept _ := ⟨by cases post <;> simp [isCleared, hp, Post.busy], hdis⟩
  cause h := absurd hdis h

/-- A batch that is written, in the hook with the buffer empty. -/
theorem Posting.deliver (hp : s.worker.place = post.busy (.writing b))
    (hd : s.deliveredBy a = b.records) (hf : s.failureBy a = none) (hfirst : s.failedFlushes = 0)
    (hacc : accepted o.events = []) (hdis : discarded o.events = []) (hu : o.sink.underway = [])
    (hi : o.sink.buffer.items = s.buffer.items) (ho : o.sink.offered = s.offered)
    (hw : o.sink.written = s.written + b.records.length)
    (hff : o.sink.failedFlushes = s.failedFlushes) : Posting s a o where
  flow := by simp [underway_of_busy hp, hd, lostBy, hf, hacc, hdis, hu, hi]
  entry _ := hacc
  order h := absurd hfirst h
  offered := by simp [ho, hacc]
  written := by simp [hw, hd]
  failed := by simp [hff, hf]
  kept _ := ⟨by cases post <;> simp [isCleared, hp, Post.busy], hdis⟩
  cause h := absurd hdis h

theorem Offering.posting {call : CallId} {mayDrop : Bool} (hs : Steady s)
    (ha : ∀ w, a ≠ .worker w) (ho : Offering s call mayDrop o) : Posting s a o := by
  have hend := no_end_of_caller (s := s) ha
  cases ho with
  | refuse s' why haside hwhy =>
      obtain ⟨_, _, _, _, _, _, rfl⟩ := haside
      simp only [Sink.refuse]
      split <;> exact .still hend rfl rfl rfl rfl rfl rfl id
  | wait s' e haside he =>
      obtain ⟨_, _, _, _, _, _, rfl⟩ := haside
      exact .still hend rfl rfl rfl rfl rfl rfl id
  | accept s' r haside hup =>
      obtain ⟨_, _, _, _, _, _, rfl⟩ := haside
      refine .enter hend rfl rfl rfl rfl ?_ rfl rfl rfl id
      cases hc : s.isCleared with
      | false => rfl
      | true => exact absurd (hs.empty hc).1 (by simp [hup])

/-- The flush worker moves records on, unless the writer panics. -/
theorem Stride.posting {w : FlushAction} (hs : Steady s)
    (hcalm : ∀ b, s.flushing? = some (.writing b) → w ≠ .reply .panicked)
    (h : Stride clock now s w o) : Posting s (.worker w) o := by
  have hplace := hs.place
  have hdrained := hs.unpolled.drain.2.1
  cases h with
  | rest aside ends hp hstop =>
      exact .away (by simp [flushing?, hp]) rfl rfl rfl rfl rfl rfl rfl
        (fun _ => by simp [isCleared, hp])
  | heed aside hp hstop =>
      exact .away (by simp [flushing?, hp]) rfl rfl rfl rfl rfl rfl rfl
        (fun _ => by simp [isCleared, hp])
  | quit ends hp =>
      exact .away (by simp [flushing?, hp]) rfl rfl rfl rfl rfl rfl rfl
        (fun _ => by simp [isCleared, hp])
  | idle w ends signal hp hitems ha =>
      exact .away (by simp [flushing?, hp]) rfl rfl rfl (hdrained.trans hitems.symm) rfl rfl rfl
        (fun _ => by simp [isCleared, hp])
  | begin w ends signal es hp hes ha =>
      exact .gather (by simp [flushing?, hp]) (accepted_of_dealing hes) (discarded_of_dealing hes)
        rfl hdrained rfl rfl rfl (fun _ => by simp [isCleared, hp])
  | beginLast es hp hes =>
      exact .gather (by simp [flushing?, hp]) (accepted_of_dealing hes) (discarded_of_dealing hes)
        rfl hdrained rfl rfl rfl (fun _ => by simp [isCleared, hp])
  | take post b line rest es hp hrest hes =>
      have hf := flushing_of_busy hp
      have hu : (s.goTo (post.busy (.writing { b with rest, appended := b.appended + 1 }))).underway
          = s.underway := by
        rw [underway_of_busy hp]
        exact underway_of_busy (b := { b with rest, appended := b.appended + 1 }) rfl
      refine .still ⟨by simp [deliveredBy, hf, hrest], by simp [failureBy, hf, hrest]⟩
        (accepted_of_dealing hes) (discarded_of_dealing hes) ?_ rfl rfl rfl
        (fun _ => by cases post <;> simp [isCleared, hp, Post.busy])
      rw [hu]
      rfl
  | deliver b es hp hrest hall hes =>
      have hf := flushing_of_busy hp
      rw [hp] at hplace
      exact .deliver hp (by simp [deliveredBy, hf, hrest, hall])
        (by simp [failureBy, hf, hrest, hall]) hplace (accepted_of_dealing hes)
        (discarded_of_dealing hes) rfl rfl rfl rfl rfl
  | deliverLast b es hp hrest hall hes =>
      have hf := flushing_of_busy hp
      rw [hp] at hplace
      obtain ⟨hacc, hdis⟩ := clearance hes s.buffer.items
      exact .deliver hp (by simp [deliveredBy, hf, hrest, hall])
        (by simp [failureBy, hf, hrest, hall]) hplace.2.1 hacc (hdis.trans hplace.2.2) rfl
        hplace.2.2.symm rfl rfl rfl
  | strike w b fault es hp hfail hup hes =>
      refine .fail hp hfail ?_ ?_ rfl rfl rfl rfl rfl
      · rw [accepted_append, accepted_of_dealing hes]
        rfl
      · rw [discarded_append, discarded_of_dealing hes]
        rfl
  | giveUp w b fault es hp hfail hdown hes =>
      exact .fail hp hfail (accepted_of_dealing hes) (discarded_of_dealing hes) rfl rfl rfl rfl rfl
  | giveUpLast w b fault es hp hfail hes =>
      rw [hp] at hplace
      obtain ⟨hacc, hdis⟩ := clearance hes s.buffer.items
      exact .fail hp hfail hacc (hdis.trans hplace.2.2) rfl hplace.2.2.symm rfl rfl rfl
  | lose b hp => exact absurd rfl (hcalm b (flushing_of_busy hp))
  | loseLast b hp => exact absurd rfl (hcalm b (flushing_of_busy hp))
  | warned w reason deadline es hp hes =>
      exact .away (by simp [flushing?, hp]) (accepted_of_dealing hes) (discarded_of_dealing hes)
        rfl rfl rfl rfl rfl (fun _ => by simp [isCleared, hp])
  | clearIdle hp hitems =>
      exact .clear (by simp [flushing?, hp]) rfl (by rw [hitems]; rfl) ⟨rfl, rfl⟩ rfl rfl
        rfl rfl (fun h => absurd hitems h)
  | clearFatal m hp =>
      rw [hp] at hplace
      exact .clear (by simp [flushing?, hp]) rfl (List.append_nil _) ⟨rfl, rfl⟩ rfl rfl
        rfl rfl (fun _ => by simp [hplace.2])
  | close w reason deadline es hp hes =>
      exact .away (by simp [flushing?, hp]) (accepted_of_dealing hes) (discarded_of_dealing hes)
        rfl rfl rfl rfl rfl (fun hc => by cases hc)

/-- An action moves records on, unless the writer panics. -/
theorem Motion.posting (hs : Steady s)
    (hcalm : ∀ b, s.flushing? = some (.writing b) → a ≠ .worker (.reply .panicked))
    (h : Motion clock now s a o) : Posting s a o := by
  cases h with
  | offer content permitWait slotWait mayDrop o ho =>
      have hnamed : Steady s.named := { hs with }
      have hposting : Posting s.named _ o := ho.posting (a := .offer content permitWait slotWait
        mayDrop) hnamed (by simp)
      exact { hposting with }
  | offerOn call e mayDrop o hc he ho => exact ho.posting hs (by simp)
  | shutDown reason =>
      obtain ⟨_, _, hitems, heq⟩ := s.dismissed_eq reason
      rw [heq]
      exact .still (no_end_of_caller (by simp)) rfl rfl (congrArg _ hitems.symm) rfl rfl rfl id
  | shutDownWaits reason deadline =>
      obtain ⟨_, _, hitems, heq⟩ := s.dismissed_eq reason
      rw [heq]
      exact .still (no_end_of_caller (by simp)) rfl rfl (congrArg _ hitems.symm) rfl rfl rfl id
  | stopSeen call initiated deadline hc =>
      exact .still (no_end_of_caller (by simp)) rfl rfl rfl rfl rfl rfl id
  | flush => exact .still (no_end_of_caller (by simp)) rfl rfl rfl rfl rfl rfl id
  | enable => exact .still (no_end_of_caller (by simp)) rfl rfl rfl rfl rfl rfl id
  | disable => exact .still (no_end_of_caller (by simp)) rfl rfl rfl rfl rfl rfl id
  | worker w o ho => exact ho.posting hs (fun b hb hw => hcalm b hb (congrArg _ hw))

/-! ## A whole history -/

/-- Where the records are that a sink accepted, and what its counters say. -/
structure Books (h : List Act) (s : Sink) : Prop where
  places : accepted (seen h) =
    delivered h ++ lost h ++ s.underway ++ s.buffer.items ++ discarded (seen h)
  offered : s.offered = (accepted (seen h)).length
  written : s.written = (delivered h).length
  failed : s.failedFlushes = (failures h).length
  kept : s.isCleared = false → discarded (seen h) = []
  cause : discarded (seen h) ≠ [] → s.failedFlushes ≠ 0

theorem Books.lost_eq_nil (hb : Books h s) (hf : s.failedFlushes = 0) : lost h = [] := by
  have hnone : failures h = [] := List.length_eq_zero_iff.mp (hb.failed ▸ hf)
  simp [lost, hnone]

theorem Books.places_post (hb : Books h s) (hs : Steady s) (hp : Posting s a o) :
    accepted (seen h) ++ accepted o.events =
      (delivered h ++ s.deliveredBy a) ++ (lost h ++ s.lostBy a) ++ o.sink.underway
        ++ o.sink.buffer.items ++ (discarded (seen h) ++ discarded o.events) := by
  have hflow := hp.flow
  -- a batch is written before any is lost
  have hswap : s.deliveredBy a ++ lost h = lost h ++ s.deliveredBy a := by
    by_cases hf : s.failedFlushes = 0
    · simp [hb.lost_eq_nil hf]
    · simp [hp.order hf]
  cases hc : s.isCleared with
  | false =>
      calc accepted (seen h) ++ accepted o.events
          = delivered h ++ lost h ++ (s.underway ++ s.buffer.items ++ accepted o.events) := by
            simp [hb.places, hb.kept hc]
        _ = delivered h ++ (lost h ++ s.deliveredBy a) ++ s.lostBy a ++ o.sink.underway
              ++ o.sink.buffer.items ++ discarded o.events := by
            simp [hflow]
        _ = _ := by simp [← hswap, hb.kept hc]
  | true =>
      -- nothing is left, so nothing happens to it
      obtain ⟨-, hu, hi⟩ := hs.empty hc
      rw [hu, hi, hp.entry hc] at hflow
      have hnone := hflow.symm
      simp only [List.append_eq_nil_iff, List.append_nil] at hnone
      simp [hb.places, hp.entry hc, hu, hi, hnone]

/-- What an action does is entered in the books. -/
theorem Books.enter (hb : Books h s) (hs : Steady s) (hp : Posting s a o) (t : Instant) :
    Books (h ++ [⟨⟨s, o⟩, t, a⟩]) o.sink where
  places := by
    simp only [seen_append_singleton, accepted_append, discarded_append,
      delivered_append_singleton, lost_append_singleton]
    exact hb.places_post hs hp
  offered := by
    rw [seen_append_singleton, accepted_append, List.length_append, ← hb.offered, hp.offered]
  written := by
    rw [delivered_append_singleton, List.length_append, ← hb.written, hp.written]
  failed := by
    rw [failures_append_singleton, List.length_append, ← hb.failed, hp.failed]
  kept hc := by
    obtain ⟨hbefore, hnone⟩ := hp.kept hc
    rw [seen_append_singleton, discarded_append, hb.kept hbefore, hnone]
    rfl
  cause hd := by
    rw [seen_append_singleton, discarded_append] at hd
    by_cases hnow : discarded o.events = []
    · have hbefore := hb.cause (by simpa [hnow] using hd)
      have hfailed := hp.failed
      omega
    · exact hp.cause hnow

theorem History.books (hist : History settings t₀ h t s) (hcalm : ∀ m ∈ h, m.Calm) :
    Books h s := by
  induction hist with
  | here => exact ⟨rfl, rfl, rfl, rfl, fun _ => rfl, fun hd => absurd rfl hd⟩
  | pass hist hle ih => exact ih hcalm
  | act hist hs ih =>
      have hbefore := ih fun m hm => hcalm m (List.mem_append_left _ hm)
      have hnow := hcalm _ (List.mem_append_right _ List.mem_cons_self)
      exact hbefore.enter hist.steady ((step_motion hist.steady hs).posting hist.steady hnow) _

/-- Every record that a sink accepted is accounted for. -/
structure Reconciled (h : List Act) (s : Sink) : Prop where
  /-- It was written, it was lost with its batch, it is in the batch under way or in the
  buffer, or it was thrown away; and so in the order in which the records came. -/
  places : accepted (seen h) =
    delivered h ++ lost h ++ s.underway ++ s.buffer.items ++ discarded (seen h)
  /-- The counters say how many came in, how many were written, and how many batches failed. -/
  counters : s.offered = (accepted (seen h)).length ∧ s.written = (delivered h).length ∧
    s.failedFlushes = (failures h).length
  balance : s.offered = s.written + s.buffered + s.underway.length + (lost h).length
    + (discarded (seen h)).length
  /-- At most one flush fails. -/
  failed : (failures h).length ≤ 1
  /-- Records are thrown away only when the flush worker leaves, after a flush that failed. -/
  thrownAway : discarded (seen h) ≠ [] → s.isCleared = true ∧ failures h ≠ []
  /-- A sink that stops without a flush that failed has written everything. -/
  whole : s.worker.phase = .stopped → failures h = [] → s.written = s.offered
  /-- Once the flush worker has stopped the buffer is empty. -/
  empty : s.worker.phase = .stopped → s.buffer.items = []
  /-- And so it stays. -/
  final : ∀ m ∈ h, m.found.worker.phase = .stopped →
    s.worker.phase = .stopped ∧ s.buffer.items = []

theorem Steady.isCleared_of_stopped (hs : Steady s) (hstop : s.worker.phase = .stopped) :
    s.isCleared = true := by
  obtain ⟨reason, hp⟩ := hs.phase.mp hstop
  simp [isCleared, hp]

/-- Along every history in which the writer does not panic in a flush, every record that was
accepted is accounted for. -/
theorem History.reconciled (hist : History settings t₀ h t s) (hcalm : ∀ m ∈ h, m.Calm) :
    Reconciled h s := by
  have hs := hist.steady
  have hb := hist.books hcalm
  have hfailed : (failures h).length ≤ 1 := hb.failed ▸ hs.failedFlushes_le
  have hbalance : s.offered = s.written + s.buffered + s.underway.length + (lost h).length
      + (discarded (seen h)).length := by
    rw [hb.offered, hb.written, hb.places]
    simp only [List.length_append, buffered, Queue.length]
    omega
  have hthrown : discarded (seen h) ≠ [] → s.isCleared = true ∧ failures h ≠ [] := by
    intro hd
    refine ⟨?_, fun hnone => hb.cause hd (by simp [hb.failed, hnone])⟩
    cases hc : s.isCleared with
    | true => rfl
    | false => exact absurd (hb.kept hc) hd
  have hempty : s.worker.phase = .stopped → s.buffer.items = [] := fun hstop =>
    (hs.empty (hs.isCleared_of_stopped hstop)).2.2
  refine ⟨hb.places, ⟨hb.offered, hb.written, hb.failed⟩, hbalance, hfailed, hthrown, ?_, hempty,
    ?_⟩
  · intro hstop hnone
    obtain ⟨-, hu, hi⟩ := hs.empty (hs.isCleared_of_stopped hstop)
    have hkept : discarded (seen h) = [] := Decidable.byContradiction fun hd =>
      (hthrown hd).2 hnone
    have hlost : lost h = [] := by simp [lost, hnone]
    rw [hbalance, buffered, Queue.length, hu, hi, hlost, hkept]
    rfl
  · intro m hm hstop
    have hnow := hist.keeps (P := fun s => s.worker.phase = .stopped)
      (fun hs hmotion hP => hmotion.stopped hs hP) m hm hstop
    exact ⟨hnow, hempty hnow⟩

/-- One record is written.  Then a sink is shut down with two records in a batch and one more in
the buffer, and the batch fails. -/
def brokenOff : List (Instant × Action) :=
  [(0, .offer (some (.text "a")) 0 0 false), (0, .flush), (0, .worker .turn), (0, .worker .notice),
    (1, .worker (.reply .done)), (2, .worker (.reply .done)),
    (3, .offer (some (.text "b")) 0 0 false), (3, .offer (some (.text "c")) 0 0 false),
    (3, .flush), (3, .worker .turn), (3, .worker .notice),
    (4, .offer (some (.text "d")) 0 0 false), (4, .shutDown "deploy"),
    (5, .worker (.reply (.failed .closed))), (5, .worker .leave), (6, .worker (.reply .done))]

theorem reconciled_of_brokenOff : ∃ h t s,
    enact (note ⟨0⟩) 0 (ofSettings {} 0) brokenOff = some (h, t, s) ∧ (∀ m ∈ h, m.Calm) ∧
      Reconciled h s ∧ s.offered = 4 ∧ s.written = 1 ∧ (lost h).length = 2 ∧
      (discarded (seen h)).length = 1 ∧ s.worker.phase = .stopped := by
  have hplay : (enact (note ⟨0⟩) 0 (ofSettings {} 0) brokenOff).map (fun w =>
      (w.2.2.offered, w.2.2.written, (lost w.1).length, (discarded (seen w.1)).length,
        w.2.2.worker.phase)) = some (4, 1, 2, 1, .stopped) := by
    decide +kernel
  obtain ⟨⟨h, t, s⟩, hp, hread⟩ := Option.map_eq_some_iff.mp hplay
  simp only [Prod.mk.injEq] at hread
  have hist : History {} 0 ([] ++ h) t s := History.here.enact hp
  have hcalm : ∀ m ∈ h, m.Calm := by
    intro m hm b _ hpanic
    have hmem := action_mem_of_enact hp m hm
    rw [hpanic] at hmem
    simp [brokenOff] at hmem
  exact ⟨h, t, s, hp, hcalm, hist.reconciled hcalm, hread⟩

end Sink

end Backpressure
