import Backpressure.Proofs.Sink.Run
import Backpressure.Telemetry.MemoryWriter

/-!
# What a sink persists

The writer is handed the texts of the accepted records one by one, in the order in
which they were accepted, without a gap and without a repetition, across batches.  A
batch that fails is the last, so nothing is appended behind the gap that it leaves.

*The invariant.*  `Course` says by stage where the accepted records are: those of
earlier batches, all appended and written; those of the batch under way, of which the
writer still has to take a line each from some point on; and those in the buffer.

`Run.persisted` is the result for any writer.  Its last field is about a writer that
keeps its lines in memory: what can be seen of it is such a beginning as well, even
though closing publishes what a failed batch left behind.
-/

namespace Backpressure

open Telemetry (MemoryWriter Record)

/-! ## A writer in memory -/

namespace Telemetry.MemoryWriter

/-- The writer does what it is asked for. -/
def serve (w : MemoryWriter) : WriterRequest → Except WriteError MemoryWriter
  | .append line => w.append line
  | .flush => w.flush
  | .close => w.close

/-- The writer does several things one after the other. -/
def replay (w : MemoryWriter) (requests : List WriterRequest) : Except WriteError MemoryWriter :=
  requests.foldlM serve w

/-- The lines that the writer took, whether they are visible or not. -/
def all (w : MemoryWriter) : List String := w.lines ++ w.pending

theorem all_serve {w w' : MemoryWriter} {r : WriterRequest} (h : w.serve r = .ok w') :
    w'.all = w.all ++ r.line?.toList := by
  have hflush : ∀ {v : MemoryWriter}, w.flush = .ok v → v.all = w.all := by
    intro v hv
    simp only [flush] at hv
    split at hv <;> cases hv
    simp [all]
  cases r with
  | append line =>
      simp only [serve, append] at h
      split at h
      · cases h
      · split at h <;> cases h
        simp [all, WriterRequest.line?]
  | flush => simpa [WriterRequest.line?] using hflush h
  | close =>
      simp only [serve, close] at h
      split at h
      · cases h
        simp [WriterRequest.line?]
      · cases hf : w.flush with
        | error e =>
            rw [hf] at h
            cases h
        | ok v =>
            rw [hf] at h
            cases h
            simpa [all, WriterRequest.line?] using hflush hf

/-- What the writer took is what it had and what it was handed. -/
theorem all_replay {w w' : MemoryWriter} {requests : List WriterRequest}
    (h : w.replay requests = .ok w') :
    w'.all = w.all ++ requests.filterMap WriterRequest.line? := by
  induction requests generalizing w with
  | nil =>
      cases h
      simp
  | cons r rest ih =>
      rw [replay, List.foldlM_cons] at h
      cases hr : w.serve r with
      | error e =>
          rw [hr] at h
          cases h
      | ok v =>
          rw [hr] at h
          rw [ih h, all_serve hr]
          cases hl : r.line? <;> simp [hl]

end Telemetry.MemoryWriter

namespace Sink

/-- A record whose content can be encoded has a text. -/
theorem isSome_encode {r : Record} (hr : r.content.isSome = true) :
    (Record.encode r).isSome = true := by
  simpa [Record.encode] using hr

theorem map_some_encode {records : List Record} (h : ∀ r ∈ records, r.content.isSome = true) :
    (records.filterMap Record.encode).map some =
      records.map Record.encode := by
  induction records with
  | nil => rfl
  | cons r rest ih =>
      obtain ⟨text, ht⟩ := Option.isSome_iff_exists.mp (isSome_encode (h r List.mem_cons_self))
      rw [List.filterMap_cons, ht, List.map_cons, List.map_cons, ht,
        ih fun q hq => h q (List.mem_cons_of_mem _ hq)]

/-! ## Where the accepted records are -/

/-- Where the accepted records are, given the lines that were appended and the parcels. -/
inductive Course (acc : List Record) (lines : List String) (ps : List Parcel) (p : Pipeline) :
    Prop where
  /-- They were written or are in the buffer. -/
  | ready (past : List Record) (hstage : p.stage = .ready) (hacc : acc = past ++ p.items)
      (hlines : lines.map some = past.map Record.encode)
      (hwritten : p.written = past.length)
  /-- Some are on their way to the writer. -/
  | writing (past : List Record) (b : Batch) (older : List Parcel)
      (hstage : p.stage = .writing b) (hacc : acc = past ++ b.records ++ p.items)
      (hlines : lines.map some ++ b.rest.map some =
        (past ++ b.records).map Record.encode)
      (htaken : lines.length = past.length + b.appended) (hwritten : p.written = past.length)
      (hps : ps = { records := b.records, taken := b.appended } :: older)
  /-- No line will be appended any more. -/
  | spent (hstage : p.stage = .spent)
      (hlines : lines.map some <+: acc.map Record.encode)
      (hlag : p.written < lines.length → p.down = true)

/-- What holds along a run. -/
structure Sound (acc : List Record) (lines : List String) (ps : List Parcel) (p : Pipeline) :
    Prop where
  texts : ∀ r ∈ acc, r.content.isSome = true
  legible : ∀ c ∈ p.calls, c.2.Legible
  written : p.written = Parcel.written ps
  course : Course acc lines ps p

variable {acc : List Record} {lines : List String} {ps : List Parcel} {p p' : Pipeline}
  {es : List SinkEvent}

theorem Course.prefix_lines (hc : Course acc lines ps p) :
    lines.map some <+: acc.map Record.encode := by
  cases hc with
  | ready past _ hacc hl =>
      have hbegin : past <+: acc := hacc ▸ List.prefix_append _ _
      rw [hl]
      exact hbegin.map _
  | writing past b _ _ hacc hl =>
      have hbegin : past ++ b.records <+: acc := hacc ▸ List.prefix_append _ _
      have hlines : lines.map some <+: (past ++ b.records).map Record.encode :=
        hl ▸ List.prefix_append _ _
      exact hlines.trans (hbegin.map _)
  | spent _ hl => exact hl

theorem length_of_texts {past : List Record} (hl : lines.map some = past.map Record.encode) :
    lines.length = past.length := by
  simpa using congrArg List.length hl

/-- More lines than records that count are there while a batch is under way, or in a sink that
is down. -/
theorem Course.lag (hc : Course acc lines ps p) (hlt : p.written < lines.length) :
    (∃ b, p.stage = .writing b) ∨ p.down = true := by
  cases hc with
  | writing _ b _ hstage => exact .inl ⟨b, hstage⟩
  | spent _ _ hlag => exact .inr (hlag hlt)
  | ready past _ _ hl hw =>
      rw [hw, length_of_texts hl] at hlt
      exact absurd hlt (Nat.lt_irrefl _)

theorem Sound.idle (h : Sound acc lines ps p) (hdown : p.down = true → p'.down = true)
    (hcalls : ∀ c ∈ p'.calls, c ∈ p.calls ∨ c.2.Legible)
    (hp : p' = { p with down := p'.down, calls := p'.calls }) : Sound acc lines ps p' := by
  have hstage : p'.stage = p.stage := by rw [hp]
  have hitems : p'.items = p.items := by rw [hp]
  have hwritten : p'.written = p.written := by rw [hp]
  refine ⟨h.texts, fun c hc => (hcalls c hc).elim (h.legible c) id, hwritten ▸ h.written, ?_⟩
  cases h.course with
  | ready past hst hacc hl hw =>
      exact .ready past (hstage ▸ hst) (hitems ▸ hacc) hl (hwritten ▸ hw)
  | writing past b older hst hacc hl ht hw hps =>
      exact .writing past b older (hstage ▸ hst) (hitems ▸ hacc) hl ht (hwritten ▸ hw) hps
  | spent hst hl hlag => exact .spent (hstage ▸ hst) hl fun hlt => hdown (hlag (hwritten ▸ hlt))

theorem Sound.accept {r : Record} (h : Sound acc lines ps p) (hr : r.content.isSome = true)
    (hcalls : ∀ c ∈ p'.calls, c ∈ p.calls)
    (hp : p' = { p with items := p.items ++ [r], calls := p'.calls }) :
    Sound (acc ++ [r]) lines ps p' := by
  have hstage : p'.stage = p.stage := by rw [hp]
  have hitems : p'.items = p.items ++ [r] := by rw [hp]
  have hwritten : p'.written = p.written := by rw [hp]
  have hdown : p'.down = p.down := by rw [hp]
  refine ⟨?_, fun c hc => h.legible c (hcalls c hc), hwritten ▸ h.written, ?_⟩
  · intro q hq
    rcases List.mem_append.mp hq with hold | hnew
    · exact h.texts q hold
    · rwa [List.mem_singleton.mp hnew]
  · cases h.course with
    | ready past hst hacc hl hw =>
        refine .ready past (hstage ▸ hst) ?_ hl (hwritten ▸ hw)
        rw [hacc, hitems, List.append_assoc]
    | writing past b older hst hacc hl ht hw hps =>
        refine .writing past b older (hstage ▸ hst) ?_ hl ht (hwritten ▸ hw) hps
        rw [hacc, hitems, List.append_assoc _ p.items]
    | spent hst hl hlag =>
        refine .spent (hstage ▸ hst) ?_ (by rwa [hwritten, hdown])
        rw [List.map_append]
        exact hl.trans (List.prefix_append _ _)

/-- A parcel that was not flushed does not count. -/
theorem written_unflushed (records : List Record) (n : Nat) :
    Parcel.written ({ records, taken := n } :: ps) = Parcel.written ps :=
  Parcel.written_incomplete (by simp [Parcel.isComplete])

theorem Sound.begin {records : List Record} {deadline : Instant} (h : Sound acc lines ps p)
    (hready : p.stage = .ready) (hitems : p.items = records ++ p'.items)
    (hp : p' = { p with
      items := p'.items, stage := .writing (Batch.ofRecords records deadline) }) :
    Sound acc lines ({ records } :: ps) p' := by
  have hstage : p'.stage = .writing (Batch.ofRecords records deadline) := by rw [hp]
  have hwritten : p'.written = p.written := by rw [hp]
  have hcalls : p'.calls = p.calls := by rw [hp]
  cases h.course with
  | writing past b older hst => simp [hready] at hst
  | spent hst => simp [hready] at hst
  | ready past _ hacc hl hw =>
      have hlegible : ∀ r ∈ records, r.content.isSome = true := by
        intro r hr
        refine h.texts r ?_
        rw [hacc, hitems]
        simp [hr]
      refine ⟨h.texts, hcalls ▸ h.legible, ?_, ?_⟩
      · rw [written_unflushed, hwritten, h.written]
      · refine .writing past (Batch.ofRecords records deadline) ps hstage ?_ ?_ ?_
          (hwritten ▸ hw) rfl
        · rw [hacc, hitems]
          simp [Batch.ofRecords]
        · rw [hl, List.map_append]
          exact congrArg _ (map_some_encode hlegible)
        · exact length_of_texts hl

/-- While a batch is under way its records stand between those of the earlier batches, which
count as written, and the buffer; its parcel is the newest. -/
theorem Sound.of_writing {b : Batch} (h : Sound acc lines ps p) (hst : p.stage = .writing b) :
    ∃ past older, acc = past ++ b.records ++ p.items ∧
      lines.map some ++ b.rest.map some = (past ++ b.records).map Record.encode ∧
      lines.length = past.length + b.appended ∧ p.written = past.length ∧
      ps = { records := b.records, taken := b.appended } :: older ∧
      p.written = Parcel.written older := by
  cases h.course with
  | ready _ hst' | spent hst' => simp [hst] at hst'
  | writing past b' older hst' hacc hl ht hw hps =>
      obtain rfl : b = b' := by simpa [hst] using hst'
      refine ⟨past, older, hacc, hl, ht, hw, hps, ?_⟩
      rw [h.written, hps, written_unflushed]

/-- The writer takes a line of the batch. -/
theorem Sound.take {b : Batch} {line : String} {rest : List String} (h : Sound acc lines ps p)
    (hst : p.stage = .writing b) (hrest : b.rest = line :: rest)
    (hp : p' = { p with stage := .writing { b with rest, appended := b.appended + 1 } }) :
    Sound acc (lines ++ [line]) (Parcel.serve ps [.append line]) p' := by
  obtain ⟨past, older, hacc, hl, ht, hw, rfl, hcount⟩ := h.of_writing hst
  subst hp
  refine ⟨h.texts, h.legible, hcount.trans (written_unflushed _ _).symm, ?_⟩
  refine .writing past { b with rest, appended := b.appended + 1 } older rfl hacc ?_ ?_ hw rfl
  · rw [← hl, hrest]
    simp
  · rw [List.length_append, ht]
    rfl

/-- The batch is written. -/
theorem Sound.deliver {b : Batch} (h : Sound acc lines ps p) (hst : p.stage = .writing b)
    (hrest : b.rest = []) (hall : b.appended = b.records.length)
    (hnext : p'.stage = .ready ∧ p'.items = p.items ∨ p'.stage = .spent)
    (hp : p' = { p with
      items := p'.items, stage := p'.stage, written := p.written + b.records.length }) :
    Sound acc lines (Parcel.serve ps [.flush]) p' := by
  have hwritten : p'.written = p.written + b.records.length := by rw [hp]
  have hcalls : p'.calls = p.calls := by rw [hp]
  have horder := h.course.prefix_lines
  obtain ⟨past, older, hacc, hl, ht, hw, rfl, hcount⟩ := h.of_writing hst
  rw [hrest, List.map_nil, List.append_nil] at hl
  refine ⟨h.texts, hcalls ▸ h.legible, ?_, ?_⟩
  · have hcomplete : Parcel.isComplete
        { records := b.records, taken := b.appended, flushed := true } = true := by
      simp [Parcel.isComplete, hall]
    rw [hwritten, hcount, Nat.add_comm]
    exact (Parcel.written_complete hcomplete).symm
  · have hlength : lines.length = p'.written := by rw [hwritten, ht, hw, hall]
    rcases hnext with ⟨hready, hitems⟩ | hspent
    · refine .ready (past ++ b.records) hready (by rw [hitems, hacc]) hl ?_
      rw [hwritten, hw, List.length_append]
    · refine .spent hspent horder fun hlt => ?_
      omega

/-- The batch fails. -/
theorem Sound.lose {b : Batch} {requests : List WriterRequest} (h : Sound acc lines ps p)
    (hst : p.stage = .writing b)
    (hs : requests = [] ∨ requests = [.flush] ∧ b.appended ≠ b.records.length)
    (hp : p' = { p with items := p'.items, stage := .spent, down := true }) :
    Sound acc lines (Parcel.serve ps requests) p' := by
  have hstage : p'.stage = .spent := by rw [hp]
  have hwritten : p'.written = p.written := by rw [hp]
  have hdown : p'.down = true := by rw [hp]
  have hcalls : p'.calls = p.calls := by rw [hp]
  have horder := h.course.prefix_lines
  obtain ⟨past, older, -, -, -, -, rfl, hcount⟩ := h.of_writing hst
  refine ⟨h.texts, hcalls ▸ h.legible, ?_, .spent hstage horder fun _ => hdown⟩
  rw [hwritten, hcount]
  rcases hs with rfl | ⟨rfl, hmissing⟩
  · exact (written_unflushed _ _).symm
  · have hincomplete : Parcel.isComplete
        { records := b.records, taken := b.appended, flushed := true } = false := by
      simp [Parcel.isComplete, hmissing]
    exact (Parcel.written_incomplete hincomplete).symm

theorem Sound.leave {requests : List WriterRequest} (h : Sound acc lines ps p)
    (hnot : ∀ b, p.stage ≠ .writing b) (hs : requests = [] ∨ requests = [.close])
    (hp : p' = { p with items := p'.items, stage := .spent }) :
    Sound acc lines (Parcel.serve ps requests) p' := by
  have hstage : p'.stage = .spent := by rw [hp]
  have hwritten : p'.written = p.written := by rw [hp]
  have hdown : p'.down = p.down := by rw [hp]
  have hcalls : p'.calls = p.calls := by rw [hp]
  have hps : Parcel.serve ps requests = ps := by
    rcases hs with rfl | rfl
    · exact Parcel.serve_nil ps
    · exact Parcel.serve_close ps
  rw [hps]
  refine ⟨h.texts, hcalls ▸ h.legible, hwritten ▸ h.written, ?_⟩
  -- with no batch under way there is a lag only in a sink that is down already
  refine .spent hstage h.course.prefix_lines fun hlt => ?_
  rw [hwritten] at hlt
  rw [hdown]
  exact (h.course.lag hlt).resolve_left fun ⟨b, hb⟩ => hnot b hb

/-! ## One action and a whole run -/

theorem Sound.step (h : Sound acc lines ps p) (hd : Deed p es p') :
    Sound (acc ++ accepted es) (lines ++ appended es)
      (Parcel.opened p.stage p'.stage ++ Parcel.serve ps (served es)) p' := by
  have hsame : p'.stage = p.stage → Parcel.opened p.stage p'.stage = [] := by
    intro hstage
    rw [hstage]
    exact Parcel.opened_self p.stage
  have hspent : p'.stage = .spent → Parcel.opened p.stage p'.stage = [] := by
    intro hstage
    rw [hstage]
    exact Parcel.opened_spent p.stage
  have hbusy : ∀ b, p.stage = .writing b → Parcel.opened p.stage p'.stage = [] := by
    intro b hstage
    rw [hstage]
    rfl
  cases hd with
  | idle ha hs hdown hcalls hp =>
      rw [ha, appended, hs, hsame (by rw [hp])]
      simpa using h.idle hdown hcalls hp
  | accept r hr ha hs hcalls hp =>
      rw [ha, appended, hs, hsame (by rw [hp])]
      simpa using h.accept hr hcalls hp
  | begin records deadline hstage ha hs hitems hp =>
      have hopened : Parcel.opened p.stage p'.stage = [{ records }] := by
        rw [hp, hstage]
        rfl
      rw [ha, appended, hs, hopened]
      simpa using h.begin hstage hitems hp
  | take b line rest hstage hrest ha hs hp =>
      rw [ha, appended, hs, hbusy b hstage]
      simpa [WriterRequest.line?] using h.take hstage hrest hp
  | deliver b hstage hrest hall ha hs hnext hp =>
      have hnone : [WriterRequest.flush].filterMap WriterRequest.line? = [] := rfl
      rw [ha, appended, hs, hnone, hbusy b hstage]
      simpa using h.deliver hstage hrest hall hnext hp
  | lose b hstage ha hs hp =>
      have hnone : (served es).filterMap WriterRequest.line? = [] := by
        rcases hs with hs | ⟨hs, -⟩ <;> rw [hs] <;> rfl
      rw [ha, appended, hnone, hbusy b hstage]
      simpa using h.lose hstage hs hp
  | leave hstage ha hs hp =>
      have hnone : (served es).filterMap WriterRequest.line? = [] := by
        rcases hs with hs | hs <;> rw [hs] <;> rfl
      rw [ha, appended, hnone, hspent (by rw [hp])]
      simpa using h.leave hstage hs hp

variable {settings : SinkSettings} {t₀ t : Instant} {h : List Moment} {s : Sink}

theorem Run.sound (run : Run settings t₀ h t s) :
    Sound (accepted (events h)) (appended (events h)) (parcels h) s.pipeline := by
  induction run with
  | here =>
      refine ⟨?_, ?_, rfl, .ready [] rfl rfl rfl rfl⟩
      · intro r hr
        cases hr
      · intro c hc
        cases hc
  | act _ ha hs ih =>
      have hnext := ih.step (step_deed ih.legible ha hs)
      rw [events_append_singleton, parcels_append_singleton, accepted_append, appended_append]
      exact hnext
  | pass _ _ ih => exact ih

/-- A sink persists what it accepted, in order. -/
structure Persisted (h : List Moment) (s : Sink) : Prop where
  /-- Every accepted record has a text. -/
  texts : ∀ r ∈ accepted (events h), (Record.encode r).isSome = true
  /-- The lines that the writer took are the first texts of the accepted records. -/
  order : (appended (events h)).map some <+:
    (accepted (events h)).map Record.encode
  /-- The counter is the number of records of the batches for which the writer took every line
  and then flushed before it was given up. -/
  count : s.written = Parcel.written (parcels h)
  /-- Where fewer records count than lines were taken, a batch is under way or the sink is
  down. -/
  lag : s.written < (appended (events h)).length →
    (∃ b, s.flushing? = some (.writing b)) ∨ s.isDown = true
  /-- If the writer keeps its lines in memory, those that can be seen are the first texts of the
  accepted records. -/
  visible : ∀ w w' : MemoryWriter, w.lines = [] → w.pending = [] →
    w.replay (served (events h)) = .ok w' →
      w'.lines.map some <+: (accepted (events h)).map Record.encode

/-- Along every run a sink persists what it accepted, in order. -/
theorem Run.persisted (run : Run settings t₀ h t s) : Persisted h s := by
  have hsound := run.sound
  have horder := hsound.course.prefix_lines
  refine ⟨fun r hr => isSome_encode (hsound.texts r hr), horder, hsound.written, ?_, ?_⟩
  · intro hlt
    rcases hsound.course.lag hlt with ⟨b, hb⟩ | hdown
    · exact .inl ⟨b, stage_eq_writing.mp hb⟩
    · exact .inr hdown
  · intro w w' hlines hpending hreplay
    have hall : w'.all = appended (events h) := by
      rw [MemoryWriter.all_replay hreplay, MemoryWriter.all, hlines, hpending]
      rfl
    have hvisible : w'.lines <+: appended (events h) := hall ▸ List.prefix_append _ _
    exact (hvisible.map some).trans horder

/-- Three records in two batches.  The second batch is the last of a sink that is shut down, and
the writer does not take its second line. -/
def cutShort : List (Instant × Action) :=
  [(0, .offer (some (.text "a")) 0 0 false), (0, .flush), (0, .worker .turn), (0, .worker .notice),
    (1, .worker (.reply .done)), (2, .worker (.reply .done)), (3, .worker .turn),
    (3, .offer (some (.text "b")) 0 0 false), (3, .offer (some (.text "c")) 0 0 false),
    (3, .shutDown "deploy"), (3, .worker .quit), (3, .worker .turn), (3, .worker .leave),
    (4, .worker (.reply .done)), (5, .worker (.reply (.failed .closed))),
    (6, .worker (.reply .done))]

theorem persisted_of_cutShort : ∃ h t s,
    play ⟨0⟩ 0 (ofSettings {} 0) cutShort = some (h, t, s) ∧ Persisted h s ∧
      (accepted (events h)).length = 3 ∧ (appended (events h)).length = 2 ∧ s.written = 1 ∧
      (MemoryWriter.replay { failAfter := some 2 } (served (events h))).toOption.map
        (·.lines.length) = some 2 := by
  have hplay : (play ⟨0⟩ 0 (ofSettings {} 0) cutShort).map (fun w =>
      ((accepted (events w.1)).length, (appended (events w.1)).length, w.2.2.written,
        (MemoryWriter.replay { failAfter := some 2 } (served (events w.1))).toOption.map
          (·.lines.length))) = some (3, 2, 1, some 2) := by
    decide +kernel
  have calm : ∀ w ∈ cutShort, ∀ s : Sink, s.Orderly w.2 := by
    simp [cutShort, Orderly]
  obtain ⟨⟨h, t, s⟩, hp, hread⟩ := Option.map_eq_some_iff.mp hplay
  simp only [Prod.mk.injEq] at hread
  have run : Run {} 0 ([] ++ h) t s := Run.here.play calm hp
  exact ⟨h, t, s, hp, run.persisted, hread⟩

end Sink

end Backpressure
