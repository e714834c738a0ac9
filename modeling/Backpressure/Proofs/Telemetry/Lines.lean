import Backpressure.Proofs.Json.Values
import Backpressure.Proofs.Sink.Marks
import Backpressure.Proofs.Time.Timestamps
import Backpressure.Telemetry.LineFile

/-!
# One item on a line

A sink appends the texts of its items to a file, batch after batch, and the file may be closed
and opened again in between.  As long as the writer does what it is asked for, what was written can
be cut at its line feeds into the texts of the items, in order (`LineFile.filed`).

*The writer.*  It keeps what it is given in a buffer for a while, but nothing gets lost or out of
order on the way (`LineFile.text_write`), and a flush leaves nothing in the buffer.  So a batch that
is persisted adds its lines to the file (`LineFile.persist_eq`), whatever was there.

*The lines.*  The text of an item holds no line feed, and no byte of its UTF-8 form is that of a
line feed (`Item.feed_not_mem_bytes`).  Nor is any byte of a character that takes several.

*The items.*  The text of an item that is not marked as written has its content and the moment at
which it was made, and nothing else; both can be told from it if the content has integers only
(`Item.eq_of_render`).  What a sink hands to its writer is never marked.
-/

namespace Backpressure.Telemetry

/-! ## Bytes -/

/-- The bytes of a text in UTF-8. -/
def bytes (s : String) : List UInt8 := s.toByteArray.data.toList

/-- The byte of a line feed. -/
def feed : UInt8 := 10

theorem bytes_append (s t : String) : bytes (s ++ t) = bytes s ++ bytes t := by
  simp [bytes]

theorem bytes_eq (s : String) : bytes s = s.toList.flatMap String.utf8EncodeChar := by
  have hs : s.toByteArray = s.toList.utf8Encode := by
    rw [← String.toByteArray_ofList, String.ofList_toList]
  rw [bytes, hs, List.utf8Encode]
  exact List.toList_data_toByteArray

theorem ofNat_eq_feed {n : Nat} (hn : n < 256) (h : feed = UInt8.ofNat n) : n = 10 := by
  have hvalue := congrArg UInt8.toNat h
  rw [UInt8.toNat_ofNat', Nat.mod_eq_of_lt hn] at hvalue
  exact hvalue.symm

/-- Only a line feed is written with its byte. -/
theorem eq_feed_of_mem {c : Char} (h : feed ∈ String.utf8EncodeChar c) : c = '\n' := by
  have hhigh : ∀ {n : Nat}, 128 ≤ n → n < 256 → feed ≠ UInt8.ofNat n := by
    intro n hle hlt heq
    have := ofNat_eq_feed hlt heq
    omega
  simp only [String.utf8EncodeChar] at h
  split at h
  · next hv =>
      have hlt : c.val.toNat < 256 := by omega
      exact Char.toNat_inj.mp (ofNat_eq_feed hlt (List.mem_singleton.mp h))
  -- of several bytes each has its highest bit set
  split at h
  · simp only [List.mem_cons, List.not_mem_nil, or_false] at h
    rcases h with h | h <;> exact absurd h (hhigh (by omega) (by omega))
  split at h
  · simp only [List.mem_cons, List.not_mem_nil, or_false] at h
    rcases h with h | h | h <;> exact absurd h (hhigh (by omega) (by omega))
  · simp only [List.mem_cons, List.not_mem_nil, or_false] at h
    rcases h with h | h | h | h <;> exact absurd h (hhigh (by omega) (by omega))

/-- The bytes of a text without line feed do not hold its byte. -/
theorem feed_not_mem_bytes {s : String} (h : '\n' ∉ s.toList) : feed ∉ bytes s := by
  rw [bytes_eq, List.mem_flatMap]
  rintro ⟨c, hc, hfeed⟩
  exact h (eq_feed_of_mem hfeed ▸ hc)

/-! ## Items -/

namespace Item

variable {i j : Item Json.Value}

/-- The item as a record. -/
def record (i : Item Json.Value) : Record := { i with content := some i.content }

theorem feed_not_mem_bytes (i : Item Json.Value) : feed ∉ bytes i.render := by
  refine Telemetry.feed_not_mem_bytes ?_
  rw [render, Json.Value.render, String.toList_ofList]
  exact i.toJson.feed_not_mem_chars

/-- What the text of an item says as long as it is not marked. -/
theorem toJson_of_unmarked (h : i.writtenAt = none) :
    i.toJson = .object [("content", i.content), ("created_at", .text i.createdAt.text)] := by
  rw [toJson, h]
  rfl

theorem integral_toJson (h : i.writtenAt = none) (hi : i.content.Integral) : i.toJson.Integral := by
  rw [toJson_of_unmarked h]
  refine .object fun m hm => ?_
  rcases List.mem_cons.mp hm with rfl | hm
  · exact hi
  · rw [List.mem_singleton.mp hm]
    exact .text _

/-- Items with different contents, or made at different moments, have different texts. -/
theorem eq_of_render (hi : i.content.Integral) (hj : j.content.Integral)
    (hwi : i.writtenAt = none) (hwj : j.writtenAt = none) (h : i.render = j.render) :
    i.content = j.content ∧ i.createdAt = j.createdAt := by
  have hjson := (integral_toJson hwi hi).eq_of_render (integral_toJson hwj hj) h
  rw [toJson_of_unmarked hwi, toJson_of_unmarked hwj] at hjson
  simp only [Json.Value.object.injEq, List.cons.injEq, Prod.mk.injEq, Json.Value.text.injEq,
    true_and, and_true] at hjson
  exact ⟨hjson.1, Timestamp.text_injective hjson.2⟩

end Item

/-! ## The writer -/

/-- Lines, each with a line feed behind it. -/
def lines : List String → String
  | [] => ""
  | line :: rest => line ++ "\n" ++ lines rest

theorem lines_append (ls ms : List String) : lines (ls ++ ms) = lines ls ++ lines ms := by
  induction ls with
  | nil => exact String.empty_append.symm
  | cons line rest ih => rw [List.cons_append, lines, lines, ih, ← String.append_assoc]

/-- Lines are cut apart at the line feeds behind them. -/
theorem splitOn_lines {ls : List String} (h : ∀ line ∈ ls, feed ∉ bytes line) :
    (bytes (lines ls)).splitOn feed = ls.map bytes ++ [[]] := by
  induction ls with
  | nil => rfl
  | cons line rest ih =>
      have hfeed : bytes "\n" = [feed] := by decide +kernel
      have hfirst := List.splitOn_eq_singleton (h line List.mem_cons_self)
      rw [lines, bytes_append, bytes_append, hfeed, List.append_assoc, List.singleton_append,
        List.splitOn_append_cons_self, hfirst, ih fun l hl => h l (List.mem_cons_of_mem _ hl)]
      rfl

namespace LineFile

variable {w w' : LineFile}

/-- The writer does what it is asked for. -/
def serve (w : LineFile) : WriterRequest → Except WriteError LineFile
  | .append line => w.append line
  | .flush => w.flush
  | .close => w.close

/-- The writer does what it is asked for a batch, until the batch is written; `budget` bounds
how often it is asked. -/
def persist : Nat → Batch → LineFile → Option LineFile
  | 0, _, _ => none
  | budget + 1, b, w =>
    match w.serve b.request with
    | .error _ => none
    | .ok w =>
      match b.afterReply .done with
      | .more b => persist budget b w
      | .written => some w
      | .failed _ | .lost => none

/-- Batches of items are persisted one after the other. -/
def persistAll (deadline : Instant) (w : LineFile) (batches : List (List (Item Json.Value))) :
    Option LineFile :=
  batches.foldlM
    (fun w items => persist (items.length + 1) (.ofRecords (items.map Item.record) deadline) w) w

/-- A file is opened, batches of items are persisted, and the writer is closed; gives what the file
holds then. -/
def session (deadline : Instant) (stored : String) (batches : List (List (Item Json.Value))) :
    Option String :=
  (persistAll deadline (.ofText stored) batches).bind fun w => w.close.toOption.map (·.stored)

/-- What is written comes behind all that was written before: a piece that goes to the file at once
does not overtake what is in the buffer. -/
theorem text_write (w : LineFile) (s : String) : (w.write s).text = w.text ++ s := by
  by_cases hfull : bufferSize < w.buffer.utf8ByteSize + s.utf8ByteSize
  · simp only [write, text, drain, if_pos hfull]
    split <;> simp [String.append_assoc]
  by_cases hlarge : bufferSize ≤ s.utf8ByteSize
  · have hempty : w.buffer = "" := String.utf8ByteSize_eq_zero_iff.mp (by omega)
    simp only [write, text, if_neg hfull, if_pos hlarge]
    simp [hempty]
  · simp [write, text, hfull, hlarge, String.append_assoc]

theorem closed_write (w : LineFile) (s : String) : (w.write s).closed = w.closed := by
  simp only [write, drain]
  split <;> split <;> rfl

theorem text_append {line : String} (h : w.append line = .ok w') :
    w'.text = w.text ++ (line ++ "\n") ∧ w'.closed = w.closed := by
  simp only [append] at h
  split at h
  · cases h
  · cases h
    rw [text_write, text_write, closed_write, closed_write, String.append_assoc]
    exact ⟨rfl, rfl⟩

/-- A batch that is persisted adds the lines that it has left to the file. -/
theorem persist_eq {b : Batch} (hopen : w.closed = false)
    (hall : b.appended + b.rest.length = b.records.length) :
    persist (b.rest.length + 1) b w =
      some { stored := w.text ++ lines b.rest, buffer := "", closed := false } := by
  cases b with
  | mk records rest appended deadline =>
      induction rest generalizing w appended with
      | nil =>
          simp only [List.length_nil, Nat.add_zero] at hall
          simp [persist, Batch.request, serve, flush, hopen, Batch.afterReply, hall, drain, text,
            lines]
      | cons line rest ih =>
          obtain ⟨v, hv⟩ : ∃ v, w.append line = .ok v := by simp [append, hopen]
          obtain ⟨htext, hclosed⟩ := text_append hv
          have hleft : appended + 1 + rest.length = records.length := by
            simp only [List.length_cons] at hall
            omega
          have hnext := ih (hclosed.trans hopen) (appended + 1) hleft
          rw [htext, String.append_assoc] at hnext
          rw [persist]
          simp only [Batch.request, serve, hv, Batch.afterReply]
          exact hnext

/-- The lines of a batch are the texts of its items. -/
theorem rest_ofRecords (items : List (Item Json.Value)) (deadline : Instant) :
    (Batch.ofRecords (items.map Item.record) deadline).rest = items.map Item.render := by
  rw [Batch.ofRecords]
  induction items with
  | nil => rfl
  | cons i items ih => exact congrArg (i.render :: ·) ih

theorem persistAll_eq (deadline : Instant) (stored : String)
    (batches : List (List (Item Json.Value))) :
    persistAll deadline (.ofText stored) batches =
      some (.ofText (stored ++ lines (batches.flatten.map Item.render))) := by
  induction batches generalizing stored with
  | nil => simp [persistAll, lines]
  | cons items batches ih =>
      have hfirst : persist (items.length + 1) (.ofRecords (items.map Item.record) deadline)
          (.ofText stored) = some (.ofText (stored ++ lines (items.map Item.render))) := by
        have hall : 0 + (Batch.ofRecords (items.map Item.record) deadline).rest.length =
            (items.map Item.record).length := by
          rw [rest_ofRecords, List.length_map, List.length_map, Nat.zero_add]
        have hbatch := persist_eq (w := .ofText stored)
          (b := .ofRecords (items.map Item.record) deadline) rfl hall
        rw [rest_ofRecords, List.length_map] at hbatch
        rw [hbatch, text, ofText, String.append_empty]
        rfl
      have hnext := ih (stored ++ lines (items.map Item.render))
      simp only [persistAll] at hnext
      simp only [persistAll, List.foldlM_cons, hfirst]
      rw [List.flatten_cons, List.map_append, lines_append, ← String.append_assoc]
      exact hnext

theorem session_eq (deadline : Instant) (stored : String)
    (batches : List (List (Item Json.Value))) :
    session deadline stored batches =
      some (stored ++ lines (batches.flatten.map Item.render)) := by
  rw [session, persistAll_eq]
  simp [close, ofText, drain, Except.toOption]

theorem sessions_eq (deadline : Instant) (stored : String)
    (earlier : List (List (List (Item Json.Value)))) :
    earlier.foldlM (session deadline) stored =
      some (stored ++ lines (earlier.flatten.flatten.map Item.render)) := by
  induction earlier generalizing stored with
  | nil => simp [lines]
  | cons batches earlier ih =>
      rw [List.foldlM_cons, session_eq, Option.bind_eq_bind, Option.bind_some, ih,
        List.flatten_cons, List.flatten_append, List.map_append, lines_append, String.append_assoc]

/-- What a writer left in a file, given the items and what the file held before. -/
structure Filed (before : String) (items : List (Item Json.Value)) (w : LineFile) : Prop where
  /-- Nothing is left in the buffer. -/
  flushed : w.buffer = ""
  /-- What was added is cut at the line feeds into the texts of the items; nothing is left over. -/
  framed : ∃ added, w.stored = before ++ added ∧
    (bytes added).splitOn feed = items.map (fun i => bytes i.render) ++ [[]]
  /-- No text of an item holds a line feed. -/
  oneLine : ∀ i ∈ items, feed ∉ bytes i.render
  /-- An item without a mark is written as its content and its moment, and nothing else. -/
  plain : ∀ i ∈ items, i.writtenAt = none → i.render =
    (Json.Value.object [("content", i.content), ("created_at", .text i.createdAt.text)]).render
  /-- Items without a mark whose contents differ, or that were made at different moments, have
  different texts, as long as the numbers in them are integers. -/
  recoverable : ∀ i ∈ items, ∀ j ∈ items, i.writtenAt = none → j.writtenAt = none →
    i.content.Integral → j.content.Integral → i.render = j.render →
      i.content = j.content ∧ i.createdAt = j.createdAt

/-- Whatever items there are, and however they are split into batches and sessions, they are filed
one on a line.  What a sink hands to its writer has no mark. -/
theorem filed (deadline : Instant) (before : String)
    (earlier : List (List (List (Item Json.Value)))) (batches : List (List (Item Json.Value))) :
    (∃ stored w, earlier.foldlM (session deadline) before = some stored ∧
      persistAll deadline (.ofText stored) batches = some w ∧
        Filed before (earlier.flatten.flatten ++ batches.flatten) w) ∧
      ∀ {settings : SinkSettings} {t₀ t : Instant} {h : List Sink.Act} {s : Sink} {b : Batch},
        Sink.History settings t₀ h t s → s.flushing? = some (.writing b) →
          ∀ r ∈ b.records, r.writtenAt = none := by
  refine ⟨⟨_, _, sessions_eq deadline before earlier, persistAll_eq deadline _ batches, ?_⟩,
    fun hist hb => hist.unmarked_batch hb⟩
  constructor
  case flushed => rfl
  case framed =>
    refine ⟨lines ((earlier.flatten.flatten ++ batches.flatten).map Item.render), ?_, ?_⟩
    · simp only [ofText, List.map_append, lines_append, String.append_assoc]
    · rw [splitOn_lines, List.map_map]
      · rfl
      · intro line hline
        obtain ⟨i, -, rfl⟩ := List.mem_map.mp hline
        exact i.feed_not_mem_bytes
  case oneLine => exact fun i _ => i.feed_not_mem_bytes
  case plain => exact fun i _ h => congrArg Json.Value.render (Item.toJson_of_unmarked h)
  case recoverable =>
    exact fun i _ j _ hwi hwj hi hj h => Item.eq_of_render hi hj hwi hwj h

/-- An item with line feeds in its content. -/
def note : Item Json.Value where
  content := .object [("a\nb", .list [.integer (-1), .text "c\n"])]
  createdAt := 1500000000

/-- The content is offered, and a flush hands it to the writer. -/
def handedOver : List (Instant × Sink.Action) :=
  [(0, .offer (some note.content) 0 0 false), (0, .flush), (0, .worker .turn), (0, .worker .notice)]

/-- The item is written before and after the file is opened again; and it is on its way to the
writer of a sink. -/
theorem filed_of_handedOver :
    (∃ stored w, [[[note]]].foldlM (session 0) "[]\n" = some stored ∧
      persistAll 0 (.ofText stored) [[note, note], []] = some w ∧
        Filed "[]\n" [note, note, note] w) ∧
      ∃ h t s b, enact (Sink.note ⟨0⟩) 0 (Sink.ofSettings {} 0) handedOver = some (h, t, s) ∧
        s.flushing? = some (.writing b) ∧ b.records.length = 1 ∧
          ∀ r ∈ b.records, r.writtenAt = none := by
  have hplay : (enact (Sink.note ⟨0⟩) 0 (Sink.ofSettings {} 0) handedOver).map
      (fun w => w.2.2.underway.length) = some 1 := by
    decide +kernel
  obtain ⟨⟨h, t, s⟩, hp, hread⟩ := Option.map_eq_some_iff.mp hplay
  obtain ⟨b, hb, hone⟩ : ∃ b, s.flushing? = some (.writing b) ∧ b.records.length = 1 := by
    simp only [Sink.underway] at hread
    split at hread
    · next b hb => exact ⟨b, hb, hread⟩
    · cases hread
  have hist : Sink.History {} 0 ([] ++ h) t s := Sink.History.here.enact hp
  obtain ⟨hfiled, hplain⟩ := filed 0 "[]\n" [[[note]]] [[note, note], []]
  exact ⟨hfiled, h, t, s, b, hp, hb, hone, hplain hist hb⟩

end LineFile

end Backpressure.Telemetry
