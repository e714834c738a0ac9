import Backpressure.Proofs.Json.Values
import Mathlib.Data.List.Forall2

/-!
# Records are read as they are written

A field *moves* a record when reading the text of its value does: whatever record is read into,
and whatever stands behind the value, the text is taken and nothing else (`Field.Moves`).  For most
kinds of fields what is put into the record is what was written; lengths of time lose what is finer
than a millisecond.

A record is read by its fields, one after the other, in the order in which they were written
(`readRecord_writeRecord`).  So what a record becomes when it is written and read back is the
product of what its fields do to the record that it is read into.
-/

namespace Backpressure.Json

namespace Reader

/-! ## Blanks -/

/-- A character that is no blank is shown at once. -/
theorem peekToken_cons {c : Char} {cs : List Char} (hc : isSpace c = false) :
    peekToken (c :: cs) = .ok (some c, c :: cs) := by
  simp only [peekToken, List.dropWhile_cons_of_neg (by simp [hc] : ¬isSpace c = true)]
  rfl

theorem isSpace_of_isDigit {c : Char} (h : c.isDigit = true) : isSpace c = false := by
  have hnot : ∀ d : Char, d.isDigit = false → c ≠ d := by
    rintro d hd rfl
    rw [hd] at h
    cases h
  simp [isSpace, hnot ' ' (by decide), hnot '\n' (by decide), hnot '\t' (by decide),
    hnot '\r' (by decide)]

/-! ## Values -/

theorem textValue_stringText (s : String) (rest : List Char) :
    textValue (stringText s ++ rest) = .ok (s, rest) := by
  have hpeek : peekToken (stringText s ++ rest) = .ok (some '"', stringText s ++ rest) :=
    peekToken_cons rfl
  rw [textValue, bind_eq hpeek]
  exact string_stringText s rest

theorem numeral_toDigits {n : Nat} {rest : List Char} (hn : n < 2 ^ 64) (hr : Ended rest) :
    numeral (Nat.toDigits 10 n ++ rest) = .ok (.natural n, rest) := by
  obtain ⟨c, cs, hc⟩ := List.exists_cons_of_ne_nil (Nat.toDigits_ne_nil (n := n) (b := 10))
  have hdigit : c.isDigit = true := isDigit_of_mem_toDigits (hc ▸ List.mem_cons_self)
  have hpeek : peekToken (Nat.toDigits 10 n ++ rest) = .ok (some c, Nat.toDigits 10 n ++ rest) := by
    rw [hc]
    exact peekToken_cons (isSpace_of_isDigit hdigit)
  have hminus : c ≠ '-' := by
    rintro rfl
    exact absurd hdigit (by decide)
  have hsome : (digit? c).isSome = true := by
    rw [digit?_of_isDigit hdigit]
    rfl
  rw [numeral, bind_eq hpeek]
  simp only [hsome, if_true]
  exact number_toDigits hn hr

/-- A natural number below the bound is read back. -/
theorem natural_toDigits {n bound : Nat} {rest : List Char} (hn : n < bound)
    (hbound : bound ≤ 2 ^ 64) (hr : Ended rest) :
    natural bound (Nat.toDigits 10 n ++ rest) = .ok (n, rest) := by
  rw [natural, bind_eq (numeral_toDigits (Nat.lt_of_lt_of_le hn hbound) hr)]
  simp only [hn, if_true]
  rfl

theorem optionalText_written (t : Option String) (rest : List Char) :
    optionalText ((match t with | none => Value.null | some t => .text t).chars ++ rest) =
      .ok (t, rest) := by
  cases t with
  | none => rfl
  | some t =>
      have hpeek : peekToken (stringText t ++ rest) = .ok (some '"', stringText t ++ rest) :=
        peekToken_cons rfl
      exact (bind_eq hpeek).trans (bind_eq (textValue_stringText t rest))

end Reader

/-! ## Fields -/

namespace Field

variable {σ : Type}

/-- Reading the text of the value that `s` has in this field changes a record in this way. -/
def Moves (f : Field σ) (s : σ) (move : σ → σ) : Prop :=
  ∀ ⦃start : σ⦄ ⦃rest : List Char⦄, Ended rest →
    f.read start ((f.write s).chars ++ rest) = .ok (move start, rest)

variable {key : String} {s : σ}

theorem text_moves {get : σ → String} {put : σ → String → σ} :
    (Field.text key get put).Moves s fun start => put start (get s) :=
  fun _ rest _ => Reader.bind_eq (Reader.textValue_stringText (get s) rest)

theorem natural_moves {bound : Nat} {get : σ → Nat} {put : σ → Nat → σ} (hn : get s < bound)
    (hbound : bound ≤ 2 ^ 64) :
    (Field.natural key bound get put).Moves s fun start => put start (get s) := by
  intro start rest hr
  have hchars : (Value.integer (get s)).chars = Nat.toDigits 10 (get s) := by
    rw [Value.chars, Reader.toList_toString]
    simp
  show (Field.natural key bound get put).read start ((Value.integer (get s)).chars ++ rest) = _
  rw [hchars]
  exact Reader.bind_eq (Reader.natural_toDigits hn hbound hr)

/-- A length of time keeps its whole milliseconds, as far as they fit into 64 bits. -/
theorem duration_moves {get : σ → Duration} {put : σ → Duration → σ} :
    (Field.duration key get put).Moves s fun start =>
      put start (Duration.ofMillis (Duration.millisWord (get s))) := by
  intro start rest hr
  have hchars : (Value.integer (Duration.millisWord (get s))).chars =
      Nat.toDigits 10 (Duration.millisWord (get s)) := by
    rw [Value.chars, Reader.toList_toString]
    simp
  have hlt : Duration.millisWord (get s) < Nat.pow 2 64 := Nat.mod_lt _ (by decide)
  show (Field.duration key get put).read start
    ((Value.integer (Duration.millisWord (get s))).chars ++ rest) = _
  rw [hchars]
  exact Reader.bind_eq (Reader.natural_toDigits hlt (Nat.le_refl _) hr)

theorem optionalText_moves {get : σ → Option String} {put : σ → Option String → σ} :
    (Field.optionalText key get put).Moves s fun start => put start (get s) :=
  fun _ rest _ => Reader.bind_eq (Reader.optionalText_written (get s) rest)

end Field

/-! ## Records -/

section Records

variable {σ : Type} {fields : List (Field σ)} {s : σ}

theorem colon_cons (rest : List Char) : Reader.colon (':' :: rest) = .ok ((), rest) := rfl

/-- The members of some fields of a record. -/
def writtenMembers (fields : List (Field σ)) (s : σ) : List (String × Value) :=
  fields.map fun f => (f.key, f.write s)

theorem writtenMembers_cons (f : Field σ) (more : List (Field σ)) (s : σ) (rest : List Char) :
    membersText (writtenMembers (f :: more) s) ++ rest =
      stringText f.key ++ ':' :: ((f.write s).chars ++
        (tailText membersText (writtenMembers more s) ++ rest)) := by
  simp [writtenMembers, membersText_cons, memberText]

/-- A field that was written is found by its key, and read. -/
theorem readMembers_cons {f : Field σ} {move : σ → σ} {budget : Nat} {seen : List String}
    (start : σ) {more : List Char} (hended : Ended more)
    (hfind : fields.find? (fun g => g.key == f.key) = some f) (hseen : seen.contains f.key = false)
    (hmove : f.Moves s move) :
    readMembers fields (budget + 1) seen start
        (stringText f.key ++ ':' :: ((f.write s).chars ++ more)) =
      (do
        match ← Reader.peekToken with
        | none => Reader.fault .unfinished
        | some ',' => Reader.skip; readMembers fields budget (f.key :: seen) (move start)
        | some '\x7d' => Reader.skip; pure (f.key :: seen, move start)
        | some _ => Reader.fault .malformed : Reader (List String × σ)) more := by
  have hpeek : Reader.peekToken (stringText f.key ++ ':' :: ((f.write s).chars ++ more)) =
      .ok (some '"', stringText f.key ++ ':' :: ((f.write s).chars ++ more)) :=
    Reader.peekToken_cons rfl
  have hskip : Reader.skip (stringText f.key ++ ':' :: ((f.write s).chars ++ more)) =
      .ok ((), (stringText f.key).tail ++ ':' :: ((f.write s).chars ++ more)) := rfl
  have hkey := string_stringText f.key (':' :: ((f.write s).chars ++ more))
  rw [readMembers, Reader.bind_eq hpeek]
  simp only []
  rw [Reader.bind_eq hskip, Reader.bind_eq hkey]
  simp only [hfind, hseen, Bool.false_eq_true, if_false]
  exact (Reader.bind_eq (colon_cons _)).trans (Reader.bind_eq (hmove hended))

/-- The members of the fields that are left are read in order. -/
theorem readMembers_written {todo : List (Field σ)} {moves : List (σ → σ)} {budget : Nat}
    {seen : List String} (start : σ) (rest : List Char)
    (hfind : ∀ f ∈ todo, fields.find? (fun g => g.key == f.key) = some f)
    (hseen : ∀ f ∈ todo, seen.contains f.key = false) (hkeys : (todo.map (·.key)).Nodup)
    (hmoves : List.Forall₂ (fun f move => f.Moves s move) todo moves) (hnonempty : todo ≠ [])
    (hbudget : todo.length ≤ budget) :
    ∃ seen', readMembers fields budget seen start
        (membersText (writtenMembers todo s) ++ '\x7d' :: rest) =
      .ok ((seen', moves.foldl (fun r move => move r) start), rest) := by
  induction hmoves generalizing start seen budget with
  | nil => exact absurd rfl hnonempty
  | @cons f move more moves hmove hmoves ih =>
      obtain ⟨b, rfl⟩ := Nat.exists_eq_succ_of_ne_zero 
        (Nat.ne_of_gt (Nat.lt_of_lt_of_le (Nat.zero_lt_succ _) hbudget))
      rw [List.map_cons, List.nodup_cons] at hkeys
      have hended : Ended (tailText membersText (writtenMembers more s) ++ '\x7d' :: rest) :=
        ended_tailText _ _ rest (.inr rfl)
      rw [writtenMembers_cons, readMembers_cons start hended (hfind f List.mem_cons_self)
        (hseen f List.mem_cons_self) hmove]
      cases more with
      | nil =>
          cases hmoves
          exact ⟨_, rfl⟩
      | cons g more =>
          have hfresh : ∀ k ∈ g :: more, (f.key :: seen).contains k.key = false := by
            intro k hk
            have hne : k.key ≠ f.key := by
              intro heq
              exact hkeys.1 (heq ▸ List.mem_map_of_mem hk)
            simpa [hne] using hseen k (List.mem_cons_of_mem _ hk)
          exact ih (move start) (fun k hk => hfind k (List.mem_cons_of_mem _ hk)) hfresh hkeys.2
            (List.cons_ne_nil _ _) (Nat.le_of_succ_le_succ hbudget)

theorem length_le_membersText (members : List (String × Value)) :
    members.length ≤ (membersText members).length := by
  induction members with
  | nil => exact Nat.le_refl 0
  | cons m more ih =>
      rw [membersText_cons, List.length_append]
      have hpos : 0 < (memberText m).length := Nat.zero_lt_succ _
      have htail : more.length ≤ (tailText membersText more).length := by
        cases more with
        | nil => exact Nat.le_refl 0
        | cons m' more => exact Nat.le_succ_of_le ih
      rw [List.length_cons]
      omega

theorem find?_key (hkeys : (fields.map (·.key)).Nodup) :
    ∀ f ∈ fields, fields.find? (fun g => g.key == f.key) = some f := by
  induction fields with
  | nil => exact fun f hf => absurd hf List.not_mem_nil
  | cons g more ih =>
      intro f hf
      rw [List.map_cons, List.nodup_cons] at hkeys
      rcases List.mem_cons.mp hf with rfl | hin
      · simp
      · have hne : g.key ≠ f.key := fun heq => hkeys.1 (heq ▸ List.mem_map_of_mem hin)
        simp only [List.find?_cons, beq_eq_false_iff_ne.mpr hne]
        exact ih hkeys.2 f hin

/-- A record that was written is read back by its fields, one after the other. -/
theorem readRecord_writeRecord {moves : List (σ → σ)} (hkeys : (fields.map (·.key)).Nodup)
    (hmoves : List.Forall₂ (fun f move => f.Moves s move) fields moves) (start : σ)
    (rest : List Char) :
    readRecord fields false start ((writeRecord fields s).chars ++ rest) =
      .ok (moves.foldl (fun r move => move r) start, rest) := by
  have htext : (writeRecord fields s).chars ++ rest =
      '\x7b' :: (membersText (writtenMembers fields s) ++ '\x7d' :: rest) := by
    simp [writeRecord, Value.chars, writtenMembers]
  have hopen : Reader.peekToken ('\x7b' :: (membersText (writtenMembers fields s) ++ '\x7d' :: rest)) =
      .ok (some '\x7b', '\x7b' :: (membersText (writtenMembers fields s) ++ '\x7d' :: rest)) :=
    Reader.peekToken_cons rfl
  have hskip : Reader.skip ('\x7b' :: (membersText (writtenMembers fields s) ++ '\x7d' :: rest)) =
      .ok ((), membersText (writtenMembers fields s) ++ '\x7d' :: rest) := rfl
  rw [htext, readRecord, Reader.bind_eq hopen]
  simp only []
  rw [Reader.bind_eq hskip]
  cases hmoves with
  | nil => rfl
  | @cons f move more moves hmove hmoves =>
      have hlength := length_le_membersText (writtenMembers (f :: more) s)
      have hcount : (writtenMembers (f :: more) s).length = (f :: more).length := List.length_map _
      rw [hcount] at hlength
      have hbudget : (f :: more).length ≤
          (membersText (writtenMembers (f :: more) s) ++ '\x7d' :: rest).length + 1 := by
        rw [List.length_append]
        exact Nat.le_trans hlength (by omega)
      have hseen : ∀ g ∈ f :: more, ([] : List String).contains g.key = false := fun _ _ => rfl
      obtain ⟨seen, hread⟩ := readMembers_written start rest (find?_key hkeys) hseen hkeys
        (.cons hmove hmoves) (List.cons_ne_nil _ _) hbudget
      have hpeek : Reader.peekToken
          (membersText (writtenMembers (f :: more) s) ++ '\x7d' :: rest) =
          .ok (some '"', membersText (writtenMembers (f :: more) s) ++ '\x7d' :: rest) := by
        rw [writtenMembers_cons]
        exact Reader.peekToken_cons rfl
      rw [Reader.bind_eq hpeek]
      have hget : (get : Reader (List Char))
          (membersText (writtenMembers (f :: more) s) ++ '\x7d' :: rest) =
          .ok (membersText (writtenMembers (f :: more) s) ++ '\x7d' :: rest,
            membersText (writtenMembers (f :: more) s) ++ '\x7d' :: rest) := rfl
      exact (Reader.bind_eq hget).trans (Reader.bind_eq hread)

/-- A field that is a record itself is read back field by field. -/
theorem Field.record_moves {τ : Type} {key : String} {fields : List (Field τ)} {get : σ → τ}
    {put : σ → τ → σ} {moves : List (τ → τ)} (hkeys : (fields.map (·.key)).Nodup)
    (hmoves : List.Forall₂ (fun f move => f.Moves (get s) move) fields moves) :
    (Field.record key fields get put).Moves s fun start =>
      put start (moves.foldl (fun r move => move r) (get start)) :=
  fun start rest _ => Reader.bind_eq (readRecord_writeRecord hkeys hmoves (get start) rest)

end Records

end Backpressure.Json
