import Backpressure.Json.Reader

/-!
# Strings are read as they are written

A string is written character by character, each as itself or as an escape, and read the
same way: `stringOnto_escapeChar` reads one character back, whatever comes after it, and
`string_stringText` the whole string up to its closing quote.

So the text of a string says where the string ends.  Two strings, each with something
behind it, that make the same text are the same string with the same rest
(`stringText_unambiguous`).

No escape holds a line feed, and a line feed is not written as itself.
-/

namespace Backpressure.Json

/-- The value of a hexadecimal digit that was written. -/
theorem hexValue?_hexDigit : ∀ n < 16, Reader.hexValue? (hexDigit n) = some n := by
  decide

/-- A character below the space has a number of two hexadecimal digits. -/
theorem fourHex_escape {c : Char} (hc : c.toNat < 32) (rest : List Char) :
    Reader.fourHex ('0' :: '0' :: hexDigit (c.toNat / 16) :: hexDigit (c.toNat % 16) :: rest) =
      .ok (c.toNat, rest) := by
  have hhigh := hexValue?_hexDigit (c.toNat / 16) (by omega)
  have hlow := hexValue?_hexDigit (c.toNat % 16) (by omega)
  have hzero : Reader.hexValue? '0' = some 0 := rfl
  have hsum : ((0 * 16 + 0) * 16 + c.toNat / 16) * 16 + c.toNat % 16 = c.toNat := by omega
  simp only [Reader.fourHex, hhigh, hlow, hzero, hsum]

/-- One character that was written is read back, and the rest is left. -/
theorem stringOnto_escapeChar (c : Char) (budget : Nat) (taken rest : List Char) :
    Reader.stringOnto (budget + 1) taken (escapeChar c ++ rest) =
      Reader.stringOnto budget (c :: taken) rest := by
  unfold escapeChar
  split
  · next h => subst h; rfl
  split
  · next h => subst h; rfl
  split
  · next h => subst h; rfl
  split
  · next h => subst h; rfl
  split
  · next h => subst h; rfl
  split
  · next h => subst h; rfl
  split
  · next h => subst h; rfl
  next hquote hback _ _ _ _ _ =>
  split
  · next hlow =>
      have hcode : Reader.unicodeEscape ('0' :: '0' :: hexDigit (c.toNat / 16) ::
          hexDigit (c.toNat % 16) :: rest) = .ok (c, rest) := by
        have hplain : ¬(0xDC00 ≤ c.toNat ∧ c.toNat ≤ 0xDFFF) := by omega
        have hsingle : c.toNat < 0xD800 ∨ 0xDBFF < c.toNat := by omega
        simp only [Reader.unicodeEscape, fourHex_escape hlow, Char.ofNat_toNat, bind, Except.bind,
          if_neg hplain, if_pos hsingle]
        rfl
      have hslash : ('\\' = '"') = False := by decide
      simp only [List.cons_append, List.nil_append, Reader.stringOnto, hcode, hslash, if_true,
        if_false]
  · next hlow =>
      simp only [List.cons_append, List.nil_append, Reader.stringOnto, hquote, hback, hlow,
        if_false]

/-- A string that was written is read back up to its closing quote. -/
theorem stringOnto_escaped (s : List Char) (rest : List Char) (budget : Nat) (taken : List Char)
    (h : s.length < budget) :
    Reader.stringOnto budget taken (s.flatMap escapeChar ++ '"' :: rest) =
      .ok (s.reverse ++ taken, rest) := by
  induction s generalizing budget taken with
  | nil =>
      obtain ⟨b, rfl⟩ := Nat.exists_eq_succ_of_ne_zero (Nat.ne_of_gt h)
      rfl
  | cons c s ih =>
      obtain ⟨b, rfl⟩ := Nat.exists_eq_succ_of_ne_zero (Nat.ne_of_gt (Nat.zero_lt_of_lt h))
      rw [List.flatMap_cons, List.append_assoc, stringOnto_escapeChar,
        ih b (c :: taken) (Nat.lt_of_succ_lt_succ h), List.reverse_cons, List.append_assoc]
      rfl

theorem length_le_escaped (s : List Char) : s.length ≤ (s.flatMap escapeChar).length := by
  induction s with
  | nil => exact Nat.le_refl 0
  | cons c s ih =>
      have hpos : 0 < (escapeChar c).length := by
        unfold escapeChar
        repeat' split
        all_goals exact Nat.zero_lt_succ _
      rw [List.flatMap_cons, List.length_append, List.length_cons]
      omega

/-- A string is read back, and what stands behind it is left. -/
theorem string_stringText (s : String) (rest : List Char) :
    Reader.string ((stringText s).tail ++ rest) = .ok (s, rest) := by
  have htext : (stringText s).tail ++ rest = s.toList.flatMap escapeChar ++ '"' :: rest := by
    simp [stringText]
  have hbudget : s.toList.length < ((stringText s).tail ++ rest).length + 1 := by
    have hle := length_le_escaped s.toList
    rw [htext, List.length_append, List.length_cons]
    omega
  rw [htext] at hbudget ⊢
  simp only [Reader.string, stringOnto_escaped _ _ _ _ hbudget, List.append_nil,
    List.reverse_reverse, String.ofList_toList]

/-- The text of a string says where the string ends. -/
theorem stringText_unambiguous {s s' : String} {rest rest' : List Char}
    (h : stringText s ++ rest = stringText s' ++ rest') : s = s' ∧ rest = rest' := by
  have htail : (stringText s).tail ++ rest = (stringText s').tail ++ rest' :=
    (List.cons.inj h).2
  have hread := string_stringText s rest
  rw [htail, string_stringText] at hread
  cases hread
  exact ⟨rfl, rfl⟩

/-! ## Line feeds -/

theorem feed_not_mem_escapeChar (c : Char) : '\n' ∉ escapeChar c := by
  have hdigit : ∀ n < 16, hexDigit n ≠ '\n' := by decide
  unfold escapeChar
  split; · decide
  split; · decide
  split; · decide
  split; · decide
  split; · decide
  split; · decide
  split; · decide
  next _ _ _ _ hfeed _ _ =>
  split
  · next hlow =>
      have hhigh := hdigit (c.toNat / 16) (by omega)
      have hrest := hdigit (c.toNat % 16) (by omega)
      simp [hhigh.symm, hrest.symm]
  · simpa using Ne.symm hfeed

theorem feed_not_mem_stringText (s : String) : '\n' ∉ stringText s := by
  simp only [stringText, List.mem_cons, List.mem_append, List.mem_flatMap, not_or]
  refine ⟨by decide, ?_, by decide, List.not_mem_nil⟩
  rintro ⟨c, -, hc⟩
  exact feed_not_mem_escapeChar c hc

end Backpressure.Json
