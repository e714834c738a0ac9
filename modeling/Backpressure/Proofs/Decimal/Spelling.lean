import Backpressure.Proofs.Json.Numerals

/-!
# How a decimal is spelt

The text of a decimal comes in five layouts, by where the point stands.  All of them are digits
with a fraction, or with a power of ten, or with both: `Scaled.spelling` is the decimal taken apart,
and its text is put together from these parts (`Scaled.toList_text`).

Whatever the layout, the digits and the power of ten are those of the decimal
(`Scaled.spelling_of_whole`, `Scaled.spelling_of_broken`); a decimal that is written out as a whole
number has more zeros, one of them behind the point.
-/

namespace Backpressure.Decimal

open Json.Reader (IsLeading isLeading_toDigits isDigit_of_mem_toDigits)

/-- The text of a number, taken apart. -/
structure Spelling where
  /-- The digits before the point. -/
  whole : List Char
  /-- The digits behind the point; without any there is no point. -/
  fraction : List Char := []
  /-- The power of ten, if there is one. -/
  power : Option Int := none

namespace Spelling

/-- The point and the digits behind it. -/
def fractionText (p : Spelling) : List Char :=
  if p.fraction = [] then [] else '.' :: p.fraction

/-- The power of ten, as it is written. -/
def powerText (p : Spelling) : List Char :=
  match p.power with
  | none => []
  | some e => 'e' :: (toString e).toList

/-- The text. -/
def chars (p : Spelling) : List Char := p.whole ++ (p.fractionText ++ p.powerText)

/-- What is read as a real number: digits with a fraction or a power of ten. -/
structure IsReal (p : Spelling) : Prop where
  whole : IsLeading p.whole
  fraction : ∀ c ∈ p.fraction, c.isDigit = true
  broken : p.fraction ≠ [] ∨ p.power.isSome = true

/-- All digits, read as one number. -/
def significand (p : Spelling) : Nat := Nat.ofDigitChars 10 (p.whole ++ p.fraction) 0

/-- The power of ten that goes with all digits read as one number. -/
def scale (p : Spelling) : Int := p.power.getD 0 - p.fraction.length

end Spelling

/-! ## Leading digits -/

theorem isLeading_take {ds : List Char} (h : IsLeading ds) {n : Nat} (hn : 0 < n) :
    IsLeading (ds.take n) where
  digits c hc := h.digits c (List.mem_of_mem_take hc)
  nonempty hnil := by
    rcases List.take_eq_nil_iff.mp hnil with hzero | hnone
    · omega
    · exact h.nonempty hnone
  noZero rest hrest := by
    obtain ⟨m, rfl⟩ := Nat.exists_eq_succ_of_ne_zero (Nat.ne_of_gt hn)
    cases ds with
    | nil => cases hrest
    | cons c ds =>
        obtain ⟨rfl, rfl⟩ := List.cons.inj hrest
        rw [h.noZero ds rfl, List.take_nil]

theorem isLeading_append {ds more : List Char} (h : IsLeading ds)
    (hd : ∀ c ∈ more, c.isDigit = true) (hz : ds ≠ ['0']) : IsLeading (ds ++ more) where
  digits c hc := (List.mem_append.mp hc).elim (h.digits c) (hd c)
  nonempty hnil := h.nonempty (List.append_eq_nil_iff.mp hnil).1
  noZero rest hrest := by
    cases ds with
    | nil => exact absurd rfl h.nonempty
    | cons c ds =>
        obtain ⟨rfl, -⟩ := List.cons.inj hrest
        rw [h.noZero ds rfl] at hz
        exact absurd rfl hz

theorem toDigits_ne_zero {n : Nat} (hn : n ≠ 0) : Nat.toDigits 10 n ≠ ['0'] := by
  intro h
  have hvalue := congrArg (Nat.ofDigitChars 10 · 0) h
  simp only [Nat.ofDigitChars_ten_toDigits] at hvalue
  exact hn hvalue

namespace Scaled

/-- The decimal point stands behind this many digits; before the first one if negative. -/
def point (x : Scaled) : Int := (Nat.toDigits 10 x.digits).length + x.scale

/-- Whether a decimal is written out as a whole number. -/
abbrev IsWhole (x : Scaled) : Prop := 0 ≤ x.scale ∧ x.point ≤ 16

/-- The text of a decimal, taken apart. -/
def spelling (x : Scaled) : Spelling :=
  let ds := Nat.toDigits 10 x.digits
  if x.IsWhole then { whole := ds ++ List.replicate x.scale.toNat '0', fraction := ['0'] }
  else if 0 < x.point ∧ x.point ≤ 16 then
    { whole := ds.take x.point.toNat, fraction := ds.drop x.point.toNat }
  else if -5 < x.point ∧ x.point ≤ 0 then
    { whole := ['0'], fraction := List.replicate (-x.point).toNat '0' ++ ds }
  else { whole := ds.take 1, fraction := ds.drop 1, power := some (x.point - 1) }

/-- The text of a decimal is put together from its parts. -/
theorem toList_text (x : Scaled) : x.text.toList = x.spelling.chars := by
  have hpos : 0 < (Nat.toDigits 10 x.digits).length :=
    List.length_pos_iff.mpr Nat.toDigits_ne_nil
  have hpoint : ((Nat.toDigits 10 x.digits).length : Int) + x.scale = x.point := rfl
  unfold text spelling
  simp only [hpoint]
  by_cases hwhole : x.IsWhole
  · rw [if_pos hwhole, if_pos hwhole]
    simp [Spelling.chars, Spelling.fractionText, Spelling.powerText, zeros]
  rw [if_neg hwhole, if_neg hwhole]
  by_cases hinside : 0 < x.point ∧ x.point ≤ 16
  · have hmore : x.point.toNat < (Nat.toDigits 10 x.digits).length := by omega
    rw [if_pos hinside, if_pos hinside]
    simp [Spelling.chars, Spelling.fractionText, Spelling.powerText, pointAfter, hmore]
  rw [if_neg hinside, if_neg hinside]
  by_cases hsmall : -5 < x.point ∧ x.point ≤ 0
  · rw [if_pos hsmall, if_pos hsmall]
    simp [Spelling.chars, Spelling.fractionText, Spelling.powerText, zeros]
  rw [if_neg hsmall, if_neg hsmall]
  by_cases hone : (Nat.toDigits 10 x.digits).length = 1
  · obtain ⟨c, hc⟩ := List.length_eq_one_iff.mp hone
    rw [if_pos hone]
    simp [Spelling.chars, Spelling.fractionText, Spelling.powerText, hc]
  · have hmore : (Nat.toDigits 10 x.digits).tail ≠ [] := by
      intro hnil
      have hlength := congrArg List.length hnil
      rw [List.length_tail, List.length_nil] at hlength
      omega
    rw [if_neg hone]
    simp [Spelling.chars, Spelling.fractionText, Spelling.powerText, pointAfter, hmore]

/-! ## What the parts are -/

/-- Before and behind the point there are digits only. -/
theorem isDigit_spelling (x : Scaled) :
    ∀ c ∈ x.spelling.whole ++ x.spelling.fraction, c.isDigit = true := by
  have hds : ∀ c ∈ Nat.toDigits 10 x.digits, c.isDigit = true := fun _ => isDigit_of_mem_toDigits
  have hzeros : ∀ n, ∀ c ∈ List.replicate n '0', c.isDigit = true := by
    intro n c hc
    rw [List.eq_of_mem_replicate hc]
    rfl
  intro c hc
  unfold spelling at hc
  split at hc
  · rcases List.mem_append.mp hc with hwhole | hfraction
    · exact (List.mem_append.mp hwhole).elim (hds c) (hzeros _ c)
    · rw [List.mem_singleton.mp hfraction]
      rfl
  split at hc
  · rw [List.take_append_drop] at hc
    exact hds c hc
  split at hc
  · rcases List.mem_append.mp hc with hwhole | hfraction
    · rw [List.mem_singleton.mp hwhole]
      rfl
    · exact (List.mem_append.mp hfraction).elim (hzeros _ c) (hds c)
  · rw [List.take_append_drop] at hc
    exact hds c hc

theorem isReal_spelling {x : Scaled} (hx : x.digits ≠ 0) : x.spelling.IsReal where
  whole := by
    have hleading := isLeading_toDigits x.digits
    unfold spelling
    split
    · refine isLeading_append hleading ?_ (toDigits_ne_zero hx)
      intro c hc
      rw [List.eq_of_mem_replicate hc]
      rfl
    split
    · next hinside => exact isLeading_take hleading (by omega)
    split
    · exact isLeading_toDigits 0
    · exact isLeading_take hleading (by decide)
  fraction c hc := x.isDigit_spelling c (List.mem_append_right _ hc)
  broken := by
    have hlength : ((Nat.toDigits 10 x.digits).length : Int) + x.scale = x.point := rfl
    unfold spelling
    split
    · exact .inl (List.cons_ne_nil _ _)
    split
    · refine .inl fun hnil => ?_
      have hall := List.drop_eq_nil_iff.mp hnil
      omega
    split
    · exact .inl (List.append_ne_nil_of_right_ne_nil _ Nat.toDigits_ne_nil)
    · exact .inr rfl

/-- A whole number has zeros up to the point, and one behind it. -/
theorem spelling_of_whole {x : Scaled} (h : x.IsWhole) :
    x.spelling.significand = x.digits * 10 ^ x.scale.toNat * 10 ∧ x.spelling.scale = -1 := by
  unfold spelling
  rw [if_pos h]
  refine ⟨?_, rfl⟩
  simp only [Spelling.significand, Nat.ofDigitChars_append, Nat.ofDigitChars_ten_toDigits,
    Nat.ofDigitChars_replicate_zero]
  rw [Nat.mul_comm x.digits]
  exact Nat.mul_comm _ _

/-- Any other number has the digits and the power of ten of the decimal. -/
theorem spelling_of_broken {x : Scaled} (h : ¬x.IsWhole) :
    x.spelling.significand = x.digits ∧ x.spelling.scale = x.scale := by
  have hlength : ((Nat.toDigits 10 x.digits).length : Int) + x.scale = x.point := rfl
  have hpos : 0 < (Nat.toDigits 10 x.digits).length :=
    List.length_pos_iff.mpr Nat.toDigits_ne_nil
  have hdigits : Nat.ofDigitChars 10 (Nat.toDigits 10 x.digits) 0 = x.digits :=
    Nat.ofDigitChars_ten_toDigits
  unfold spelling
  rw [if_neg h]
  split
  · refine ⟨by rw [Spelling.significand, List.take_append_drop, hdigits], ?_⟩
    simp only [Spelling.scale, Option.getD_none, List.length_drop]
    omega
  split
  · constructor
    · simp only [Spelling.significand, Nat.ofDigitChars_append, Nat.ofDigitChars_replicate_zero]
      rw [show Nat.ofDigitChars 10 ['0'] 0 = 0 from rfl, Nat.mul_zero, hdigits]
    · simp only [Spelling.scale, Option.getD_none, List.length_append, List.length_replicate]
      omega
  · refine ⟨by rw [Spelling.significand, List.take_append_drop, hdigits], ?_⟩
    simp only [Spelling.scale, Option.getD_some, List.length_drop]
    omega

end Scaled

/-! ## The characters of a text -/

/-- The characters that the text of a number can have. -/
def IsNumeric (c : Char) : Prop := c.isDigit = true ∨ c = '.' ∨ c = 'e' ∨ c = '-'

theorem Scaled.isNumeric_text (x : Scaled) : ∀ c ∈ x.text.toList, IsNumeric c := by
  intro c hc
  have hdigit := x.isDigit_spelling c
  rw [x.toList_text, Spelling.chars] at hc
  rcases List.mem_append.mp hc with hwhole | hmore
  · exact .inl (hdigit (List.mem_append_left _ hwhole))
  rcases List.mem_append.mp hmore with hfraction | hpower
  · unfold Spelling.fractionText at hfraction
    split at hfraction
    · cases hfraction
    · rcases List.mem_cons.mp hfraction with rfl | hin
      · exact .inr (.inl rfl)
      · exact .inl (hdigit (List.mem_append_right _ hin))
  · unfold Spelling.powerText at hpower
    split at hpower
    · cases hpower
    · rcases List.mem_cons.mp hpower with rfl | hin
      · exact .inr (.inr (.inl rfl))
      · exact (Json.Reader.mem_toString hin).elim .inl fun h => .inr (.inr (.inr h))

/-- The text of a double is a number, whatever the double. -/
theorem isNumeric_text (x : Float) : ∀ c ∈ (text x).toList, IsNumeric c := by
  have hsign : ∀ c ∈ (if Nat.pow 2 63 ≤ x.toBits.toNat then "-" else "").toList, IsNumeric c := by
    intro c hc
    split at hc
    · rw [List.mem_singleton.mp hc]
      exact .inr (.inr (.inr rfl))
    · cases hc
  intro c hc
  simp only [text] at hc
  split at hc
  · rw [String.toList_append] at hc
    rcases List.mem_append.mp hc with hminus | hzero
    · exact hsign c hminus
    · rcases List.mem_cons.mp hzero with rfl | hrest
      · exact .inl rfl
      rcases List.mem_cons.mp hrest with rfl | hlast
      · exact .inr (.inl rfl)
      · rw [List.mem_singleton.mp hlast]
        exact .inl rfl
  · rw [String.toList_append] at hc
    exact (List.mem_append.mp hc).elim (hsign c) (Scaled.isNumeric_text _ c)

end Backpressure.Decimal
