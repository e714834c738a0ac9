import Backpressure.Proofs.Json.Numerals
import Backpressure.Time.Timestamp
import Mathlib.Logic.Function.Basic

/-!
# Days and dates

No two days have the same date: `Date.toDays` counts back from a date to the day.

Days are counted in eras of four hundred years that begin in March.  `rest` is the day of the era
with the leap days before it taken out, so that a year is `rest / 365`.  How many leap days there
were follows from the same quotient (`leap_years`, `centuries`), and with it where the year began
(`yearStart_le`, `le_yearStart`).  The last day of an era is the one on which these quotients are
not the regular ones.
-/

namespace Backpressure.Timestamp

namespace Date

/-- A day of an era without the leap days before it. -/
def rest (d : Nat) : Nat := d - d / 1460 + d / 36524 - d / 146096

/-- The day of an era on which one of its years begins. -/
def yearStart (y : Nat) : Nat := 365 * y + y / 4 - y / 100

variable {d : Nat}

/-- The last day of an era is the leap day of its fourth century. -/
theorem last_or_regular (h : d < 146097) : d / 146096 = 0 ∧ d / 36524 ≤ 3 ∨ d = 146096 := by
  omega

theorem centuries (h : d < 146097) : rest d / 36500 + d / 146096 = d / 36524 := by
  rcases last_or_regular h with ⟨hregular, hle⟩ | rfl
  · have hcases : d / 36524 = 0 ∨ d / 36524 = 1 ∨ d / 36524 = 2 ∨ d / 36524 = 3 := by omega
    simp only [rest, hregular]
    rcases hcases with hc | hc | hc | hc <;> rw [hc] <;> omega
  · rfl

theorem leap_years (h : d < 146097) :
    rest d / 1460 ≤ d / 1460 ∧ d / 1460 ≤ rest d / 1460 + 1 := by
  rcases last_or_regular h with ⟨hregular, hle⟩ | rfl
  · have hcases : d / 36524 = 0 ∨ d / 36524 = 1 ∨ d / 36524 = 2 ∨ d / 36524 = 3 := by omega
    simp only [rest, hregular]
    rcases hcases with hc | hc | hc | hc <;> rw [hc] <;> omega
  · decide

theorem rest_add : rest d + d / 1460 + d / 146096 = d + d / 36524 := by
  simp only [rest]
  omega

/-- An era has four hundred years. -/
theorem rest_lt (h : d < 146097) : rest d / 365 < 400 := by
  simp only [rest]
  omega

/-- A year begins on the day or before it. -/
theorem yearStart_le (h : d < 146097) : yearStart (rest d / 365) ≤ d := by
  have hleap := leap_years h
  have hcentury := centuries h
  have hrest := rest_add (d := d)
  simp only [yearStart, Nat.div_div_eq_div_mul]
  omega

/-- A year has at most 366 days. -/
theorem le_yearStart (h : d < 146097) : d ≤ yearStart (rest d / 365) + 365 := by
  have hleap := leap_years h
  have hcentury := centuries h
  have hrest := rest_add (d := d)
  simp only [yearStart, Nat.div_div_eq_div_mul]
  omega

/-- The day of a year, counted from March, on which a month begins. -/
def monthStart (slot : Nat) : Nat := (153 * slot + 2) / 5

/-- The month, counted from March, of a day of a year. -/
def slotOf (day : Nat) : Nat := (5 * day + 2) / 153

theorem monthStart_le (day : Nat) : monthStart (slotOf day) ≤ day := by
  simp only [monthStart, slotOf]
  omega

theorem slotOf_le {day : Nat} (h : day ≤ 365) : slotOf day ≤ 11 := by
  simp only [slotOf]
  omega

theorem le_monthStart (day : Nat) : day ≤ monthStart (slotOf day) + 30 := by
  simp only [monthStart, slotOf]
  omega

/-- The date of a day of one of the years of an era. -/
def ofEra (era : Int) (year day : Nat) : Date :=
  let slot := slotOf day
  let month := if slot < 10 then slot + 3 else slot - 9
  { year := if month ≤ 2 then era * 400 + year + 1 else era * 400 + year
    month
    day := day - monthStart slot + 1 }

/-- The day of its era that a day since the start of 1970 is. -/
def dayOfEra (n : Int) : Nat := ((n + 719468).fmod 146097).toNat

theorem ofDays_eq (n : Int) :
    ofDays n =
      ofEra ((n + 719468).fdiv 146097) (rest (dayOfEra n) / 365)
        (dayOfEra n - yearStart (rest (dayOfEra n) / 365)) := rfl

theorem dayOfEra_lt (n : Int) : dayOfEra n < 146097 := by
  have hlt := Int.fmod_lt_of_pos (n + 719468) (b := 146097) (by decide)
  simp only [dayOfEra]
  omega

theorem add_dayOfEra (n : Int) :
    (n + 719468).fdiv 146097 * 146097 + (dayOfEra n : Int) = n + 719468 := by
  have hpos := Int.fmod_nonneg_of_pos (n + 719468) (b := 146097) (by decide)
  rw [dayOfEra, Int.toNat_of_nonneg hpos, Int.fdiv_mul_add_fmod]

/-- The day on which a date falls, from the start of 1970. -/
def toDays (x : Date) : Int :=
  let year := if x.month ≤ 2 then x.year - 1 else x.year
  let slot := if x.month ≤ 2 then x.month + 9 else x.month - 3
  year / 400 * 146097 + (yearStart (year % 400).toNat + monthStart slot + (x.day - 1) : Nat) - 719468

/-- The days of a date are those of its era, of its year and of its day. -/
theorem toDays_ofEra {era : Int} {year day : Nat} (hyear : year < 400) (hday : day ≤ 365) :
    toDays (ofEra era year day) = era * 146097 + (yearStart year + day : Nat) - 719468 := by
  have hera : (era * 400 + year) / 400 = era := by omega
  have hin : ((era * 400 + year) % 400).toNat = year := by omega
  have hslot := slotOf_le hday
  have hmonth : monthStart (slotOf day) + (day - monthStart (slotOf day)) = day :=
    Nat.add_sub_cancel' (monthStart_le day)
  simp only [toDays, ofEra, Nat.add_sub_cancel]
  by_cases hlate : slotOf day < 10
  · have hnumber : ¬slotOf day + 3 ≤ 2 := by omega
    simp only [if_pos hlate, if_neg hnumber, Nat.add_sub_cancel, hera, hin, Nat.add_assoc, hmonth]
  · have hnumber : slotOf day - 9 ≤ 2 := by omega
    have hback : slotOf day - 9 + 9 = slotOf day := by omega
    have hearly : era * 400 + year + 1 - 1 = era * 400 + year := by omega
    simp only [if_neg hlate, if_pos hnumber, hback, hearly, hera, hin, Nat.add_assoc, hmonth]

/-- Counting from a day to its date and back gives the day. -/
theorem toDays_ofDays (n : Int) : (ofDays n).toDays = n := by
  have hstart := yearStart_le (dayOfEra_lt n)
  have hend := le_yearStart (dayOfEra_lt n)
  have hsum := add_dayOfEra n
  rw [ofDays_eq, toDays_ofEra (rest_lt (dayOfEra_lt n)) (by omega)]
  omega

/-- Two days have two dates. -/
theorem ofDays_injective : Function.Injective ofDays :=
  Function.LeftInverse.injective toDays_ofDays

/-- A month and a day of the month have at most two digits. -/
theorem ofDays_lt (n : Int) : (ofDays n).month < 100 ∧ (ofDays n).day < 100 := by
  have hend := le_yearStart (dayOfEra_lt n)
  have hlast := le_monthStart (dayOfEra n - yearStart (rest (dayOfEra n) / 365))
  have hday : dayOfEra n - yearStart (rest (dayOfEra n) / 365) ≤ 365 := by omega
  have hslot := slotOf_le hday
  rw [ofDays_eq]
  simp only [ofEra]
  constructor
  · split <;> omega
  · omega

end Date

/-! ## Digits on places -/

theorem length_padded (width n : Nat) : (Duration.padded width n).length = width := by
  induction width generalizing n with
  | zero => rfl
  | succ width ih => simp [Duration.padded, ih]

theorem isDigit_padded {width n : Nat} {c : Char} (h : c ∈ Duration.padded width n) :
    c.isDigit = true := by
  induction width generalizing n with
  | zero => cases h
  | succ width ih =>
      rcases List.mem_append.mp h with hfront | hlast
      · exact ih hfront
      · rw [List.mem_singleton.mp hlast]
        have hdigit : ∀ d < 10, (Nat.digitChar d).isDigit = true := by decide
        exact hdigit _ (Nat.mod_lt _ (by decide))

theorem ofDigitChars_padded (width n : Nat) :
    Nat.ofDigitChars 10 (Duration.padded width n) 0 = n % 10 ^ width := by
  induction width generalizing n with
  | zero =>
      rw [Nat.pow_zero, Nat.mod_one]
      rfl
  | succ width ih =>
      rw [Duration.padded, Nat.ofDigitChars_append, ih,
        Nat.ofDigitChars_cons_digitChar_of_lt_ten (Nat.mod_lt _ (by decide)), Nat.ofDigitChars_nil,
        Nat.pow_succ', Nat.mod_mul, Nat.add_comm]

/-- Padding to a width loses no number that fits. -/
theorem eq_of_padded {width m n : Nat} (hm : m < 10 ^ width) (hn : n < 10 ^ width)
    (h : Duration.padded width m = Duration.padded width n) : m = n := by
  have hvalue := congrArg (Nat.ofDigitChars 10 · 0) h
  simp only [ofDigitChars_padded, Nat.mod_eq_of_lt hm, Nat.mod_eq_of_lt hn] at hvalue
  exact hvalue

/-- Digits on as many places are taken off from the front of a text. -/
theorem padded_cancel {width m n : Nat} {rest rest' : List Char} (hm : m < 10 ^ width)
    (hn : n < 10 ^ width)
    (h : Duration.padded width m ++ rest = Duration.padded width n ++ rest') :
    m = n ∧ rest = rest' := by
  obtain ⟨hdigits, hrest⟩ := List.append_inj h (by rw [length_padded, length_padded])
  exact ⟨eq_of_padded hm hn hdigits, hrest⟩

/-! ## Years -/

/-- The places that a year is written on. -/
def yearPlaces (y : Int) : Nat := max 4 (Nat.toDigits 10 y.natAbs).length

theorem natAbs_lt_yearPlaces (y : Int) : y.natAbs < 10 ^ yearPlaces y :=
  (Nat.length_toDigits_le_iff (by decide) (Nat.lt_of_lt_of_le (by decide) (Nat.le_max_left _ _))).mp
    (Nat.le_max_right _ _)

theorem toList_yearText (y : Int) :
    (yearText y).toList =
      if 0 ≤ y ∧ y ≤ 9999 then Duration.padded 4 y.natAbs
      else (if y < 0 then '-' else '+') :: Duration.padded (yearPlaces y) y.natAbs := by
  have hplaces : max 4 (toString y.natAbs).length = yearPlaces y := by
    rw [yearPlaces, ← Nat.toList_repr, String.length_toList]
    rfl
  simp only [yearText, hplaces]
  split
  · simp [digits]
  · split <;> simp [digits]

/-- The text of a year ends where its places do, which its sign and its length tell. -/
theorem yearText_cancel {y y' : Int} {rest rest' : List Char}
    (h : (yearText y).toList ++ '-' :: rest = (yearText y').toList ++ '-' :: rest') :
    y = y' ∧ rest = rest' := by
  have hdash : ∀ r : List Char, Json.NoDigit ('-' :: r) := by
    intro r c hc
    cases hc
    rfl
  -- a year within four digits begins with a digit, any other with its sign
  have hhead : ∀ {n : Nat} {sign : Int} {r cs : List Char},
      Duration.padded 4 n ++ r ≠ (if sign < 0 then '-' else '+') :: cs := by
    intro n sign r cs heq
    have hmem : (if sign < 0 then '-' else '+') ∈ Duration.padded 4 n := by
      cases hp : Duration.padded 4 n with
      | nil =>
          have hlength := length_padded 4 n
          rw [hp] at hlength
          cases hlength
      | cons d ds =>
          rw [hp] at heq
          rw [(List.cons.inj heq).1]
          exact List.mem_cons_self
    have hdigit := isDigit_padded hmem
    split at hdigit <;> exact absurd hdigit (by decide)
  rw [toList_yearText, toList_yearText] at h
  by_cases hy : 0 ≤ y ∧ y ≤ 9999 <;> by_cases hy' : 0 ≤ y' ∧ y' ≤ 9999
  · rw [if_pos hy, if_pos hy'] at h
    obtain ⟨hsize, hrest⟩ := padded_cancel (by omega) (by omega) h
    exact ⟨by omega, (List.cons.inj hrest).2⟩
  · rw [if_pos hy, if_neg hy'] at h
    exact absurd h hhead
  · rw [if_neg hy, if_pos hy'] at h
    exact absurd h.symm hhead
  · rw [if_neg hy, if_neg hy', List.cons_append, List.cons_append] at h
    obtain ⟨hsign, htail⟩ := List.cons.inj h
    have hwritten : ∀ c ∈ Duration.padded (yearPlaces y) y.natAbs, c.isDigit = true :=
      fun _ => isDigit_padded
    have hspan := Json.Reader.spanDigits_append hwritten (hdash rest)
    rw [htail, Json.Reader.spanDigits_append (fun _ => isDigit_padded) (hdash rest')] at hspan
    obtain ⟨hdigits, hrest⟩ := Prod.mk.inj hspan
    have hvalue := congrArg (Nat.ofDigitChars 10 · 0) hdigits
    simp only [ofDigitChars_padded, Nat.mod_eq_of_lt (natAbs_lt_yearPlaces _)] at hvalue
    have hdiff : ('-' : Char) ≠ '+' := by decide
    refine ⟨?_, (List.cons.inj hrest).2.symm⟩
    split at hsign <;> split at hsign
    · omega
    · exact absurd hsign hdiff
    · exact absurd hsign.symm hdiff
    · omega

/-! ## Fractions -/

/-- The places that the fraction of a second is written on. -/
def fractionPlaces (nanos : Nat) : Nat :=
  if nanos = 0 then 0 else if nanos % 1000000 = 0 then 3 else if nanos % 1000 = 0 then 6 else 9

theorem toList_fractionText (n : Nat) :
    (fractionText n).toList =
      if fractionPlaces n = 0 then []
      else '.' :: Duration.padded (fractionPlaces n) (n / 10 ^ (9 - fractionPlaces n)) := by
  unfold fractionText fractionPlaces
  split
  · rfl
  split
  · simp [digits]
  split
  · simp [digits]
  · simp [digits]

/-- Nothing is lost behind the last place. -/
theorem dvd_of_fractionPlaces (n : Nat) : 10 ^ (9 - fractionPlaces n) ∣ n := by
  unfold fractionPlaces
  split
  · next h =>
      rw [h]
      exact Nat.dvd_zero _
  split
  · next h => exact Nat.dvd_of_mod_eq_zero h
  split
  · next h => exact Nat.dvd_of_mod_eq_zero h
  · exact Nat.one_dvd n

theorem fractionPlaces_le (n : Nat) : fractionPlaces n ≤ 9 := by
  unfold fractionPlaces
  repeat' split
  all_goals decide

/-- The text of a fraction says on how many places it is written. -/
theorem length_fractionText (n : Nat) :
    (fractionText n).toList.length = if fractionPlaces n = 0 then 0 else fractionPlaces n + 1 := by
  rw [toList_fractionText]
  split
  · rfl
  · rw [List.length_cons, length_padded]

/-- Only zeros at the end of a fraction are left out. -/
theorem fractionText_injective {m n : Nat} (hm : m < 10 ^ 9) (hn : n < 10 ^ 9)
    (h : fractionText m = fractionText n) : m = n := by
  have hplaces : fractionPlaces m = fractionPlaces n := by
    have hlength := congrArg (fun s => s.toList.length) h
    simp only [length_fractionText] at hlength
    split at hlength <;> split at hlength <;> omega
  have hsplit : ∀ k, k / 10 ^ (9 - fractionPlaces k) * 10 ^ (9 - fractionPlaces k) = k :=
    fun k => Nat.div_mul_cancel (dvd_of_fractionPlaces k)
  have hbound : ∀ k < 10 ^ 9, k / 10 ^ (9 - fractionPlaces k) < 10 ^ fractionPlaces k := by
    intro k hk
    rw [Nat.div_lt_iff_lt_mul (Nat.pow_pos (by decide)), ← Nat.pow_add,
      Nat.add_sub_cancel' (fractionPlaces_le k)]
    exact hk
  have htext := congrArg String.toList h
  rw [toList_fractionText, toList_fractionText, hplaces] at htext
  have hmbound := hbound m hm
  rw [hplaces] at hmbound
  rw [← hsplit m, ← hsplit n, hplaces]
  by_cases hnone : fractionPlaces n = 0
  · rw [hnone] at hmbound ⊢
    have hnbound := hbound n hn
    rw [hnone] at hnbound
    omega
  · rw [if_neg hnone, if_neg hnone] at htext
    rw [eq_of_padded hmbound (hbound n hn) (List.cons.inj htext).2]

/-! ## Timestamps -/

theorem toList_text (t : Timestamp) :
    (text t).toList =
      let clock := ((t.fdiv 1000000000).fmod 86400).toNat
      let date := Date.ofDays ((t.fdiv 1000000000).fdiv 86400)
      (yearText date.year).toList ++ '-' :: (Duration.padded 2 date.month ++ '-' ::
        (Duration.padded 2 date.day ++ 'T' :: (Duration.padded 2 (clock / 3600) ++ ':' ::
          (Duration.padded 2 (clock / 60 % 60) ++ ':' :: (Duration.padded 2 (clock % 60) ++
            ((fractionText (t.fmod 1000000000).toNat).toList ++ ['Z'])))))) := by
  simp [text, digits]

/-- Timestamps with the same text are equal. -/
theorem text_injective : Function.Injective text := by
  intro (t : Int) (t' : Int) h
  have htext := congrArg String.toList h
  rw [toList_text, toList_text] at htext
  have hsecond := Int.fdiv_mul_add_fmod t 1000000000
  have hsecond' := Int.fdiv_mul_add_fmod t' 1000000000
  have hnanos := Int.fmod_nonneg_of_pos t (b := 1000000000) (by decide)
  have hnanos' := Int.fmod_nonneg_of_pos t' (b := 1000000000) (by decide)
  have hlt := Int.fmod_lt_of_pos t (b := 1000000000) (by decide)
  have hlt' := Int.fmod_lt_of_pos t' (b := 1000000000) (by decide)
  generalize t.fdiv 1000000000 = second at *
  generalize t'.fdiv 1000000000 = second' at *
  have hday := Int.fdiv_mul_add_fmod second 86400
  have hday' := Int.fdiv_mul_add_fmod second' 86400
  have hclock := Int.fmod_nonneg_of_pos second (b := 86400) (by decide)
  have hclock' := Int.fmod_nonneg_of_pos second' (b := 86400) (by decide)
  have hend := Int.fmod_lt_of_pos second (b := 86400) (by decide)
  have hend' := Int.fmod_lt_of_pos second' (b := 86400) (by decide)
  generalize second.fdiv 86400 = day at *
  generalize second'.fdiv 86400 = day' at *
  obtain ⟨hmonth, hdayOfMonth⟩ := Date.ofDays_lt day
  obtain ⟨hmonth', hdayOfMonth'⟩ := Date.ofDays_lt day'
  -- part by part from the left
  obtain ⟨hyears, htext⟩ := yearText_cancel htext
  obtain ⟨hmonths, htext⟩ := padded_cancel hmonth hmonth' htext
  obtain ⟨hdays, htext⟩ := padded_cancel hdayOfMonth hdayOfMonth' (List.cons.inj htext).2
  obtain ⟨hhours, htext⟩ := padded_cancel (by omega) (by omega) (List.cons.inj htext).2
  obtain ⟨hminutes, htext⟩ := padded_cancel (by omega) (by omega) (List.cons.inj htext).2
  obtain ⟨hseconds, htext⟩ := padded_cancel (by omega) (by omega) (List.cons.inj htext).2
  have hfractions := fractionText_injective (by omega) (by omega)
    (String.toList_inj.mp (List.append_cancel_right htext))
  have hdates : Date.ofDays day = Date.ofDays day' := by
    cases hd : Date.ofDays day
    cases hd' : Date.ofDays day'
    simp_all
  have hsame := Date.ofDays_injective hdates
  show (t : Int) = t'
  omega

end Timestamp
end Backpressure
