import Backpressure.Proofs.Decimal.Shortest
import Backpressure.Proofs.Json.Records

/-!
# Real numbers are read

A real number is read as digits with a power of ten (`number_spelling`), and the double is formed
from the two (`realOf`).  What is formed is always in the range of doubles (`realOf_cases`).

A finite double that was written is read without a fault (`realNumber_text`).  It need not be the
same double that comes back: the digits, the power of ten and their product or quotient are each
rounded.  `reread` is the double that does.
-/

namespace Backpressure.Json

open Decimal

namespace Reader

/-! ## Digits with a fraction or a power of ten -/

theorem get_eq (cs : List Char) : (get : Reader (List Char)) cs = .ok (cs, cs) := rfl

theorem set_eq (rest cs : List Char) : (set rest : Reader Unit) cs = .ok ((), rest) := rfl

theorem peek_eq (cs : List Char) : peek cs = .ok (cs.head?, cs) := rfl

theorem skip_cons (c : Char) (cs : List Char) : skip (c :: cs) = .ok ((), cs) := rfl

theorem map_congr {α β : Type} {f : α → β} {r r' : Reader α} {cs cs' : List Char}
    (h : r cs = r' cs') : (f <$> r) cs = (f <$> r') cs' := by
  simp only [Functor.map, StateT.map, h]

/-- The digits of a power of ten, after its sign, and the number that they make. -/
def powerDigits (positive : Bool) (significand : Nat) (scale : Int) (upward : Bool) :
    Reader Float := do
  let cs ← get
  match cs with
  | [] => fault .unfinished
  | _ =>
    let (ds, rest) := spanDigits cs
    set rest
    if ds.isEmpty then fault .malformed
    else
      let e := valueOf ds
      if largestPower < e then
        if significand ≠ 0 && upward then fault .malformed
        else pure (if positive then 0.0 else -0.0)
      else if upward then realOf positive significand (min (scale + e) largestPower)
      else realOf positive significand (max (scale - e) (-largestPower - 1))

theorem powerOfTen_minus (positive : Bool) (significand : Nat) (scale : Int) (cs : List Char) :
    powerOfTen positive significand scale ('e' :: '-' :: cs) =
      powerDigits positive significand scale false cs :=
  (bind_eq (skip_cons _ _)).trans ((bind_eq (peek_eq _)).trans (bind_eq (skip_cons _ _)))

theorem powerOfTen_digit (positive : Bool) (significand : Nat) (scale : Int) {c : Char}
    (hc : c.isDigit = true) (cs : List Char) :
    powerOfTen positive significand scale ('e' :: c :: cs) =
      powerDigits positive significand scale true (c :: cs) := by
  refine (bind_eq (skip_cons _ _)).trans ((bind_eq (peek_eq _)).trans ?_)
  have hplus : c ≠ '+' := by
    rintro rfl
    exact absurd hc (by decide)
  have hminus : c ≠ '-' := by
    rintro rfl
    exact absurd hc (by decide)
  simp only [List.head?_cons, hplus, hminus, imp_self, Option.some.injEq]
  rfl

/-- Digits of a power of ten are added to the scale or taken off. -/
theorem powerDigits_toDigits (positive : Bool) (significand : Nat) {scale : Int} {n : Nat}
    (upward : Bool) {rest : List Char} (hn : n ≤ largestPower) (hr : NoDigit rest)
    (hscale : (if upward then scale + n else scale - n).natAbs ≤ largestPower) :
    powerDigits positive significand scale upward (Nat.toDigits 10 n ++ rest) =
      realOf positive significand (if upward then scale + n else scale - n) rest := by
  have hvalue : valueOf (Nat.toDigits 10 n) = n := by
    rw [valueOf_eq, Nat.ofDigitChars_ten_toDigits]
  have hspan : spanDigits (Nat.toDigits 10 n ++ rest) = (Nat.toDigits 10 n, rest) :=
    spanDigits_append (fun _ => isDigit_of_mem_toDigits) hr
  have hsome : (Nat.toDigits 10 n).isEmpty = false := by
    simp
  obtain ⟨c, tail, hc⟩ := List.exists_cons_of_ne_nil (Nat.toDigits_ne_nil (n := n) (b := 10))
  have hcons : Nat.toDigits 10 n ++ rest = c :: (tail ++ rest) := by
    rw [hc]
    rfl
  refine (bind_eq (get_eq _)).trans ?_
  rw [hcons] at hspan ⊢
  simp only [hspan]
  refine (bind_eq (set_eq _ _)).trans ?_
  simp only [hsome, hvalue, Bool.false_eq_true, if_false, if_neg (Nat.not_lt.mpr hn)]
  cases upward with
  | true =>
      simp only [if_true] at hscale ⊢
      rw [Int.min_eq_left (by omega)]
  | false =>
      simp only [Bool.false_eq_true, if_false] at hscale ⊢
      rw [Int.max_eq_left (by omega)]

/-- A power of ten that was written is added to the one of the digits. -/
theorem powerOfTen_toString (positive : Bool) (significand : Nat) {scale e : Int}
    {rest : List Char} (he : e.natAbs ≤ largestPower) (hsum : (scale + e).natAbs ≤ largestPower)
    (hr : NoDigit rest) :
    powerOfTen positive significand scale ('e' :: ((toString e).toList ++ rest)) =
      realOf positive significand (scale + e) rest := by
  rw [toList_toString]
  by_cases hneg : e < 0
  · have hscale : scale + e = if false then scale + e.natAbs else scale - e.natAbs := by
      rw [if_neg (by decide)]
      omega
    rw [if_pos hneg, List.cons_append, powerOfTen_minus, hscale]
    exact powerDigits_toDigits positive significand false he hr (hscale ▸ hsum)
  · have hscale : scale + e = if true then scale + e.natAbs else scale - e.natAbs := by
      rw [if_pos rfl]
      omega
    obtain ⟨c, tail, hc⟩ :=
      List.exists_cons_of_ne_nil (Nat.toDigits_ne_nil (n := e.natAbs) (b := 10))
    have hdigit : c.isDigit = true := isDigit_of_mem_toDigits (hc ▸ List.mem_cons_self)
    have hdigits := powerDigits_toDigits positive significand true he hr (hscale ▸ hsum)
    rw [if_neg hneg, hscale, ← hdigits, hc]
    exact powerOfTen_digit positive significand scale hdigit (tail ++ rest)

/-- A power of ten is not taken for a digit. -/
theorem noDigit_powerText (p : Spelling) {rest : List Char} (hr : Ended rest) :
    NoDigit (p.powerText ++ rest) := by
  unfold Spelling.powerText
  split
  · exact hr.noDigit
  · intro c hc
    cases hc
    rfl

/-- A fraction that was written is read together with the digits before the point. -/
theorem fraction_spelling (positive : Bool) {p : Spelling} {value : Nat} {rest : List Char}
    (hd : ∀ c ∈ p.fraction, c.isDigit = true) (hne : p.fraction ≠ [])
    (hfits : Nat.ofDigitChars 10 p.fraction value < 2 ^ 64)
    (hpower : ∀ e ∈ p.power, e.natAbs ≤ largestPower) (hscale : p.scale.natAbs ≤ largestPower)
    (hr : Ended rest) :
    fraction positive value 0 ('.' :: (p.fraction ++ (p.powerText ++ rest))) =
      realOf positive (Nat.ofDigitChars 10 p.fraction value) p.scale rest := by
  have hspan := spanDigits_append hd (noDigit_powerText p hr)
  have hsome : p.fraction.isEmpty = false := by
    simp [hne]
  unfold fraction
  rw [bind_eq (skip_cons _ _)]
  refine (bind_eq (get_eq _)).trans ?_
  simp only [hspan]
  refine (bind_eq (set_eq _ _)).trans ?_
  simp only [hsome, Bool.false_eq_true, if_false, gather_digits 0 hfits]
  refine (bind_eq (peek_eq _)).trans ?_
  unfold Spelling.scale at hscale ⊢
  unfold Spelling.powerText
  cases hp : p.power with
  | none =>
      rw [hp] at hscale
      simp only [List.nil_append, Option.getD_none, Nat.zero_add]
      cases hhead : rest.head? with
      | none => rfl
      | some c => rcases hr c hhead with rfl | rfl | rfl <;> rfl
  | some e =>
      rw [hp] at hscale
      have hsum : (0 - ((0 + p.fraction.length : Nat) : Int)) + e = e - p.fraction.length := by
        omega
      simp only [Option.getD_some] at hscale ⊢
      rw [← hsum] at hscale ⊢
      exact powerOfTen_toString positive _ (hpower e hp) hscale hr.noDigit

/-- A number that was written with a fraction or a power of ten is read as a real number. -/
theorem number_spelling (positive : Bool) {p : Spelling} {rest : List Char} (h : p.IsReal)
    (hfits : p.significand < 2 ^ 64) (hpower : ∀ e ∈ p.power, e.natAbs ≤ largestPower)
    (hscale : p.scale.natAbs ≤ largestPower) (hr : Ended rest) :
    number positive (p.chars ++ rest) =
      (Numeral.real <$> realOf positive p.significand p.scale) rest := by
  have hsplit : p.significand = Nat.ofDigitChars 10 p.fraction (Nat.ofDigitChars 10 p.whole 0) :=
    Nat.ofDigitChars_append 0
  have hwhole : Nat.ofDigitChars 10 p.whole 0 < 2 ^ 64 := by
    rw [hsplit] at hfits
    exact Nat.lt_of_le_of_lt (le_ofDigitChars _ _) hfits
  have hdigit : NoDigit (p.fractionText ++ (p.powerText ++ rest)) := by
    unfold Spelling.fractionText
    split
    · exact noDigit_powerText p hr
    · intro c hc
      cases hc
      rfl
  rw [Spelling.chars, List.append_assoc, List.append_assoc, number_append positive h.whole hdigit,
    gather_digits 0 hwhole, hsplit]
  by_cases hnone : p.fraction = []
  · obtain ⟨e, he⟩ := Option.isSome_iff_exists.mp (h.broken.resolve_left (absurd hnone))
    have hscaleEq : p.scale = 0 + e := by
      rw [Spelling.scale, he, hnone, Option.getD_some, List.length_nil]
      omega
    have htext : p.fractionText ++ (p.powerText ++ rest) =
        'e' :: ((toString e).toList ++ rest) := by
      rw [Spelling.fractionText, if_pos hnone, Spelling.powerText, he]
      rfl
    rw [htext, hnone, hscaleEq]
    exact map_congr (powerOfTen_toString positive _ (hpower e he) (hscaleEq ▸ hscale) hr.noDigit)
  · have htext : p.fractionText ++ (p.powerText ++ rest) =
        '.' :: (p.fraction ++ (p.powerText ++ rest)) := by
      rw [Spelling.fractionText, if_neg hnone]
      rfl
    rw [htext]
    exact map_congr
      (fraction_spelling positive h.fraction hnone (hsplit ▸ hfits) hpower hscale hr)

/-! ## The double that is formed -/

theorem one_le_power {n : ℕ} (hn : n ≤ 308) : 1 ≤ size (parts (power n)) := by
  have hone : ((1 : ℕ) : ℚ) * 2 ^ (0 : ℤ) ≤ ((10 ^ n : ℕ) : ℚ) := by
    rw [zpow_zero, mul_one]
    exact_mod_cast Nat.one_le_pow n 10 (by decide)
  have h := (nearest_power hn).le_size_of_le (by decide) (by decide) hone
  rwa [zpow_zero, mul_one, Nat.cast_one] at h

theorem bounded_div_power {x : Float} {n : ℕ} (hx : Bounded (parts x)) (hn : n ≤ 308) :
    Bounded (parts (x / power n)) := by
  obtain ⟨hnear, hle⟩ := nearest_div_parts hx (nearest_power hn).canonical (one_le_power hn)
  exact hnear.bounded hle

/-- Divisions by powers of ten stay in the range of doubles. -/
theorem bounded_scaleDown {x : Float} (budget n : ℕ) (hx : Bounded (parts x)) :
    Bounded (parts (scaleDown budget x n)) := by
  induction budget generalizing x n with
  | zero => exact hx
  | succ budget ih =>
      unfold scaleDown
      split
      · next hn => exact bounded_div_power hx hn
      split
      · exact hx
      · exact ih _ (bounded_div_power hx (Nat.le_refl 308))

theorem bounded_neg {x : Float} (hx : Bounded (parts x)) : Bounded (parts (-x)) := by
  have hneg : Bounded (parts x).neg := by
    obtain ⟨hcanonical, hle⟩ := hx
    generalize parts x = u at hcanonical hle
    cases u with
    | infinity s => exact hcanonical.elim
    | notANumber => exact hcanonical.elim
    | zero s => exact ⟨trivial, hle⟩
    | finite s m e hpos => exact ⟨hcanonical, hle⟩
  show Bounded (Float.Model.pack (parts x).neg).unpack
  rwa [unpack_pack hneg]

theorem bounded_nat {n : ℕ} (hn : n < 2 ^ 64) : Bounded (parts (Float.ofNat n)) :=
  (nearest_nat hn).bounded (natCast_le_largest
    (Nat.le_trans (Nat.le_of_lt hn) (by decide +kernel)))

theorem bounded_signed {x : Float} (positive : Bool) (hx : Bounded (parts x)) :
    Bounded (parts (if positive then x else -x)) := by
  cases positive with
  | true => exact hx
  | false => exact bounded_neg hx

/-- A product that is not infinite is in the range of doubles. -/
theorem bounded_mul {x y : Float} (hx : Bounded (parts x)) (hy : Bounded (parts y))
    (hinf : (x * y).isInf = false) : Bounded (parts (x * y)) := by
  rcases bounded_or_infinite (nearest_mul hx.canonical hy.canonical).canonical with h | ⟨s, hs⟩
  · show Bounded (Float.Model.pack _).unpack
    rwa [unpack_pack h]
  · have hinf' : (parts (x * y)).isInf = false := hinf
    rw [show parts (x * y) = .infinity s from hs] at hinf'
    cases hinf'

theorem bounded_power {n : ℕ} (hn : n ≤ 308) : Bounded (parts (power n)) :=
  (nearest_power hn).bounded (natCast_le_largest (power_fits hn))

/-- Digits behind the point are divided by their power of ten. -/
theorem realOf_down (positive : Bool) (significand : ℕ) {scale : ℤ} (hscale : scale < 0) :
    realOf positive significand scale =
      pure (if positive then scaleDown 4 (Float.ofNat significand) (-scale).toNat
        else -scaleDown 4 (Float.ofNat significand) (-scale).toNat) := by
  unfold realOf
  simp only [if_neg (Int.not_le.mpr hscale)]
  rfl

/-- Digits before the point are multiplied by their power of ten. -/
theorem realOf_up (positive : Bool) {significand n : ℕ} (hn : n ≤ 308)
    (hinf : (Float.ofNat significand * power n).isInf = false) :
    realOf positive significand n =
      pure (if positive then Float.ofNat significand * power n
        else -(Float.ofNat significand * power n)) := by
  unfold realOf
  simp only [if_pos (Int.natCast_nonneg n), if_pos (by omega : (n : ℤ) ≤ 308), Int.toNat_natCast,
    hinf]
  rfl

/-- A real number is formed within the range of doubles, or not at all. -/
theorem realOf_cases (positive : Bool) {significand : ℕ} (scale : ℤ) (h : significand < 2 ^ 64) :
    realOf positive significand scale = fault .malformed ∨
      ∃ x, Bounded (parts x) ∧ realOf positive significand scale = pure x := by
  have hx := bounded_nat h
  rcases Int.lt_or_le scale 0 with hdown | hup
  · exact .inr ⟨_, bounded_signed positive (bounded_scaleDown _ _ hx),
      realOf_down positive significand hdown⟩
  obtain ⟨n, rfl⟩ := Int.eq_ofNat_of_zero_le hup
  by_cases hn : n ≤ 308
  · cases hinf : (Float.ofNat significand * power n).isInf with
    | true =>
        left
        unfold realOf
        simp only [if_pos hup, if_pos (by omega : (n : ℤ) ≤ 308), Int.toNat_natCast, hinf]
        rfl
    | false =>
        exact .inr ⟨_, bounded_signed positive (bounded_mul hx (bounded_power hn) hinf),
          realOf_up positive hn hinf⟩
  · unfold realOf
    simp only [if_pos hup, if_neg (by omega : ¬(n : ℤ) ≤ 308)]
    split
    · exact .inr ⟨_, bounded_signed positive hx, rfl⟩
    · exact .inl rfl

/-- The product of digits and a power of ten is in range if there is room for two roundings. -/
theorem isInf_of_fits {d s : ℕ} (hpos : 0 < d) (hd : d < 2 ^ 64) (hs : s ≤ 308)
    (hfits : (d : ℚ) * 10 ^ s * ((1 + 1 / 2 ^ 53) * (1 + 1 / 2 ^ 53)) ≤ largest) :
    (Float.ofNat d * power s).isInf = false := by
  have hleast : (2 : ℚ) ^ (-1022 : ℤ) ≤ 1 := by
    rw [zpow_neg]
    exact inv_le_one_of_one_le₀ (one_le_zpow₀ one_le_two (by decide))
  have hx := nearest_nat hd
  have hy := nearest_power hs
  have hdOne : (1 : ℚ) ≤ d := by exact_mod_cast hpos
  have hsOne : (1 : ℚ) ≤ (10 ^ s : ℕ) := by exact_mod_cast Nat.one_le_pow s 10 (by decide)
  have hxle := hx.size_le (le_trans hleast hdOne)
  have hyle := hy.size_le (le_trans hleast hsOne)
  have hproduct : size (parts (Float.ofNat d)) * size (parts (power s)) ≤ largest :=
    calc size (parts (Float.ofNat d)) * size (parts (power s))
        ≤ (d * (1 + 1 / 2 ^ 53)) * ((10 ^ s : ℕ) * (1 + 1 / 2 ^ 53)) :=
          mul_le_mul hxle hyle (size_nonneg _) (by positivity)
      _ = (d : ℚ) * 10 ^ s * ((1 + 1 / 2 ^ 53) * (1 + 1 / 2 ^ 53)) := by
          push_cast
          ring
      _ ≤ largest := hfits
  exact ((nearest_mul_parts hx.canonical hy.canonical hproduct).bounded hproduct).isInf

/-- The three largest doubles are within the range, too. -/
theorem isInf_of_top : ∀ (k : Fin 3) (narrow : Bool),
    let x := (Binary.mk (2 ^ 53 - 1 - k) 971 narrow).shortest
    (Float.ofNat x.digits * power x.scale.toNat).isInf = false := by
  decide +kernel

section Shortest

variable {b : Binary}

theorem isInf_shortest (h : b.InRange) (hscale : 0 ≤ b.shortest.scale) :
    (Float.ofNat b.shortest.digits * power b.shortest.scale.toNat).isInf = false := by
  have hclose := Binary.close_shortest h
  have hle := hclose.scale_le h
  by_cases hlow : b.exponent < 971 ∨ b.significand + 4 ≤ 2 ^ 53
  · have hfits := hclose.fits h hlow
    obtain ⟨n, hn⟩ := Int.eq_ofNat_of_zero_le hscale
    rw [hn, zpow_natCast] at hfits
    rw [hn, Int.toNat_natCast]
    exact isInf_of_fits hclose.pos
      (Nat.lt_of_le_of_lt hclose.digits_le (by decide)) (by omega) hfits
  · obtain ⟨m, e, narrow⟩ := b
    have hbits := h.significand_lt
    have hmax := h.exponent_le
    simp only [not_or] at hlow hbits hmax
    obtain rfl : e = 971 := by omega
    obtain ⟨k, rfl⟩ : ∃ k : Fin 3, m = 2 ^ 53 - 1 - k :=
      ⟨⟨2 ^ 53 - 1 - m, by omega⟩, by show m = 2 ^ 53 - 1 - (2 ^ 53 - 1 - m); omega⟩
    exact isInf_of_top k narrow

/-- The number that the shortest decimal spells can be formed. -/
theorem realOf_shortest (positive : Bool) (h : b.InRange) :
    ∃ y, realOf positive b.shortest.spelling.significand b.shortest.spelling.scale = pure y := by
  by_cases hwhole : b.shortest.IsWhole
  · rw [(Scaled.spelling_of_whole hwhole).2]
    exact ⟨_, realOf_down positive _ (by decide)⟩
  · obtain ⟨hdigits, hscale⟩ := Scaled.spelling_of_broken hwhole
    rw [hdigits, hscale]
    rcases Int.lt_or_le b.shortest.scale 0 with hdown | hup
    · exact ⟨_, realOf_down positive _ hdown⟩
    · obtain ⟨n, hn⟩ := Int.eq_ofNat_of_zero_le hup
      have hinf := isInf_shortest h hup
      have hle := (Binary.close_shortest h).scale_le h
      rw [hn, Int.toNat_natCast] at hinf
      rw [hn]
      exact ⟨_, realOf_up positive (by omega) hinf⟩

theorem mul_power_lt {d n k : ℕ} (h : (Nat.toDigits 10 d).length + n ≤ k) : d * 10 ^ n < 10 ^ k := by
  have hless : d < 10 ^ (Nat.toDigits 10 d).length :=
    (Nat.length_toDigits_le_iff (by decide) Nat.length_toDigits_pos).mp (Nat.le_refl _)
  calc d * 10 ^ n < 10 ^ (Nat.toDigits 10 d).length * 10 ^ n :=
        Nat.mul_lt_mul_of_pos_right hless (Nat.pow_pos (by decide))
    _ = 10 ^ ((Nat.toDigits 10 d).length + n) := (Nat.pow_add _ _ _).symm
    _ ≤ 10 ^ k := Nat.pow_le_pow_right (by decide) h

/-- Its digits fit into 64 bits, and its power of ten is far from the largest one. -/
theorem spelling_fits (h : b.InRange) : b.shortest.spelling.significand < 2 ^ 64 ∧
    b.shortest.spelling.scale.natAbs ≤ largestPower ∧
      ∀ e ∈ b.shortest.spelling.power, e.natAbs ≤ largestPower := by
  have hclose := Binary.close_shortest h
  have hlow := hclose.scale_ge
  have hhigh := hclose.scale_le h
  have hdigits := hclose.digits_le
  have hlength : (Nat.toDigits 10 b.shortest.digits).length ≤ 18 :=
    (Nat.length_toDigits_le_iff (by decide) (by decide)).mpr
      (Nat.lt_of_le_of_lt hdigits (by decide))
  have hpoint : b.shortest.point =
    (Nat.toDigits 10 b.shortest.digits).length + b.shortest.scale := rfl
  have hpower : ∀ e ∈ b.shortest.spelling.power, e.natAbs ≤ largestPower := by
    intro e he
    unfold Scaled.spelling at he
    rw [largestPower]
    split at he
    · cases he
    split at he
    · cases he
    split at he
    · cases he
    · cases he
      omega
  rw [largestPower] at hpower ⊢
  by_cases hwhole : b.shortest.IsWhole
  · obtain ⟨hsignificand, hscale⟩ := Scaled.spelling_of_whole hwhole
    obtain ⟨n, hn⟩ := Int.eq_ofNat_of_zero_le hwhole.1
    have hproduct : b.shortest.digits * 10 ^ n < 10 ^ 16 := by
      have hplaces := hwhole.2
      exact mul_power_lt (by omega)
    rw [hsignificand, hscale, hn, Int.toNat_natCast]
    exact ⟨by omega, by decide, hpower⟩
  · obtain ⟨hsignificand, hscale⟩ := Scaled.spelling_of_broken hwhole
    rw [hsignificand, hscale]
    exact ⟨Nat.lt_of_le_of_lt hdigits (by decide), by omega, hpower⟩

end Shortest

/-! ## Doubles that were written -/

theorem numeral_spelling (positive : Bool) {p : Spelling} (h : p.IsReal) (rest : List Char) :
    numeral ((if positive then [] else ['-']) ++ (p.chars ++ rest)) =
      number positive (p.chars ++ rest) := by
  cases positive with
  | false =>
      have hpeek : peekToken ('-' :: (p.chars ++ rest)) = .ok (some '-', '-' :: (p.chars ++ rest)) :=
        peekToken_cons rfl
      exact (bind_eq hpeek).trans (bind_eq (skip_cons _ _))
  | true =>
      obtain ⟨c, tail, hc⟩ := List.exists_cons_of_ne_nil h.whole.nonempty
      have hdigit : c.isDigit = true := h.whole.digits c (hc ▸ List.mem_cons_self)
      have htext : p.chars ++ rest = c :: (tail ++ (p.fractionText ++ p.powerText) ++ rest) := by
        rw [Spelling.chars, hc]
        rfl
      have hminus : c ≠ '-' := by
        rintro rfl
        exact absurd hdigit (by decide)
      have hsome : (digit? c).isSome = true := by
        rw [digit?_of_isDigit hdigit]
        rfl
      show numeral (p.chars ++ rest) = _
      rw [numeral, htext, bind_eq (peekToken_cons (isSpace_of_isDigit hdigit))]
      simp only [hsome, if_true]

/-- The text of a finite double spells a number that can be formed. -/
theorem text_spelling {x : Float} (hx : x.isFinite = true) :
    ∃ (positive : Bool) (p : Spelling) (y : Float), p.IsReal ∧
      (Decimal.text x).toList = (if positive then [] else ['-']) ++ p.chars ∧
      p.significand < 2 ^ 64 ∧ p.scale.natAbs ≤ largestPower ∧
      (∀ e ∈ p.power, e.natAbs ≤ largestPower) ∧
      realOf positive p.significand p.scale = pure y := by
  obtain ⟨positive, hsign⟩ : ∃ positive : Bool,
      (if Nat.pow 2 63 ≤ x.toBits.toNat then "-" else "").toList =
        if positive then [] else ['-'] := by
    split
    · exact ⟨false, rfl⟩
    · exact ⟨true, rfl⟩
  by_cases hzero : x.toBits.toNat % Nat.pow 2 63 = 0
  · have hreal : Spelling.IsReal ⟨['0'], ['0'], none⟩ := by
      refine ⟨isLeading_toDigits 0, ?_, .inl (List.cons_ne_nil _ _)⟩
      intro c hc
      rw [List.mem_singleton.mp hc]
      rfl
    refine ⟨positive, ⟨['0'], ['0'], none⟩, _, hreal, ?_, by decide, by decide, ?_,
      realOf_down positive _ (by decide)⟩
    · simp only [Decimal.text, if_pos hzero, String.toList_append, hsign]
      rfl
    · intro e he
      cases he
  · have hrange := inRange_ofBits hx hzero
    obtain ⟨y, hy⟩ := realOf_shortest positive hrange
    obtain ⟨hfits, hscale, hpower⟩ := spelling_fits hrange
    refine ⟨positive, _, y, Scaled.isReal_spelling (Binary.close_shortest hrange).pos.ne', ?_,
      hfits, hscale, hpower, hy⟩
    simp only [Decimal.text, if_neg hzero, String.toList_append, hsign, Scaled.toList_text]

end Reader

/-- The double that the text of a double is read as. -/
def reread (x : Float) : Float :=
  match Reader.run Reader.realNumber (Decimal.text x) with
  | .ok y => y
  | .error _ => x

namespace Reader

/-- A finite double that was written is read without a fault. -/
theorem exists_realNumber_text {x : Float} (hx : x.isFinite = true) :
    ∃ y, ∀ {rest : List Char}, Ended rest →
      realNumber ((Decimal.text x).toList ++ rest) = .ok (y, rest) := by
  obtain ⟨positive, p, y, hreal, htext, hfits, hscale, hpower, hy⟩ := text_spelling hx
  refine ⟨y, fun {rest} hr => ?_⟩
  have hnumber := number_spelling positive hreal hfits hpower hscale hr
  have hnumeral := numeral_spelling positive hreal rest
  rw [hnumber, hy] at hnumeral
  rw [htext, List.append_assoc]
  exact bind_eq hnumeral

theorem realNumber_text {x : Float} {rest : List Char} (hx : x.isFinite = true) (hr : Ended rest) :
    realNumber ((Decimal.text x).toList ++ rest) = .ok (reread x, rest) := by
  obtain ⟨y, hy⟩ := exists_realNumber_text hx
  have hwhole := hy ended_nil
  rw [List.append_nil] at hwhole
  rw [hy hr, reread, run_eq hwhole]

theorem run_text {x : Float} (hx : x.isFinite = true) :
    run realNumber (Decimal.text x) = .ok (reread x) := by
  have hwhole := realNumber_text hx ended_nil
  rw [List.append_nil] at hwhole
  exact run_eq hwhole

end Reader

/-- A field with a finite double is read, though perhaps as another double. -/
theorem Field.real_moves {σ : Type} {key : String} {s : σ} {get : σ → Float} {put : σ → Float → σ}
    (hx : (get s).isFinite = true) :
    (Field.real key get put).Moves s fun start => put start (reread (get s)) := by
  intro start rest hr
  have hchars : (Value.real (get s)).chars = (Decimal.text (get s)).toList := by
    rw [Value.chars, realText, if_pos hx]
  show (Field.real key get put).read start ((Value.real (get s)).chars ++ rest) = _
  rw [hchars]
  exact Reader.bind_eq (Reader.realNumber_text hx hr)

end Backpressure.Json
