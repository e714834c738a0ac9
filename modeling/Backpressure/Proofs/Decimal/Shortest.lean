import Backpressure.Proofs.Decimal.Doubles
import Mathlib.Data.Nat.Cast.Order.Field

/-!
# The reach of the shortest decimal

The search for the shortest decimal of a double starts at the magnitude of the double
(`Binary.magnitude_bounds`) and ends with a decimal that rounds to it.  So this decimal has at most
seventeen digits, and is at most half a unit above the double (`Binary.close_shortest`).

Read back, its digits and its power of ten are each rounded to a double, and then their product is.
Two roundings are at most two parts in `2 ^ 53`, so the product stays below the largest double
unless the double is one of the three largest ones (`Binary.Close.fits`).
-/

namespace Backpressure.Decimal

open Float.Model (Format)
open Float.Model.UnpackedFloat (unpack unpackExponent)

namespace Binary

variable {b : Binary}

/-! ## Grids and magnitudes -/

/-- The double. -/
def value (b : Binary) : ℚ := b.significand * 2 ^ b.exponent

theorem numerator_eq (n : ℕ) (e s : ℤ) :
    (numerator n e s : ℚ) * 10 ^ s = n * 2 ^ e * denominator e s := by
  have htwo : (2 : ℚ) ^ e.toNat = 2 ^ e * 2 ^ (-e).toNat := by
    rw [← zpow_natCast, ← zpow_natCast, ← zpow_add₀ two_ne_zero]
    congr 1
    omega
  have hten : (10 : ℚ) ^ (-s).toNat * 10 ^ s = 10 ^ s.toNat := by
    rw [← zpow_natCast, ← zpow_natCast, ← zpow_add₀ (by norm_num)]
    congr 1
    omega
  simp only [numerator, denominator, Nat.pow_eq]
  push_cast
  rw [mul_assoc, hten, htwo]
  ring

theorem denominator_pos (e s : ℤ) : 0 < denominator e s :=
  Nat.mul_pos (Nat.pow_pos (by decide)) (Nat.pow_pos (by decide))

/-- What rounds to a double is not zero, and at most half a unit above it. -/
theorem le_of_rounds {c : ℕ} {s : ℤ} (hpos : 0 < b.significand) (h : b.rounds c s = true) :
    0 < c ∧ (c : ℚ) * 10 ^ s ≤ (b.significand + 1 / 2) * 2 ^ b.exponent := by
  have hlow : 0 < numerator (4 * b.significand - if b.narrowBelow then 1 else 2) b.exponent s := by
    refine Nat.mul_pos (Nat.mul_pos ?_ (Nat.pow_pos (by decide))) (Nat.pow_pos (by decide))
    split <;> omega
  have hboth : 0 < 4 * c * denominator b.exponent s ∧
      4 * c * denominator b.exponent s ≤ numerator (4 * b.significand + 2) b.exponent s := by
    by_cases heven : b.significand % 2 = 0
    · simp only [rounds, if_pos heven, Bool.and_eq_true, decide_eq_true_eq] at h
      exact ⟨Nat.lt_of_lt_of_le hlow h.1, h.2⟩
    · simp only [rounds, if_neg heven, Bool.and_eq_true, decide_eq_true_eq] at h
      exact ⟨Nat.lt_trans hlow h.1, Nat.le_of_lt h.2⟩
  constructor
  · rcases Nat.eq_zero_or_pos c with rfl | hc
    · exact absurd hboth.1 (by simp)
    · exact hc
  · have hden : (0 : ℚ) < denominator b.exponent s := by exact_mod_cast denominator_pos _ _
    have hten : (0 : ℚ) < 10 ^ s := by positivity
    have hle : (4 * c * denominator b.exponent s : ℚ) * 10 ^ s ≤
        numerator (4 * b.significand + 2) b.exponent s * 10 ^ s :=
      mul_le_mul_of_nonneg_right (by exact_mod_cast hboth.2) (le_of_lt hten)
    rw [numerator_eq] at hle
    push_cast at hle
    refine le_of_mul_le_mul_right (a := 4 * (denominator b.exponent s : ℚ)) ?_ (by positivity)
    linarith

theorem digitCount_bounds {n : ℕ} (hn : 0 < n) :
    10 ^ (digitCount n - 1) ≤ n ∧ n < 10 ^ digitCount n ∧ 0 < digitCount n := by
  have hpos : 0 < digitCount n := Nat.length_toDigits_pos
  refine ⟨?_, (Nat.length_toDigits_le_iff (by decide) hpos).mp (Nat.le_refl _), hpos⟩
  rcases Nat.eq_zero_or_pos (digitCount n - 1) with hone | hmore
  · rw [hone]
    exact hn
  · refine Nat.le_of_not_lt fun hlt => ?_
    have hle : digitCount n ≤ digitCount n - 1 :=
      (Nat.length_toDigits_le_iff (by decide) hmore).mpr hlt
    omega

/-- The magnitude counts the digits of a whole number, the double with `k` places behind the point
in front of it. -/
theorem exists_places (hpos : 0 < b.significand) :
    ∃ k n : ℕ, b.magnitude = (digitCount n : ℤ) - 1 - k ∧ 0 < n ∧
      (n : ℚ) ≤ b.value * 10 ^ k ∧ b.value * 10 ^ k < n + 1 := by
  unfold magnitude value
  split
  · next he =>
      have hone : denominator b.exponent 0 = 1 := by
        simp only [denominator, Int.toNat_of_nonpos (by omega : -b.exponent ≤ 0)]
        rfl
      have hvalue := numerator_eq b.significand b.exponent 0
      rw [hone, zpow_zero, mul_one, Nat.cast_one, mul_one] at hvalue
      refine ⟨0, numerator b.significand b.exponent 0, by simp, ?_, ?_, ?_⟩
      · exact Nat.mul_pos (Nat.mul_pos hpos (Nat.pow_pos (by decide))) (by decide)
      · rw [hvalue, pow_zero, mul_one]
      · rw [hvalue, pow_zero, mul_one]
        exact lt_add_one _
  · next he =>
      obtain ⟨k, hk⟩ : ∃ k, k = (-b.exponent).toNat := ⟨_, rfl⟩
      have htwo : (2 : ℚ) ^ b.exponent = 1 / 2 ^ k := by
        rw [show b.exponent = -(k : ℤ) by omega, zpow_neg, zpow_natCast, one_div]
      have hvalue : (b.significand : ℚ) * 2 ^ b.exponent * 10 ^ k =
          (b.significand * 10 ^ k : ℕ) / (2 ^ k : ℕ) := by
        rw [htwo]
        push_cast
        ring
      refine ⟨k, b.significand * 10 ^ k / 2 ^ k, by rw [hk]; rfl, ?_, ?_, ?_⟩
      · refine Nat.div_pos ?_ (by positivity)
        exact Nat.le_trans (Nat.pow_le_pow_left (by decide) k) (Nat.le_mul_of_pos_left _ hpos)
      · rw [hvalue]
        exact Nat.cast_div_le
      · have hlt : b.significand * 10 ^ k < (b.significand * 10 ^ k / 2 ^ k + 1) * 2 ^ k := by
          rw [Nat.mul_comm (_ + 1)]
          exact Nat.lt_mul_div_succ _ (by positivity)
        rw [hvalue, div_lt_iff₀ (by positivity)]
        exact_mod_cast hlt

/-- The magnitude of a double is the largest power of ten that is not above it. -/
theorem magnitude_bounds (hpos : 0 < b.significand) :
    (10 : ℚ) ^ b.magnitude ≤ b.value ∧ b.value < 10 ^ (b.magnitude + 1) := by
  obtain ⟨k, n, hmagnitude, hn, hlow, hhigh⟩ := exists_places hpos
  obtain ⟨hfirst, hlast, hcount⟩ := digitCount_bounds hn
  have hpow : (0 : ℚ) < 10 ^ k := by positivity
  have hten : ∀ i : ℤ, (10 : ℚ) ^ (i - k) * 10 ^ k = 10 ^ i := by
    intro i
    rw [← zpow_natCast, ← zpow_add₀ (by norm_num)]
    congr 1
    omega
  rw [hmagnitude]
  constructor
  · have hle : (10 : ℚ) ^ ((digitCount n : ℤ) - 1) ≤ n := by
      rw [show (digitCount n : ℤ) - 1 = (digitCount n - 1 : ℕ) by omega, zpow_natCast]
      exact_mod_cast hfirst
    refine le_of_mul_le_mul_right ?_ hpow
    rw [hten]
    exact le_trans hle hlow
  · have hle : (n : ℚ) + 1 ≤ 10 ^ (digitCount n : ℤ) := by
      rw [zpow_natCast]
      exact_mod_cast hlast
    refine lt_of_mul_lt_mul_right ?_ (le_of_lt hpow)
    rw [show (digitCount n : ℤ) - 1 - k + 1 = digitCount n - k by omega, hten]
    exact lt_of_lt_of_le hhigh hle

/-! ## The search -/

/-- A decimal that can stand for a double: not zero, of at most seventeen digits, of no tiny
scale, and at most half a unit above the double. -/
structure Close (b : Binary) (x : Scaled) : Prop where
  pos : 0 < x.digits
  digits_le : x.digits ≤ 10 ^ 17
  scale_ge : -1100 ≤ x.scale
  le_value : (x.digits : ℚ) * 10 ^ x.scale ≤ (b.significand + 1 / 2) * 2 ^ b.exponent

/-- Doubles whose parts are in range. -/
structure InRange (b : Binary) : Prop where
  pos : 0 < b.significand
  significand_lt : b.significand < 2 ^ 53
  exponent_ge : -1074 ≤ b.exponent
  exponent_le : b.exponent ≤ 971

/-- A point of a grid is one of the two neighbours of the double, and rounds to it. -/
theorem onGrid_eq_some {s : ℤ} {c : ℕ} (h : b.onGrid s = some c) :
    b.rounds c s = true ∧
      c ≤ numerator b.significand b.exponent s / denominator b.exponent s + 1 := by
  unfold onGrid at h
  simp only [] at h
  split at h <;> cases h
  · next hbelow habove =>
      unfold nearer
      simp only []
      split
      · exact ⟨hbelow, Nat.le_succ _⟩
      split
      · exact ⟨habove, Nat.le_refl _⟩
      split
      · exact ⟨hbelow, Nat.le_succ _⟩
      · exact ⟨habove, Nat.le_refl _⟩
  · next hbelow habove => exact ⟨hbelow, Nat.le_succ _⟩
  · next hbelow habove => exact ⟨habove, Nat.le_refl _⟩

theorem InRange.magnitude_ge (h : InRange b) : -1075 ≤ b.magnitude := by
  by_contra hless
  have hone : (1 : ℚ) ≤ b.significand := by exact_mod_cast h.pos
  have hlow : (2 : ℚ) ^ (-1074 : ℤ) ≤ b.value := by
    have hpow : (2 : ℚ) ^ (-1074 : ℤ) ≤ 2 ^ b.exponent :=
      zpow_le_zpow_right₀ one_le_two h.exponent_ge
    have hmore : 1 * (2 : ℚ) ^ b.exponent ≤ b.value :=
      mul_le_mul_of_nonneg_right hone (by positivity)
    linarith
  have hhigh := (magnitude_bounds h.pos).2
  have hten : (10 : ℚ) ^ (b.magnitude + 1) ≤ 10 ^ (-1074 : ℤ) :=
    zpow_le_zpow_right₀ (by norm_num) (by omega)
  have htwo : (10 : ℚ) ^ (-1074 : ℤ) ≤ 2 ^ (-1074 : ℤ) := by
    rw [zpow_neg, zpow_neg]
    exact inv_anti₀ (by positivity) (zpow_le_zpow_left₀ (by norm_num) (by norm_num) (by norm_num))
  linarith

/-- A double lies within `n` digits of its magnitude. -/
theorem quotient_lt (hpos : 0 < b.significand) (n : ℕ) :
    numerator b.significand b.exponent (b.magnitude - n + 1) /
      denominator b.exponent (b.magnitude - n + 1) < 10 ^ n := by
  obtain ⟨s, hs⟩ : ∃ s, s = b.magnitude - n + 1 := ⟨_, rfl⟩
  have hden : (0 : ℚ) < denominator b.exponent s := by exact_mod_cast denominator_pos _ _
  have hten : (0 : ℚ) < 10 ^ s := by positivity
  have hvalue : b.value < 10 ^ n * 10 ^ s := by
    rw [← zpow_natCast, ← zpow_add₀ (by norm_num), show (n : ℤ) + s = b.magnitude + 1 by omega]
    exact (magnitude_bounds hpos).2
  have hlt : (numerator b.significand b.exponent s : ℚ) < 10 ^ n * denominator b.exponent s := by
    refine lt_of_mul_lt_mul_right ?_ (le_of_lt hten)
    rw [numerator_eq]
    calc b.value * denominator b.exponent s < 10 ^ n * 10 ^ s * denominator b.exponent s :=
          mul_lt_mul_of_pos_right hvalue hden
      _ = 10 ^ n * denominator b.exponent s * 10 ^ s := by ring
  rw [← hs, Nat.div_lt_iff_lt_mul (denominator_pos _ _)]
  exact_mod_cast hlt

theorem close_search (h : InRange b) {budget n : ℕ} (hn : 0 < n) (hsum : n + budget = 18) :
    Close b (b.search b.magnitude budget n) := by
  induction budget generalizing n with
  | zero =>
      have hmagnitude := h.magnitude_ge
      have hsmall : b.significand ≤ 10 ^ 16 :=
        Nat.le_of_lt (Nat.lt_of_lt_of_le h.significand_lt (by decide))
      refine ⟨h.pos, Nat.le_trans hsmall (by decide), ?_, ?_⟩
      · show -1100 ≤ b.magnitude - n
        omega
      · show (b.significand : ℚ) * 10 ^ (b.magnitude - n) ≤ _
        calc (b.significand : ℚ) * 10 ^ (b.magnitude - n)
            ≤ 10 ^ (16 : ℤ) * 10 ^ (b.magnitude - n) :=
              mul_le_mul_of_nonneg_right (by exact_mod_cast hsmall) (by positivity)
          _ = 10 ^ (16 + (b.magnitude - n)) := (zpow_add₀ (by norm_num) _ _).symm
          _ ≤ 10 ^ b.magnitude := zpow_le_zpow_right₀ (by norm_num) (by omega)
          _ ≤ b.significand * 2 ^ b.exponent := (magnitude_bounds h.pos).1
          _ ≤ (b.significand + 1 / 2) * 2 ^ b.exponent :=
              mul_le_mul_of_nonneg_right (by linarith) (by positivity)
  | succ budget ih =>
      unfold search
      cases hc : b.onGrid (b.magnitude - n + 1) with
      | none => exact ih (Nat.succ_pos n) (by omega)
      | some c =>
          obtain ⟨hrounds, hle⟩ := onGrid_eq_some hc
          obtain ⟨hpos, hvalue⟩ := le_of_rounds h.pos hrounds
          have hmagnitude := h.magnitude_ge
          refine ⟨hpos, ?_, ?_, hvalue⟩
          · calc c ≤ 10 ^ n := Nat.le_trans hle (quotient_lt h.pos n)
              _ ≤ 10 ^ 17 := Nat.pow_le_pow_right (by decide) (by omega)
          · show -1100 ≤ b.magnitude - n + 1
            omega

theorem Close.strip {x : Scaled} (h : Close b x) (budget : ℕ) : Close b (x.strip budget) := by
  induction budget generalizing x with
  | zero => exact h
  | succ budget ih =>
      unfold Scaled.strip
      split
      · next hzero =>
          have hscale := h.scale_ge
          have hle := h.digits_le
          refine ih ⟨by show 0 < x.digits / 10; omega, by show x.digits / 10 ≤ 10 ^ 17; omega,
            by show -1100 ≤ x.scale + 1; omega, ?_⟩
          have hdigits : ((x.digits / 10 : ℕ) : ℚ) * 10 = x.digits := by
            exact_mod_cast Nat.div_mul_cancel (Nat.dvd_of_mod_eq_zero hzero.2)
          show ((x.digits / 10 : ℕ) : ℚ) * 10 ^ (x.scale + 1) ≤ _
          rw [zpow_add₀ (by norm_num), zpow_one, mul_comm ((10 : ℚ) ^ x.scale), ← mul_assoc,
            hdigits]
          exact h.le_value
      · exact h

/-- The shortest decimal of a double can stand for it. -/
theorem close_shortest (h : InRange b) : Close b b.shortest :=
  (close_search h (by decide) (by decide)).strip 20

/-- It is not too large by its power of ten alone. -/
theorem Close.scale_le (h : InRange b) {x : Scaled} (hx : Close b x) : x.scale ≤ 308 := by
  by_contra hmore
  have hone : (1 : ℚ) ≤ x.digits := by exact_mod_cast hx.pos
  have hbits : (b.significand : ℚ) + 1 / 2 ≤ 2 ^ 53 := by
    have hlt : (b.significand : ℚ) + 1 ≤ 2 ^ 53 := by exact_mod_cast h.significand_lt
    linarith
  have hlimit : (2 : ℚ) ^ 1024 < 10 ^ 309 := by
    exact_mod_cast (by decide +kernel : 2 ^ 1024 < 10 ^ 309)
  have hhigh : (x.digits : ℚ) * 10 ^ x.scale ≤ 2 ^ 1024 :=
    calc (x.digits : ℚ) * 10 ^ x.scale ≤ (b.significand + 1 / 2) * 2 ^ b.exponent := hx.le_value
      _ ≤ 2 ^ 53 * 2 ^ (971 : ℤ) :=
          mul_le_mul hbits (zpow_le_zpow_right₀ one_le_two h.exponent_le) (by positivity)
            (by positivity)
      _ = 2 ^ 1024 := by
          rw [← zpow_natCast, ← zpow_natCast, ← zpow_add₀ two_ne_zero]
          norm_num
  have hlow : (10 : ℚ) ^ 309 ≤ x.digits * 10 ^ x.scale :=
    calc (10 : ℚ) ^ 309 = 1 * 10 ^ (309 : ℤ) := by rw [one_mul]; exact (zpow_natCast 10 309).symm
      _ ≤ x.digits * 10 ^ x.scale :=
          mul_le_mul hone (zpow_le_zpow_right₀ (by norm_num) (by omega)) (by positivity)
            (by positivity)
  exact absurd (lt_of_lt_of_le hlimit hlow) (not_lt.mpr hhigh)

/-- Three units below the largest double there is room for the errors of two roundings. -/
theorem Close.fits (h : InRange b) {x : Scaled} (hx : Close b x)
    (hlow : b.exponent < 971 ∨ b.significand + 4 ≤ 2 ^ 53) :
    (x.digits : ℚ) * 10 ^ x.scale * ((1 + 1 / 2 ^ 53) * (1 + 1 / 2 ^ 53)) ≤ largest := by
  have hroom : ((b.significand : ℚ) + 1 / 2) * 2 ^ b.exponent ≤
      (2 ^ 53 - 7 / 2) * 2 ^ (971 : ℤ) := by
    rcases hlow with hexponent | hbits
    · have hpow : (2 : ℚ) ^ b.exponent ≤ 2 ^ (970 : ℤ) :=
        zpow_le_zpow_right₀ one_le_two (by omega)
      have hbits : (b.significand : ℚ) + 1 ≤ 2 ^ 53 := by exact_mod_cast h.significand_lt
      calc ((b.significand : ℚ) + 1 / 2) * 2 ^ b.exponent ≤ 2 ^ 53 * 2 ^ (970 : ℤ) :=
            mul_le_mul (by linarith) hpow (by positivity) (by positivity)
        _ ≤ (2 ^ 53 - 7 / 2) * 2 * 2 ^ (970 : ℤ) :=
            mul_le_mul_of_nonneg_right (by norm_num) (by positivity)
        _ = (2 ^ 53 - 7 / 2) * 2 ^ (971 : ℤ) := by
            rw [show (971 : ℤ) = 1 + 970 by decide, zpow_add₀ two_ne_zero, zpow_one, mul_assoc]
    · have hbits' : (b.significand : ℚ) + 4 ≤ 2 ^ 53 := by exact_mod_cast hbits
      exact mul_le_mul (by linarith) (zpow_le_zpow_right₀ one_le_two h.exponent_le)
        (by positivity) (by norm_num)
  calc (x.digits : ℚ) * 10 ^ x.scale * ((1 + 1 / 2 ^ 53) * (1 + 1 / 2 ^ 53))
      ≤ (2 ^ 53 - 7 / 2) * 2 ^ (971 : ℤ) * ((1 + 1 / 2 ^ 53) * (1 + 1 / 2 ^ 53)) :=
        mul_le_mul_of_nonneg_right (le_trans hx.le_value hroom) (by positivity)
    _ = (2 ^ 53 - 7 / 2) * ((1 + 1 / 2 ^ 53) * (1 + 1 / 2 ^ 53)) * 2 ^ (971 : ℤ) := by ring
    _ ≤ largest := mul_le_mul_of_nonneg_right (by norm_num) (by positivity)

end Binary

/-! ## The parts of a double -/

/-- A finite double does not have all bits of its exponent set. -/
theorem exponent_ne_of_isFinite {x : Float} (hx : x.isFinite = true) :
    x.toBits.toNat / 2 ^ 52 % 2 ^ 11 ≠ 2047 := by
  intro hones
  have hvec : @unpackExponent Format.binary64 x.toModel.toBits.toBitVec = -1#11 := by
    apply BitVec.eq_of_toNat_eq
    rw [unpackExponent, BitVec.toNat_cast, BitVec.extractLsb_toNat, Nat.shiftRight_eq_div_pow]
    exact hones
  have hunpack : (parts x).isFinite = true := hx
  unfold parts Float.Model.unpack unpack at hunpack
  simp only [] at hunpack
  rw [if_pos hvec] at hunpack
  split at hunpack <;> cases hunpack

/-- The parts of a finite double other than zero are in range. -/
theorem inRange_ofBits {x : Float} (hx : x.isFinite = true)
    (hzero : x.toBits.toNat % Nat.pow 2 63 ≠ 0) : (Binary.ofBits x.toBits).InRange := by
  have hones := exponent_ne_of_isFinite hx
  simp only [Nat.pow_eq] at hzero
  constructor <;> simp only [Binary.ofBits, Duration.significand, Duration.exponent, Nat.pow_eq]
  · split <;> omega
  · split <;> omega
  · omega
  · omega

end Backpressure.Decimal
