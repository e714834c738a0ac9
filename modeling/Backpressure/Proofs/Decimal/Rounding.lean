import Backpressure.Decimal.Shortest
import Mathlib

/-!
# Rounding to a double

Every operation on doubles computes a mantissa with two more bits, which tell where the exact
result lies between this mantissa and the next one (`Represents`), shifts it until it has 53 bits,
and rounds it.  What comes out is a multiple of a power of two that is at most half of this power
away from the exact result (`Nearest`, `nearest_round`).

Three consequences are used.  A number is not rounded beyond a double on either side
(`Nearest.size_le_of_le`, `Nearest.le_size_of_le`), and unless it is very small, it grows by at
most one part in `2 ^ 53` (`Nearest.size_le`).
-/

namespace Backpressure.Decimal

open Float.Model (UnpackedFloat Format totalExponent)
open Float.Model.UnpackedFloat

/-! ## A mantissa and two more bits -/

/-- Where a number lies that a mantissa with two residual bits stands for. -/
def Represents (em : ExtendedMantissa) (y : ℚ) : Prop :=
  match em.roundBit, em.stickyBit with
  | false, false => y = em.mantissa
  | false, true => em.mantissa < y ∧ y < em.mantissa + 1 / 2
  | true, false => y = em.mantissa + 1 / 2
  | true, true => em.mantissa + 1 / 2 < y ∧ y < em.mantissa + 1

namespace Represents

variable {em : ExtendedMantissa} {y : ℚ}

theorem bounds (h : Represents em y) : em.mantissa ≤ y ∧ y < em.mantissa + 1 := by
  obtain ⟨m, r, s⟩ := em
  cases r <;> cases s <;> simp only [Represents] at h ⊢ <;> constructor <;> linarith

/-- The mantissa is rounded to the nearest whole number. -/
theorem nearest (h : Represents em y) :
    (em.roundedMantissa : ℚ) ≤ y + 1 / 2 ∧ y ≤ em.roundedMantissa + 1 / 2 := by
  obtain ⟨m, r, s⟩ := em
  cases r <;> cases s <;>
    simp only [Represents, ExtendedMantissa.roundedMantissa, ExtendedMantissa.accuracy,
      Accuracy.roundToNearestEven] at h ⊢
  · constructor <;> linarith
  · constructor <;> linarith
  · rcases Nat.mod_two_eq_zero_or_one m with hm | hm <;> rw [hm] <;> push_cast <;> constructor <;>
      linarith
  · push_cast
    constructor <;> linarith

theorem shiftRightOne (h : Represents em y) : Represents em.shiftRightOne (y / 2) := by
  obtain ⟨m, r, s⟩ := em
  have hsplit : (m : ℚ) = 2 * ((m / 2 : ℕ) : ℚ) + ((m % 2 : ℕ) : ℚ) := by
    exact_mod_cast (Nat.div_add_mod m 2).symm
  rcases Nat.mod_two_eq_zero_or_one m with hm | hm <;> cases r <;> cases s <;>
    simp [Represents, ExtendedMantissa.shiftRightOne, hm] at h hsplit ⊢ <;>
    first
    | linarith
    | (constructor <;> linarith)

theorem shiftRight (h : Represents em y) (n : ℕ) : Represents (em >>> n) (y / 2 ^ n) := by
  change Represents (n.repeat ExtendedMantissa.shiftRightOne em) _
  induction n with
  | zero => simpa [Nat.repeat] using h
  | succ n ih =>
      rw [Nat.repeat, pow_succ, ← div_div]
      exact ih.shiftRightOne

end Represents

theorem represents_exact (m : ℕ) :
    Represents (ExtendedMantissa.ofMantissaAndAccuracy m .exact) m := rfl

theorem represents_quotient (n : ℕ) {d : ℕ} (hd : 0 < d) :
    Represents (ExtendedMantissa.ofMantissaAndAccuracy (n / d) (accuracyOfFraction (n % d) d))
      (n / d) := by
  have hpos : (0 : ℚ) < d := by exact_mod_cast hd
  have hsplit : (n : ℚ) = d * ((n / d : ℕ) : ℚ) + ((n % d : ℕ) : ℚ) := by
    exact_mod_cast (Nat.div_add_mod n d).symm
  have hvalue : (n : ℚ) / d = ((n / d : ℕ) : ℚ) + ((n % d : ℕ) : ℚ) / d := by
    rw [div_eq_iff (ne_of_gt hpos), add_mul, div_mul_cancel₀ _ (ne_of_gt hpos)]
    linarith
  have hlt : ((n % d : ℕ) : ℚ) / d < 1 := by
    rw [div_lt_one hpos]
    exact_mod_cast Nat.mod_lt n hd
  rw [hvalue, accuracyOfFraction]
  by_cases hzero : n % d = 0
  · simp [hzero, ExtendedMantissa.ofMantissaAndAccuracy, Represents]
  rw [if_neg hzero]
  have hmore : (0 : ℚ) < ((n % d : ℕ) : ℚ) / d := by
    apply div_pos _ hpos
    exact_mod_cast Nat.pos_of_ne_zero hzero
  rcases lt_trichotomy (2 * (n % d)) d with hlow | hhalf | hhigh
  · have hless : ((n % d : ℕ) : ℚ) / d < 1 / 2 := by
      rw [div_lt_div_iff₀ hpos two_pos]
      exact_mod_cast (by omega : n % d * 2 < 1 * d)
    rw [Nat.compare_eq_lt.mpr hlow]
    simp only [ExtendedMantissa.ofMantissaAndAccuracy, Represents]
    exact ⟨by linarith, by linarith⟩
  · have heq : ((n % d : ℕ) : ℚ) / d = 1 / 2 := by
      rw [div_eq_div_iff (ne_of_gt hpos) two_ne_zero]
      exact_mod_cast (by omega : n % d * 2 = 1 * d)
    rw [Nat.compare_eq_eq.mpr hhalf, heq]
    rfl
  · have hgreater : 1 / 2 < ((n % d : ℕ) : ℚ) / d := by
      rw [div_lt_div_iff₀ two_pos hpos]
      exact_mod_cast (by omega : 1 * d < n % d * 2)
    rw [Nat.compare_eq_gt.mpr hhigh]
    simp only [ExtendedMantissa.ofMantissaAndAccuracy, Represents]
    exact ⟨by linarith, by linarith⟩

/-! ## Rounding -/

/-- The size of a number; what is not finite has none. -/
def size : UnpackedFloat → ℚ
  | .finite _ m e _ => m * 2 ^ e
  | _ => 0

/-- Zero, or a mantissa of at most 53 bits with a power of two; fewer bits come only with the
least power. -/
def Canonical : UnpackedFloat → Prop
  | .zero _ => True
  | .finite _ m e _ => m < 2 ^ 53 ∧ -1074 ≤ e ∧ (2 ^ 52 ≤ m ∨ e = -1074)
  | _ => False

/-- A number is a multiple of a power of two, at most half of which it is away from `v`. -/
structure Nearest (v : ℚ) (u : UnpackedFloat) : Prop where
  canonical : Canonical u
  near : ∃ t : ℤ, -1074 ≤ t ∧ (t = -1074 ∨ 2 ^ (52 + t) ≤ v) ∧
    ∃ n : ℕ, size u = n * 2 ^ t ∧ n * 2 ^ t ≤ v + 2 ^ t / 2 ∧ v ≤ n * 2 ^ t + 2 ^ t / 2

theorem target_eq (m : ℕ) (e : ℤ) :
    Format.binary64.targetExponent (totalExponent m e) = max (m.log2 + e - 52) (-1074) := by
  simp only [Format.targetExponent, totalExponent, Format.mantissaBits, Format.minExponent]
  norm_num
  omega

/-- A mantissa of at most 53 bits stays. -/
theorem shift_of_lt {m : ℕ} {e : ℤ} (hm : m < 2 ^ 53) (he : -1074 ≤ e) :
    shiftToTargetExponent Format.binary64 m e .exact = (⟨m, false, false⟩, e) := by
  have hlog : m.log2 ≤ 52 := by
    by_cases hzero : m = 0
    · simp [hzero]
    · have := (Nat.log2_lt hzero).mpr hm
      omega
  have hshift : (max ((m.log2 : ℤ) + e - 52) (-1074) - e).toNat = 0 := by omega
  rw [shiftToTargetExponent, target_eq]
  simp only [shiftToExponent, hshift]
  simp [HShiftRight.hShiftRight, Nat.repeat, ExtendedMantissa.ofMantissaAndAccuracy]

/-- One more carries over into the exponent. -/
theorem shift_full {e : ℤ} (he : -1074 ≤ e) :
    shiftToTargetExponent Format.binary64 (2 ^ 53) e .exact =
      (⟨2 ^ 52, false, false⟩, e + 1) := by
  have hshift : (max (((2 ^ 53 : ℕ).log2 : ℤ) + e - 52) (-1074) - e).toNat = 1 := by
    rw [Nat.log2_two_pow]
    omega
  rw [shiftToTargetExponent, target_eq]
  simp only [shiftToExponent, hshift]
  simp [HShiftRight.hShiftRight, Nat.repeat, ExtendedMantissa.ofMantissaAndAccuracy,
    ExtendedMantissa.shiftRightOne]

/-- A mantissa shifted to the exponent of the result: the fraction that the bits stand for, and
how many of them there are. -/
theorem represents_shifted {m : ℕ} {e : ℤ} {acc : Accuracy} {y : ℚ}
    (hy : Represents (ExtendedMantissa.ofMantissaAndAccuracy m acc) y)
    (hc : e ≤ -1074 ∨ 2 ^ 52 ≤ m) :
    ∃ (em : ExtendedMantissa) (t : ℤ) (x : ℚ),
      shiftToTargetExponent Format.binary64 m e acc = (em, t) ∧ -1074 ≤ t ∧ Represents em x ∧
        x * 2 ^ t = y * 2 ^ e ∧ x < 2 ^ 53 ∧ (t = -1074 ∨ 2 ^ 52 ≤ x) := by
  have hm : (ExtendedMantissa.ofMantissaAndAccuracy m acc).mantissa = m := by
    rcases acc with _ | (_ | _ | _) <;> rfl
  have hbounds := hy.bounds
  rw [hm] at hbounds
  obtain ⟨t, ht⟩ : ∃ t : ℤ, t = max (m.log2 + e - 52) (-1074) := ⟨_, rfl⟩
  obtain ⟨k, hk⟩ : ∃ k, k = (t - e).toNat := ⟨_, rfl⟩
  have hlog : e ≤ -1074 ∨ 52 ≤ m.log2 := by
    rcases hc with he | hbits
    · exact .inl he
    · exact .inr ((Nat.le_log2 (by omega)).mpr hbits)
  have het : e + k = t := by omega
  have hpos : (0 : ℚ) < 2 ^ k := by positivity
  refine ⟨ExtendedMantissa.ofMantissaAndAccuracy m acc >>> k, t, y / 2 ^ k, ?_, by omega,
    hy.shiftRight k, ?_, ?_, ?_⟩
  · rw [shiftToTargetExponent, target_eq, ← ht, shiftToExponent, ← hk, het]
  · rw [← het, zpow_add₀ two_ne_zero, zpow_natCast, mul_comm ((2 : ℚ) ^ e), ← mul_assoc,
      div_mul_cancel₀ y (ne_of_gt hpos)]
  · have hbits : m + 1 ≤ 2 ^ (53 + k) :=
      Nat.le_trans (Nat.lt_log2_self (n := m)) (Nat.pow_le_pow_right (by decide) (by omega))
    rw [div_lt_iff₀ hpos, ← pow_add]
    exact lt_of_lt_of_le hbounds.2 (by exact_mod_cast hbits)
  · by_cases hleast : t = -1074
    · exact .inl hleast
    · have hne : m ≠ 0 := by
        rintro rfl
        simp at ht hlog
        omega
      have hbits : 2 ^ (52 + k) ≤ m :=
        Nat.le_trans (Nat.pow_le_pow_right (by decide) (by omega)) (Nat.log2_self_le hne)
      right
      rw [le_div_iff₀ hpos, ← pow_add]
      exact le_trans (by exact_mod_cast hbits) hbounds.1

/-- A number with enough bits is rounded to the nearest double. -/
theorem nearest_round (sign : Sign) {m : ℕ} {e : ℤ} {acc : Accuracy} {y : ℚ}
    (hy : Represents (ExtendedMantissa.ofMantissaAndAccuracy m acc) y)
    (hc : e ≤ -1074 ∨ 2 ^ 52 ≤ m) :
    Nearest (y * 2 ^ e) (roundWithAccuracy Format.binary64 sign m e acc) := by
  obtain ⟨em, t, x, hshift, ht, hx, hvalue, hless, hbits⟩ := represents_shifted hy hc
  have hnear := hx.nearest
  have hunit : (0 : ℚ) < 2 ^ t := by positivity
  -- the rounded mantissa has at most one bit more than there is room for
  have hroom : em.roundedMantissa ≤ 2 ^ 53 := by
    have hlt : (em.roundedMantissa : ℚ) < 2 ^ 53 + 1 := by linarith [hnear.1]
    exact Nat.le_of_lt_succ (by exact_mod_cast hlt)
  have hnormal : 2 ^ 52 ≤ em.roundedMantissa ∨ t = -1074 := by
    rcases hbits with hleast | hbig
    · exact .inr hleast
    · have hlt : (2 : ℚ) ^ 52 < em.roundedMantissa + 1 := by linarith [hnear.2]
      exact .inl (Nat.le_of_lt_succ (by exact_mod_cast hlt))
  have hresult : Canonical (roundWithAccuracy Format.binary64 sign m e acc) ∧
      size (roundWithAccuracy Format.binary64 sign m e acc) = em.roundedMantissa * 2 ^ t := by
    by_cases hfits : em.roundedMantissa < 2 ^ 53
    · simp only [roundWithAccuracy, hshift, shift_of_lt hfits ht]
      by_cases hzero : em.roundedMantissa = 0
      · simp [hzero, Canonical, size]
      · simp only [dif_neg hzero, Canonical, size, and_true]
        exact ⟨hfits, ht, hnormal⟩
    · have hfull : em.roundedMantissa = 2 ^ 53 := by omega
      simp only [roundWithAccuracy, hshift, hfull, shift_full ht]
      refine ⟨⟨by decide, by omega, .inl (Nat.le_refl _)⟩, ?_⟩
      show ((2 ^ 52 : ℕ) : ℚ) * 2 ^ (t + 1) = ((2 ^ 53 : ℕ) : ℚ) * 2 ^ t
      rw [zpow_add₀ two_ne_zero]
      push_cast
      ring
  refine ⟨hresult.1, t, ht, ?_, em.roundedMantissa, hresult.2, ?_, ?_⟩
  · rw [← hvalue, zpow_add₀ two_ne_zero]
    exact hbits.imp_right fun hbig => mul_le_mul_of_nonneg_right hbig (le_of_lt hunit)
  · rw [← hvalue]
    nlinarith [hnear.1]
  · rw [← hvalue]
    nlinarith [hnear.2]

/-- A double is a multiple of a unit that is not above its own. -/
theorem exists_multiple (m : ℕ) {e t : ℤ} (h : t ≤ e) :
    ∃ k : ℕ, (m : ℚ) * 2 ^ e = k * 2 ^ t := by
  obtain ⟨d, hd⟩ := Int.eq_ofNat_of_zero_le (Int.sub_nonneg_of_le h)
  refine ⟨m * 2 ^ d, ?_⟩
  rw [show e = d + t by omega, zpow_add₀ two_ne_zero, zpow_natCast]
  push_cast
  ring

theorem lt_of_exponent_lt {m : ℕ} {e t : ℤ} (hm : m < 2 ^ 53) (h : e < t) :
    (m : ℚ) * 2 ^ e < 2 ^ (52 + t) := by
  have hgap : (2 : ℚ) ^ (53 + e) ≤ 2 ^ (52 + t) := zpow_le_zpow_right₀ one_le_two (by omega)
  refine lt_of_lt_of_le ?_ hgap
  rw [zpow_add₀ two_ne_zero]
  exact mul_lt_mul_of_pos_right (by exact_mod_cast hm) (by positivity)

namespace Nearest

variable {v : ℚ} {u : UnpackedFloat}

/-- A number is not rounded beyond a double. -/
theorem size_le_of_le (h : Nearest v u) {m : ℕ} {e : ℤ} (hm : m < 2 ^ 53) (he : -1074 ≤ e)
    (hv : v ≤ m * 2 ^ e) : size u ≤ m * 2 ^ e := by
  obtain ⟨t, ht, hbits, n, hsize, hupper, -⟩ := h.near
  have hunit : (0 : ℚ) < 2 ^ t := by positivity
  rw [hsize]
  rcases le_or_gt t e with hte | het
  · obtain ⟨k, hk⟩ := exists_multiple m hte
    rw [hk] at hv ⊢
    have hlt : (n : ℚ) < k + 1 := lt_of_mul_lt_mul_right (by linarith) (le_of_lt hunit)
    have hle : n ≤ k := Nat.le_of_lt_succ (by exact_mod_cast hlt)
    exact mul_le_mul_of_nonneg_right (by exact_mod_cast hle) (le_of_lt hunit)
  · have hbig := hbits.resolve_left (by omega)
    exact absurd (lt_of_exponent_lt hm het) (by linarith)

/-- A number is not rounded below a double. -/
theorem le_size_of_le (h : Nearest v u) {m : ℕ} {e : ℤ} (hm : m < 2 ^ 53) (he : -1074 ≤ e)
    (hv : m * 2 ^ e ≤ v) : m * 2 ^ e ≤ size u := by
  obtain ⟨t, ht, hbits, n, hsize, -, hlower⟩ := h.near
  have hunit : (0 : ℚ) < 2 ^ t := by positivity
  rw [hsize]
  rcases le_or_gt t e with hte | het
  · obtain ⟨k, hk⟩ := exists_multiple m hte
    rw [hk] at hv ⊢
    have hlt : (k : ℚ) < n + 1 := lt_of_mul_lt_mul_right (by linarith) (le_of_lt hunit)
    have hle : k ≤ n := Nat.le_of_lt_succ (by exact_mod_cast hlt)
    exact mul_le_mul_of_nonneg_right (by exact_mod_cast hle) (le_of_lt hunit)
  · have hbig := hbits.resolve_left (by omega)
    have hless := lt_of_exponent_lt hm het
    rw [zpow_add₀ two_ne_zero] at hbig hless
    have hlt : (2 : ℚ) ^ (52 : ℤ) < n + 1 :=
      lt_of_mul_lt_mul_right (by linarith) (le_of_lt hunit)
    have hle : 2 ^ 52 ≤ n := Nat.le_of_lt_succ (by exact_mod_cast hlt)
    have hmore : (2 : ℚ) ^ (52 : ℤ) * 2 ^ t ≤ n * 2 ^ t :=
      mul_le_mul_of_nonneg_right (by exact_mod_cast hle) (le_of_lt hunit)
    linarith

/-- Away from the least unit, rounding makes a number larger by at most one in `2 ^ 53`. -/
theorem size_le (h : Nearest v u) (hv : 2 ^ (-1022 : ℤ) ≤ v) : size u ≤ v * (1 + 1 / 2 ^ 53) := by
  obtain ⟨t, ht, hbits, n, hsize, hupper, -⟩ := h.near
  have hunit : (2 : ℚ) ^ (52 + t) ≤ v := by
    rcases hbits with rfl | hbig
    · exact hv
    · exact hbig
  rw [zpow_add₀ two_ne_zero] at hunit
  rw [hsize]
  norm_num at hunit ⊢
  linarith

end Nearest

end Backpressure.Decimal
