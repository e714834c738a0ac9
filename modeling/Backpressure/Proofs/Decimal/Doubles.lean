import Backpressure.Json.Reader
import Backpressure.Proofs.Decimal.Rounding

/-!
# Finite doubles

A double is stored in 64 bits.  What an operation computes comes back from these bits as it is if
it is not above the largest double, and becomes infinite otherwise (`unpack_pack`,
`bounded_or_infinite`).  So the operations on doubles give the nearest double to the exact result
as long as this result is not above the largest double (`nearest_mul_parts`, `nearest_div_parts`,
`nearest_ofScientific`).

The powers of ten up to `10 ^ 22` are looked up in a table; a number times such a power takes
another way than the others, with the same result.
-/

namespace Backpressure.Decimal

open Float.Model (UnpackedFloat Format totalExponent)
open Float.Model.UnpackedFloat

/-! ## Bits -/

theorem toNat_implicit (m : BitVec 52) : (1#1 ++ m).toNat = 2 ^ 52 + m.toNat := by
  rw [BitVec.toNat_append, ← Nat.shiftLeft_add_eq_or_of_lt m.isLt]
  simp [Nat.shiftLeft_eq]

theorem biased_eq (e : ℤ) :
    (e + Format.binary64.exponentBias + (52 : ℕ)).toNat = (e + 1075).toNat := by
  rw [show Format.binary64.exponentBias = 1023 from rfl]
  omega

theorem bits_eq : Format.binary64.mantissaBits = 53 := rfl

section Finite

variable {m : ℕ} {e : ℤ} (s : Sign) (hpos : 0 < m)

/-- A mantissa of 53 bits comes back from the bits of a double. -/
theorem unpack_pack_normal (hm : m < 2 ^ 53) (hmin : 2 ^ 52 ≤ m) (he : -1074 ≤ e) (hmax : e ≤ 971) :
    (Float.Model.pack (.finite s m e hpos)).unpack = .finite s m e hpos := by
  have hlog : m.log2 = 52 := (Nat.log2_eq_iff (by omega)).mpr ⟨hmin, hm⟩
  have hfits : ¬2 ^ 11 ≤ (e + 1075).toNat + 1 := by omega
  have hexp : (BitVec.ofNat 11 (e + 1075).toNat).toNat = (e + 1075).toNat := by
    rw [BitVec.toNat_ofNat, Nat.mod_eq_of_lt (by omega)]
  have hzero : BitVec.ofNat 11 (e + 1075).toNat ≠ 0#11 := by
    intro heq
    have hnat := congrArg BitVec.toNat heq
    rw [hexp, BitVec.toNat_ofNat] at hnat
    omega
  have hones : BitVec.ofNat 11 (e + 1075).toNat ≠ -1#11 := by
    intro heq
    have hnat := congrArg BitVec.toNat heq
    rw [hexp, show (-1#11).toNat = 2047 from rfl] at hnat
    omega
  have hmantissa : (1#1 ++ BitVec.ofNat 52 m).toNat = m := by
    rw [toNat_implicit, BitVec.toNat_ofNat]
    omega
  show unpack Format.binary64 (pack Format.binary64 (.finite s m e hpos)) = _
  simp only [pack, biased_eq, if_neg hfits, hlog, bits_eq, if_true, unpack,
    unpackMantissa_packComponents, unpackExponent_packComponents, unpackSign_packComponents,
    Sign.ofBitVec_toBitVec, if_neg hones, if_neg hzero, hexp, hmantissa]
  congr 1
  rw [show Format.binary64.exponentBias = 1023 from rfl]
  omega

/-- So does a mantissa of fewer bits at the least exponent. -/
theorem unpack_pack_subnormal (hm : m < 2 ^ 52) :
    (Float.Model.pack (.finite s m (-1074) hpos)).unpack = .finite s m (-1074) hpos := by
  have hlog : m.log2 + 1 ≠ 53 := by
    have := (Nat.log2_lt (by omega)).mpr hm
    omega
  have hfits : ¬2 ^ 11 ≤ (-1074 + 1075 : ℤ).toNat + 1 := by decide
  have hmantissa : (BitVec.ofNat 52 m).toNat = m := by
    rw [BitVec.toNat_ofNat, Nat.mod_eq_of_lt hm]
  have hzero : BitVec.ofNat 52 m ≠ 0#52 := by
    intro heq
    have hnat := congrArg BitVec.toNat heq
    rw [hmantissa, BitVec.toNat_ofNat] at hnat
    omega
  have hones : (0#11) ≠ -1#11 := by decide
  show unpack Format.binary64 (pack Format.binary64 (.finite s m (-1074) hpos)) = _
  simp only [pack, biased_eq, if_neg hfits, bits_eq, if_neg hlog, unpack,
    unpackMantissa_packComponents, unpackExponent_packComponents, unpackSign_packComponents,
    Sign.ofBitVec_toBitVec, if_neg hones, if_true, dif_neg hzero, hmantissa]
  rfl

/-- A number with a larger exponent becomes infinite. -/
theorem unpack_pack_infinite (he : 971 < e) :
    (Float.Model.pack (.finite s m e hpos)).unpack = .infinity s := by
  have hover : 2 ^ 11 ≤ (e + 1075).toNat + 1 := by omega
  show unpack Format.binary64 (pack Format.binary64 (.finite s m e hpos)) = _
  simp only [pack, biased_eq, if_pos hover]
  cases s <;> rfl

end Finite

/-! ## Finite doubles -/

/-- What a double stands for. -/
abbrev parts (x : Float) : UnpackedFloat := x.toModel.unpack

/-- The largest double. -/
def largest : ℚ := (2 ^ 53 - 1 : ℕ) * 2 ^ (971 : ℤ)

/-- A number that a double can be. -/
structure Bounded (u : UnpackedFloat) : Prop where
  canonical : Canonical u
  le_largest : size u ≤ largest

theorem size_nonneg (u : UnpackedFloat) : 0 ≤ size u := by
  cases u with
  | finite s m e hpos => exact mul_nonneg (Nat.cast_nonneg m) (by positivity)
  | _ => exact le_refl 0

theorem exponent_le_iff {s : Sign} {m : ℕ} {e : ℤ} {hpos : 0 < m}
    (h : Canonical (.finite s m e hpos)) : size (.finite s m e hpos) ≤ largest ↔ e ≤ 971 := by
  obtain ⟨hm, he, hnormal⟩ := h
  simp only [size, largest]
  constructor
  · intro hle
    by_contra hmore
    have hmin := hnormal.resolve_right (by omega)
    have hbig : (2 : ℚ) ^ 52 * 2 ^ (972 : ℤ) ≤ m * 2 ^ e :=
      mul_le_mul (by exact_mod_cast hmin) (zpow_le_zpow_right₀ one_le_two (by omega))
        (by positivity) (by positivity)
    have hgap : ((2 ^ 53 - 1 : ℕ) : ℚ) * 2 ^ (971 : ℤ) < 2 ^ 52 * 2 ^ (972 : ℤ) := by
      rw [show (972 : ℤ) = 1 + 971 by decide, zpow_add₀ two_ne_zero, ← mul_assoc]
      exact mul_lt_mul_of_pos_right (by norm_num) (by positivity)
    linarith
  · intro hle
    exact mul_le_mul (by exact_mod_cast Nat.le_pred_of_lt hm)
      (zpow_le_zpow_right₀ one_le_two hle) (by positivity) (by positivity)

/-- A number that a double can be comes back from the bits. -/
theorem unpack_pack {u : UnpackedFloat} (h : Bounded u) : (Float.Model.pack u).unpack = u := by
  cases u with
  | infinity s => exact h.canonical.elim
  | notANumber => exact h.canonical.elim
  | zero s => cases s <;> rfl
  | finite s m e hpos =>
      have hmax := (exponent_le_iff h.canonical).mp h.le_largest
      obtain ⟨hm, he, hnormal⟩ := h.canonical
      by_cases hmin : 2 ^ 52 ≤ m
      · exact unpack_pack_normal s hpos hm hmin he hmax
      · obtain rfl := hnormal.resolve_left hmin
        exact unpack_pack_subnormal s hpos (by omega)

/-- Any other one becomes infinite. -/
theorem bounded_or_infinite {u : UnpackedFloat} (h : Canonical u) :
    Bounded u ∨ ∃ s, (Float.Model.pack u).unpack = .infinity s := by
  by_cases hle : size u ≤ largest
  · exact .inl ⟨h, hle⟩
  · right
    cases u with
    | infinity s => exact h.elim
    | notANumber => exact h.elim
    | zero s => exact absurd (by norm_num [size, largest]) hle
    | finite s m e hpos =>
        rw [exponent_le_iff h] at hle
        exact ⟨s, unpack_pack_infinite s hpos (by omega)⟩

theorem Nearest.bounded {v : ℚ} {u : UnpackedFloat} (h : Nearest v u) (hv : v ≤ largest) :
    Bounded u :=
  ⟨h.canonical, h.size_le_of_le (by decide) (by decide) hv⟩

theorem Bounded.isFinite {x : Float} (h : Bounded (parts x)) : x.isFinite = true := by
  show (parts x).isFinite = true
  cases hx : parts x with
  | infinity s => exact (hx ▸ h.canonical).elim
  | notANumber => exact (hx ▸ h.canonical).elim
  | zero s => rfl
  | finite s m e hpos => rfl

theorem Bounded.isInf {x : Float} (h : Bounded (parts x)) : x.isInf = false := by
  show (parts x).isInf = false
  cases hx : parts x with
  | infinity s => exact (hx ▸ h.canonical).elim
  | _ => rfl

/-! ## Operations -/

theorem nearest_zero (s : Sign) : Nearest 0 (.zero s) :=
  ⟨trivial, -1074, le_refl _, .inl rfl, 0, by simp [size], by simp; positivity, by simp; positivity⟩

/-- A product is rounded to the nearest double. -/
theorem nearest_mul {u w : UnpackedFloat} (hu : Canonical u) (hw : Canonical w) :
    Nearest (size u * size w) (mul Format.binary64 u w) := by
  cases u with
  | infinity s => exact hu.elim
  | notANumber => exact hu.elim
  | zero s =>
      cases w with
      | infinity s' => exact hw.elim
      | notANumber => exact hw.elim
      | zero s' => exact (zero_mul (0 : ℚ)).symm ▸ nearest_zero _
      | finite s' n e' hn => exact (zero_mul ((n : ℚ) * 2 ^ e')).symm ▸ nearest_zero _
  | finite s m e hm =>
      cases w with
      | infinity s' => exact hw.elim
      | notANumber => exact hw.elim
      | zero s' => exact (mul_zero ((m : ℚ) * 2 ^ e)).symm ▸ nearest_zero _
      | finite s' n e' hn =>
          have hc : e + e' ≤ -1074 ∨ 2 ^ 52 ≤ m * n := by
            rcases hu.2.2 with hbits | rfl
            · exact .inr (Nat.le_trans hbits (Nat.le_mul_of_pos_right m hn))
            rcases hw.2.2 with hbits | rfl
            · exact .inr (Nat.le_trans hbits (Nat.le_mul_of_pos_left n hm))
            · exact .inl (by decide)
          have h := nearest_round (s * s') (represents_exact (m * n)) hc
          rw [zpow_add₀ two_ne_zero, Nat.cast_mul, mul_mul_mul_comm] at h
          exact h

/-- The quotient of mantissas has enough bits. -/
theorem bits_divCore {m n : ℕ} {e e' : ℤ} (hm : 0 < m) (hn : 0 < n) :
    (divCore Format.binary64 m e n e').2.1 ≤ -1074 ∨
      2 ^ 52 ≤ (divCore Format.binary64 m e n e').1 := by
  have htarget : Format.binary64.targetExponent (totalExponent m e - totalExponent n e') =
      max (m.log2 + e - n.log2 - e' - 53) (-1074) := by
    simp only [Format.targetExponent, totalExponent, bits_eq, Format.minExponent]
    norm_num
    omega
  simp only [divCore, htarget]
  obtain ⟨t, ht⟩ : ∃ t : ℤ,
    t = min (e - e') (max (m.log2 + e - n.log2 - e' - 53) (-1074)) := ⟨_, rfl⟩
  rw [← ht]
  by_cases hleast : t ≤ -1074
  · exact .inl hleast
  · right
    have hshift : 53 + n.log2 ≤ m.log2 + (e - e' - t).toNat := by omega
    rw [Nat.le_div_iff_mul_le hn, Nat.shiftLeft_eq]
    calc 2 ^ 52 * n ≤ 2 ^ 52 * 2 ^ (n.log2 + 1) :=
          Nat.mul_le_mul_left _ (Nat.le_of_lt Nat.lt_log2_self)
      _ ≤ 2 ^ (m.log2 + (e - e' - t).toNat) := by
          rw [← Nat.pow_add]
          exact Nat.pow_le_pow_right (by decide) (by omega)
      _ ≤ m * 2 ^ (e - e' - t).toNat := by
          rw [Nat.pow_add]
          exact Nat.mul_le_mul_right _ (Nat.log2_self_le (by omega))

/-- A quotient is rounded to the nearest double. -/
theorem nearest_div {u w : UnpackedFloat} (hu : Canonical u) (hw : Canonical w)
    (hpos : 0 < size w) : Nearest (size u / size w) (div Format.binary64 u w) := by
  cases w with
  | infinity s' => exact hw.elim
  | notANumber => exact hw.elim
  | zero s' => exact absurd hpos (lt_irrefl 0)
  | finite s' n e' hn =>
      cases u with
      | infinity s => exact hu.elim
      | notANumber => exact hu.elim
      | zero s => exact (zero_div ((n : ℚ) * 2 ^ e')).symm ▸ nearest_zero _
      | finite s m e hm =>
          obtain ⟨t, ht⟩ : ∃ t, t = (divCore Format.binary64 m e n e').2.1 := ⟨_, rfl⟩
          have hle : t ≤ e - e' := by
            rw [ht]
            exact Int.min_le_left _ _
          have hvalue : ((m <<< (e - e' - t).toNat : ℕ) : ℚ) / n * 2 ^ t =
              (m * 2 ^ e) / (n * 2 ^ e') := by
            have hpow : (2 : ℚ) ^ (e - e' - t).toNat * 2 ^ t * 2 ^ e' = 2 ^ e := by
              rw [← zpow_natCast, ← zpow_add₀ two_ne_zero, ← zpow_add₀ two_ne_zero]
              congr 1
              omega
            rw [Nat.shiftLeft_eq, ← hpow]
            push_cast
            field_simp
          rw [ht] at hvalue
          show Nearest (m * 2 ^ e / (n * 2 ^ e')) _
          rw [← hvalue]
          exact nearest_round (s / s') (represents_quotient _ hn) (bits_divCore hm hn)

/-- A natural number is rounded to the nearest double. -/
theorem nearest_ofNat (n : ℕ) : Nearest n (ofNat Format.binary64 n) := by
  rcases Nat.eq_zero_or_pos n with rfl | hpos
  · exact nearest_zero .positive
  obtain ⟨k, hk⟩ : ∃ k, k = (0 - max ((n.log2 : ℤ) + 0 - 52) (-1074)).toNat := ⟨_, rfl⟩
  have hround : ofNat Format.binary64 n =
      roundWithAccuracy Format.binary64 .positive (n <<< k) (0 - k) .exact := by
    have hsign : compare (n : ℤ) 0 = .gt := Int.compare_eq_gt.mpr (by omega)
    simp only [ofNat, ofInt, UnpackedFloat.normalize, hsign, UnpackedFloat.round, target_eq,
      decreaseExponent, Int.toNat_natCast, ← hk]
  have hbits : 2 ^ 52 ≤ n <<< k := by
    rw [Nat.shiftLeft_eq]
    calc 2 ^ 52 ≤ 2 ^ (n.log2 + k) := Nat.pow_le_pow_right (by decide) (by omega)
      _ ≤ n * 2 ^ k := by
        rw [Nat.pow_add]
        exact Nat.mul_le_mul_right _ (Nat.log2_self_le (by omega))
  have hvalue : ((n <<< k : ℕ) : ℚ) * 2 ^ (0 - k : ℤ) = n := by
    rw [Nat.shiftLeft_eq, zero_sub, zpow_neg, zpow_natCast]
    push_cast
    field_simp
  rw [hround, ← hvalue]
  exact nearest_round .positive (represents_exact _) (.inr hbits)

/-- What is a double already stays as it is. -/
theorem Nearest.size_eq {v : ℚ} {u : UnpackedFloat} (h : Nearest v u) {m : ℕ} {e : ℤ}
    (hm : m < 2 ^ 53) (he : -1074 ≤ e) (hv : v = m * 2 ^ e) : size u = v := by
  have hle := h.size_le_of_le hm he (le_of_eq hv)
  have hge := h.le_size_of_le hm he (le_of_eq hv.symm)
  rw [hv]
  exact le_antisymm hle hge

theorem natCast_le_largest {n : ℕ} (hn : n ≤ (2 ^ 53 - 1) * 2 ^ 971) : (n : ℚ) ≤ largest := by
  have hpow : ((2 ^ 971 : ℕ) : ℚ) = 2 ^ (971 : ℤ) := by
    rw [Nat.cast_pow]
    exact (zpow_natCast 2 971).symm
  rw [largest, ← hpow, ← Nat.cast_mul]
  exact Nat.cast_le.mpr hn

/-- A natural number as a double. -/
theorem nearest_natural {n : ℕ} (hn : n ≤ (2 ^ 53 - 1) * 2 ^ 971) :
    Nearest n (parts (.ofModel (.ofNat n))) := by
  show Nearest n (Float.Model.pack (ofNat Format.binary64 n)).unpack
  rw [unpack_pack ((nearest_ofNat n).bounded (natCast_le_largest hn))]
  exact nearest_ofNat n

/-- The powers of ten that are looked up are the nearest doubles. -/
theorem exactlyRepresentable_eq : ∀ e : Fin 23,
    Float.exactlyRepresentablePowersOfTen[e] = .ofModel (.ofNat (10 ^ e.val)) := by
  decide +kernel

/-- They are even exact. -/
theorem size_power {e : ℕ} (he : e ≤ 22) : size (parts (.ofModel (.ofNat (10 ^ e)))) = 10 ^ e := by
  have hsmall : 10 ^ e ≤ (2 ^ 53 - 1) * 2 ^ 971 :=
    Nat.le_trans (Nat.pow_le_pow_right (by decide) he) (by decide +kernel)
  have hfive : 5 ^ e < 2 ^ 53 :=
    Nat.lt_of_le_of_lt (Nat.pow_le_pow_right (by decide) he) (by decide)
  have hsplit : ((10 ^ e : ℕ) : ℚ) = (5 ^ e : ℕ) * 2 ^ (e : ℤ) := by
    rw [zpow_natCast]
    push_cast
    rw [← mul_pow]
    norm_num
  rw [(nearest_natural hsmall).size_eq hfive (by omega) hsplit]
  push_cast
  rfl

/-- A product of doubles is rounded to the nearest double, unless it is too large. -/
theorem nearest_mul_parts {x y : Float} (hx : Canonical (parts x)) (hy : Canonical (parts y))
    (hfits : size (parts x) * size (parts y) ≤ largest) :
    Nearest (size (parts x) * size (parts y)) (parts (x * y)) := by
  have h := nearest_mul hx hy
  show Nearest _ (Float.Model.pack (mul Format.binary64 (parts x) (parts y))).unpack
  rw [unpack_pack (h.bounded hfits)]
  exact h

/-- So is a quotient by a double that is not below one. -/
theorem nearest_div_parts {x y : Float} (hx : Bounded (parts x)) (hy : Canonical (parts y))
    (hone : 1 ≤ size (parts y)) : Nearest (size (parts x) / size (parts y)) (parts (x / y)) ∧
      size (parts x) / size (parts y) ≤ largest := by
  have h := nearest_div hx.canonical hy (lt_of_lt_of_le one_pos hone)
  have hle : size (parts x) / size (parts y) ≤ largest :=
    le_trans (div_le_self (size_nonneg _) hone) hx.le_largest
  refine ⟨?_, hle⟩
  show Nearest _ (Float.Model.pack (div Format.binary64 (parts x) (parts y))).unpack
  rw [unpack_pack (h.bounded hle)]
  exact h

/-- A natural number times a power of ten is rounded to the nearest double, also when it is
computed by way of large numbers. -/
theorem nearest_scientific {m e : ℕ} (he : e ≤ 2 ^ 11) :
    Nearest ((m * 10 ^ e : ℕ) : ℚ) (ofScientific Format.binary64 m e) := by
  rw [ofScientific]
  by_cases hzero : m = 0
  · rw [dif_pos hzero, hzero, Nat.zero_mul]
    exact nearest_zero .positive
  have hhigh : ¬(e : ℤ) > 2 ^ Format.binary64.exponentBits := by
    show ¬(e : ℤ) > 2 ^ 11
    omega
  have hlow : ¬(e : ℤ) < -((2 ^ Format.binary64.exponentBits : ℤ) + m.log2) := by
    show ¬(e : ℤ) < -((2 ^ 11 : ℤ) + m.log2)
    omega
  have hpos : 0 < 10 ^ e := Nat.pow_pos (by decide)
  have hbits : 2 ^ 52 ≤ m <<< 53 * 10 ^ e := by
    rw [Nat.shiftLeft_eq]
    calc 2 ^ 52 ≤ 1 * 2 ^ 53 * 1 := by decide
      _ ≤ m * 2 ^ 53 * 10 ^ e :=
        Nat.mul_le_mul (Nat.mul_le_mul_right _ (Nat.pos_of_ne_zero hzero)) hpos
  have hvalue : ((m <<< 53 * 10 ^ e : ℕ) : ℚ) * 2 ^ (-53 + 0 : ℤ) = (m * 10 ^ e : ℕ) := by
    rw [Nat.shiftLeft_eq]
    push_cast
    norm_num
    ring
  rw [dif_neg hzero, if_neg hhigh, if_neg hlow, if_pos (by omega), ← hvalue]
  exact nearest_round _ (represents_exact _) (.inr hbits)

/-- A natural number times a power of ten is rounded to the nearest double. -/
theorem nearest_ofScientific {m e : ℕ} (he : e ≤ 2 ^ 11)
    (hfits : m * 10 ^ e ≤ (2 ^ 53 - 1) * 2 ^ 971) :
    Nearest ((m * 10 ^ e : ℕ) : ℚ) (parts (Float.ofScientific m false e)) := by
  rw [Float.ofScientific]
  split
  · next hfast =>
      have hm : m ≤ (2 ^ 53 - 1) * 2 ^ 971 :=
        Nat.le_trans (Nat.le_of_lt hfast.1) (by decide +kernel)
      have hten : 10 ^ e ≤ (2 ^ 53 - 1) * 2 ^ 971 :=
        Nat.le_trans (Nat.pow_le_pow_right (by decide) hfast.2) (by decide +kernel)
      have hfloat : m.toUInt64.toFloat = .ofModel (.ofNat m) := by
        show Float.ofModel (.ofNat (m % 2 ^ 64)) = _
        rw [Nat.mod_eq_of_lt (by omega)]
      have hsize : size (parts (.ofModel (.ofNat m))) = m :=
        (nearest_natural hm).size_eq hfast.1 (e := 0) (by decide) (by rw [zpow_zero, mul_one])
      have hpower := exactlyRepresentable_eq ⟨e, by omega⟩
      have hproduct := nearest_mul_parts (nearest_natural hm).canonical
        (nearest_natural hten).canonical
      rw [hsize, size_power hfast.2] at hproduct
      have hcast : ((m * 10 ^ e : ℕ) : ℚ) = m * 10 ^ e := by push_cast; rfl
      have hle := natCast_le_largest hfits
      rw [hcast] at hle ⊢
      simp only [Bool.false_eq_true, if_false]
      rw [hfloat]
      exact hpower ▸ hproduct hle
  · have h := nearest_scientific (m := m) he
    show Nearest _ (Float.Model.pack (ofScientific Format.binary64 m e)).unpack
    rw [unpack_pack (h.bounded (natCast_le_largest hfits))]
    exact h

theorem nearest_nat {n : ℕ} (hn : n < 2 ^ 64) : Nearest n (parts (Float.ofNat n)) := by
  have hfits : n * 10 ^ 0 ≤ (2 ^ 53 - 1) * 2 ^ 971 := by
    rw [Nat.pow_zero, Nat.mul_one]
    exact Nat.le_trans (Nat.le_of_lt hn) (by decide +kernel)
  have h := nearest_ofScientific (Nat.zero_le _) hfits
  rwa [Nat.pow_zero, Nat.mul_one] at h

theorem power_fits {n : ℕ} (hn : n ≤ 308) : 10 ^ n ≤ (2 ^ 53 - 1) * 2 ^ 971 :=
  Nat.le_trans (Nat.pow_le_pow_right (by decide) hn) (by decide +kernel)

theorem nearest_power {n : ℕ} (hn : n ≤ 308) :
    Nearest ((10 ^ n : ℕ) : ℚ) (parts (Json.Reader.power n)) := by
  have hfits : 1 * 10 ^ n ≤ (2 ^ 53 - 1) * 2 ^ 971 := by
    rw [Nat.one_mul]
    exact power_fits hn
  have h := nearest_ofScientific (by omega) hfits
  rwa [Nat.one_mul] at h

end Backpressure.Decimal
