import Backpressure.Json.Fields
import Mathlib.Algebra.Group.Nat.Defs
import Mathlib.Data.List.TakeDrop

/-!
# Digits and natural numbers

A run of digits ends where no digit follows, so digits that were written are taken from
the front of a text as they are (`spanDigits_append`).  Gathering them gives the number
they stand for as long as it fits into 64 bits (`gather_digits`), and a natural number of
64 bits is read back from its digits (`number_toDigits`).

What stands behind a value in a text is a comma or a closing bracket, or nothing.  None of
these can be taken for a part of a number.
-/

namespace Backpressure.Json

/-- What can stand behind a value: nothing, a comma or a closing bracket. -/
def Ended (rest : List Char) : Prop :=
  ∀ c ∈ rest.head?, c = ',' ∨ c = ']' ∨ c = '\x7d'

/-- No digit stands in front. -/
def NoDigit (rest : List Char) : Prop := ∀ c ∈ rest.head?, Reader.digit? c = none

theorem ended_nil : Ended [] := by
  intro c hc
  cases hc

theorem Ended.noDigit {rest : List Char} (h : Ended rest) : NoDigit rest := by
  intro c hc
  rcases h c hc with rfl | rfl | rfl <;> rfl

namespace Reader

/-! ## Steps of a reader -/

theorem bind_eq {α β : Type} {r : Reader α} {k : α → Reader β} {cs rest : List Char} {a : α}
    (h : r cs = .ok (a, rest)) : (r >>= k) cs = k a rest := by
  simp only [bind, StateT.bind, Except.bind, h]

theorem run_eq {α : Type} {r : Reader α} {text : String} {a : α}
    (h : r text.toList = .ok (a, [])) : run r text = .ok a := by
  rw [run, bind_eq h]
  rfl

/-! ## Digits -/

theorem digit?_of_isDigit {c : Char} (h : c.isDigit = true) :
    digit? c = some (c.toNat - 48) := by
  simp only [Char.isDigit, Bool.and_eq_true, decide_eq_true_eq] at h
  exact if_pos h

/-- Digits are taken up to the first character that is none. -/
theorem spanDigits_append {ds rest : List Char} (hd : ∀ c ∈ ds, c.isDigit = true)
    (hr : NoDigit rest) : spanDigits (ds ++ rest) = (ds, rest) := by
  have hsome : ∀ c ∈ ds, (digit? c).isSome = true := by
    intro c hc
    rw [digit?_of_isDigit (hd c hc)]
    rfl
  rw [spanDigits, List.span_eq_takeWhile_dropWhile, List.takeWhile_append_of_pos hsome,
    List.dropWhile_append_of_pos hsome]
  cases rest with
  | nil => rw [List.takeWhile_nil, List.dropWhile_nil, List.append_nil]
  | cons c rest =>
      have hnone : (digit? c).isSome = false := by rw [hr c rfl]; rfl
      rw [List.takeWhile_cons_of_neg (by simp [hnone]),
        List.dropWhile_cons_of_neg (by simp [hnone]), List.append_nil]

theorem valueOf_eq (ds : List Char) : valueOf ds = Nat.ofDigitChars 10 ds 0 := by
  simp only [valueOf, Nat.ofDigitChars_eq_foldl, Nat.mul_comm 10]
  rfl

theorem le_ofDigitChars (ds : List Char) (n : Nat) : n ≤ Nat.ofDigitChars 10 ds n := by
  rw [Nat.ofDigitChars_eq_ofDigitChars_zero]
  have hle : 1 * n ≤ 10 ^ ds.length * n := Nat.mul_le_mul_right n (Nat.one_le_pow _ _ (by decide))
  omega

/-- Digits are gathered into the number that they stand for, if it fits. -/
theorem gather_digits {ds : List Char} {n : Nat} (taken : Nat)
    (h : Nat.ofDigitChars 10 ds n < 2 ^ 64) :
    gather n taken ds = (Nat.ofDigitChars 10 ds n, taken + ds.length, 0) := by
  induction ds generalizing n taken with
  | nil => rfl
  | cons c ds ih =>
      rw [Nat.ofDigitChars_cons] at h ⊢
      have hstep : n * 10 + (c.toNat - 48) = 10 * n + (c.toNat - '0'.toNat) := by
        rw [Nat.mul_comm]
        rfl
      have hfit : n * 10 + (c.toNat - 48) < Nat.pow 2 64 := by
        rw [hstep]
        exact Nat.lt_of_le_of_lt (le_ofDigitChars ds _) h
      rw [gather, if_pos hfit, hstep, ih (taken + 1) h, List.length_cons, Nat.add_right_comm,
        Nat.add_assoc]

/-! ## Natural numbers -/

theorem isDigit_of_mem_toDigits {n : Nat} {c : Char} (h : c ∈ Nat.toDigits 10 n) :
    c.isDigit = true :=
  Nat.isDigit_of_mem_toDigits (by decide) (by decide) h

/-- The text of an integer is its digits, behind a sign if it is negative. -/
theorem toList_toString (n : Int) :
    (toString n).toList =
      if n < 0 then '-' :: Nat.toDigits 10 n.natAbs else Nat.toDigits 10 n.natAbs := by
  cases n with
  | ofNat m => simp [toString, Int.repr]
  | negSucc m => simp [toString, Int.repr]

theorem mem_toString {n : Int} {c : Char} (h : c ∈ (toString n).toList) :
    c.isDigit = true ∨ c = '-' := by
  rw [toList_toString] at h
  split at h
  · rcases List.mem_cons.mp h with rfl | hin
    · exact .inr rfl
    · exact .inl (isDigit_of_mem_toDigits hin)
  · exact .inl (isDigit_of_mem_toDigits h)

/-- The digits of a number begin with a zero only if there is no other. -/
theorem toDigits_of_head {n : Nat} {ds : List Char} (h : Nat.toDigits 10 n = '0' :: ds) :
    ds = [] := by
  induction n using Nat.strongRecOn generalizing ds with
  | ind n ih =>
      rcases Nat.lt_or_ge n 10 with hlt | hge
      · rw [Nat.toDigits_of_lt_base hlt] at h
        exact (List.cons.inj h).2.symm
      · exfalso
        rw [Nat.toDigits_of_base_le (by decide) hge] at h
        cases hfront : Nat.toDigits 10 (n / 10) with
        | nil => exact Nat.toDigits_ne_nil hfront
        | cons c front =>
            rw [hfront] at h
            obtain ⟨rfl, -⟩ := List.cons.inj h
            have hvalue := congrArg (Nat.ofDigitChars 10 · 0) hfront
            rw [ih (n / 10) (by omega) hfront] at hvalue
            simp only [Nat.ofDigitChars_ten_toDigits] at hvalue
            have hnone : Nat.ofDigitChars 10 ['0'] 0 = 0 := rfl
            omega

/-- Whether a run of digits can be the integer part of a number. -/
structure IsLeading (ds : List Char) : Prop where
  digits : ∀ c ∈ ds, c.isDigit = true
  nonempty : ds ≠ []
  /-- A zero in front stands alone. -/
  noZero : ∀ rest, ds = '0' :: rest → rest = []

theorem isLeading_toDigits (n : Nat) : IsLeading (Nat.toDigits 10 n) where
  digits _ := isDigit_of_mem_toDigits
  nonempty := Nat.toDigits_ne_nil
  noZero _ := toDigits_of_head

/-- The integer part of a number is taken off, and what follows says what the number is. -/
theorem number_append {ds rest : List Char} (positive : Bool) (hl : IsLeading ds)
    (hr : NoDigit rest) :
    number positive (ds ++ rest) =
      ((match rest.head? with
      | some '.' => Numeral.real <$> fraction positive (gather 0 0 ds).1 (gather 0 0 ds).2.2
      | some 'e' | some 'E' =>
          Numeral.real <$> powerOfTen positive (gather 0 0 ds).1 (gather 0 0 ds).2.2
      | _ =>
          if (gather 0 0 ds).2.2 ≠ 0 then
            Numeral.real <$> realOf positive (gather 0 0 ds).1 (gather 0 0 ds).2.2
          else if positive then pure (Numeral.natural (gather 0 0 ds).1)
          else if (gather 0 0 ds).1 = 0 || Nat.pow 2 63 < (gather 0 0 ds).1 then
            pure (Numeral.real (-Float.ofNat (gather 0 0 ds).1))
          else pure (Numeral.negative (-((gather 0 0 ds).1 : Int))) : Reader Numeral)) rest := by
  obtain ⟨c, tail, hds⟩ := List.exists_cons_of_ne_nil hl.nonempty
  have hc : (digit? c).isNone = false := by
    rw [digit?_of_isDigit (hl.digits c (hds ▸ List.mem_cons_self))]
    rfl
  have hz : (decide (c = '0') && decide (ds.length ≠ 1)) = false := by
    rcases Decidable.em (c = '0') with rfl | hne
    · rw [hds, hl.noZero tail hds]
      rfl
    · rw [decide_eq_false hne, Bool.false_and]
  have hspan : spanDigits (c :: (tail ++ rest)) = (ds, rest) := by
    rw [← List.cons_append, ← hds]
    exact spanDigits_append hl.digits hr
  have htext : ds ++ rest = c :: (tail ++ rest) := by rw [hds]; rfl
  have hget : (get : Reader (List Char)) (c :: (tail ++ rest)) =
      .ok (c :: (tail ++ rest), c :: (tail ++ rest)) := rfl
  have hset : (set rest : Reader Unit) (c :: (tail ++ rest)) = .ok ((), rest) := rfl
  rw [htext]
  refine (bind_eq hget).trans ?_
  simp only [hc, hspan, hz, Bool.false_eq_true, if_false]
  exact bind_eq hset

/-- Digits of a natural number of 64 bits are read as this number. -/
theorem number_toDigits {n : Nat} {rest : List Char} (hn : n < 2 ^ 64) (hr : Ended rest) :
    number true (Nat.toDigits 10 n ++ rest) = .ok (.natural n, rest) := by
  have hvalue : Nat.ofDigitChars 10 (Nat.toDigits 10 n) 0 = n := Nat.ofDigitChars_ten_toDigits
  have hgather : gather 0 0 (Nat.toDigits 10 n) = _ := gather_digits 0 (hvalue.symm ▸ hn)
  rw [hvalue] at hgather
  rw [number_append true (isLeading_toDigits n) hr.noDigit, hgather]
  cases hhead : rest.head? with
  | none => rfl
  | some c => rcases hr c hhead with rfl | rfl | rfl <;> rfl

end Reader

end Backpressure.Json
