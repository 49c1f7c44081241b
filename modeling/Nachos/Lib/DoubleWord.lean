/-
Module: Nachos.Lib.DoubleWord
Purpose: Numbers that are kept in two words, the high one in front: what
  adding, doubling and negating such a number does to its words.  Nothing here
  mentions a particular program.
Trusted boundary: none
Main exports: toNat_words, carry_iff, words_add, words_double, words_neg
-/
import Mathlib.Tactic.Ring
import Mathlib.Algebra.Order.Group.Nat

namespace Nachos.Lib

variable {w : Nat}

/-- The number that two words make up. -/
theorem toNat_words (hi lo : BitVec w) :
    (hi ++ lo).toNat = hi.toNat * 2 ^ w + lo.toNat := by
  rw [BitVec.toNat_append, ← Nat.shiftLeft_add_eq_or_of_lt lo.isLt, Nat.shiftLeft_eq]

/-- A number is made up of its quotient and its remainder. -/
theorem words_eq {hi lo : BitVec w} {n : Nat} (high : hi.toNat = n / 2 ^ w % 2 ^ w)
    (low : lo.toNat = n % 2 ^ w) : hi ++ lo = BitVec.ofNat (w + w) n := by
  apply BitVec.eq_of_toNat_eq
  rw [toNat_words, BitVec.toNat_ofNat, high, low, Nat.pow_add, Nat.mod_mul]
  ring

/-- The sum of two words has been cut exactly when it is less than one of
them. -/
theorem carry_iff (x y : BitVec w) : x + y < y ↔ 2 ^ w ≤ x.toNat + y.toNat := by
  have xBound := x.isLt
  have yBound := y.isLt
  rw [BitVec.lt_def, BitVec.toNat_add]
  by_cases fits : x.toNat + y.toNat < 2 ^ w
  · rw [Nat.mod_eq_of_lt fits]
    omega
  · rw [Nat.mod_eq_sub_mod (by omega), Nat.mod_eq_of_lt (by omega)]
    omega

/-- The carry out of the low words goes into the high ones. -/
theorem words_add (hi lo hi' lo' : BitVec w) :
    ((if lo + lo' < lo' then hi + 1 else hi) + hi') ++ (lo + lo') =
      (hi ++ lo) + (hi' ++ lo') := by
  have sum : (hi ++ lo) + (hi' ++ lo') = BitVec.ofNat (w + w)
      (lo.toNat + lo'.toNat + (hi.toNat + hi'.toNat) * 2 ^ w) := by
    apply BitVec.eq_of_toNat_eq
    rw [BitVec.toNat_add, toNat_words, toNat_words, BitVec.toNat_ofNat]
    congr 1
    ring
  have loBound := lo.isLt
  have loBound' := lo'.isLt
  rw [sum]
  apply words_eq
  · rw [Nat.add_mul_div_right _ _ (Nat.two_pow_pos w)]
    by_cases carry : lo + lo' < lo'
    · have quotient : (lo.toNat + lo'.toNat) / 2 ^ w = 1 := by
        have cut := (carry_iff lo lo').mp carry
        exact Nat.div_eq_of_lt_le (by omega) (by omega)
      have one : (1 : BitVec w).toNat = 1 % 2 ^ w := BitVec.toNat_ofNat 1 w
      rw [if_pos carry, quotient, BitVec.toNat_add, BitVec.toNat_add, one, Nat.mod_add_mod,
        Nat.add_assoc, Nat.add_left_comm, Nat.mod_add_mod]
    · have quotient : (lo.toNat + lo'.toNat) / 2 ^ w = 0 := by
        have whole := mt (carry_iff lo lo').mpr carry
        exact Nat.div_eq_of_lt (by omega)
      rw [if_neg carry, quotient, BitVec.toNat_add, Nat.zero_add]
  · rw [BitVec.toNat_add, Nat.add_mul_mod_self_right]

/-- The highest bit of the low word goes into the high one. -/
theorem words_double (hi lo : BitVec w) :
    (if lo + lo < lo then hi + hi + 1 else hi + hi) ++ (lo + lo) =
      (hi ++ lo) + (hi ++ lo) := by
  rw [← words_add]
  congr 1
  split
  · rw [BitVec.add_assoc hi 1 hi, BitVec.add_comm 1 hi, ← BitVec.add_assoc]
  · rfl

/-- The complement is taken of both words, and the carry goes into the high
one. -/
theorem words_neg (positive : 0 < w) (hi lo : BitVec w) :
    (if ~~~lo + 1 = 0 then ~~~hi + 1 else ~~~hi) ++ (~~~lo + 1) = -(hi ++ lo) := by
  have large : 1 < 2 ^ w := Nat.one_lt_two_pow (by omega)
  have one : (1 : BitVec w).toNat = 1 := by
    rw [show (1 : BitVec w).toNat = 1 % 2 ^ w from BitVec.toNat_ofNat 1 w, Nat.mod_eq_of_lt large]
  have unit : (0 : BitVec w) ++ (1 : BitVec w) = (1 : BitVec (w + w)) := by
    apply BitVec.eq_of_toNat_eq
    rw [toNat_words, one, show (0 : BitVec w).toNat = 0 from BitVec.toNat_ofNat 0 w]
    rw [show (1 : BitVec (w + w)).toNat = 1 % 2 ^ (w + w) from BitVec.toNat_ofNat 1 (w + w),
      Nat.mod_eq_of_lt (Nat.one_lt_two_pow (by omega)), Nat.zero_mul]
  have zero : ~~~lo + 1 < 1 ↔ ~~~lo + 1 = 0 := by
    rw [BitVec.lt_def, one, Nat.lt_one_iff]
    constructor
    · exact fun same => BitVec.eq_of_toNat_eq same
    · exact fun same => by rw [same]; exact BitVec.toNat_ofNat 0 w
  rw [BitVec.neg_eq_not_add, BitVec.not_append]
  change _ = (~~~hi ++ ~~~lo) + (1 : BitVec (w + w))
  rw [← unit, ← words_add]
  simp only [zero]
  congr 1
  exact (BitVec.add_zero _).symm

end Nachos.Lib
