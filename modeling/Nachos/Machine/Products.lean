/-
Module: Nachos.Machine.Products
Purpose: The multiplication of mipssim.cc.  Its loop adds shifted copies of one
  factor for the bits of the other, in two words with a carry made by hand; it
  is shown to give the product in 64 bits, for signed and for unsigned factors.
Trusted boundary: none
Main exports: multLoop_words, mult_product
-/
import Nachos.Lib.DoubleWord
import Nachos.Machine.Instructions

namespace Nachos

open Lib

/-! ### The bits of the multiplier -/

/-- The lowest bit. -/
theorem and_one_ne_zero (a : BitVec 32) : a &&& 1 ≠ 0 ↔ a.toNat % 2 = 1 := by
  have bit : (a &&& 1).toNat = a.toNat % 2 := by
    rw [BitVec.toNat_and]
    exact Nat.and_two_pow_sub_one_eq_mod a.toNat 1
  constructor
  · intro odd
    have positive := BitVec.toNat_pos_of_ne_zero odd
    omega
  · intro odd zero
    rw [zero] at bit
    have : (0 : BitVec 32).toNat = 0 := rfl
    omega

/-- `SIGN_BIT` is the highest bit. -/
theorem signed_iff (x : BitVec 32) : signed x ↔ 2 ^ 31 ≤ x.toNat := by
  have mask : (0x80000000 : BitVec 32) = BitVec.twoPow 32 31 := rfl
  have top : x.getLsbD 31 = x.msb := (BitVec.msb_eq_getLsbD_last x).symm
  unfold signed
  rw [mask, BitVec.and_twoPow, top, BitVec.msb_eq_decide]
  split
  · rename_i high
    exact iff_of_true (by decide) (by simpa using high)
  · rename_i low
    exact iff_of_false (by simp) (by simpa using low)

theorem signed_iff_neg (x : BitVec 32) : signed x ↔ x.toInt < 0 := by
  rw [signed_iff, BitVec.toInt_eq_toNat_cond]
  have bound := x.isLt
  split
  · omega
  · omega

/-- The lowest bit and the bits that the shift leaves; the sign that it brings
in at the top is not reached in 32 rounds. -/
theorem bits_of_sshiftRight (a : BitVec 32) {n : Nat} (few : n ≤ 31) :
    a.toNat % 2 ^ (n + 1) = a.toNat % 2 + 2 * ((a.sshiftRight 1).toNat % 2 ^ n) := by
  have halved : (a.sshiftRight 1).toNat % 2 ^ n = a.toNat / 2 % 2 ^ n := by
    rw [BitVec.toNat_sshiftRight]
    split
    · have bound := a.isLt
      have filled : 2 ^ 32 - 1 - (2 ^ 32 - 1 - a.toNat) >>> 1 =
          a.toNat / 2 + 2 ^ (31 - n) * 2 ^ n := by
        rw [← Nat.pow_add, Nat.sub_add_cancel few, Nat.shiftRight_eq_div_pow]
        omega
      rw [filled, Nat.add_mul_mod_self_right]
    · rw [Nat.shiftRight_eq_div_pow, Nat.pow_one]
  rw [halved, Nat.pow_succ', Nat.mod_mul]

/-! ### The loop -/

/-- The other factor after a round. -/
theorem double_words (bHi bLo : BitVec 32) :
    (if bLo &&& 0x80000000 ≠ 0 then bHi <<< 1 ||| 1 else bHi <<< 1) ++ (bLo <<< 1) =
      (bHi ++ bLo) + (bHi ++ bLo) := by
  have shifted (x : BitVec 32) : x <<< 1 = x + x := by bv_omega
  have apart : bHi <<< 1 &&& 1 = 0 := by
    ext i inside
    simp only [BitVec.getElem_and, BitVec.getElem_shiftLeft]
    by_cases first : i = 0
    · simp [first]
    · simp [first]
  have carry : bLo &&& 0x80000000 ≠ 0 ↔ bLo + bLo < bLo := by
    rw [carry_iff, ← two_mul]
    refine (signed_iff bLo).trans ?_
    omega
  rw [← words_double, ← BitVec.add_eq_or_of_and_eq_zero _ _ apart]
  simp only [carry, shifted]

/-- A factor whose other bits are 0. -/
theorem eq_one_of_and {a : BitVec 32} (odd : a &&& 1 ≠ 0) (last : a &&& 0xfffffffe = 0) :
    a = 1 := by
  have split : a = (a &&& 0xfffffffe) ||| (a &&& 1) := by
    rw [← BitVec.and_or_distrib_left]
    exact (BitVec.and_allOnes).symm
  rw [last, show (0 : BitVec 32) ||| (a &&& 1) = a &&& 1 from BitVec.zero_or] at split
  have bit := (and_one_ne_zero a).mp odd
  rw [split]
  apply BitVec.eq_of_toNat_eq
  rw [BitVec.toNat_and]
  exact (Nat.and_two_pow_sub_one_eq_mod a.toNat 1).trans bit

/-- The loop adds the product of one factor and the `n` lowest bits of the
other. -/
theorem multLoop_words {n : Nat} (few : n ≤ 32) (a bLo bHi lo hi : BitVec 32) :
    (multLoop n a bLo bHi lo hi).1 ++ (multLoop n a bLo bHi lo hi).2 =
      (hi ++ lo) + BitVec.ofNat 64 (a.toNat % 2 ^ n) * (bHi ++ bLo) := by
  induction n generalizing a bLo bHi lo hi with
  | zero =>
      rw [Nat.pow_zero, Nat.mod_one]
      simp [multLoop]
  | succ n inductionHypothesis =>
      have doubled := double_words bHi bLo
      have bits := bits_of_sshiftRight a (n := n) (by omega)
      rw [multLoop]
      dsimp only
      by_cases odd : a &&& 1 ≠ 0
      · have sum := words_add hi lo bHi bLo
        rw [if_pos odd]
        by_cases last : a &&& 0xfffffffe = 0
        · have one : (1 : BitVec 32).toNat % 2 ^ (n + 1) = 1 :=
            Nat.mod_eq_of_lt (Nat.one_lt_two_pow (by omega))
          rw [if_pos last, sum, eq_one_of_and odd last, one]
          exact congrArg _ (BitVec.one_mul _).symm
        · rw [if_neg last, inductionHypothesis (by omega), doubled, sum, bits,
            (and_one_ne_zero a).mp odd, BitVec.ofNat_add, BitVec.ofNat_mul]
          generalize BitVec.ofNat 64 ((a.sshiftRight 1).toNat % 2 ^ n) = bits
          generalize bHi ++ bLo = addend
          grind
      · have even : a.toNat % 2 = 0 := by
          have := mt (and_one_ne_zero a).mpr odd
          omega
        rw [if_neg odd, inductionHypothesis (by omega), doubled, bits, even, Nat.zero_add,
          BitVec.ofNat_mul]
        generalize BitVec.ofNat 64 ((a.sshiftRight 1).toNat % 2 ^ n) = bits
        generalize bHi ++ bLo = addend
        grind

/-- From the beginning the loop computes the unsigned product. -/
theorem multLoop_product (a b : BitVec 32) :
    (multLoop 32 a b 0 0 0).1 ++ (multLoop 32 a b 0 0 0).2 =
      BitVec.ofNat 64 (a.toNat * b.toNat) := by
  have start : (0 : BitVec 32) ++ (0 : BitVec 32) = (0 : BitVec 64) := rfl
  have factor : (0 : BitVec 32) ++ b = BitVec.ofNat 64 b.toNat := by
    apply BitVec.eq_of_toNat_eq
    rw [toNat_words]
    exact (Nat.zero_add _).trans (Nat.mod_eq_of_lt (by omega)).symm
  rw [multLoop_words (Nat.le_refl 32), Nat.mod_eq_of_lt a.isLt, start, factor, BitVec.ofNat_mul]
  exact BitVec.zero_add _

/-! ### The signs -/

/-- What a factor is made for the loop; the least integer has no negative, but
its bits are those of its absolute value. -/
theorem toNat_magnitude (x : BitVec 32) :
    (if x.toInt < 0 then -x else x).toNat = x.toInt.natAbs := by
  have bound := x.isLt
  rw [BitVec.toInt_eq_toNat_cond]
  split
  · rw [if_neg (by omega)]
    omega
  · rw [if_pos (by omega), BitVec.toNat_neg]
    omega

theorem natAbs_toInt_le (x : BitVec 32) : x.toInt.natAbs ≤ 2 ^ 31 := by
  have low := BitVec.le_toInt x
  have high := BitVec.toInt_lt (x := x)
  omega

theorem mult_unsigned (a b : BitVec 32) :
    ((mult a b false).1 ++ (mult a b false).2).toNat = a.toNat * b.toNat := by
  unfold mult
  split
  · rename_i zero
    rcases zero with rfl | rfl
    · exact (Nat.zero_mul _).symm
    · exact (Nat.mul_zero _).symm
  · have small : a.toNat * b.toNat < 2 ^ 32 * 2 ^ 32 := Nat.mul_lt_mul'' a.isLt b.isLt
    simp only [Bool.false_and, Bool.false_eq_true, false_and, ↓reduceIte]
    rw [multLoop_product, BitVec.toNat_ofNat]
    exact Nat.mod_eq_of_lt (small.trans_eq (Nat.pow_add 2 32 32).symm)

/-- A product by the signs of its factors. -/
theorem mul_of_signs (x y : Int) :
    x * y = if decide (x < 0) ^^ decide (y < 0) then -((x.natAbs * y.natAbs : Nat) : Int)
      else ((x.natAbs * y.natAbs : Nat) : Int) := by
  rw [Int.natCast_mul]
  rcases lt_or_ge x 0 with xNegative | xPositive
  · rcases lt_or_ge y 0 with yNegative | yPositive
    · rw [Int.ofNat_natAbs_of_nonpos xNegative.le, Int.ofNat_natAbs_of_nonpos yNegative.le,
        decide_eq_true xNegative, decide_eq_true yNegative]
      exact (Int.neg_mul_neg x y).symm
    · rw [Int.ofNat_natAbs_of_nonpos xNegative.le, Int.natAbs_of_nonneg yPositive,
        decide_eq_true xNegative, decide_eq_false yPositive.not_gt, Int.neg_mul]
      exact (Int.neg_neg (x * y)).symm
  · rcases lt_or_ge y 0 with yNegative | yPositive
    · rw [Int.natAbs_of_nonneg xPositive, Int.ofNat_natAbs_of_nonpos yNegative.le,
        decide_eq_false xPositive.not_gt, decide_eq_true yNegative, Int.mul_neg]
      exact (Int.neg_neg (x * y)).symm
    · rw [Int.natAbs_of_nonneg xPositive, Int.natAbs_of_nonneg yPositive,
        decide_eq_false xPositive.not_gt, decide_eq_false yPositive.not_gt]
      rfl

/-- Integers that two words can hold. -/
theorem toInt_ofInt_words {n : Int} (low : -2 ^ 63 ≤ n) (high : n < 2 ^ 63) :
    (BitVec.ofInt 64 n).toInt = n := by
  rw [BitVec.toInt_ofInt]
  exact Int.bmod_eq_of_le (by omega) (by omega)

theorem mult_signed (a b : BitVec 32) :
    ((mult a b true).1 ++ (mult a b true).2).toInt = a.toInt * b.toInt := by
  unfold mult
  split
  · rename_i zero
    rcases zero with rfl | rfl
    · exact (Int.zero_mul _).symm
    · exact (Int.mul_zero _).symm
  · have small : a.toInt.natAbs * b.toInt.natAbs ≤ 2 ^ 31 * 2 ^ 31 :=
      Nat.mul_le_mul (natAbs_toInt_le a) (natAbs_toInt_le b)
    have product := multLoop_product (if a.toInt < 0 then -a else a)
      (if b.toInt < 0 then -b else b)
    rw [toNat_magnitude, toNat_magnitude] at product
    simp only [Bool.true_and, true_and]
    rw [mul_of_signs]
    generalize multLoop 32 (if a.toInt < 0 then -a else a) (if b.toInt < 0 then -b else b) 0 0 0 =
      words at product
    generalize a.toInt.natAbs * b.toInt.natAbs = magnitude at small product
    split
    · dsimp only
      rw [words_neg (by decide), product, ← BitVec.ofInt_natCast, ← BitVec.ofInt_neg]
      exact toInt_ofInt_words (by omega) (by omega)
    · rw [product, ← BitVec.ofInt_natCast]
      exact toInt_ofInt_words (by omega) (by omega)

/-- `Mult` leaves the product of its arguments in its two words: as integers in
two's complement for `MULT`, as natural numbers for `MULTU`. -/
theorem mult_product (a b : BitVec 32) :
    ((mult a b true).1 ++ (mult a b true).2).toInt = a.toInt * b.toInt ∧
      ((mult a b false).1 ++ (mult a b false).2).toNat = a.toNat * b.toNat :=
  ⟨mult_signed a b, mult_unsigned a b⟩

end Nachos
