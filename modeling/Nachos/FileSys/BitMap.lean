/-
Module: Nachos.FileSys.BitMap
Purpose: The bit map of bitmap.cc, packed into 32-bit words, and what its
  operations do to the set of marked bits.
Trusted boundary: the arguments of `Mark`, `Clear` and `Test` are in range, as
  their assertions demand.
Main exports: BitMap, BitMap.mark, BitMap.clear, BitMap.test, BitMap.find,
  BitMap.numClear, BitMap.fetchFrom, BitMap.writeBack
-/
import Mathlib.Data.List.Count
import Nachos.FileSys.OpenFile

namespace Nachos

open Lib

/-- `BitsInWord` of bitmap.h. -/
abbrev bitsInWord : Int := 32

/-- `class BitMap`. -/
structure BitMap where
  numBits : Int
  map : Int → BitVec 32

namespace BitMap

/-! ### The operations -/

/-- The word in which only the bit of `which` is set. -/
def bit (which : Int) : BitVec 32 :=
  1#32 <<< (which % bitsInWord).toNat

def setWord (w : Int) (value : BitVec 32) (b : BitMap) : BitMap :=
  { b with map := Function.update b.map w value }

/-- `BitMap::Mark`. -/
def mark (which : Int) (b : BitMap) : BitMap :=
  b.setWord (which / bitsInWord) (b.map (which / bitsInWord) ||| bit which)

/-- `BitMap::Clear`. -/
def clear (which : Int) (b : BitMap) : BitMap :=
  b.setWord (which / bitsInWord) (b.map (which / bitsInWord) &&& ~~~ bit which)

/-- `BitMap::Test`. -/
def test (b : BitMap) (which : Int) : Bool :=
  b.map (which / bitsInWord) &&& bit which != 0#32

/-- `BitMap::BitMap`, `heap` being what the new words held. -/
def construct (nitems : Int) (heap : Int → BitVec 32) : BitMap :=
  (List.range nitems.toNat).foldl (fun (b : BitMap) (i : Nat) => b.clear i)
    { numBits := nitems, map := heap }

/-- `BitMap::Find`. -/
def find (b : BitMap) : Int × BitMap :=
  let i := firstIndex (fun i => !b.test i) b.numBits.toNat 0
  if i = -1 then (-1, b) else (i, b.mark i)

/-- `BitMap::NumClear`. -/
def numClear (b : BitMap) : Int :=
  (List.range b.numBits.toNat).countP fun i : Nat => !b.test i

/-- `numWords`. -/
def numWords (b : BitMap) : Int :=
  divRoundUp b.numBits bitsInWord

/-- `BitMap::FetchFrom`. -/
def fetchFrom (file : OpenFile) (disk : Disk) (b : BitMap) : BitMap :=
  let bytes := (file.readAt disk (Memory.ofWords b.map) 0 (b.numWords * 4) 0).2
  { b with map := fun w => bytes.getWord (4 * w) }

/-- `BitMap::WriteBack`. -/
def writeBack (file : OpenFile) (heap : Memory) (b : BitMap) (disk : Disk) : Disk :=
  (file.writeAt disk heap (Memory.ofWords b.map) (b.numWords * 4) 0).2

/-! ### Bits -/

theorem bit_eq_twoPow (which : Int) :
    bit which = BitVec.twoPow 32 (which % bitsInWord).toNat :=
  (BitVec.twoPow_eq 32 _).symm

theorem lane_lt (which : Int) : (which % bitsInWord).toNat < 32 := by
  simp only [bitsInWord]
  omega

/-- `Test` looks at one bit of one word. -/
theorem test_eq (b : BitMap) (which : Int) :
    b.test which =
      (b.map (which / bitsInWord)).getLsbD (which % bitsInWord).toNat := by
  have lane := lane_lt which
  have isSet : BitVec.twoPow 32 (which % bitsInWord).toNat ≠ 0#32 := by
    intro zero
    have seen := congrArg (fun v => v.getLsbD (which % bitsInWord).toNat) zero
    simp [lane] at seen
  rw [test, bit_eq_twoPow, BitVec.and_twoPow]
  split
  · rename_i marked
    rw [marked]
    simpa using isSet
  · rename_i unmarked
    rw [Bool.not_eq_true] at unmarked
    rw [unmarked]
    rfl

/-- Two bits are the same bit exactly when word and lane are. -/
theorem eq_of_word_lane {i j : Int} (word : j / bitsInWord = i / bitsInWord)
    (lane : (j % bitsInWord).toNat = (i % bitsInWord).toNat) : j = i := by
  simp only [bitsInWord] at *
  omega

theorem test_mark (b : BitMap) (i j : Int) :
    (b.mark i).test j = (b.test j || decide (j = i)) := by
  rw [test_eq, test_eq]
  simp only [mark, setWord]
  have lane := lane_lt i
  by_cases word : j / bitsInWord = i / bitsInWord
  · rw [word, Function.update_self, bit_eq_twoPow, BitVec.getLsbD_or,
      BitVec.getLsbD_twoPow]
    congr 1
    by_cases same : j = i
    · simp [same, lane]
    · have other : (i % bitsInWord).toNat ≠ (j % bitsInWord).toNat :=
        fun equal => same (eq_of_word_lane word equal.symm)
      simp [same, other]
  · have other : j ≠ i := fun same => word (by rw [same])
    rw [Function.update_of_ne word]
    simp [other]

theorem test_clear (b : BitMap) (i j : Int) :
    (b.clear i).test j = (b.test j && decide (j ≠ i)) := by
  rw [test_eq, test_eq]
  simp only [clear, setWord]
  have lane := lane_lt i
  by_cases word : j / bitsInWord = i / bitsInWord
  · rw [word, Function.update_self, bit_eq_twoPow, BitVec.getLsbD_and,
      BitVec.getLsbD_not, BitVec.getLsbD_twoPow]
    congr 1
    have laneJ := lane_lt j
    by_cases same : j = i
    · simp [same, lane]
    · have other : (i % bitsInWord).toNat ≠ (j % bitsInWord).toNat :=
        fun equal => same (eq_of_word_lane word equal.symm)
      simp [same, other, laneJ]
  · have other : j ≠ i := fun same => word (by rw [same])
    rw [Function.update_of_ne word]
    simp [other]

@[simp] theorem mark_numBits (i : Int) (b : BitMap) : (b.mark i).numBits = b.numBits :=
  rfl

@[simp] theorem clear_numBits (i : Int) (b : BitMap) :
    (b.clear i).numBits = b.numBits :=
  rfl

/-! ### A new bit map -/

theorem construct_numBits (nitems : Int) (heap : Int → BitVec 32) :
    (construct nitems heap).numBits = nitems := by
  unfold construct
  generalize List.range nitems.toNat = bits
  suffices kept : ∀ b : BitMap,
      (bits.foldl (fun (b : BitMap) (i : Nat) => b.clear i) b).numBits = b.numBits from
    kept _
  induction bits with
  | nil =>
      intro b
      rfl
  | cons bit bits inductionHypothesis =>
      intro b
      exact (inductionHypothesis (b.clear bit)).trans rfl

/-- The constructor clears every bit. -/
theorem construct_test (nitems : Int) (heap : Int → BitVec 32) {j : Int} (low : 0 ≤ j)
    (high : j < nitems) : (construct nitems heap).test j = false := by
  -- a bit that is clear stays so, hence the state of the other bits is irrelevant
  have cleared : ∀ (bits : List Nat) (b : BitMap),
      b.test j = false ∨ j.toNat ∈ bits →
      (bits.foldl (fun (b : BitMap) (i : Nat) => b.clear i) b).test j = false := by
    intro bits
    induction bits with
    | nil =>
        rintro b (isClear | absent)
        · exact isClear
        · cases absent
    | cons bit bits inductionHypothesis =>
        intro b premise
        apply inductionHypothesis (b.clear bit)
        rw [test_clear, Bool.and_eq_false_iff, decide_eq_false_iff_not, not_not]
        rcases premise with isClear | member
        · exact .inl (.inl isClear)
        · rcases List.mem_cons.mp member with same | later
          · left
            right
            omega
          · exact .inr later
  exact cleared _ _ (.inr (List.mem_range.mpr (by omega)))

/-! ### Finding a clear bit -/

/-- `Find` marks a clear bit, or there is none. -/
theorem find_cases (b : BitMap) :
    (b.find = (-1, b) ∧ ∀ j, 0 ≤ j → j < b.numBits → b.test j = true) ∨
      ∃ i, b.find = (i, b.mark i) ∧ 0 ≤ i ∧ i < b.numBits ∧ b.test i = false := by
  rcases firstIndex_cases (fun i => !b.test i) b.numBits.toNat (i := 0) (by omega) with
    full | found
  · left
    refine ⟨if_pos full.1, ?_⟩
    intro j low high
    simpa using full.2 j low (by omega)
  · right
    refine ⟨_, if_neg (by omega), found.1, by omega, ?_⟩
    simpa using found.2.2

theorem find_numBits (b : BitMap) : b.find.2.numBits = b.numBits := by
  rcases b.find_cases with ⟨full, -⟩ | ⟨i, found, -⟩
  · rw [full]
  · rw [found]
    rfl

/-- `Find` takes the first clear bit. -/
theorem find_of_first {b : BitMap} {k : Int} (low : 0 ≤ k) (high : k < b.numBits)
    (isClear : b.test k = false) (before : ∀ j, 0 ≤ j → j < k → b.test j = true) :
    b.find = (k, b.mark k) := by
  have index : firstIndex (fun i => !b.test i) b.numBits.toNat 0 = k := by
    apply firstIndex_eq_of_first low
    · omega
    · simp [isClear]
    · intro j jLow jHigh
      simp [before j jLow jHigh]
  unfold find
  rw [index]
  exact if_neg (by omega)

/-- Where every bit is marked, none is clear. -/
theorem numClear_eq_zero {b : BitMap}
    (full : ∀ j, 0 ≤ j → j < b.numBits → b.test j = true) : b.numClear = 0 := by
  unfold numClear
  rw [Int.natCast_eq_zero, List.countP_eq_zero]
  intro i member
  have bound := List.mem_range.mp member
  simp [full i (by omega) (by omega)]

/-- There are no more clear bits than bits. -/
theorem numClear_le {b : BitMap} (size : 0 ≤ b.numBits) : b.numClear ≤ b.numBits := by
  unfold numClear
  have most := List.countP_le_length (p := fun i : Nat => !b.test i)
    (l := List.range b.numBits.toNat)
  rw [List.length_range] at most
  omega

theorem numClear_congr {b b' : BitMap} (numBits : b'.numBits = b.numBits)
    (same : ∀ j, 0 ≤ j → j < b.numBits → b'.test j = b.test j) :
    b'.numClear = b.numClear := by
  unfold numClear
  rw [numBits, List.countP_congr]
  intro i member
  have bound := List.mem_range.mp member
  rw [same i (by omega) (by omega)]

/-- Marking a clear bit leaves one less. -/
theorem numClear_mark {b : BitMap} {i : Int} (low : 0 ≤ i) (high : i < b.numBits)
    (isClear : b.test i = false) : (b.mark i).numClear = b.numClear - 1 := by
  unfold numClear
  rw [mark_numBits, List.countP_eq_length_filter, List.countP_eq_length_filter]
  have member : i.toNat ∈ (List.range b.numBits.toNat).filter fun j : Nat => !b.test j := by
    rw [List.mem_filter, List.mem_range]
    refine ⟨by omega, ?_⟩
    rw [Int.toNat_of_nonneg low]
    simp [isClear]
  have once : ((List.range b.numBits.toNat).filter fun j : Nat => !b.test j).Nodup :=
    List.nodup_range.filter _
  have erased : ((List.range b.numBits.toNat).filter fun j : Nat => !(b.mark i).test j) =
      ((List.range b.numBits.toNat).filter fun j : Nat => !b.test j).erase i.toNat := by
    rw [once.erase_eq_filter, List.filter_filter]
    apply List.filter_congr
    intro j _
    rw [test_mark]
    by_cases same : j = i.toNat
    · have equal : (j : Int) = i := by omega
      rw [equal]
      simp [same]
    · have other : (j : Int) ≠ i := by omega
      simp [same, other]
  have positive := List.length_pos_of_mem member
  rw [erased, List.length_erase_of_mem member]
  omega

end BitMap

end Nachos
