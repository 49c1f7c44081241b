/-
Module: Nachos.Lib.Memory
Purpose: Memory as bytes at integer offsets from a pointer, the copying of
  bytes, 32-bit words in little-endian order and the arithmetic of 32-bit
  signed integers, and the search of a table for an index.  Nothing here
  mentions a particular program.
Trusted boundary: none
Main exports: Memory, Memory.copy, Memory.drop, Memory.ofList, Memory.toList,
  Memory.getWord, Memory.setWord, Memory.ofWords, Memory.littleEndian, wrap,
  firstIndex
-/
import Mathlib.Algebra.Group.Int.Defs
import Mathlib.Algebra.Group.Nat.Defs
import Mathlib.Data.List.Basic
import Mathlib.Tactic.Common

namespace Nachos.Lib

/-! ### 32-bit signed integers -/

/-- The 32-bit signed integer that the result of an operation becomes. -/
def wrap (x : Int) : Int :=
  x.bmod (2 ^ 32)

theorem wrap_eq_self {x : Int} (low : -2 ^ 31 ≤ x) (high : x < 2 ^ 31) :
    wrap x = x := by
  unfold wrap
  apply Int.bmod_eq_of_le_mul_two
  · omega
  · omega

/-- What is stored as a word and read as a signed integer. -/
theorem toInt_ofInt_wrap (x : Int) : (BitVec.ofInt 32 x).toInt = wrap x :=
  BitVec.toInt_ofInt x

theorem toInt_ofInt_eq {x : Int} (low : -2 ^ 31 ≤ x) (high : x < 2 ^ 31) :
    (BitVec.ofInt 32 x).toInt = x :=
  (toInt_ofInt_wrap x).trans (wrap_eq_self low high)

/-! ### Searching a table -/

/-- The first index from `i` on at which `found` holds, `count` indices being
looked at; -1 when there is none. -/
def firstIndex (found : Int → Bool) : Nat → Int → Int
  | 0, _ => -1
  | count + 1, i => if found i then i else firstIndex found count (i + 1)

theorem firstIndex_cases (found : Int → Bool) (count : Nat) {i : Int}
    (nonneg : 0 ≤ i) :
    (firstIndex found count i = -1 ∧
        ∀ j, i ≤ j → j < i + count → found j = false) ∨
      (i ≤ firstIndex found count i ∧ firstIndex found count i < i + count ∧
        found (firstIndex found count i) = true) := by
  induction count generalizing i with
  | zero =>
      left
      refine ⟨rfl, ?_⟩
      intro j low high
      omega
  | succ count inductionHypothesis =>
      rw [firstIndex]
      split
      · rename_i here
        right
        exact ⟨by omega, by omega, here⟩
      · rename_i notHere
        rcases inductionHypothesis (i := i + 1) (by omega) with none | some
        · left
          refine ⟨none.1, ?_⟩
          intro j low high
          by_cases same : j = i
          · rw [same]
            simpa using notHere
          · exact none.2 j (by omega) (by omega)
        · right
          exact ⟨by omega, by omega, some.2.2⟩

theorem firstIndex_congr {found found' : Int → Bool} {count : Nat} {i : Int}
    (same : ∀ j, i ≤ j → j < i + count → found' j = found j) :
    firstIndex found' count i = firstIndex found count i := by
  induction count generalizing i with
  | zero => rfl
  | succ count inductionHypothesis =>
      rw [firstIndex, firstIndex, same i (by omega) (by omega),
        inductionHypothesis fun j low high => same j (by omega) (by omega)]

/-- The index that is found is the first. -/
theorem firstIndex_eq_of_first {found : Int → Bool} {count : Nat} {i r : Int}
    (low : i ≤ r) (high : r < i + count) (holds : found r = true)
    (first : ∀ j, i ≤ j → j < r → found j = false) :
    firstIndex found count i = r := by
  induction count generalizing i with
  | zero => omega
  | succ count inductionHypothesis =>
      rw [firstIndex]
      by_cases here : i = r
      · rw [here, if_pos holds]
      · rw [if_neg (by simp [first i (by omega) (by omega)])]
        exact inductionHypothesis (by omega) (by omega)
          fun j jLow jHigh => first j (by omega) jHigh

/-- Nothing is found before the index that is found. -/
theorem not_found_before {found : Int → Bool} {count : Nat} {i j : Int} (nonneg : 0 ≤ i)
    (low : i ≤ j) (before : j < firstIndex found count i) : found j = false := by
  induction count generalizing i with
  | zero =>
      simp only [firstIndex] at before
      omega
  | succ count inductionHypothesis =>
      rw [firstIndex] at before
      split at before
      · omega
      · rename_i notHere
        by_cases here : j = i
        · rw [here]
          simpa using notHere
        · exact inductionHypothesis (by omega) (by omega) before

/-! ### Bytes -/

/-- The bytes that a pointer leads to, by their offset. -/
abbrev Memory := Int → UInt8

namespace Memory

/-- `count` bytes of `source`, from offset `start` on, put into `target` from
offset `place` on. -/
def copy (source : Memory) (start : Int) (target : Memory) (place count : Int) :
    Memory :=
  fun i => if place ≤ i ∧ i < place + count then source (start + (i - place))
    else target i

theorem copy_inside (source target : Memory) {start place count i : Int}
    (low : place ≤ i) (high : i < place + count) :
    copy source start target place count i = source (start + (i - place)) :=
  if_pos ⟨low, high⟩

theorem copy_outside (source target : Memory) {start place count i : Int}
    (outside : i < place ∨ place + count ≤ i) :
    copy source start target place count i = target i := by
  apply if_neg
  omega

/-- Two memories hold the same bytes at the offsets below `count`. -/
def Agree (count : Int) (first second : Memory) : Prop :=
  ∀ i, 0 ≤ i → i < count → first i = second i

/-- A copied block agrees with its source. -/
theorem agree_copy (source target : Memory) (count : Int) :
    Agree count (copy source 0 target 0 count) source := by
  intro i low high
  rw [copy_inside source target low (by omega)]
  congr 1
  omega

/-- The pointer moved on by `n` bytes. -/
def drop (n : Int) (m : Memory) : Memory :=
  fun i => m (n + i)

theorem Agree.mono {count count' : Int} {first second : Memory}
    (agree : Agree count first second) (le : count' ≤ count) : Agree count' first second :=
  fun i low high => agree i low (by omega)

/-- The bytes of a list, followed by zeros. -/
def ofList (bytes : List UInt8) : Memory :=
  fun i => if 0 ≤ i then bytes.getD i.toNat 0 else 0

/-- The first `count` bytes. -/
def toList (m : Memory) (count : Nat) : List UInt8 :=
  (List.range count).map fun i : Nat => m i

@[simp] theorem length_toList (m : Memory) (count : Nat) :
    (m.toList count).length = count := by
  simp [toList]

theorem toList_congr {count : Nat} {first second : Memory}
    (agree : Agree count first second) : first.toList count = second.toList count := by
  apply List.map_congr_left
  intro i member
  have bound := List.mem_range.mp member
  exact agree i (by omega) (by omega)

theorem ofList_eq_getElem (bytes : List UInt8) {i : Nat} (bound : i < bytes.length) :
    ofList bytes i = bytes[i] := by
  simp [ofList, bound]

theorem ofList_append_left (first second : List UInt8) {i : Int}
    (high : i < first.length) : ofList (first ++ second) i = ofList first i := by
  unfold ofList
  split
  · rw [List.getD_eq_getElem?_getD, List.getD_eq_getElem?_getD,
      List.getElem?_append_left (by omega)]
  · rfl

theorem ofList_append_right (first second : List UInt8) {i : Int}
    (low : (first.length : Int) ≤ i) :
    ofList (first ++ second) i = ofList second (i - first.length) := by
  unfold ofList
  rw [if_pos (by omega), if_pos (by omega), List.getD_eq_getElem?_getD,
    List.getD_eq_getElem?_getD, List.getElem?_append_right (by omega),
    show (i - first.length).toNat = i.toNat - first.length by omega]

/-- Memory that holds the bytes of a list reads back as the list. -/
theorem toList_eq_of_forall {m : Memory} {bytes : List UInt8}
    (same : ∀ i : Nat, i < bytes.length → m i = ofList bytes i) :
    m.toList bytes.length = bytes := by
  apply List.ext_getElem
  · simp
  · intro i bound bound'
    simp only [toList, List.getElem_map, List.getElem_range]
    rw [same i bound', ofList_eq_getElem bytes bound']

/-! ### Words -/

/-- Byte `lane` of a word. -/
def byteOf (v : BitVec 32) (lane : Int) : UInt8 :=
  UInt8.ofNat (v.toNat / 256 ^ lane.toNat % 256)

/-- The word at an offset. -/
def getWord (m : Memory) (offset : Int) : BitVec 32 :=
  BitVec.ofNat 32 ((m offset).toNat + 256 * (m (offset + 1)).toNat +
    65536 * (m (offset + 2)).toNat + 16777216 * (m (offset + 3)).toNat)

/-- The memory with a word stored at an offset. -/
def setWord (m : Memory) (offset : Int) (v : BitVec 32) : Memory :=
  fun i => if offset ≤ i ∧ i < offset + 4 then byteOf v (i - offset) else m i

/-- An array of words. -/
def ofWords (words : Int → BitVec 32) : Memory :=
  fun i => byteOf (words (i / 4)) (i % 4)

theorem toNat_byteOf (v : BitVec 32) (lane : Int) :
    (byteOf v lane).toNat = v.toNat / 256 ^ lane.toNat % 256 := by
  simp [byteOf, UInt8.toNat_ofNat']

/-- The number that `count` bytes from offset `start` on make up, the first one
having the least weight. -/
def littleEndian (m : Memory) (start : Int) : Nat → Nat
  | 0 => 0
  | count + 1 => (m start).toNat + 256 * littleEndian m (start + 1) count

/-- Bytes that are those of a word from byte `lane` on make up a part of it. -/
theorem littleEndian_eq {m : Memory} {v : BitVec 32} {start : Int} {lane count : Nat}
    (bytes : ∀ j : Nat, j < count → m (start + j) = byteOf v (lane + j : Nat)) :
    littleEndian m start count = v.toNat / 256 ^ lane % 256 ^ count := by
  induction count generalizing start lane with
  | zero => simp [littleEndian, Nat.mod_one]
  | succ count inductionHypothesis =>
      have first := bytes 0 (by omega)
      have rest : littleEndian m (start + 1) count =
          v.toNat / 256 ^ (lane + 1) % 256 ^ count := by
        apply inductionHypothesis
        intro j high
        have here := bytes (j + 1) (by omega)
        rwa [show start + (j + 1 : Nat) = start + 1 + j by omega,
          show lane + (j + 1) = lane + 1 + j by omega] at here
      rw [littleEndian, rest, show m start = byteOf v lane by simpa using first, toNat_byteOf,
        Int.toNat_natCast, Nat.pow_succ, ← Nat.div_div_eq_div_mul, Nat.pow_succ,
        Nat.mul_comm (256 ^ count), Nat.mod_mul]

/-- Four bytes of a word make up the word. -/
theorem getWord_of_bytes {m : Memory} {offset : Int} {v : BitVec 32}
    (bytes : ∀ lane, 0 ≤ lane → lane < 4 → m (offset + lane) = byteOf v lane) :
    m.getWord offset = v := by
  have first := bytes 0 (by decide) (by decide)
  have second := bytes 1 (by decide) (by decide)
  have third := bytes 2 (by decide) (by decide)
  have fourth := bytes 3 (by decide) (by decide)
  rw [Int.add_zero] at first
  unfold getWord
  rw [first, second, third, fourth]
  apply BitVec.eq_of_toNat_eq
  have bound := v.isLt
  simp only [BitVec.toNat_ofNat, toNat_byteOf, show Int.toNat 0 = 0 from rfl,
    show Int.toNat 1 = 1 from rfl, show Int.toNat 2 = 2 from rfl,
    show Int.toNat 3 = 3 from rfl]
  omega

theorem getWord_setWord (m : Memory) (offset : Int) (v : BitVec 32) :
    (m.setWord offset v).getWord offset = v := by
  apply getWord_of_bytes
  intro lane low high
  unfold setWord
  rw [if_pos (by omega)]
  congr 1
  omega

/-- A word depends on its four bytes. -/
theorem getWord_congr {m m' : Memory} {offset : Int}
    (same : ∀ i, offset ≤ i → i < offset + 4 → m i = m' i) :
    m.getWord offset = m'.getWord offset := by
  unfold getWord
  rw [same offset (by omega) (by omega), same (offset + 1) (by omega) (by omega),
    same (offset + 2) (by omega) (by omega), same (offset + 3) (by omega) (by omega)]

/-- Memories that agree below `count` hold the same words there. -/
theorem Agree.getWord_eq {count offset : Int} {first second : Memory}
    (agree : Agree count first second) (low : 0 ≤ offset) (high : offset + 4 ≤ count) :
    first.getWord offset = second.getWord offset := by
  apply getWord_congr
  intro i above below
  exact agree i (by omega) (by omega)

theorem setWord_outside (m : Memory) {offset i : Int} (v : BitVec 32)
    (outside : i < offset ∨ offset + 4 ≤ i) : m.setWord offset v i = m i := by
  apply if_neg
  omega

theorem getWord_ofWords (words : Int → BitVec 32) (w : Int) :
    (ofWords words).getWord (4 * w) = words w := by
  apply getWord_of_bytes
  intro lane low high
  unfold ofWords
  rw [show (4 * w + lane) / 4 = w by omega, show (4 * w + lane) % 4 = lane by omega]

end Memory

end Nachos.Lib
