/-
Module: Nachos.FileSys.Allocation
Purpose: `FileHeader::Allocate` and `FileHeader::Deallocate` of filehdr.cc, and
  which sectors they mark and clear.
Trusted boundary: none
Main exports: FileHeader.allocate, FileHeader.deallocate,
  FileHeader.Allocated, FileHeader.allocate_spec,
  FileHeader.deallocateSectors_spec
-/
import Nachos.FileSys.BitMap
import Nachos.FileSys.Transfers

namespace Nachos

open Lib

namespace FileHeader

/-! ### The routines -/

/-- The loop of `Allocate` after `count` rounds. -/
def allocateSectors (hdr : FileHeader) (freeMap : BitMap) : Nat → FileHeader × BitMap
  | 0 => (hdr, freeMap)
  | count + 1 =>
      let before := allocateSectors hdr freeMap count
      let found := before.2.find
      ({ before.1 with
          dataSectors := Function.update before.1.dataSectors count found.1 },
        found.2)

/-- `FileHeader::Allocate`, `none` being FALSE; `heap` is what the new header
held. -/
def allocate (heap : FileHeader) (freeMap : BitMap) (fileSize : Int) :
    Option (FileHeader × BitMap) :=
  let hdr := { heap with
    numBytes := fileSize
    numSectors := divRoundUp fileSize sectorSize }
  if freeMap.numClear < hdr.numSectors then none
  else some (allocateSectors hdr freeMap hdr.numSectors.toNat)

/-- The loop of `Deallocate` after `count` rounds; `none` when an assertion has
failed, be it that of `Deallocate` or that of `Test`. -/
def deallocateSectors (hdr : FileHeader) (freeMap : BitMap) : Nat → Option BitMap
  | 0 => some freeMap
  | count + 1 =>
      (deallocateSectors hdr freeMap count).bind fun freeMap =>
        let sector := hdr.dataSectors count
        if 0 ≤ sector ∧ sector < freeMap.numBits ∧ freeMap.test sector = true then
          some (freeMap.clear sector)
        else none

/-- `FileHeader::Deallocate`. -/
def deallocate (hdr : FileHeader) (freeMap : BitMap) : Option BitMap :=
  deallocateSectors hdr freeMap hdr.numSectors.toNat

/-! ### Allocating -/

/-- What `count` rounds of the loop have done: the sectors were clear, are
distinct, and are now marked. -/
structure Allocated (freeMap : BitMap) (count : Int) (hdr : FileHeader)
    (freeMap' : BitMap) : Prop where
  numBits : freeMap'.numBits = freeMap.numBits
  range : ∀ i, 0 ≤ i → i < count →
    0 ≤ hdr.dataSectors i ∧ hdr.dataSectors i < freeMap.numBits
  wasClear : ∀ i, 0 ≤ i → i < count → freeMap.test (hdr.dataSectors i) = false
  distinct : ∀ i j, 0 ≤ i → i < count → 0 ≤ j → j < count →
    hdr.dataSectors i = hdr.dataSectors j → i = j
  marks : ∀ sector, freeMap'.test sector = true ↔
    freeMap.test sector = true ∨
      ∃ i, 0 ≤ i ∧ i < count ∧ sector = hdr.dataSectors i

/-- The next round finds a clear sector. -/
theorem Allocated.next {freeMap freeMap' : BitMap} {count : Nat} {hdr : FileHeader}
    (allocated : Allocated freeMap count hdr freeMap') {sector : Int}
    (low : 0 ≤ sector) (high : sector < freeMap'.numBits)
    (isClear : freeMap'.test sector = false) :
    Allocated freeMap (count + 1 : Nat)
      { hdr with dataSectors := Function.update hdr.dataSectors count sector }
      (freeMap'.mark sector) := by
  have unmarked : ¬ freeMap'.test sector = true := by simp [isClear]
  rw [allocated.marks] at unmarked
  push Not at unmarked
  obtain ⟨wasClear, unused⟩ := unmarked
  have old : ∀ i : Int, i ≠ count →
      Function.update hdr.dataSectors count sector i = hdr.dataSectors i :=
    fun i other => Function.update_of_ne other _ _
  refine
    { numBits := allocated.numBits
      range := ?_
      wasClear := ?_
      distinct := ?_
      marks := ?_ }
  · intro i iLow iHigh
    by_cases last : i = count
    · subst last
      simpa using ⟨low, allocated.numBits ▸ high⟩
    · simpa [old i last] using allocated.range i iLow (by omega)
  · intro i iLow iHigh
    by_cases last : i = count
    · subst last
      simpa using wasClear
    · simpa [old i last] using allocated.wasClear i iLow (by omega)
  · intro i j iLow iHigh jLow jHigh same
    by_cases iLast : i = count
    · by_cases jLast : j = count
      · rw [iLast, jLast]
      · rw [iLast] at same
        simp only [Function.update_self, old j jLast] at same
        exact absurd same (unused j jLow (by omega))
    · by_cases jLast : j = count
      · rw [jLast] at same
        simp only [Function.update_self, old i iLast] at same
        exact absurd same.symm (unused i iLow (by omega))
      · simp only [old i iLast, old j jLast] at same
        exact allocated.distinct i j iLow (by omega) jLow (by omega) same
  · intro other
    rw [BitMap.test_mark, Bool.or_eq_true, decide_eq_true_eq, allocated.marks, or_assoc]
    apply or_congr_right
    constructor
    · rintro (⟨i, iLow, iHigh, same⟩ | same)
      · refine ⟨i, iLow, by omega, ?_⟩
        rw [same]
        exact (old i (by omega)).symm
      · exact ⟨count, by omega, by omega, by simp [same]⟩
    · rintro ⟨i, iLow, iHigh, same⟩
      by_cases last : i = count
      · right
        rw [last] at same
        simpa using same
      · left
        refine ⟨i, iLow, by omega, ?_⟩
        rw [same]
        exact old i last

theorem allocateSectors_allocated (hdr : FileHeader) (freeMap : BitMap) {count : Nat}
    (enough : (count : Int) ≤ freeMap.numClear) :
    Allocated freeMap count (allocateSectors hdr freeMap count).1
        (allocateSectors hdr freeMap count).2 ∧
      (allocateSectors hdr freeMap count).2.numClear = freeMap.numClear - count := by
  induction count with
  | zero =>
      refine ⟨⟨rfl, ?_, ?_, ?_, ?_⟩, by simp [allocateSectors]⟩
      · intro i low high
        omega
      · intro i low high
        omega
      · intro i j low high
        omega
      · intro sector
        constructor
        · exact .inl
        · rintro (marked | ⟨i, low, high, -⟩)
          · exact marked
          · omega
  | succ count inductionHypothesis =>
      obtain ⟨allocated, left⟩ := inductionHypothesis (by omega)
      rcases (allocateSectors hdr freeMap count).2.find_cases with full | found
      · have none := BitMap.numClear_eq_zero full.2
        omega
      · obtain ⟨sector, found, low, high, isClear⟩ := found
        rw [allocateSectors]
        simp only [found]
        refine ⟨allocated.next low high isClear, ?_⟩
        rw [BitMap.numClear_mark low high isClear]
        omega

theorem allocateSectors_sizes (hdr : FileHeader) (freeMap : BitMap) (count : Nat) :
    (allocateSectors hdr freeMap count).1.numBytes = hdr.numBytes ∧
      (allocateSectors hdr freeMap count).1.numSectors = hdr.numSectors := by
  induction count with
  | zero => exact ⟨rfl, rfl⟩
  | succ count inductionHypothesis => exact inductionHypothesis

/-- A successful `Allocate` gives a sound header on sectors that were clear. -/
theorem allocate_spec {heap hdr : FileHeader} {freeMap freeMap' : BitMap}
    {fileSize : Int} (nonneg : 0 ≤ fileSize) (small : fileSize ≤ maxFileSize)
    (success : allocate heap freeMap fileSize = some (hdr, freeMap')) :
    hdr.numBytes = fileSize ∧ hdr.Sound ∧
      Allocated freeMap hdr.numSectors hdr freeMap' := by
  simp only [allocate] at success
  split at success
  · cases success
  · rename_i enough
    have pair := Option.some.inj success
    have sectors := divRoundUp_eq nonneg
    have count_nonneg : 0 ≤ divRoundUp fileSize sectorSize := by
      rw [sectors]
      simp only [sectorSize]
      omega
    have rounds : ((divRoundUp fileSize sectorSize).toNat : Int) ≤ freeMap.numClear := by
      omega
    obtain ⟨allocated, -⟩ := allocateSectors_allocated
      { heap with numBytes := fileSize, numSectors := divRoundUp fileSize sectorSize }
      freeMap rounds
    have sizes := allocateSectors_sizes
      { heap with numBytes := fileSize, numSectors := divRoundUp fileSize sectorSize }
      freeMap (divRoundUp fileSize sectorSize).toNat
    rw [pair] at allocated sizes
    dsimp only at allocated sizes
    rw [Int.toNat_of_nonneg count_nonneg] at allocated
    obtain ⟨bytes, count⟩ := sizes
    rw [← count] at allocated
    refine ⟨bytes, ?_, allocated⟩
    exact
      { nonneg := by rw [bytes]; exact nonneg
        enough := by rw [bytes]; exact count
        fits := by
          rw [count, sectors]
          simp only [sectorSize, numDirect, maxFileSize] at *
          omega
        distinct := allocated.distinct }

/-! ### Deallocating -/

/-- `Deallocate` clears sectors that are marked and distinct. -/
theorem deallocateSectors_spec {hdr : FileHeader} {freeMap : BitMap} {count : Nat}
    (marked : ∀ i : Int, 0 ≤ i → i < count → 0 ≤ hdr.dataSectors i ∧
      hdr.dataSectors i < freeMap.numBits ∧ freeMap.test (hdr.dataSectors i) = true)
    (distinct : ∀ i j : Int, 0 ≤ i → i < count → 0 ≤ j → j < count →
      hdr.dataSectors i = hdr.dataSectors j → i = j) :
    ∃ freeMap', deallocateSectors hdr freeMap count = some freeMap' ∧
      freeMap'.numBits = freeMap.numBits ∧
      ∀ sector, freeMap'.test sector = true ↔ freeMap.test sector = true ∧
        ∀ i : Int, 0 ≤ i → i < count → sector ≠ hdr.dataSectors i := by
  induction count with
  | zero =>
      refine ⟨freeMap, rfl, rfl, ?_⟩
      intro sector
      simp only [iff_self_and]
      intro _ i low high
      omega
  | succ count inductionHypothesis =>
      obtain ⟨before, run, numBits, tests⟩ := inductionHypothesis
        (fun i low high => marked i low (by omega))
        (fun i j low high low' high' => distinct i j low (by omega) low' (by omega))
      obtain ⟨low, high, isMarked⟩ := marked count (by omega) (by omega)
      have stillMarked : before.test (hdr.dataSectors count) = true := by
        rw [tests]
        refine ⟨isMarked, ?_⟩
        intro i iLow iHigh same
        have := distinct _ _ (by omega) (by omega) iLow (by omega) same
        omega
      refine ⟨before.clear (hdr.dataSectors count), ?_, numBits, ?_⟩
      · rw [deallocateSectors, run, Option.bind_some]
        exact if_pos ⟨low, numBits ▸ high, stillMarked⟩
      · intro sector
        rw [BitMap.test_clear, Bool.and_eq_true, decide_eq_true_eq, tests, and_assoc]
        apply and_congr_right
        intro _
        constructor
        · rintro ⟨earlier, last⟩ i iLow iHigh
          by_cases here : i = count
          · rw [here]
            exact last
          · exact earlier i iLow (by omega)
        · intro all
          exact ⟨fun i iLow iHigh => all i iLow (by omega),
            all count (by omega) (by omega)⟩

end FileHeader

end Nachos
