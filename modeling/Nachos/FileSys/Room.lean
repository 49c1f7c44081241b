/-
Module: Nachos.FileSys.Room
Purpose: The directory, not the disk, is what limits the number of files: ten
  files with a header and 30 data sectors each, and the five sectors of the
  system, leave at least 709 of the 1024 sectors clear.  So `Create` adds a name
  that is not there while an entry is not in use.
Trusted boundary: none
Main exports: FileSystem.Laid.room, FileSystem.Laid.room_of_create,
  FileSystem.Laid.create_cases
-/
import Mathlib.Algebra.Order.BigOperators.Group.Finset
import Nachos.FileSys.BitSets
import Nachos.FileSys.Histories

namespace Nachos

open Lib

/-! ### How many sectors have an owner -/

namespace Volume

/-- The values of a table at the indices below `n`. -/
def tableValues (n : Nat) (table : Int → Int) : Finset Int :=
  (Finset.range n).image fun i : Nat => table i

theorem card_tableValues (n : Nat) (table : Int → Int) : (tableValues n table).card ≤ n := by
  have le := Finset.card_image_le (s := Finset.range n) (f := fun i : Nat => table i)
  rwa [Finset.card_range] at le

theorem mem_tableValues {n : Nat} (table : Int → Int) {i : Int} (low : 0 ≤ i) (high : i < n) :
    table i ∈ tableValues n table := by
  obtain ⟨index, rfl⟩ := Int.eq_ofNat_of_zero_le low
  exact Finset.mem_image.mpr ⟨index, Finset.mem_range.mpr (by omega), rfl⟩

/-- The sectors that the file of entry `i` can have. -/
def fileSectors (v : Volume) (i : Int) : Finset Int :=
  insert (v.sector i) (tableValues 30 (v.hdr i).dataSectors)

/-- The sectors that can have an owner. -/
def allSectors (v : Volume) : Finset Int :=
  tableValues 5 id ∪ (tableValues 10 id).biUnion v.fileSectors

theorem card_fileSectors (v : Volume) (i : Int) : (v.fileSectors i).card ≤ 31 := by
  have table := card_tableValues 30 (v.hdr i).dataSectors
  have header := Finset.card_insert_le (v.sector i) (tableValues 30 (v.hdr i).dataSectors)
  unfold fileSectors
  omega

theorem card_allSectors (v : Volume) : v.allSectors.card ≤ 315 := by
  have files := Finset.card_biUnion_le_card_mul (tableValues 10 id) v.fileSectors 31
    fun i _ => v.card_fileSectors i
  have entries := card_tableValues 10 id
  have systems := card_tableValues 5 id
  have both := Finset.card_union_le (tableValues 5 id)
    ((tableValues 10 id).biUnion v.fileSectors)
  unfold allSectors
  omega

/-- A sector with an owner is one of them. -/
theorem Valid.mem_allSectors {v : Volume} (valid : v.Valid) {o : Owner} {s : Int}
    (owns : v.Owns o s) : s ∈ v.allSectors := by
  unfold allSectors
  rw [Finset.mem_union, Finset.mem_biUnion]
  cases o with
  | system n =>
      obtain ⟨low, high, rfl⟩ := owns
      exact .inl (mem_tableValues id low high)
  | header i =>
      obtain ⟨low, high, -, rfl⟩ := owns
      exact .inr ⟨i, mem_tableValues id low high, Finset.mem_insert_self ..⟩
  | data i j =>
      obtain ⟨low, high, used, jLow, jHigh, rfl⟩ := owns
      have inTable : (v.hdr i).numSectors ≤ 30 := (valid.sound i low high used).fits
      refine .inr ⟨i, mem_tableValues id low high, Finset.mem_insert_of_mem ?_⟩
      exact mem_tableValues _ jLow (by omega)

end Volume

/-! ### Clear sectors -/

namespace FileSystem

variable {fs fs' : FileSystem} {heap : Nat → Memory} {name : Memory} {initialSize : Int}

/-- A disk with files never fills. -/
theorem Laid.room (laid : fs.Laid) : 709 ≤ fs.freeMap.numClear := by
  have marked : fs.freeMap.members ⊆ fs.volume.allSectors := by
    intro s member
    obtain ⟨⟨low, high⟩, test⟩ := BitMap.mem_members.mp member
    obtain ⟨o, owns⟩ := (laid.valid.marked s low high).mp test
    exact laid.valid.mem_allSectors owns
  have few := (Finset.card_le_card marked).trans fs.volume.card_allSectors
  have size : fs.freeMap.numBits = 1024 := rfl
  rw [BitMap.numClear_eq (by rw [size]; decide), size]
  omega

/-- A header and the data sectors of a file of any size find room. -/
theorem Laid.room_for (laid : fs.Laid) (nonneg : 0 ≤ initialSize)
    (small : initialSize ≤ maxFileSize) :
    1 + divRoundUp initialSize sectorSize ≤ fs.freeMap.numClear := by
  have clear := laid.room
  rw [divRoundUp_eq nonneg]
  simp only [sectorSize, maxFileSize] at *
  omega

/-! ### What Create needs -/

/-- The sector of a file is not -1, so `Find` tells whether a name is there. -/
theorem Laid.find_eq_neg_one_iff (laid : fs.Laid) (name : Memory) :
    fs.directory.find name = -1 ↔ fs.directory.findIndex name = -1 := by
  unfold Directory.find
  dsimp only
  constructor
  · intro notFound
    by_contra present
    rw [if_pos present] at notFound
    rcases fs.directory.findIndex_cases name with absent | ⟨low, high, holds⟩
    · exact present absent.1
    · have spec := laid.sector_spec low high (Directory.inUse_of_holds holds)
      have place : fs.volume.sector (fs.directory.findIndex name) = -1 := notFound
      omega
  · intro absent
    exact if_neg (by simp [absent])

/-- What a successful `Create` has found. -/
theorem Laid.room_of_create (laid : fs.Laid) {heap : Nat → Memory} {name : Memory}
    {initialSize : Int} {fs' : FileSystem}
    (success : fs.create heap name initialSize = (true, fs')) :
    fs.directory.findIndex name = -1 ∧
      (∃ i, 0 ≤ i ∧ i < numDirEntries ∧ fs.directory.inUse i = false) ∧
      1 + divRoundUp initialSize sectorSize ≤ fs.freeMap.numClear := by
  obtain ⟨sector, directory, hdr, freeMap, found, real, added, allocation, -⟩ :=
    create_eq_true success
  rcases (fs.fetchFreeMap (heap 1)).find_cases with full | ⟨s, find, low, high, isClear⟩
  · rw [full.1] at found
    exact absurd found.symm real
  · obtain ⟨i, iLow, iHigh, unused, absent, -⟩ := Directory.add_eq_some added
    rw [fetchDirectory_tableSize] at iHigh
    refine ⟨?_, ⟨i, iLow, iHigh, ?_⟩, ?_⟩
    · rw [← laid.fetched_findIndex (heap 0) name]
      rcases (fs.fetchDirectory (heap 0)).findIndex_cases name with none | ⟨jLow, jHigh, holds⟩
      · exact none.1
      · rw [absent _ jLow jHigh] at holds
        cases holds
    · exact (laid.fetched_entry (heap 0) iLow iHigh).inUse.symm.trans unused
    · have numClear := laid.fetched_numClear (heap 1)
      have left := BitMap.numClear_mark low high isClear
      rw [find] at allocation
      unfold FileHeader.allocate at allocation
      dsimp only at allocation
      split at allocation
      · cases allocation
      · omega

/-- `Create` adds a name that is not there while an entry is not in use, and does
nothing else. -/
theorem Laid.create_cases (laid : fs.Laid) (heap : Nat → Memory) (name : Memory)
    (nonneg : 0 ≤ initialSize) (small : initialSize ≤ maxFileSize) :
    (fs.create heap name initialSize = (false, fs) ∧
        ¬ (fs.directory.findIndex name = -1 ∧
          ∃ i, 0 ≤ i ∧ i < numDirEntries ∧ fs.directory.inUse i = false)) ∨
      ∃ fs', fs.create heap name initialSize = (true, fs') ∧
        fs.directory.findIndex name = -1 ∧
        ∃ i, 0 ≤ i ∧ i < numDirEntries ∧ fs.directory.inUse i = false := by
  rcases outcome : fs.create heap name initialSize with ⟨success, fs'⟩
  cases success with
  | false =>
      left
      refine ⟨by rw [create_eq_false outcome], ?_⟩
      rintro ⟨absent, i, low, high, unused⟩
      obtain ⟨fs'', created⟩ := laid.create_succeeds heap nonneg absent low high unused
        (laid.room_for nonneg small)
      rw [outcome] at created
      cases created
  | true =>
      right
      obtain ⟨absent, unused, -⟩ := laid.room_of_create outcome
      exact ⟨fs', rfl, absent, unused⟩

end FileSystem

end Nachos
