/-
Module: Nachos.FileSys.Upkeep
Purpose: `Create` and `Remove` as operations on the volume of the disk: a
  successful `Create` adds a file on fresh sectors, a successful `Remove` drops
  one, and whatever they return the disk stays laid out.
Trusted boundary: none
Main exports: FileSystem.Stored, FileSystem.Created, FileSystem.Removed,
  FileSystem.Laid.created, FileSystem.Laid.create_succeeds,
  FileSystem.Laid.removed
-/
import Nachos.FileSys.Layout

namespace Nachos

open Lib

namespace FileSystem

variable {fs fs' : FileSystem}

/-! ### Storing a directory and a free map -/

/-- The disk of `fs` was `disk` until the directory and the free map were
written back. -/
structure Stored (disk : Disk) (dir : Directory) (b : BitMap) (fs : FileSystem) :
    Prop where
  entry : ∀ i, 0 ≤ i → i < 10 → Directory.SameEntry dir fs.directory i
  test : ∀ s, 0 ≤ s → s < 1024 → fs.freeMap.test s = b.test s
  other : ∀ s, s ≠ 2 → s ≠ 3 → s ≠ 4 → fs.disk s = disk s

/-- The order of `Create`. -/
theorem stored_map_last (mapFile : fs.freeMapFile.hdr.Describes 128 2 1)
    (dirFile : fs.directoryFile.hdr.Describes 200 3 2) {dir : Directory} {b : BitMap}
    (tableSize : dir.tableSize = numDirEntries) (numBits : b.numBits = numSectors)
    (heap heap' : Memory) (disk : Disk) :
    Stored disk dir b { fs with
      disk := b.writeBack fs.freeMapFile heap'
        (dir.writeBack fs.directoryFile heap disk) } where
  entry := by
    intro i low high
    apply directory_sameEntry _ low high
    intro offset oLow oHigh
    rw [← Directory.writeBack_content dirFile tableSize heap disk oLow oHigh]
    apply dirFile.content_congr dirFile _ oLow
    · simp only [sectorSize]
      omega
    · intro s sLow sHigh
      exact BitMap.writeBack_other mapFile numBits _ _ (by omega)
  test := by
    intro s low high
    apply freeMap_test _ low high
    intro offset oLow oHigh
    exact BitMap.writeBack_content mapFile numBits _ _ oLow oHigh
  other := by
    intro s notMap notFirst notSecond
    dsimp only
    rw [BitMap.writeBack_other mapFile numBits _ _ notMap,
      Directory.writeBack_other dirFile tableSize _ _ notFirst notSecond]

/-- The order of `Remove` and of the constructor. -/
theorem stored_dir_last (mapFile : fs.freeMapFile.hdr.Describes 128 2 1)
    (dirFile : fs.directoryFile.hdr.Describes 200 3 2) {dir : Directory} {b : BitMap}
    (tableSize : dir.tableSize = numDirEntries) (numBits : b.numBits = numSectors)
    (heap heap' : Memory) (disk : Disk) :
    Stored disk dir b { fs with
      disk := dir.writeBack fs.directoryFile heap'
        (b.writeBack fs.freeMapFile heap disk) } where
  entry := by
    intro i low high
    apply directory_sameEntry _ low high
    intro offset oLow oHigh
    exact Directory.writeBack_content dirFile tableSize _ _ oLow oHigh
  test := by
    intro s low high
    apply freeMap_test _ low high
    intro offset oLow oHigh
    rw [← BitMap.writeBack_content mapFile numBits heap disk oLow oHigh]
    apply mapFile.content_congr mapFile _ oLow
    · simp only [sectorSize]
      omega
    · intro s sLow sHigh
      exact Directory.writeBack_other dirFile tableSize _ _ (by omega) (by omega)
  other := by
    intro s notMap notFirst notSecond
    dsimp only
    rw [Directory.writeBack_other dirFile tableSize _ _ notFirst notSecond,
      BitMap.writeBack_other mapFile numBits _ _ notMap]

/-! ### Sectors of a laid out disk -/

/-- The system sectors are marked. -/
theorem Laid.system_marked (laid : fs.Laid) {s : Int} (low : 0 ≤ s) (high : s < 5) :
    fs.volume.marked s :=
  (laid.valid.marked s low (by omega)).mpr ⟨.system s, low, high, rfl⟩

/-- The header of a file is in a sector that is marked and is none of the
system's. -/
theorem Laid.sector_spec (laid : fs.Laid) {i : Int} (low : 0 ≤ i) (high : i < 10)
    (used : fs.volume.inUse i = true) :
    5 ≤ fs.volume.sector i ∧ fs.volume.sector i < 1024 ∧
      fs.volume.marked (fs.volume.sector i) := by
  have owns : fs.volume.Owns (.header i) (fs.volume.sector i) := ⟨low, high, used, rfl⟩
  obtain ⟨nonneg, inRange, marked⟩ := laid.valid.owned owns
  refine ⟨?_, inRange, marked⟩
  by_contra small
  cases laid.valid.unique (.system (fs.volume.sector i)) _ _
    ⟨nonneg, by omega, rfl⟩ owns

/-- A sector that is not marked is none of the system's. -/
theorem Laid.not_system (laid : fs.Laid) {s : Int} (low : 0 ≤ s)
    (unmarked : ¬ fs.volume.marked s) : 5 ≤ s := by
  by_contra small
  exact unmarked (laid.system_marked low (by omega))

/-- The system's headers stay where they are. -/
theorem Laid.keep (laid : fs.Laid) (mapFile : fs'.freeMapFile = fs.freeMapFile)
    (dirFile : fs'.directoryFile = fs.directoryFile) (mapHdr : fs'.disk 0 = fs.disk 0)
    (dirHdr : fs'.disk 1 = fs.disk 1) (valid : fs'.volume.Valid) : fs'.Laid where
  mapFile := mapFile ▸ laid.mapFile
  dirFile := dirFile ▸ laid.dirFile
  mapHdr := by
    unfold FileHeader.fetchFrom
    rw [mapHdr]
    exact laid.mapHdr
  dirHdr := by
    unfold FileHeader.fetchFrom
    rw [dirHdr]
    exact laid.dirHdr
  valid := valid

/-! ### Create -/

/-- What a successful `Create` has done: a file with header `hdr` in sector
`sector` has got entry `i`. -/
structure Created (fs : FileSystem) (name : Memory) (initialSize i sector : Int)
    (hdr : FileHeader) (fs' : FileSystem) : Prop where
  low : 0 ≤ i
  high : i < 10
  unused : fs.volume.inUse i = false
  numBytes : hdr.numBytes = initialSize
  fresh : fs.volume.Fresh sector hdr
  volume : (fs.volume.add i sector hdr).Same fs'.volume
  entry : fs'.directory.findIndex name = i
  laid : fs'.Laid

/-- `Create` as the steps that it succeeds with. -/
theorem create_eq_true {heap : Nat → Memory} {name : Memory} {initialSize : Int}
    (success : fs.create heap name initialSize = (true, fs')) :
    ∃ sector directory hdr freeMap,
      (fs.fetchFreeMap (heap 1)).find.1 = sector ∧ sector ≠ -1 ∧
      (fs.fetchDirectory (heap 0)).add name sector = some directory ∧
      FileHeader.allocate (.ofMemory (heap 2)) (fs.fetchFreeMap (heap 1)).find.2
        initialSize = some (hdr, freeMap) ∧
      fs' = { fs with
        disk := freeMap.writeBack fs.freeMapFile (heap 4)
          (directory.writeBack fs.directoryFile (heap 3)
            (hdr.writeBack sector fs.disk)) } := by
  unfold create at success
  dsimp only at success
  split at success
  · cases success
  · split at success
    · cases success
    · rename_i absent found
      split at success
      · cases success
      · rename_i directory added
        split at success
        · cases success
        · rename_i hdr freeMap allocated
          exact ⟨_, directory, hdr, freeMap, rfl, found, added, allocated,
            (Prod.mk.inj success).2.symm⟩

/-- A failing `Create` does nothing. -/
theorem create_eq_false {heap : Nat → Memory} {name : Memory} {initialSize : Int}
    (failure : fs.create heap name initialSize = (false, fs')) : fs' = fs := by
  unfold create at failure
  dsimp only at failure
  split at failure
  · exact (Prod.mk.inj failure).2.symm
  · split at failure
    · exact (Prod.mk.inj failure).2.symm
    · split at failure
      · exact (Prod.mk.inj failure).2.symm
      · split at failure
        · exact (Prod.mk.inj failure).2.symm
        · cases failure

/-- The sectors of a new file: one that was clear, and those that `Allocate`
takes when it is marked. -/
theorem Laid.fresh (laid : fs.Laid) {heap : Memory} {sector : Int} {hdr : FileHeader}
    {freeMap : BitMap} (low : 0 ≤ sector) (high : sector < 1024)
    (isClear : (fs.fetchFreeMap heap).test sector = false) (sound : hdr.Sound)
    (allocated : FileHeader.Allocated ((fs.fetchFreeMap heap).mark sector)
      hdr.numSectors hdr freeMap) : fs.volume.Fresh sector hdr := by
  have data : ∀ j, 0 ≤ j → j < hdr.numSectors →
      0 ≤ hdr.dataSectors j ∧ hdr.dataSectors j < 1024 ∧
        (fs.fetchFreeMap heap).test (hdr.dataSectors j) = false ∧
        hdr.dataSectors j ≠ sector := by
    intro j jLow jHigh
    have range := allocated.range j jLow jHigh
    have wasClear := allocated.wasClear j jLow jHigh
    rw [BitMap.mark_numBits, fetchFreeMap_numBits] at range
    rw [BitMap.test_mark, Bool.or_eq_false_iff, decide_eq_false_iff_not] at wasClear
    exact ⟨range.1, range.2, wasClear⟩
  refine ⟨sound, ?_, ?_, fun j jLow jHigh => (data j jLow jHigh).2.2.2⟩
  · intro s new
    cases new with
    | header => exact ⟨low, high⟩
    | data j jLow jHigh =>
        have spec := data j jLow jHigh
        exact ⟨spec.1, spec.2.1⟩
  · intro s new
    cases new with
    | header =>
        rw [laid.fetched_test heap low high] at isClear
        simp [FileSystem.volume, isClear]
    | data j jLow jHigh =>
        obtain ⟨dLow, dHigh, dClear, -⟩ := data j jLow jHigh
        rw [laid.fetched_test heap dLow dHigh] at dClear
        simp [FileSystem.volume, dClear]

/-- The volume once the new header, directory and free map are on disk. -/
theorem Laid.volume_created (laid : fs.Laid) {heap heap' name : Memory} {i sector : Int}
    {hdr : FileHeader} {freeMap : BitMap} (low : 0 ≤ i) (high : i < 10)
    (fresh : fs.volume.Fresh sector hdr)
    (allocated : FileHeader.Allocated ((fs.fetchFreeMap heap).mark sector)
      hdr.numSectors hdr freeMap)
    (stored : Stored (hdr.writeBack sector fs.disk)
      ((fs.fetchDirectory heap').setEntry i name sector) freeMap fs') :
    (fs.volume.add i sector hdr).Same fs'.volume := by
  have sectorRange := fresh.range sector .header
  have sectorNew := laid.not_system sectorRange.1 (fresh.unmarked sector .header)
  have mine := stored.entry i low high
  have others : ∀ j, 0 ≤ j → j < 10 → j ≠ i →
      Directory.SameEntry fs.directory fs'.directory j := by
    intro j jLow jHigh other
    exact ((laid.fetched_entry heap' jLow jHigh).trans
      (Directory.setEntry_other _ name sector other)).trans (stored.entry j jLow jHigh)
  have mySector : fs'.directory.sector i = sector := by
    rw [mine.sector]
    exact Directory.setEntry_sector _ i name (by omega) (by omega)
  refine ⟨?_, ?_, ?_, ?_⟩
  · intro j jLow jHigh
    by_cases same : j = i
    · rw [same]
      simpa [Volume.add, FileSystem.volume] using
        mine.inUse.trans (Directory.setEntry_inUse _ i name sector)
    · simpa [Volume.add, FileSystem.volume, same] using (others j jLow jHigh same).inUse
  · intro j jLow jHigh _
    by_cases same : j = i
    · rw [same]
      simpa [Volume.add, FileSystem.volume] using mySector
    · simpa [Volume.add, FileSystem.volume, same] using (others j jLow jHigh same).sector
  · intro j jLow jHigh used
    by_cases same : j = i
    · rw [same]
      have storable : hdr.Storable :=
        ⟨fresh.sound, fun k kLow kHigh => fresh.range _ (.data k kLow kHigh)⟩
      have back := storable.fetchFrom_writeBack sector fs.disk
      simp only [Volume.add, FileSystem.volume, Function.update_self, mySector]
      unfold FileHeader.fetchFrom at back ⊢
      rw [stored.other sector (by omega) (by omega) (by omega)]
      exact back
    · simp only [Volume.add, Function.update_of_ne same] at used ⊢
      obtain ⟨notSystem, -, marked⟩ := laid.sector_spec jLow jHigh used
      have notNew : fs.volume.sector j ≠ sector := by
        intro equal
        exact fresh.unmarked sector .header (equal ▸ marked)
      have kept : fs'.disk (fs.volume.sector j) = fs.disk (fs.volume.sector j) := by
        rw [stored.other _ (by omega) (by omega) (by omega)]
        exact FileHeader.writeBack_other hdr fs.disk notNew
      exact volume_hdr_same (others j jLow jHigh same) kept
  · intro s sLow sHigh
    simp only [FileSystem.volume, Volume.add]
    rw [stored.test s sLow sHigh, allocated.marks, BitMap.test_mark, Bool.or_eq_true,
      decide_eq_true_eq, laid.fetched_test heap sLow sHigh, or_assoc]

/-- A successful `Create`, with what it has stored. -/
theorem Laid.created_stored (laid : fs.Laid) {heap : Nat → Memory} {name : Memory}
    {initialSize : Int} (nonneg : 0 ≤ initialSize) (small : initialSize ≤ maxFileSize)
    (success : fs.create heap name initialSize = (true, fs')) :
    ∃ i sector hdr freeMap,
      (fs.fetchFreeMap (heap 1)).find = (sector, (fs.fetchFreeMap (heap 1)).mark sector) ∧
      FileHeader.allocate (.ofMemory (heap 2)) ((fs.fetchFreeMap (heap 1)).mark sector)
        initialSize = some (hdr, freeMap) ∧
      Stored (hdr.writeBack sector fs.disk)
        ((fs.fetchDirectory (heap 0)).setEntry i name sector) freeMap fs' ∧
      Created fs name initialSize i sector hdr fs' := by
  obtain ⟨sector, directory, hdr, freeMap, found, real, added, allocation, result⟩ :=
    create_eq_true success
  rcases (fs.fetchFreeMap (heap 1)).find_cases with full | ⟨s, find, sLow, sHigh, isClear⟩
  · rw [full.1] at found
    exact absurd found.symm real
  · rw [find] at found allocation
    dsimp only at found allocation
    subst found
    rw [fetchFreeMap_numBits] at sHigh
    obtain ⟨i, low, high, unused, absent, rfl⟩ := Directory.add_eq_some added
    rw [fetchDirectory_tableSize] at high
    obtain ⟨numBytes, sound, allocated⟩ :=
      FileHeader.allocate_spec nonneg small allocation
    have fresh := laid.fresh sLow sHigh isClear sound allocated
    have numBits : freeMap.numBits = numSectors := by
      rw [allocated.numBits, BitMap.mark_numBits, fetchFreeMap_numBits]
    have tableSize : ((fs.fetchDirectory (heap 0)).setEntry i name s).tableSize =
        numDirEntries := by
      rw [Directory.setEntry_tableSize, fetchDirectory_tableSize]
    have stored := stored_map_last laid.mapFile laid.dirFile tableSize numBits (heap 3)
      (heap 4) (hdr.writeBack s fs.disk)
    rw [← result] at stored
    have volume := laid.volume_created low high fresh allocated stored
    have unused' : fs.volume.inUse i = false :=
      (laid.fetched_entry (heap 0) low high).inUse.symm.trans unused
    have sNew := laid.not_system sLow (fresh.unmarked s .header)
    have headers : ∀ k, 0 ≤ k → k < 2 → fs'.disk k = fs.disk k := by
      intro k kLow kHigh
      rw [stored.other k (by omega) (by omega) (by omega)]
      exact FileHeader.writeBack_other hdr fs.disk (by omega)
    refine ⟨i, s, hdr, freeMap, find, allocation, stored, low, high, unused', numBytes,
      fresh, volume, ?_, ?_⟩
    · rw [Directory.findIndex_congr tableSize.symm
        (fun j jLow jHigh => stored.entry j jLow (by rw [tableSize] at jHigh; exact jHigh))
        name]
      apply Directory.findIndex_setEntry low
      · rw [fetchDirectory_tableSize]
        exact high
      · exact absent
    · have valid := (laid.valid.add low high unused' fresh).of_same volume
      apply laid.keep
      · rw [result]
      · rw [result]
      · exact headers 0 (by decide) (by decide)
      · exact headers 1 (by decide) (by decide)
      · exact valid

/-- A successful `Create`. -/
theorem Laid.created (laid : fs.Laid) {heap : Nat → Memory} {name : Memory}
    {initialSize : Int} (nonneg : 0 ≤ initialSize) (small : initialSize ≤ maxFileSize)
    (success : fs.create heap name initialSize = (true, fs')) :
    ∃ i sector hdr, Created fs name initialSize i sector hdr fs' := by
  obtain ⟨i, sector, hdr, freeMap, -, -, -, created⟩ :=
    laid.created_stored nonneg small success
  exact ⟨i, sector, hdr, created⟩

section

variable {name : Memory} {initialSize i sector : Int} {hdr : FileHeader}

/-- The header that `Open` fetches of a new file. -/
theorem Created.sameFile (created : Created fs name initialSize i sector hdr fs') :
    hdr.SameFile (fs'.volume.hdr i) := by
  have same := created.volume.hdr i created.low created.high (by simp [Volume.add])
  simpa [Volume.add] using same

theorem Created.used (created : Created fs name initialSize i sector hdr fs') :
    fs'.volume.inUse i = true := by
  have same := created.volume.inUse i created.low created.high
  simpa [Volume.add] using same

end

/-! ### Looking up a name -/

theorem Laid.fetched_findIndex (laid : fs.Laid) (heap name : Memory) :
    (fs.fetchDirectory heap).findIndex name = fs.directory.findIndex name := by
  apply Directory.findIndex_congr
  · exact fetchDirectory_tableSize heap fs
  · intro i low high
    exact laid.fetched_entry heap low high

/-- `Directory::Find` on the fetched directory gives the sector of a header, or
the name is not there. -/
theorem Laid.find_cases (laid : fs.Laid) (heap name : Memory) :
    (fs.directory.findIndex name = -1 ∧ (fs.fetchDirectory heap).find name = -1) ∨
      ∃ i, fs.directory.findIndex name = i ∧ 0 ≤ i ∧ i < 10 ∧
        fs.volume.inUse i = true ∧
        (fs.fetchDirectory heap).find name = fs.volume.sector i := by
  have index := laid.fetched_findIndex heap name
  rcases fs.directory.findIndex_cases name with absent | ⟨low, high, holds⟩
  · left
    refine ⟨absent.1, ?_⟩
    unfold Directory.find
    rw [index, absent.1]
    exact if_neg (by simp)
  · right
    refine ⟨_, rfl, low, high, ?_, ?_⟩
    · exact Directory.inUse_of_holds holds
    · unfold Directory.find
      rw [index]
      dsimp only
      rw [if_pos (by omega)]
      exact (laid.fetched_entry heap low high).sector

/-! ### When Create succeeds -/

theorem Laid.fetched_numClear (laid : fs.Laid) (heap : Memory) :
    (fs.fetchFreeMap heap).numClear = fs.freeMap.numClear := by
  apply BitMap.numClear_congr
  · exact fetchFreeMap_numBits heap fs
  · intro s low high
    exact laid.fetched_test heap low high

/-- `Create` succeeds with a name that is not there, an entry that is not in
use, and a clear sector for the header and each data sector. -/
theorem Laid.create_succeeds (laid : fs.Laid) (heap : Nat → Memory) {name : Memory}
    {initialSize i : Int} (nonneg : 0 ≤ initialSize)
    (absent : fs.directory.findIndex name = -1) (low : 0 ≤ i) (high : i < 10)
    (unused : fs.volume.inUse i = false)
    (room : 1 + divRoundUp initialSize sectorSize ≤ fs.freeMap.numClear) :
    ∃ fs', fs.create heap name initialSize = (true, fs') := by
  have sectors := divRoundUp_eq nonneg
  simp only [sectorSize] at sectors
  have numClear := laid.fetched_numClear (heap 1)
  have notFound : (fs.fetchDirectory (heap 0)).find name = -1 := by
    rcases laid.find_cases (heap 0) name with lookup | ⟨j, index, jLow, -⟩
    · exact lookup.2
    · omega
  rcases (fs.fetchFreeMap (heap 1)).find_cases with full | ⟨s, find, sLow, sHigh, isClear⟩
  · have none := BitMap.numClear_eq_zero full.2
    simp only [sectorSize] at room
    omega
  · have fetchedAbsent := (laid.fetched_findIndex (heap 0) name).trans absent
    obtain ⟨directory, added⟩ := Directory.add_of_unused fetchedAbsent low
      (by rw [fetchDirectory_tableSize]; exact high)
      ((laid.fetched_entry (heap 0) low high).inUse.trans unused) s
    have left := BitMap.numClear_mark sLow sHigh isClear
    have enough : ¬ ((fs.fetchFreeMap (heap 1)).mark s).numClear <
        divRoundUp initialSize sectorSize := by omega
    unfold create FileHeader.allocate
    dsimp only
    rw [if_neg (by simp [notFound]), find]
    dsimp only
    rw [if_neg (by omega), added]
    dsimp only
    rw [if_neg enough]
    exact ⟨_, rfl⟩

/-! ### Remove -/

/-- What a successful `Remove` has done: the file of entry `i` is gone. -/
structure Removed (fs : FileSystem) (name : Memory) (i : Int) (fs' : FileSystem) :
    Prop where
  low : 0 ≤ i
  high : i < 10
  used : fs.volume.inUse i = true
  entry : fs.directory.findIndex name = i
  volume : (fs.volume.drop i).Same fs'.volume
  laid : fs'.Laid

/-- The assertions of `Deallocate` hold. -/
theorem Laid.deallocate (laid : fs.Laid) (heap : Memory) {i : Int} (low : 0 ≤ i)
    (high : i < 10) (used : fs.volume.inUse i = true) :
    ∃ freeMap, (fs.volume.hdr i).deallocate (fs.fetchFreeMap heap) = some freeMap ∧
      freeMap.numBits = numSectors ∧
      ∀ s, freeMap.test s = true ↔ (fs.fetchFreeMap heap).test s = true ∧
        ∀ j, 0 ≤ j → j < (fs.volume.hdr i).numSectors →
          s ≠ (fs.volume.hdr i).dataSectors j := by
  have sound := laid.valid.sound i low high used
  have count : (((fs.volume.hdr i).numSectors.toNat : Nat) : Int) =
      (fs.volume.hdr i).numSectors := Int.toNat_of_nonneg sound.numSectors_nonneg
  have spec := @FileHeader.deallocateSectors_spec (fs.volume.hdr i)
    (fs.fetchFreeMap heap) (fs.volume.hdr i).numSectors.toNat
  rw [count, fetchFreeMap_numBits] at spec
  apply spec
  · intro j jLow jHigh
    have owns : fs.volume.Owns (.data i j) ((fs.volume.hdr i).dataSectors j) :=
      ⟨low, high, used, jLow, jHigh, rfl⟩
    obtain ⟨nonneg, inRange, marked⟩ := laid.valid.owned owns
    refine ⟨nonneg, inRange, ?_⟩
    rw [laid.fetched_test heap nonneg inRange]
    exact marked
  · exact sound.distinct

/-- The volume once the smaller directory and free map are on disk. -/
theorem Laid.volume_removed (laid : fs.Laid) {heap heap' : Memory} {i : Int}
    {freeMap : BitMap}
    (marks : ∀ s, freeMap.test s = true ↔ (fs.fetchFreeMap heap).test s = true ∧
      ∀ j, 0 ≤ j → j < (fs.volume.hdr i).numSectors →
        s ≠ (fs.volume.hdr i).dataSectors j)
    (stored : Stored fs.disk ((fs.fetchDirectory heap').setInUse i false)
      (freeMap.clear (fs.volume.sector i)) fs') :
    (fs.volume.drop i).Same fs'.volume := by
  have others : ∀ j, 0 ≤ j → j < 10 → j ≠ i →
      Directory.SameEntry fs.directory fs'.directory j := by
    intro j jLow jHigh other
    exact ((laid.fetched_entry heap' jLow jHigh).trans
      (Directory.setInUse_other _ false other)).trans (stored.entry j jLow jHigh)
  have still : ∀ j, (fs.volume.drop i).inUse j = true →
      j ≠ i ∧ fs.volume.inUse j = true := by
    intro j used
    have other : j ≠ i := by
      rintro rfl
      simp [Volume.drop] at used
    simp only [Volume.drop, Function.update_of_ne other] at used
    exact ⟨other, used⟩
  refine ⟨?_, ?_, ?_, ?_⟩
  · intro j jLow jHigh
    by_cases same : j = i
    · have mine := (stored.entry j jLow jHigh).inUse
      rw [same] at mine ⊢
      rw [Directory.setInUse_inUse] at mine
      simpa [Volume.drop, FileSystem.volume] using mine
    · simpa [Volume.drop, FileSystem.volume, same] using (others j jLow jHigh same).inUse
  · intro j jLow jHigh used
    exact (others j jLow jHigh (still j used).1).sector
  · intro j jLow jHigh used
    obtain ⟨other, usedBefore⟩ := still j used
    obtain ⟨notSystem, -, -⟩ := laid.sector_spec jLow jHigh usedBefore
    have kept : fs'.disk (fs.volume.sector j) = fs.disk (fs.volume.sector j) :=
      stored.other _ (by omega) (by omega) (by omega)
    exact volume_hdr_same (others j jLow jHigh other) kept
  · intro s sLow sHigh
    simp only [FileSystem.volume, Volume.drop] at marks ⊢
    rw [stored.test s sLow sHigh, BitMap.test_clear, Bool.and_eq_true,
      decide_eq_true_eq, marks, laid.fetched_test heap sLow sHigh, and_assoc]
    apply and_congr_right
    intro _
    exact and_comm

/-- `Remove` when each of its steps succeeds. -/
theorem remove_eq_of {heap : Nat → Memory} {name : Memory} {sector : Int}
    {directory : Directory} {freeMap : BitMap}
    (found : (fs.fetchDirectory (heap 0)).find name = sector) (low : 0 ≤ sector)
    (high : sector < numSectors)
    (deallocated : (FileHeader.fetchFrom sector fs.disk).deallocate
      (fs.fetchFreeMap (heap 1)) = some freeMap)
    (smaller : (fs.fetchDirectory (heap 0)).remove name = some directory) :
    fs.remove heap name = some (true, { fs with
      disk := directory.writeBack fs.directoryFile (heap 3)
        ((freeMap.clear sector).writeBack fs.freeMapFile (heap 2) fs.disk) }) := by
  unfold remove
  dsimp only
  rw [found, if_neg (by omega), deallocated, Option.bind_some, if_pos ⟨low, high⟩, smaller,
    Option.getD_some]

/-- The steps of `Remove` for a name that is there. -/
theorem Laid.remove_steps (laid : fs.Laid) (heap : Nat → Memory) {name : Memory}
    {i : Int} (index : fs.directory.findIndex name = i) (low : 0 ≤ i) :
    i < 10 ∧ fs.volume.inUse i = true ∧
      (fs.fetchDirectory (heap 0)).find name = fs.volume.sector i ∧
      (fs.fetchDirectory (heap 0)).remove name =
        some ((fs.fetchDirectory (heap 0)).setInUse i false) ∧
      ∃ freeMap, (fs.volume.hdr i).deallocate (fs.fetchFreeMap (heap 1)) = some freeMap ∧
        freeMap.numBits = numSectors ∧
        ∀ s, freeMap.test s = true ↔ (fs.fetchFreeMap (heap 1)).test s = true ∧
          ∀ j, 0 ≤ j → j < (fs.volume.hdr i).numSectors →
            s ≠ (fs.volume.hdr i).dataSectors j := by
  rcases laid.find_cases (heap 0) name with absent | ⟨k, index', -, high, used, found⟩
  · omega
  · obtain rfl : k = i := index'.symm.trans index
    refine ⟨high, used, found, ?_, laid.deallocate (heap 1) low high used⟩
    unfold Directory.remove
    rw [laid.fetched_findIndex (heap 0) name, index]
    exact if_neg (by omega)

/-- `Remove` of a name that is there, with what it has stored. -/
theorem Laid.removed_stored (laid : fs.Laid) (heap : Nat → Memory) {name : Memory}
    {i : Int} (index : fs.directory.findIndex name = i) (low : 0 ≤ i) :
    ∃ freeMap fs', fs.remove heap name = some (true, fs') ∧
      Stored fs.disk ((fs.fetchDirectory (heap 0)).setInUse i false) freeMap fs' ∧
      Removed fs name i fs' := by
  obtain ⟨high, used, found, smaller, freeMap, deallocated, numBits, marks⟩ :=
    laid.remove_steps heap index low
  obtain ⟨notSystem, inRange, -⟩ := laid.sector_spec low high used
  have tableSize : ((fs.fetchDirectory (heap 0)).setInUse i false).tableSize =
      numDirEntries := by
    rw [Directory.setInUse_tableSize, fetchDirectory_tableSize]
  have stored := stored_dir_last laid.mapFile laid.dirFile tableSize
    (b := freeMap.clear (fs.volume.sector i)) numBits (heap 2) (heap 3) fs.disk
  have volume := laid.volume_removed marks stored
  refine ⟨_, _, remove_eq_of found (by omega) inRange deallocated smaller, stored, low, high,
    used, index, volume, ?_⟩
  apply laid.keep
  · rfl
  · rfl
  · exact stored.other 0 (by decide) (by decide) (by decide)
  · exact stored.other 1 (by decide) (by decide) (by decide)
  · exact (laid.valid.drop low high used).of_same volume

/-- `Remove` of a name that is not there. -/
theorem Laid.remove_absent (laid : fs.Laid) (heap : Nat → Memory) {name : Memory}
    (absent : fs.directory.findIndex name = -1) :
    fs.remove heap name = some (false, fs) := by
  rcases laid.find_cases (heap 0) name with lookup | ⟨i, index, low, -⟩
  · unfold remove
    exact if_pos lookup.2
  · omega

/-- `Remove` never fails an assertion; it drops the file of the name, or there
is none. -/
theorem Laid.removed (laid : fs.Laid) (heap : Nat → Memory) (name : Memory) :
    fs.remove heap name = some (false, fs) ∨
      ∃ i fs', fs.remove heap name = some (true, fs') ∧ Removed fs name i fs' := by
  rcases fs.directory.findIndex_cases name with absent | ⟨low, -, -⟩
  · left
    exact laid.remove_absent heap absent.1
  · right
    obtain ⟨freeMap, fs', gone, -, removed⟩ := laid.removed_stored heap rfl low
    exact ⟨_, fs', gone, removed⟩

/-- The header that a successful `Remove` has freed. -/
theorem Removed.find_eq {name : Memory} {i : Int} (removed : Removed fs name i fs')
    (laid : fs.Laid) (heap : Memory) :
    (fs.fetchDirectory heap).find name = fs.volume.sector i := by
  rcases laid.find_cases heap name with absent | ⟨j, index, -, -, -, found⟩
  · have low := removed.low
    rw [← removed.entry, absent.1] at low
    omega
  · rw [found, ← index, removed.entry]

end FileSystem

end Nachos
