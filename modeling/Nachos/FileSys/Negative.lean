/-
Module: Nachos.FileSys.Negative
Purpose: Files of negative length.  `Create` does not look at the sign of the
  size that it is given.  A file of negative length has no sectors and is not
  written to, and the file system goes on as it would with an empty file in
  its place: it has a shadow that is laid out.
Trusted boundary: none
Main exports: FileHeader.clamped, FileSystem.Shadow, FileSystem.Shadow.create,
  FileSystem.Shadow.remove, FileSystem.Shadow.openFile
-/
import Nachos.FileSys.Undoing

namespace Nachos

open Lib

/-! ### Headers -/

namespace FileHeader

/-- The header with nothing negative in it. -/
def clamped (hdr : FileHeader) : FileHeader :=
  { hdr with
    numBytes := max hdr.numBytes 0
    numSectors := max hdr.numSectors 0 }

/-- A header that is not negative is its own. -/
theorem clamped_eq {hdr : FileHeader} (bytes : 0 ≤ hdr.numBytes)
    (sectors : 0 ≤ hdr.numSectors) : hdr.clamped = hdr := by
  unfold clamped
  rw [Int.max_eq_left bytes, Int.max_eq_left sectors]

theorem SameFile.clamped {hdr hdr' : FileHeader} (same : hdr.SameFile hdr') :
    hdr.clamped.SameFile hdr'.clamped where
  numBytes := by
    simp only [FileHeader.clamped]
    rw [same.numBytes]
  numSectors := by
    simp only [FileHeader.clamped]
    rw [same.numSectors]
  dataSectors i low high := by
    simp only [FileHeader.clamped] at high ⊢
    exact same.dataSectors i low (by omega)

/-- `Deallocate` looks at the sectors in the table. -/
theorem deallocate_congr {hdr hdr' : FileHeader} (same : hdr.clamped.SameFile hdr')
    (freeMap : BitMap) : hdr'.deallocate freeMap = hdr.deallocate freeMap := by
  have count : hdr'.numSectors.toNat = hdr.numSectors.toNat := by
    rw [same.numSectors]
    simp only [clamped]
    omega
  have loop : ∀ n : Nat, (n : Int) ≤ hdr.clamped.numSectors →
      deallocateSectors hdr' freeMap n = deallocateSectors hdr freeMap n := by
    intro n bound
    induction n with
    | zero => rfl
    | succ n inductionHypothesis =>
        rw [deallocateSectors, deallocateSectors, inductionHypothesis (by omega),
          same.dataSectors n (by omega) (by omega)]
        rfl
  unfold deallocate
  rw [count]
  apply loop
  simp only [clamped]
  omega

theorem divRoundUp_negative {n : Int} (negative : n < 0) :
    divRoundUp n sectorSize = -(-n / sectorSize) := by
  have quotient : n.tdiv sectorSize = -(-n / sectorSize) := by
    rw [← Int.tdiv_eq_ediv_of_nonneg (show 0 ≤ -n by omega), Int.neg_tdiv, Int.neg_neg]
  have remainder : n.tmod sectorSize ≤ 0 := by
    have nonneg := Int.tmod_nonneg sectorSize (show 0 ≤ -n by omega)
    rw [Int.neg_tmod] at nonneg
    omega
  unfold divRoundUp
  rw [if_neg (by omega), quotient]
  omega

/-- `Allocate` for a negative size takes nothing, as for an empty file. -/
theorem allocate_negative (heap : FileHeader) (freeMap : BitMap) {fileSize : Int}
    (negative : fileSize < 0) :
    allocate heap freeMap fileSize = some ({ heap with
      numBytes := fileSize
      numSectors := divRoundUp fileSize sectorSize }, freeMap) := by
  have sectors : divRoundUp fileSize sectorSize ≤ 0 := by
    rw [divRoundUp_negative negative]
    simp only [sectorSize]
    omega
  have clear : 0 ≤ freeMap.numClear := by
    unfold BitMap.numClear
    omega
  unfold allocate
  dsimp only
  rw [if_neg (by omega), Int.toNat_of_nonpos sectors]
  rfl

theorem allocate_zero (heap : FileHeader) (freeMap : BitMap) :
    allocate heap freeMap 0 = some ({ heap with numBytes := 0, numSectors := 0 }, freeMap) := by
  have clear : 0 ≤ freeMap.numClear := by
    unfold BitMap.numClear
    omega
  have sectors : divRoundUp 0 sectorSize = 0 := rfl
  unfold allocate
  dsimp only
  rw [sectors, if_neg (by omega)]
  rfl

/-- The sizes of a header read back as they were stored. -/
theorem sizes_fetchFrom_writeBack (hdr : FileHeader) (sector : Int) (disk : Disk) :
    (fetchFrom sector (hdr.writeBack sector disk)).numBytes = wrap hdr.numBytes ∧
      (fetchFrom sector (hdr.writeBack sector disk)).numSectors = wrap hdr.numSectors := by
  have agree : Memory.Agree sectorSize (hdr.writeBack sector disk sector) hdr.toMemory := by
    unfold writeBack Disk.writeSector
    rw [Function.update_self]
    exact Memory.agree_copy _ _ _
  have first := getWord_field agree (show (0 : Int) ≤ 0 by decide) (by decide)
  have second := getWord_field agree (show (0 : Int) ≤ 1 by decide) (by decide)
  constructor
  · simp only [fetchFrom, ofMemory]
    rw [show (0 : Int) = 4 * 0 from rfl, first, toInt_ofInt_wrap]
    rfl
  · simp only [fetchFrom, ofMemory]
    rw [show (4 : Int) = 4 * 1 from rfl, second, toInt_ofInt_wrap]
    rfl

/-- `Allocate` takes the same sectors for a size as for what is left of it when
it is not let be negative. -/
theorem allocate_max (heap : FileHeader) (freeMap : BitMap) (fileSize : Int) :
    (allocate heap freeMap (max fileSize 0)).map Prod.snd =
      (allocate heap freeMap fileSize).map Prod.snd := by
  by_cases negative : fileSize < 0
  · rw [Int.max_eq_right (by omega), allocate_zero, allocate_negative heap freeMap negative]
    rfl
  · rw [Int.max_eq_left (by omega)]

/-- The header that is read back for a size, and the one for what is left of the
size when it is not let be negative. -/
theorem allocate_fetched {heap hdr hdr' : FileHeader} {freeMap freeMap' : BitMap}
    {fileSize : Int} (int : -2 ^ 31 ≤ fileSize)
    (allocated : allocate heap freeMap fileSize = some (hdr, freeMap'))
    (shadow : allocate heap freeMap (max fileSize 0) = some (hdr', freeMap'))
    (storable : hdr'.Storable) (sector : Int) (disk : Disk) :
    (fetchFrom sector (hdr.writeBack sector disk)).clamped.SameFile hdr' := by
  by_cases negative : fileSize < 0
  · rw [allocate_negative heap freeMap negative] at allocated
    rw [Int.max_eq_right (by omega), allocate_zero] at shadow
    have mine := (Prod.mk.inj (Option.some.inj allocated)).1
    have its := (Prod.mk.inj (Option.some.inj shadow)).1
    have sizes := sizes_fetchFrom_writeBack hdr sector disk
    have bytes : hdr.numBytes = fileSize := by rw [← mine]
    have sectors : hdr.numSectors = divRoundUp fileSize sectorSize := by rw [← mine]
    rw [divRoundUp_negative negative] at sectors
    simp only [sectorSize] at sectors
    rw [wrap_eq_self (by omega) (by omega), wrap_eq_self (by omega) (by omega)] at sizes
    refine ⟨?_, ?_, ?_⟩
    · rw [← its]
      simp only [clamped]
      omega
    · rw [← its]
      simp only [clamped]
      omega
    · intro i low high
      simp only [clamped] at high
      omega
  · rw [Int.max_eq_left (by omega), allocated] at shadow
    obtain rfl : hdr = hdr' := (Prod.mk.inj (Option.some.inj shadow)).1
    have back := (storable.fetchFrom_writeBack sector disk).clamped.symm
    rw [clamped_eq storable.sound.nonneg storable.sound.numSectors_nonneg] at back
    exact back

end FileHeader

/-! ### System sectors that are the same -/

theorem FileHeader.Describes.content_same {hdr : FileHeader} {numBytes first count : Int}
    (describes : hdr.Describes numBytes first count) {disk disk' : Disk}
    (fits : numBytes ≤ count * sectorSize)
    (same : ∀ s, first ≤ s → s < first + count → disk' s = disk s) :
    ∀ i, 0 ≤ i → i < hdr.numBytes → hdr.content disk' i = hdr.content disk i := by
  intro i low high
  rw [describes.numBytes] at high
  exact describes.content_congr describes same low (by omega)

/-- The disks agree on the system sectors. -/
def Disk.SystemSame (disk disk' : Disk) : Prop :=
  ∀ s, 0 ≤ s → s < 5 → disk' s = disk s

section

variable {file : OpenFile} {disk disk' : Disk}

theorem Directory.fetchFrom_congr (dirFile : file.hdr.Describes 200 3 2)
    (same : disk.SystemSame disk') {dir : Directory}
    (size : dir.tableSize = numDirEntries) :
    dir.fetchFrom file disk' = dir.fetchFrom file disk := by
  have contents := @FileHeader.Describes.content_same _ _ _ _ dirFile disk disk' (by decide)
    (fun s low high => same s (by omega) (by omega))
  unfold Directory.fetchFrom
  rw [OpenFile.readAt_congr dirFile.dir_sound contents _ _ (by decide)
    (by rw [size]; decide)]

theorem BitMap.fetchFrom_congr (mapFile : file.hdr.Describes 128 2 1)
    (same : disk.SystemSame disk') {b : BitMap} (size : b.numBits = numSectors) :
    b.fetchFrom file disk' = b.fetchFrom file disk := by
  have contents := @FileHeader.Describes.content_same _ _ _ _ mapFile disk disk' (by decide)
    (fun s low high => same s (by omega) (by omega))
  unfold BitMap.fetchFrom
  rw [OpenFile.readAt_congr mapFile.map_sound contents _ _ (by decide)
    (by unfold BitMap.numWords; rw [size]; decide)]

theorem Directory.writeBack_systemSame (dirFile : file.hdr.Describes 200 3 2)
    (same : disk.SystemSame disk') {dir : Directory}
    (size : dir.tableSize = numDirEntries) (heap : Memory) :
    (dir.writeBack file heap disk).SystemSame (dir.writeBack file heap disk') := by
  have contents := @FileHeader.Describes.content_same _ _ _ _ dirFile disk disk' (by decide)
    (fun s low high => same s (by omega) (by omega))
  intro s low high
  unfold Directory.writeBack
  exact OpenFile.writeAt_congr dirFile.dir_sound contents _ _ (by decide)
    (by rw [size]; decide) (same s low high)

theorem BitMap.writeBack_systemSame (mapFile : file.hdr.Describes 128 2 1)
    (same : disk.SystemSame disk') {b : BitMap} (size : b.numBits = numSectors)
    (heap : Memory) :
    (b.writeBack file heap disk).SystemSame (b.writeBack file heap disk') := by
  have contents := @FileHeader.Describes.content_same _ _ _ _ mapFile disk disk' (by decide)
    (fun s low high => same s (by omega) (by omega))
  intro s low high
  unfold BitMap.writeBack
  exact OpenFile.writeAt_congr mapFile.map_sound contents _ _ (by decide)
    (by unfold BitMap.numWords; rw [size]; decide) (same s low high)

end

/-! ### Shadows -/

namespace FileSystem

/-- The shadow is laid out, and is the same but for the lengths of files that
are negative, and the data. -/
structure Shadow (fs shadow : FileSystem) : Prop where
  laid : shadow.Laid
  mapFile : shadow.freeMapFile = fs.freeMapFile
  dirFile : shadow.directoryFile = fs.directoryFile
  system : fs.disk.SystemSame shadow.disk
  hdr : ∀ i, 0 ≤ i → i < 10 → shadow.volume.inUse i = true →
    (fs.volume.hdr i).clamped.SameFile (shadow.volume.hdr i)

variable {fs fs' shadow shadow' : FileSystem}

/-- A laid out system is its own shadow. -/
theorem Laid.ownShadow (laid : fs.Laid) : fs.Shadow fs where
  laid := laid
  mapFile := rfl
  dirFile := rfl
  system _ _ _ := rfl
  hdr i low high used := by
    have sound := laid.valid.sound i low high used
    rw [FileHeader.clamped_eq sound.nonneg sound.numSectors_nonneg]
    exact .refl _

theorem Shadow.entry (sh : fs.Shadow shadow) {i : Int} (low : 0 ≤ i) (high : i < 10) :
    Directory.SameEntry shadow.directory fs.directory i :=
  sh.laid.directory_same (sh.dirFile ▸ sh.laid.dirFile)
    (fun s sLow sHigh => (sh.system s sLow sHigh).symm) low high

theorem Shadow.fetchDirectory_eq (sh : fs.Shadow shadow) (heap : Memory) :
    shadow.fetchDirectory heap = fs.fetchDirectory heap := by
  unfold fetchDirectory
  rw [← sh.dirFile]
  exact Directory.fetchFrom_congr sh.laid.dirFile sh.system
    (Directory.construct_tableSize _ _)

theorem Shadow.fetchFreeMap_eq (sh : fs.Shadow shadow) (heap : Memory) :
    shadow.fetchFreeMap heap = fs.fetchFreeMap heap := by
  unfold fetchFreeMap
  rw [← sh.mapFile]
  exact BitMap.fetchFrom_congr sh.laid.mapFile sh.system (BitMap.construct_numBits _ _)

theorem Shadow.test_eq (sh : fs.Shadow shadow) {s : Int} (low : 0 ≤ s) (high : s < 1024) :
    fs.freeMap.test s = shadow.freeMap.test s :=
  sh.laid.freeMap_same (sh.mapFile ▸ sh.laid.mapFile)
    (fun s sLow sHigh => (sh.system s sLow sHigh).symm) low high

/-- A header whose sector is as before. -/
theorem Shadow.hdr_eq (sh : fs.Shadow shadow) {i : Int} (low : 0 ≤ i) (high : i < 10)
    (entry : fs'.directory.sector i = shadow.volume.sector i)
    (kept : fs'.disk (shadow.volume.sector i) = fs.disk (shadow.volume.sector i)) :
    fs'.volume.hdr i = fs.volume.hdr i := by
  have old : fs.directory.sector i = shadow.volume.sector i := (sh.entry low high).sector
  simp only [volume, FileHeader.fetchFrom] at kept entry old ⊢
  rw [entry, old, kept]

/-- A file whose header's sector is as before, in both. -/
theorem Shadow.hdr_kept (sh : fs.Shadow shadow) {i : Int} (low : 0 ≤ i) (high : i < 10)
    (used : shadow.volume.inUse i = true)
    (entry : fs'.directory.sector i = shadow.volume.sector i)
    (kept : fs'.disk (shadow.volume.sector i) = fs.disk (shadow.volume.sector i))
    (same : (shadow.volume.hdr i).SameFile (shadow'.volume.hdr i)) :
    (fs'.volume.hdr i).clamped.SameFile (shadow'.volume.hdr i) := by
  rw [sh.hdr_eq low high entry kept]
  exact (sh.hdr i low high used).trans same

/-- `Create` when each of its steps succeeds. -/
theorem create_eq_of {heap : Nat → Memory} {name : Memory} {initialSize sector : Int}
    {directory : Directory} {hdr : FileHeader} {freeMap : BitMap}
    (found : (fs.fetchFreeMap (heap 1)).find.1 = sector) (real : sector ≠ -1)
    (added : (fs.fetchDirectory (heap 0)).add name sector = some directory)
    (allocated : FileHeader.allocate (.ofMemory (heap 2)) (fs.fetchFreeMap (heap 1)).find.2
      initialSize = some (hdr, freeMap)) :
    fs.create heap name initialSize = (true, { fs with
      disk := freeMap.writeBack fs.freeMapFile (heap 4)
        (directory.writeBack fs.directoryFile (heap 3)
          (hdr.writeBack sector fs.disk)) }) := by
  have absent : (fs.fetchDirectory (heap 0)).findIndex name = -1 := by
    by_contra present
    unfold Directory.add at added
    rw [if_pos present] at added
    cases added
  have notFound : (fs.fetchDirectory (heap 0)).find name = -1 := by
    unfold Directory.find
    rw [absent]
    rfl
  subst found
  unfold create
  dsimp only
  rw [if_neg (not_not.mpr notFound), if_neg real, added]
  dsimp only
  rw [allocated]

/-- The headers of all files once both systems have a new file in entry `i`. -/
theorem Shadow.hdr_created (sh : fs.Shadow shadow) {name : Memory}
    {size i sector : Int} {hdr hdr' : FileHeader}
    (created : Created shadow name size i sector hdr' shadow')
    (system : fs'.disk.SystemSame shadow'.disk)
    (dirFile : shadow'.directoryFile = fs'.directoryFile)
    (others : ∀ s, 5 ≤ s → fs'.disk s = hdr.writeBack sector fs.disk s)
    (fetched : (FileHeader.fetchFrom sector
      (hdr.writeBack sector fs.disk)).clamped.SameFile hdr')
    {j : Int} (low : 0 ≤ j) (high : j < 10) (used : shadow'.volume.inUse j = true) :
    (fs'.volume.hdr j).clamped.SameFile (shadow'.volume.hdr j) := by
  have entry : fs'.directory.sector j = shadow'.volume.sector j :=
    (created.laid.directory_same (dirFile ▸ created.laid.dirFile)
      (fun s sLow sHigh => (system s sLow sHigh).symm) low high).sector
  have inUse := created.volume.inUse j low high
  have place := created.volume.sector j low high (inUse ▸ used)
  have sameHdr := created.volume.hdr j low high (inUse ▸ used)
  have range := created.fresh.range sector .header
  have sectorNew := sh.laid.not_system range.1 (created.fresh.unmarked sector .header)
  by_cases new : j = i
  · subst new
    simp only [Volume.add, Function.update_self] at place sameHdr
    have hdr_eq : fs'.volume.hdr j =
        FileHeader.fetchFrom sector (hdr.writeBack sector fs.disk) := by
      simp only [volume, FileHeader.fetchFrom] at entry place ⊢
      rw [entry, place, others sector sectorNew]
    rw [hdr_eq]
    exact fetched.trans sameHdr
  · simp only [Volume.add, Function.update_of_ne new] at inUse place sameHdr
    rw [used] at inUse
    obtain ⟨notSystem, -, marked⟩ := sh.laid.sector_spec low high inUse.symm
    have notNew : shadow.volume.sector j ≠ sector := by
      intro equal
      exact created.fresh.unmarked sector .header (equal ▸ marked)
    apply sh.hdr_kept low high inUse.symm (entry.trans place) _ sameHdr
    rw [others _ notSystem]
    exact FileHeader.writeBack_other hdr fs.disk notNew

/-- Both systems after the steps with which `Create` succeeds. -/
theorem Shadow.created (sh : fs.Shadow shadow) {heap heap' name : Memory}
    {size i sector : Int} {directory : Directory} {hdr hdr' : FileHeader} {freeMap : BitMap}
    (created : Created shadow name size i sector hdr' shadow')
    (tableSize : directory.tableSize = numDirEntries) (numBits : freeMap.numBits = numSectors)
    (fetched : (FileHeader.fetchFrom sector
      (hdr.writeBack sector fs.disk)).clamped.SameFile hdr')
    (its : shadow' = { shadow with
      disk := freeMap.writeBack shadow.freeMapFile heap'
        (directory.writeBack shadow.directoryFile heap (hdr'.writeBack sector shadow.disk)) })
    (mine : fs' = { fs with
      disk := freeMap.writeBack fs.freeMapFile heap'
        (directory.writeBack fs.directoryFile heap (hdr.writeBack sector fs.disk)) }) :
    fs'.Shadow shadow' := by
  have mapFile : fs.freeMapFile.hdr.Describes 128 2 1 := sh.mapFile ▸ sh.laid.mapFile
  have dirFile : fs.directoryFile.hdr.Describes 200 3 2 := sh.dirFile ▸ sh.laid.dirFile
  have range := created.fresh.range sector .header
  have sectorNew := sh.laid.not_system range.1 (created.fresh.unmarked sector .header)
  have headers : Disk.SystemSame (hdr.writeBack sector fs.disk)
      (hdr'.writeBack sector shadow.disk) := by
    intro s low high
    rw [FileHeader.writeBack_other hdr _ (by omega),
      FileHeader.writeBack_other hdr' _ (by omega)]
    exact sh.system s low high
  have system : fs'.disk.SystemSame shadow'.disk := by
    rw [its, mine, sh.mapFile, sh.dirFile]
    exact BitMap.writeBack_systemSame mapFile
      (Directory.writeBack_systemSame dirFile headers tableSize heap) numBits heap'
  have sameDir : shadow'.directoryFile = fs'.directoryFile := by
    rw [its, mine]
    exact sh.dirFile
  refine ⟨created.laid, ?_, sameDir, system, ?_⟩
  · rw [its, mine]
    exact sh.mapFile
  · intro j low high used
    have others : ∀ s, 5 ≤ s → fs'.disk s = hdr.writeBack sector fs.disk s := by
      intro s least
      rw [mine]
      dsimp only
      rw [BitMap.writeBack_other mapFile numBits _ _ (by omega),
        Directory.writeBack_other dirFile tableSize _ _ (by omega) (by omega)]
    exact sh.hdr_created created system sameDir others fetched low high used

/-- `Create` of a system that has a shadow, with a size that fits or is
negative. -/
theorem Shadow.create (sh : fs.Shadow shadow) (heap : Nat → Memory) (name : Memory)
    {initialSize : Int} (int : -2 ^ 31 ≤ initialSize) (small : initialSize ≤ maxFileSize) :
    ∃ shadow', shadow.create heap name (max initialSize 0) =
        ((fs.create heap name initialSize).1, shadow') ∧
      (fs.create heap name initialSize).2.Shadow shadow' := by
  have nonneg : 0 ≤ max initialSize 0 := by omega
  have fits : max initialSize 0 ≤ maxFileSize := by
    simp only [maxFileSize] at *
    omega
  have allocates := FileHeader.allocate_max (.ofMemory (heap 2))
    (fs.fetchFreeMap (heap 1)).find.2 initialSize
  rcases outcome : shadow.create heap name (max initialSize 0) with ⟨success, shadow'⟩
  cases success with
  | false =>
      rcases mine : fs.create heap name initialSize with ⟨success, fs'⟩
      cases success with
      | false =>
          rw [create_eq_false mine, create_eq_false outcome]
          exact ⟨shadow, rfl, sh⟩
      | true =>
          -- what `Create` found here, the shadow finds as well
          obtain ⟨sector, directory, hdr, freeMap, found, real, added, allocation, -⟩ :=
            create_eq_true mine
          rw [allocation, Option.map_some, Option.map_eq_some_iff] at allocates
          obtain ⟨⟨hdr', freeMap'⟩, allocation', -⟩ := allocates
          rw [← sh.fetchFreeMap_eq] at found allocation'
          rw [← sh.fetchDirectory_eq] at added
          rw [create_eq_of found real added allocation'] at outcome
          cases outcome
  | true =>
      obtain ⟨i, sector, hdr', freeMap', find, allocation', -, created⟩ :=
        sh.laid.created_stored nonneg fits outcome
      obtain ⟨place, directory, shadowHdr, shadowMap, found, real, added, allocation, result⟩ :=
        create_eq_true outcome
      rw [find] at found allocation
      dsimp only at found allocation
      subst found
      obtain ⟨rfl, rfl⟩ := Prod.mk.inj (Option.some.inj (allocation.symm.trans allocation'))
      rw [sh.fetchFreeMap_eq] at find allocation
      rw [find] at allocates
      dsimp only at allocates
      rw [allocation, Option.map_some, eq_comm, Option.map_eq_some_iff] at allocates
      obtain ⟨⟨hdr, freeMap⟩, mine, rfl⟩ := allocates
      dsimp only at allocation result
      rw [sh.fetchDirectory_eq] at added
      have tableSize : directory.tableSize = numDirEntries := by
        obtain ⟨-, -, -, -, -, rfl⟩ := Directory.add_eq_some added
        rw [Directory.setEntry_tableSize, fetchDirectory_tableSize]
      have numBits : freeMap.numBits = numSectors := by
        obtain ⟨-, -, allocated⟩ := FileHeader.allocate_spec nonneg fits allocation
        rw [allocated.numBits, BitMap.mark_numBits, fetchFreeMap_numBits]
      have storable : shadowHdr.Storable :=
        ⟨created.fresh.sound, fun k kLow kHigh => created.fresh.range _ (.data k kLow kHigh)⟩
      have fetched := FileHeader.allocate_fetched int mine allocation storable sector fs.disk
      have run : fs.create heap name initialSize = (true, { fs with
          disk := freeMap.writeBack fs.freeMapFile (heap 4)
            (directory.writeBack fs.directoryFile (heap 3)
              (hdr.writeBack sector fs.disk)) }) := by
        apply create_eq_of _ real added
        · rw [find]
          exact mine
        · rw [find]
      rw [run]
      exact ⟨shadow', rfl, sh.created created tableSize numBits fetched result rfl⟩

theorem Shadow.findIndex_eq (sh : fs.Shadow shadow) (name : Memory) :
    fs.directory.findIndex name = shadow.directory.findIndex name := by
  have size : fs.directory.tableSize = shadow.directory.tableSize := rfl
  apply Directory.findIndex_congr size
  intro i low high
  exact sh.entry low high

/-- The headers of the files that are left once both systems have lost one. -/
theorem Shadow.hdr_removed (sh : fs.Shadow shadow) {name : Memory} {i : Int}
    (removed : Removed shadow name i shadow') (system : fs'.disk.SystemSame shadow'.disk)
    (dirFile : shadow'.directoryFile = fs'.directoryFile)
    (others : ∀ s, 5 ≤ s → fs'.disk s = fs.disk s) {j : Int} (low : 0 ≤ j) (high : j < 10)
    (used : shadow'.volume.inUse j = true) :
    (fs'.volume.hdr j).clamped.SameFile (shadow'.volume.hdr j) := by
  have entry : fs'.directory.sector j = shadow'.volume.sector j :=
    (removed.laid.directory_same (dirFile ▸ removed.laid.dirFile)
      (fun s sLow sHigh => (system s sLow sHigh).symm) low high).sector
  have left := (removed.volume.inUse j low high).symm.trans used
  have place := removed.volume.sector j low high left
  have sameHdr := removed.volume.hdr j low high left
  have other : j ≠ i := by
    rintro rfl
    simp [Volume.drop] at left
  have before : shadow.volume.inUse j = true := by
    simpa [Volume.drop, other] using left
  obtain ⟨notSystem, -, -⟩ := sh.laid.sector_spec low high before
  exact sh.hdr_kept low high before (entry.trans place) (others _ notSystem) sameHdr

/-- `Remove` of a system that has a shadow. -/
theorem Shadow.remove (sh : fs.Shadow shadow) (heap : Nat → Memory) (name : Memory) :
    (fs.directory.findIndex name = -1 ∧ fs.remove heap name = some (false, fs)) ∨
      ∃ i fs' shadow', fs.remove heap name = some (true, fs') ∧
        shadow.Removed name i shadow' ∧
        (∀ j, 0 ≤ j → j < 10 → j ≠ i →
          Directory.SameEntry shadow.directory shadow'.directory j) ∧
        fs'.Shadow shadow' := by
  rcases shadow.directory.findIndex_cases name with ⟨absent, -⟩ | ⟨low, -, -⟩
  · left
    refine ⟨(sh.findIndex_eq name).trans absent, ?_⟩
    rcases sh.laid.find_cases (heap 0) name with lookup | ⟨i, index, iLow, -⟩
    · unfold FileSystem.remove
      rw [← sh.fetchDirectory_eq]
      exact if_pos lookup.2
    · omega
  · right
    obtain ⟨freeMap', shadow', gone, stored, removed⟩ :=
      sh.laid.removed_stored heap rfl low
    obtain ⟨high, used, found, smaller, freeMap, deallocated, numBits, -⟩ :=
      sh.laid.remove_steps heap rfl low
    generalize shadow.directory.findIndex name = i at *
    obtain ⟨notSystem, inRange, -⟩ := sh.laid.sector_spec low high used
    have result := gone.symm.trans (remove_eq_of found (by omega) inRange deallocated smaller)
    have its := (Prod.mk.inj (Option.some.inj result)).2
    have place : fs.directory.sector i = shadow.volume.sector i := (sh.entry low high).sector
    have mine : (FileHeader.fetchFrom (shadow.volume.sector i) fs.disk).deallocate
        (fs.fetchFreeMap (heap 1)) = some freeMap := by
      rw [← place, ← sh.fetchFreeMap_eq, ← deallocated]
      exact (FileHeader.deallocate_congr (sh.hdr i low high used) _).symm
    rw [sh.fetchDirectory_eq] at found smaller
    have tableSize : ((fs.fetchDirectory (heap 0)).setInUse i false).tableSize =
        numDirEntries := by
      rw [Directory.setInUse_tableSize, fetchDirectory_tableSize]
    have mapFile : fs.freeMapFile.hdr.Describes 128 2 1 := sh.mapFile ▸ sh.laid.mapFile
    have dirFile : fs.directoryFile.hdr.Describes 200 3 2 := sh.dirFile ▸ sh.laid.dirFile
    have run := remove_eq_of found (by omega) inRange mine smaller
    generalize after : ({ fs with disk := _ } : FileSystem) = fs' at run
    have sameDir : shadow'.directoryFile = fs'.directoryFile := by
      rw [its, ← after]
      exact sh.dirFile
    have cleared : (freeMap.clear (shadow.volume.sector i)).numBits = numSectors := numBits
    have system : fs'.disk.SystemSame shadow'.disk := by
      rw [its, ← after]
      dsimp only
      rw [sh.mapFile, sh.dirFile, sh.fetchDirectory_eq]
      exact Directory.writeBack_systemSame dirFile
        (BitMap.writeBack_systemSame mapFile sh.system cleared (heap 2)) tableSize (heap 3)
    refine ⟨i, fs', shadow', run, removed, ?_, removed.laid, ?_, sameDir, system, ?_⟩
    · intro j jLow jHigh other
      exact sh.laid.stored_entry stored jLow jHigh (Directory.setInUse_other _ _ other)
    · rw [its, ← after]
      exact sh.mapFile
    · intro j jLow jHigh stillUsed
      apply sh.hdr_removed removed system sameDir _ jLow jHigh stillUsed
      intro s least
      rw [← after]
      dsimp only
      rw [Directory.writeBack_other dirFile tableSize _ _ (by omega) (by omega),
        BitMap.writeBack_other mapFile cleared _ _ (by omega)]

/-- A change that spares the system sectors and the headers. -/
theorem Shadow.keep (sh : fs.Shadow shadow) {disk : Disk}
    (system : ∀ s, 0 ≤ s → s < 5 → disk s = fs.disk s)
    (headers : ∀ i, 0 ≤ i → i < 10 → shadow.volume.inUse i = true →
      disk (shadow.volume.sector i) = fs.disk (shadow.volume.sector i)) :
    Shadow { fs with disk := disk } shadow where
  laid := sh.laid
  mapFile := sh.mapFile
  dirFile := sh.dirFile
  system s low high := by
    dsimp only
    rw [system s low high]
    exact sh.system s low high
  hdr i low high used := by
    have dirFile : fs.directoryFile.hdr.Describes 200 3 2 := sh.dirFile ▸ sh.laid.dirFile
    have entry := (@Laid.directory_same shadow { fs with disk := disk } sh.laid dirFile
      (fun s sLow sHigh => (system s sLow sHigh).trans (sh.system s sLow sHigh).symm)
      i low high).sector
    exact sh.hdr_kept low high used entry (headers i low high used) (.refl _)

/-- Mounting a disk that has a shadow. -/
theorem Shadow.mount (sh : fs.Shadow shadow) :
    Shadow (FileSystem.mount fs.disk) (FileSystem.mount shadow.disk) := by
  have dirHdr : (FileSystem.mount fs.disk).directoryFile.hdr.Describes 200 3 2 := by
    have same := sh.system 1 (by decide) (by decide)
    simp only [FileSystem.mount, OpenFile.openAt, FileHeader.fetchFrom, ← same]
    exact sh.laid.dirHdr
  have volume := sh.laid.volume_same sh.laid.mount.mapFile sh.laid.mount.dirFile
    (fun _ _ _ => rfl) (fun _ _ _ _ => rfl)
  refine ⟨sh.laid.mount, ?_, ?_, sh.system, ?_⟩
  · simp only [FileSystem.mount, OpenFile.openAt, FileHeader.fetchFrom,
      sh.system 0 (by decide) (by decide)]
  · simp only [FileSystem.mount, OpenFile.openAt, FileHeader.fetchFrom,
      sh.system 1 (by decide) (by decide)]
  · intro i low high used
    have before := (volume.inUse i low high).symm.trans used
    have entry := (@Laid.directory_same shadow (FileSystem.mount fs.disk) sh.laid dirHdr
      (fun s sLow sHigh => (sh.system s sLow sHigh).symm) i low high).sector
    exact sh.hdr_kept low high before entry rfl (volume.hdr i low high before)

/-- `Open` of a system that has a shadow finds a file of the shadow. -/
theorem Shadow.openFile_has (sh : fs.Shadow shadow) {heap name : Memory}
    {file : OpenFile} (opened : fs.openFile heap name = some file) :
    shadow.volume.Has ((fs.fetchDirectory heap).find name) file.hdr.clamped := by
  rcases sh.laid.find_cases heap name with absent | ⟨i, -, low, high, used, found⟩
  · rw [openFile, ← sh.fetchDirectory_eq, absent.2] at opened
    cases opened
  · obtain ⟨notSystem, -, -⟩ := sh.laid.sector_spec low high used
    have place : fs.directory.sector i = shadow.volume.sector i := (sh.entry low high).sector
    rw [openFile, ← sh.fetchDirectory_eq, found, if_pos (by omega)] at opened
    obtain rfl := Option.some.inj opened
    refine ⟨i, low, high, used, ?_, ?_⟩
    · rw [← sh.fetchDirectory_eq, found]
    · have same := sh.hdr i low high used
      simp only [volume, place] at same
      exact same.symm

/-- A change that spares the system sectors and the header and the data of a
file. -/
theorem Shadow.contents_keep (sh : fs.Shadow shadow) {disk : Disk} {i : Int}
    (system : ∀ s, 0 ≤ s → s < 5 → disk s = fs.disk s) (low : 0 ≤ i) (high : i < 10)
    (used : shadow.volume.inUse i = true)
    (header : disk (shadow.volume.sector i) = fs.disk (shadow.volume.sector i))
    (data : ∀ j, 0 ≤ j → j < (shadow.volume.hdr i).numSectors →
      disk ((shadow.volume.hdr i).dataSectors j) =
        fs.disk ((shadow.volume.hdr i).dataSectors j)) :
    ({ fs with disk := disk } : FileSystem).contents i = fs.contents i := by
  have dirFile : fs.directoryFile.hdr.Describes 200 3 2 := sh.dirFile ▸ sh.laid.dirFile
  have entry := (@Laid.directory_same shadow { fs with disk := disk } sh.laid dirFile
    (fun s sLow sHigh => (system s sLow sHigh).trans (sh.system s sLow sHigh).symm)
    i low high).sector
  have sound := sh.laid.valid.sound i low high used
  have same := sh.hdr i low high used
  have bytes : (shadow.volume.hdr i).numBytes = max (fs.volume.hdr i).numBytes 0 :=
    same.numBytes
  unfold contents Memory.toList
  rw [sh.hdr_eq low high entry header]
  apply List.map_congr_left
  intro k member
  have bound := List.mem_range.mp member
  have sector := @FileHeader.Sound.sector_lt _ sound k (by omega)
  have nonneg : 0 ≤ (k : Int) / sectorSize := by
    simp only [sectorSize]
    omega
  have kept := data _ nonneg sector
  rw [same.dataSectors _ nonneg (same.numSectors ▸ sector)] at kept
  unfold FileHeader.content
  dsimp only
  exact congrFun kept _

end FileSystem

end Nachos
