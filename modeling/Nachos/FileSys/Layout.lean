/-
Module: Nachos.FileSys.Layout
Purpose: The disk of a file system is laid out as a valid volume: the free map
  is in sector 2 and the directory in sectors 3 and 4, and what the two say
  with the headers on disk is a volume in which every sector has at most one
  owner.  What is written back there is what is fetched, and disks that agree
  on these sectors hold the same volume.
Trusted boundary: none
Main exports: FileHeader.Describes, FileSystem.directory, FileSystem.freeMap,
  FileSystem.volume, FileSystem.Laid
-/
import Nachos.FileSys.FileSystem
import Nachos.FileSys.Volume

namespace Nachos

open Lib

/-! ### Headers on disk -/

namespace FileHeader

/-- A file of `numBytes` bytes in the `count` sectors from `first` on. -/
structure Describes (hdr : FileHeader) (numBytes first count : Int) : Prop where
  numBytes : hdr.numBytes = numBytes
  numSectors : hdr.numSectors = count
  dataSectors : ∀ i, 0 ≤ i → i < count → hdr.dataSectors i = first + i

theorem Describes.sound {hdr : FileHeader} {numBytes first count : Int}
    (describes : hdr.Describes numBytes first count) (nonneg : 0 ≤ numBytes)
    (enough : count = divRoundUp numBytes sectorSize) (fits : count ≤ numDirect) :
    hdr.Sound where
  nonneg := describes.numBytes ▸ nonneg
  enough := by rw [describes.numSectors, describes.numBytes, enough]
  fits := describes.numSectors ▸ fits
  distinct i j low high low' high' same := by
    rw [describes.numSectors] at high high'
    rw [describes.dataSectors i low high, describes.dataSectors j low' high'] at same
    omega

theorem SameFile.describes {hdr hdr' : FileHeader} {numBytes first count : Int}
    (same : hdr.SameFile hdr') (describes : hdr.Describes numBytes first count) :
    hdr'.Describes numBytes first count where
  numBytes := same.numBytes.trans describes.numBytes
  numSectors := same.numSectors.trans describes.numSectors
  dataSectors i low high := by
    rw [same.dataSectors i low (describes.numSectors ▸ high)]
    exact describes.dataSectors i low high

/-- The bytes of a file in consecutive sectors. -/
theorem Describes.content {hdr : FileHeader} {numBytes first count : Int}
    (describes : hdr.Describes numBytes first count) (disk : Disk) {i : Int}
    (low : 0 ≤ i) (high : i < count * sectorSize) :
    hdr.content disk i = disk (first + i / sectorSize) (i % sectorSize) := by
  unfold FileHeader.content
  simp only [sectorSize] at *
  rw [describes.dataSectors (i / 128) (by omega) (by omega)]

/-- They depend only on these sectors. -/
theorem Describes.content_congr {hdr hdr' : FileHeader} {numBytes first count : Int}
    (describes : hdr.Describes numBytes first count)
    (describes' : hdr'.Describes numBytes first count) {disk disk' : Disk}
    (same : ∀ s, first ≤ s → s < first + count → disk' s = disk s) {i : Int}
    (low : 0 ≤ i) (high : i < count * sectorSize) :
    hdr'.content disk' i = hdr.content disk i := by
  rw [describes'.content disk' low high, describes.content disk low high]
  simp only [sectorSize] at *
  rw [same (first + i / 128) (by omega) (by omega)]

/-- A header whose fields fit into words and whose table into its sector. -/
structure Storable (hdr : FileHeader) : Prop where
  sound : hdr.Sound
  range : ∀ i, 0 ≤ i → i < hdr.numSectors →
    0 ≤ hdr.dataSectors i ∧ hdr.dataSectors i < Nachos.numSectors

theorem Describes.storable {hdr : FileHeader} {numBytes first count : Int}
    (describes : hdr.Describes numBytes first count) (sound : hdr.Sound)
    (low : 0 ≤ first) (high : first + count ≤ Nachos.numSectors) : hdr.Storable := by
  refine ⟨sound, ?_⟩
  intro i iLow iHigh
  rw [describes.numSectors] at iHigh
  rw [describes.dataSectors i iLow iHigh]
  omega

theorem Sound.numSectors_nonneg {hdr : FileHeader} (sound : hdr.Sound) :
    0 ≤ hdr.numSectors := by
  have nonneg := sound.nonneg
  rw [sound.enough, divRoundUp_eq nonneg]
  simp only [sectorSize]
  omega

/-- A word of a stored header. -/
theorem getWord_field {hdr : FileHeader} {bytes : Memory}
    (agree : Memory.Agree sectorSize bytes hdr.toMemory) {w : Int} (low : 0 ≤ w)
    (high : w < 32) : bytes.getWord (4 * w) = BitVec.ofInt 32 (hdr.field w) := by
  rw [← Memory.getWord_ofWords (fun w => BitVec.ofInt 32 (hdr.field w)) w]
  apply Memory.getWord_congr
  intro i iLow iHigh
  simp only [sectorSize] at agree
  exact agree i (by omega) (by omega)

/-- A header whose sectors have numbers that are words reads back as it was
stored. -/
theorem Sound.sameFile {hdr : FileHeader} (sound : hdr.Sound)
    (words : ∀ i, 0 ≤ i → i < hdr.numSectors →
      -2 ^ 31 ≤ hdr.dataSectors i ∧ hdr.dataSectors i < 2 ^ 31) {bytes : Memory}
    (agree : Memory.Agree sectorSize bytes hdr.toMemory) :
    hdr.SameFile (ofMemory bytes) := by
  have nonneg := sound.nonneg
  have bound := sound.numBytes_le
  have sectors := sound.numSectors_nonneg
  have fits := sound.fits
  simp only [maxFileSize, numDirect] at bound fits
  refine ⟨?_, ?_, ?_⟩
  · have word := getWord_field agree (w := 0) (by omega) (by omega)
    simp only [ofMemory]
    rw [show (0 : Int) = 4 * 0 from rfl, word]
    exact toInt_ofInt_eq (by simp [field]; omega) (by simp [field]; omega)
  · have word := getWord_field agree (w := 1) (by omega) (by omega)
    simp only [ofMemory]
    rw [show (4 : Int) = 4 * 1 from rfl, word]
    exact toInt_ofInt_eq (by simp [field]; omega) (by simp [field]; omega)
  · intro i low high
    have word := getWord_field agree (w := i + 2) (by omega) (by omega)
    have field_eq : hdr.field (i + 2) = hdr.dataSectors i := by
      rw [field, if_neg (by omega), if_neg (by omega), show i + 2 - 2 = i by omega]
    simp only [ofMemory]
    rw [show 8 + 4 * i = 4 * (i + 2) by omega, word, field_eq]
    exact toInt_ofInt_eq (words i low high).1 (words i low high).2

/-- `WriteBack` then `FetchFrom`. -/
theorem Sound.fetchFrom_writeBack {hdr : FileHeader} (sound : hdr.Sound)
    (words : ∀ i, 0 ≤ i → i < hdr.numSectors →
      -2 ^ 31 ≤ hdr.dataSectors i ∧ hdr.dataSectors i < 2 ^ 31)
    (sector : Int) (disk : Disk) :
    hdr.SameFile (fetchFrom sector (hdr.writeBack sector disk)) := by
  apply sound.sameFile words
  unfold writeBack Disk.writeSector
  rw [Function.update_self]
  exact Memory.agree_copy _ _ _

theorem Storable.fetchFrom_writeBack {hdr : FileHeader} (storable : hdr.Storable)
    (sector : Int) (disk : Disk) :
    hdr.SameFile (fetchFrom sector (hdr.writeBack sector disk)) := by
  apply storable.sound.fetchFrom_writeBack
  intro i low high
  have range := storable.range i low high
  simp only [Nachos.numSectors] at range
  omega

theorem writeBack_other (hdr : FileHeader) {sector other : Int} (disk : Disk)
    (different : other ≠ sector) : hdr.writeBack sector disk other = disk other :=
  Function.update_of_ne different _ _

end FileHeader

/-! ### The directory and the free map on disk -/

/-- Writing a whole file. -/
theorem OpenFile.writeAt_whole {file : OpenFile} (sound : file.hdr.Sound)
    (disk : Disk) (heap source : Memory) (positive : 0 < file.hdr.numBytes) {i : Int}
    (low : 0 ≤ i) (high : i < file.hdr.numBytes) :
    file.hdr.content (file.writeAt disk heap source file.hdr.numBytes 0).2 i =
      source i := by
  have bound := sound.numBytes_le
  simp only [maxFileSize] at bound
  rw [writeAt_content sound heap source (by omega) positive (by omega) (by omega) low high,
    if_pos (by omega), Int.sub_zero]

theorem Directory.construct_tableSize (size : Int) (heap : Memory) :
    (construct size heap).tableSize = size := by
  unfold construct
  generalize List.range size.toNat = entries
  suffices kept : ∀ dir : Directory,
      (entries.foldl (fun (dir : Directory) (i : Nat) => dir.setInUse i false)
        dir).tableSize = dir.tableSize from kept _
  induction entries with
  | nil =>
      intro dir
      rfl
  | cons entry entries inductionHypothesis =>
      intro dir
      exact (inductionHypothesis (dir.setInUse entry false)).trans rfl

/-- A bit depends on its word. -/
theorem BitMap.test_congr {b b' : BitMap} {s : Int}
    (same : b'.map (s / bitsInWord) = b.map (s / bitsInWord)) : b'.test s = b.test s := by
  unfold test
  rw [same]

namespace FileSystem

/-- The directory in its file. -/
def directory (fs : FileSystem) : Directory where
  tableSize := numDirEntries
  table := fs.directoryFile.hdr.content fs.disk

/-- The free map in its file. -/
def freeMap (fs : FileSystem) : BitMap where
  numBits := numSectors
  map := newWords (fs.freeMapFile.hdr.content fs.disk)

/-- What the disk says. -/
def volume (fs : FileSystem) : Volume where
  inUse := fs.directory.inUse
  sector := fs.directory.sector
  hdr := fun i => .fetchFrom (fs.directory.sector i) fs.disk
  marked := fun s => fs.freeMap.test s = true

/-- The two files of the system are where they were put, their headers are on
disk, and the disk holds a valid volume. -/
structure Laid (fs : FileSystem) : Prop where
  mapFile : fs.freeMapFile.hdr.Describes 128 2 1
  dirFile : fs.directoryFile.hdr.Describes 200 3 2
  mapHdr : (FileHeader.fetchFrom 0 fs.disk).Describes 128 2 1
  dirHdr : (FileHeader.fetchFrom 1 fs.disk).Describes 200 3 2
  valid : fs.volume.Valid

end FileSystem

theorem FileHeader.Describes.map_sound {hdr : FileHeader}
    (describes : hdr.Describes 128 2 1) : hdr.Sound :=
  describes.sound (by decide) rfl (by decide)

theorem FileHeader.Describes.dir_sound {hdr : FileHeader}
    (describes : hdr.Describes 200 3 2) : hdr.Sound :=
  describes.sound (by decide) rfl (by decide)

/-- The table that `FetchFrom` fills. -/
theorem Directory.fetchFrom_table {file : OpenFile} (dirFile : file.hdr.Describes 200 3 2)
    (disk : Disk) {dir : Directory} (size : dir.tableSize = numDirEntries) {i : Int}
    (low : 0 ≤ i) (high : i < 200) :
    (dir.fetchFrom file disk).table i = file.hdr.content disk i := by
  unfold fetchFrom
  rw [size]
  dsimp only
  rw [OpenFile.readAt_eq dirFile.dir_sound _ _ (by decide) (by decide)
    (by rw [dirFile.numBytes]; decide) (by decide), dirFile.numBytes]
  dsimp only
  rw [Memory.copy_inside _ _ low (by simp only [numDirEntries, entrySize]; omega)]
  congr 1
  omega

theorem Directory.fetchFrom_tableSize (file : OpenFile) (disk : Disk)
    (dir : Directory) : (dir.fetchFrom file disk).tableSize = dir.tableSize :=
  rfl

/-- The words that `FetchFrom` fills. -/
theorem BitMap.fetchFrom_map {file : OpenFile} (mapFile : file.hdr.Describes 128 2 1)
    (disk : Disk) {b : BitMap} (size : b.numBits = numSectors) {w : Int} (low : 0 ≤ w)
    (high : w < 32) :
    (b.fetchFrom file disk).map w = FileSystem.newWords (file.hdr.content disk) w := by
  have words : b.numWords * 4 = 128 := by
    unfold numWords
    rw [size]
    decide
  unfold fetchFrom FileSystem.newWords
  rw [words]
  dsimp only
  rw [OpenFile.readAt_eq mapFile.map_sound _ _ (by decide) (by decide)
    (by rw [mapFile.numBytes]; decide) (by decide), mapFile.numBytes]
  apply Memory.getWord_congr
  intro i iLow iHigh
  dsimp only
  rw [Memory.copy_inside _ _ (by omega) (by omega)]
  congr 1
  omega

theorem BitMap.fetchFrom_numBits (file : OpenFile) (disk : Disk) (b : BitMap) :
    (b.fetchFrom file disk).numBits = b.numBits :=
  rfl

namespace FileSystem

variable {fs : FileSystem}

theorem fetchDirectory_tableSize (heap : Memory) (fs : FileSystem) :
    (fs.fetchDirectory heap).tableSize = numDirEntries := by
  rw [fetchDirectory, Directory.fetchFrom_tableSize, Directory.construct_tableSize]

theorem fetchFreeMap_numBits (heap : Memory) (fs : FileSystem) :
    (fs.fetchFreeMap heap).numBits = numSectors := by
  rw [fetchFreeMap, BitMap.fetchFrom_numBits, BitMap.construct_numBits]

theorem Laid.fetched_entry (laid : fs.Laid) (heap : Memory) {i : Int} (low : 0 ≤ i)
    (high : i < 10) : Directory.SameEntry fs.directory (fs.fetchDirectory heap) i := by
  apply Directory.sameEntry_of_agree
  intro offset oLow oHigh
  simp only [entrySize] at oLow oHigh
  rw [fetchDirectory, Directory.fetchFrom_table laid.dirFile fs.disk
    (Directory.construct_tableSize _ _) (by omega) (by omega)]
  rfl

theorem Laid.fetched_test (laid : fs.Laid) (heap : Memory) {s : Int} (low : 0 ≤ s)
    (high : s < 1024) : (fs.fetchFreeMap heap).test s = fs.freeMap.test s := by
  apply BitMap.test_congr
  rw [fetchFreeMap, BitMap.fetchFrom_map laid.mapFile fs.disk
    (BitMap.construct_numBits _ _) (by simp only [bitsInWord]; omega)
    (by simp only [bitsInWord]; omega)]
  rfl

end FileSystem

/-! ### Writing them back -/

theorem Directory.writeBack_content {file : OpenFile}
    (dirFile : file.hdr.Describes 200 3 2) {dir : Directory}
    (size : dir.tableSize = numDirEntries) (heap : Memory) (disk : Disk) {i : Int}
    (low : 0 ≤ i) (high : i < 200) :
    file.hdr.content (dir.writeBack file heap disk) i = dir.table i := by
  have whole : dir.tableSize * entrySize = file.hdr.numBytes := by
    rw [size, dirFile.numBytes]
    rfl
  unfold writeBack
  rw [whole]
  apply OpenFile.writeAt_whole dirFile.dir_sound
  · rw [dirFile.numBytes]
    decide
  · exact low
  · rw [dirFile.numBytes]
    exact high

theorem Directory.writeBack_other {file : OpenFile}
    (dirFile : file.hdr.Describes 200 3 2) {dir : Directory}
    (size : dir.tableSize = numDirEntries) (heap : Memory) (disk : Disk) {s : Int}
    (notFirst : s ≠ 3) (notSecond : s ≠ 4) :
    dir.writeBack file heap disk s = disk s := by
  unfold writeBack
  apply OpenFile.writeAt_other dirFile.dir_sound
  · decide
  · rw [size]
    decide
  · intro i low high
    rw [dirFile.numSectors] at high
    rw [dirFile.dataSectors i low high]
    omega

theorem BitMap.writeBack_content {file : OpenFile}
    (mapFile : file.hdr.Describes 128 2 1) {b : BitMap} (size : b.numBits = numSectors)
    (heap : Memory) (disk : Disk) {i : Int} (low : 0 ≤ i) (high : i < 128) :
    file.hdr.content (b.writeBack file heap disk) i = Memory.ofWords b.map i := by
  have whole : b.numWords * 4 = file.hdr.numBytes := by
    unfold numWords
    rw [size, mapFile.numBytes]
    decide
  unfold writeBack
  rw [whole]
  apply OpenFile.writeAt_whole mapFile.map_sound
  · rw [mapFile.numBytes]
    decide
  · exact low
  · rw [mapFile.numBytes]
    exact high

theorem BitMap.writeBack_other {file : OpenFile} (mapFile : file.hdr.Describes 128 2 1)
    {b : BitMap} (size : b.numBits = numSectors) (heap : Memory) (disk : Disk) {s : Int}
    (different : s ≠ 2) : b.writeBack file heap disk s = disk s := by
  unfold writeBack
  apply OpenFile.writeAt_other mapFile.map_sound
  · decide
  · unfold numWords
    rw [size]
    decide
  · intro i low high
    rw [mapFile.numSectors] at high
    rw [mapFile.dataSectors i low high]
    omega

namespace FileSystem

/-! ### Disks that say the same -/

variable {fs fs' : FileSystem}

/-- The directory that is read from a table on disk. -/
theorem directory_sameEntry {dir : Directory}
    (table : ∀ i, 0 ≤ i → i < 200 →
      fs.directoryFile.hdr.content fs.disk i = dir.table i)
    {i : Int} (low : 0 ≤ i) (high : i < 10) : Directory.SameEntry dir fs.directory i := by
  apply Directory.sameEntry_of_agree
  intro offset oLow oHigh
  simp only [entrySize] at oLow oHigh
  exact table offset (by omega) (by omega)

/-- The free map that is read from words on disk. -/
theorem freeMap_test {b : BitMap}
    (words : ∀ i, 0 ≤ i → i < 128 →
      fs.freeMapFile.hdr.content fs.disk i = Memory.ofWords b.map i)
    {s : Int} (low : 0 ≤ s) (high : s < 1024) : fs.freeMap.test s = b.test s := by
  apply BitMap.test_congr
  simp only [bitsInWord]
  change Memory.getWord (fs.freeMapFile.hdr.content fs.disk) (4 * (s / 32)) = _
  rw [← Memory.getWord_ofWords b.map (s / 32)]
  apply Memory.getWord_congr
  intro i iLow iHigh
  exact words i (by omega) (by omega)

/-- Two systems with their directories at the usual place, on disks where the
system sectors are the same. -/
theorem Laid.directory_same (laid : fs.Laid)
    (dirFile : fs'.directoryFile.hdr.Describes 200 3 2)
    (system : ∀ s, 0 ≤ s → s < 5 → fs'.disk s = fs.disk s) {i : Int} (low : 0 ≤ i)
    (high : i < 10) : Directory.SameEntry fs.directory fs'.directory i := by
  apply directory_sameEntry _ low high
  intro i low high
  apply laid.dirFile.content_congr dirFile _ low
  · simp only [sectorSize]
    omega
  · intro s sLow sHigh
    exact system s (by omega) (by omega)

/-- The same for their free maps. -/
theorem Laid.freeMap_same (laid : fs.Laid)
    (mapFile : fs'.freeMapFile.hdr.Describes 128 2 1)
    (system : ∀ s, 0 ≤ s → s < 5 → fs'.disk s = fs.disk s) {s : Int} (low : 0 ≤ s)
    (high : s < 1024) : fs'.freeMap.test s = fs.freeMap.test s := by
  apply BitMap.test_congr
  apply Memory.getWord_congr
  simp only [bitsInWord]
  intro i iLow iHigh
  apply laid.mapFile.content_congr mapFile _ (by omega)
  · simp only [sectorSize]
    omega
  · intro s sLow sHigh
    exact system s (by omega) (by omega)

/-- A file whose entry and whose header's sector are as before. -/
theorem volume_hdr_same {i : Int}
    (entry : Directory.SameEntry fs.directory fs'.directory i)
    (kept : fs'.disk (fs.volume.sector i) = fs.disk (fs.volume.sector i)) :
    (fs.volume.hdr i).SameFile (fs'.volume.hdr i) := by
  have sector := entry.sector
  simp only [volume, FileHeader.fetchFrom] at kept ⊢
  rw [sector, kept]
  exact .refl _

/-- All that the disks say, when the headers of the files are the same too. -/
theorem Laid.volume_same (laid : fs.Laid)
    (mapFile : fs'.freeMapFile.hdr.Describes 128 2 1)
    (dirFile : fs'.directoryFile.hdr.Describes 200 3 2)
    (system : ∀ s, 0 ≤ s → s < 5 → fs'.disk s = fs.disk s)
    (headers : ∀ i, 0 ≤ i → i < 10 → fs.volume.inUse i = true →
      fs'.disk (fs.volume.sector i) = fs.disk (fs.volume.sector i)) :
    fs.volume.Same fs'.volume := by
  have entry : ∀ i, 0 ≤ i → i < 10 → Directory.SameEntry fs.directory fs'.directory i :=
    fun i low high => laid.directory_same dirFile system low high
  refine ⟨?_, ?_, ?_, ?_⟩
  · intro i low high
    exact (entry i low high).inUse
  · intro i low high _
    exact (entry i low high).sector
  · intro i low high used
    exact volume_hdr_same (entry i low high) (headers i low high used)
  · intro s low high
    simp only [volume, laid.freeMap_same mapFile system low high]

end FileSystem

end Nachos
