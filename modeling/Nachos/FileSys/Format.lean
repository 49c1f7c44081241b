/-
Module: Nachos.FileSys.Format
Purpose: The constructor of the file system with `format` TRUE: it never fails
  an assertion, whatever was on disk and in memory before, and the disk it
  leaves is laid out, without files and with 1019 clear sectors.
Trusted boundary: none
Main exports: BitMap.Taken, FileHeader.allocate_taken, FileSystem.Formatted,
  FileSystem.format_formatted
-/
import Nachos.FileSys.Upkeep

namespace Nachos

open Lib

/-! ### Bit maps whose first bits are marked -/

namespace BitMap

/-- Exactly the bits below `k` are marked. -/
structure Taken (k : Int) (b : BitMap) : Prop where
  numBits : b.numBits = numSectors
  test : ∀ s, 0 ≤ s → s < 1024 → b.test s = decide (s < k)
  numClear : b.numClear = 1024 - k

/-- Where no bit is marked, all are clear. -/
theorem numClear_eq_numBits {b : BitMap} (nonneg : 0 ≤ b.numBits)
    (empty : ∀ j, 0 ≤ j → j < b.numBits → b.test j = false) :
    b.numClear = b.numBits := by
  unfold numClear
  rw [List.countP_eq_length.mpr]
  · rw [List.length_range]
    exact Int.toNat_of_nonneg nonneg
  · intro i member
    have bound := List.mem_range.mp member
    simp [empty i (by omega) (by omega)]

theorem construct_taken (heap : Int → BitVec 32) : Taken 0 (construct numSectors heap) := by
  have numBits := construct_numBits numSectors heap
  have empty : ∀ j, 0 ≤ j → j < numSectors → (construct numSectors heap).test j = false :=
    fun j low high => construct_test numSectors heap low high
  refine ⟨numBits, ?_, ?_⟩
  · intro s low high
    rw [empty s low high]
    simp only [Bool.false_eq, decide_eq_false_iff_not]
    omega
  · rw [numClear_eq_numBits]
    · rw [numBits]
      rfl
    · rw [numBits]
      decide
    · rw [numBits]
      exact empty

variable {b : BitMap} {k : Int}

theorem Taken.mark (taken : Taken k b) (low : 0 ≤ k) (high : k < 1024) :
    Taken (k + 1) (b.mark k) := by
  have isClear : b.test k = false := by simp [taken.test k low high]
  refine ⟨taken.numBits, ?_, ?_⟩
  · intro s sLow sHigh
    rw [test_mark, taken.test s sLow sHigh, ← Bool.decide_or]
    apply decide_eq_decide.mpr
    omega
  · rw [numClear_mark low (by rw [taken.numBits]; exact high) isClear, taken.numClear]
    omega

/-- `Find` takes the next bit. -/
theorem Taken.find (taken : Taken k b) (low : 0 ≤ k) (high : k < 1024) :
    b.find = (k, b.mark k) := by
  apply find_of_first low
  · rw [taken.numBits]
    exact high
  · simp [taken.test k low high]
  · intro j jLow jHigh
    simp [taken.test j jLow (by omega), jHigh]

end BitMap

namespace FileHeader

theorem allocateSectors_taken (hdr : FileHeader) {b : BitMap} {k : Int} {count : Nat}
    (taken : b.Taken k) (low : 0 ≤ k) (fits : k + count ≤ 1024) :
    (∀ i : Int, 0 ≤ i → i < count →
        (allocateSectors hdr b count).1.dataSectors i = k + i) ∧
      (allocateSectors hdr b count).2.Taken (k + count) := by
  induction count with
  | zero =>
      refine ⟨?_, by simpa [allocateSectors] using taken⟩
      intro i iLow iHigh
      omega
  | succ count inductionHypothesis =>
      obtain ⟨sectors, takenNext⟩ := inductionHypothesis (by omega)
      have find := takenNext.find (by omega) (by omega)
      have marked := takenNext.mark (by omega) (by omega)
      rw [allocateSectors]
      simp only [find]
      refine ⟨?_, ?_⟩
      · intro i iLow iHigh
        by_cases last : i = count
        · rw [last, Function.update_self]
        · rw [Function.update_of_ne last]
          exact sectors i iLow (by omega)
      · rw [show k + ((count + 1 : Nat) : Int) = k + count + 1 by omega]
        exact marked

/-- `Allocate` on a disk whose first `k` sectors are taken. -/
theorem allocate_taken (heap : FileHeader) (fileSize : Int) {b : BitMap} {k : Int}
    (taken : b.Taken k) (low : 0 ≤ k) (count : Nat)
    (sectors : divRoundUp fileSize sectorSize = count) (fits : k + count ≤ 1024) :
    ∃ hdr b', allocate heap b fileSize = some (hdr, b') ∧
      hdr.Describes fileSize k count ∧ b'.Taken (k + count) := by
  have spec := allocateSectors_taken
    { heap with numBytes := fileSize, numSectors := divRoundUp fileSize sectorSize }
    taken low fits
  have sizes := allocateSectors_sizes
    { heap with numBytes := fileSize, numSectors := divRoundUp fileSize sectorSize } b count
  refine ⟨_, _, ?_, ⟨sizes.1, sizes.2.trans sectors, spec.1⟩, spec.2⟩
  unfold allocate
  dsimp only
  rw [if_neg, sectors, Int.toNat_natCast]
  rw [taken.numClear, sectors]
  omega

end FileHeader

/-! ### The empty volume -/

/-- The constructor leaves no entry in use. -/
theorem Directory.construct_inUse (size : Int) (heap : Memory) {j : Int} (low : 0 ≤ j)
    (high : j < size) : (construct size heap).inUse j = false := by
  have cleared : ∀ (entries : List Nat) (dir : Directory),
      dir.inUse j = false ∨ j.toNat ∈ entries →
      (entries.foldl (fun (dir : Directory) (i : Nat) => dir.setInUse i false)
        dir).inUse j = false := by
    intro entries
    induction entries with
    | nil =>
        rintro dir (unused | absent)
        · exact unused
        · cases absent
    | cons entry entries inductionHypothesis =>
        intro dir premise
        apply inductionHypothesis (dir.setInUse entry false)
        by_cases same : j = entry
        · left
          rw [same]
          exact setInUse_inUse dir entry false
        · rw [(setInUse_other dir false same).inUse]
          rcases premise with unused | member
          · exact .inl unused
          · rcases List.mem_cons.mp member with here | later
            · omega
            · exact .inr later
  exact cleared _ _ (.inr (List.mem_range.mpr (by omega)))

/-- Without files the system sectors are the only ones with an owner. -/
theorem Volume.Valid.of_empty {v : Volume}
    (empty : ∀ i, 0 ≤ i → i < 10 → v.inUse i = false)
    (marked : ∀ s, 0 ≤ s → s < 1024 → (v.marked s ↔ s < 5)) : v.Valid := by
  have system : ∀ o s, v.Owns o s → o = .system s ∧ 0 ≤ s ∧ s < 5 := by
    intro o s owns
    cases o with
    | system n =>
        obtain ⟨low, high, rfl⟩ := owns
        exact ⟨rfl, low, high⟩
    | header i =>
        obtain ⟨low, high, used, -⟩ := owns
        rw [empty i low high] at used
        cases used
    | data i j =>
        obtain ⟨low, high, used, -⟩ := owns
        rw [empty i low high] at used
        cases used
  refine ⟨?_, ?_, ?_, ?_⟩
  · intro o s owns
    have spec := (system o s owns).2
    exact ⟨spec.1, by omega⟩
  · intro o o' s owns owns'
    rw [(system o s owns).1, (system o' s owns').1]
  · intro s low high
    rw [marked s low high]
    constructor
    · intro small
      exact ⟨.system s, low, small, rfl⟩
    · rintro ⟨o, owns⟩
      exact (system o s owns).2.2
  · intro i low high used
    rw [empty i low high] at used
    cases used

/-! ### The constructor -/

namespace FileSystem

/-- A disk without files. -/
structure Formatted (fs : FileSystem) : Prop where
  laid : fs.Laid
  empty : ∀ i, 0 ≤ i → i < 10 → fs.volume.inUse i = false
  numClear : fs.freeMap.numClear = 1019

/-- The two headers that the constructor writes are those that it then opens. -/
theorem mount_headers {mapHdr dirHdr : FileHeader} (isMap : mapHdr.Describes 128 2 1)
    (isDir : dirHdr.Describes 200 3 2) (disk : Disk) :
    (FileHeader.fetchFrom 0 (dirHdr.writeBack 1 (mapHdr.writeBack 0 disk))).Describes
        128 2 1 ∧
      (FileHeader.fetchFrom 1 (dirHdr.writeBack 1 (mapHdr.writeBack 0 disk))).Describes
        200 3 2 := by
  have mapStorable := isMap.storable isMap.map_sound (by decide) (by decide)
  have dirStorable := isDir.storable isDir.dir_sound (by decide) (by decide)
  refine ⟨?_, (dirStorable.fetchFrom_writeBack 1 _).describes isDir⟩
  have kept : dirHdr.writeBack 1 (mapHdr.writeBack 0 disk) 0 = mapHdr.writeBack 0 disk 0 :=
    FileHeader.writeBack_other dirHdr _ (by decide)
  have back := mapStorable.fetchFrom_writeBack 0 disk
  unfold FileHeader.fetchFrom at back ⊢
  rw [kept]
  exact back.describes isMap

/-- An empty directory and a free map with the system sectors on disk. -/
theorem Stored.formatted {fs : FileSystem} {start : Disk} {dir : Directory} {b : BitMap}
    (stored : Stored start dir b fs)
    (unused : ∀ i, 0 ≤ i → i < 10 → dir.inUse i = false) (taken : b.Taken 5)
    (mapFile : fs.freeMapFile.hdr.Describes 128 2 1)
    (dirFile : fs.directoryFile.hdr.Describes 200 3 2)
    (mapHdr : (FileHeader.fetchFrom 0 start).Describes 128 2 1)
    (dirHdr : (FileHeader.fetchFrom 1 start).Describes 200 3 2) : fs.Formatted := by
  have empty : ∀ i, 0 ≤ i → i < 10 → fs.volume.inUse i = false := by
    intro i low high
    exact (stored.entry i low high).inUse.trans (unused i low high)
  have test : ∀ s, 0 ≤ s → s < 1024 → fs.freeMap.test s = decide (s < 5) := by
    intro s low high
    rw [stored.test s low high, taken.test s low high]
  have valid : fs.volume.Valid := by
    apply Volume.Valid.of_empty empty
    intro s low high
    simp only [FileSystem.volume, test s low high, decide_eq_true_eq]
  have numClear : fs.freeMap.numClear = b.numClear := by
    apply BitMap.numClear_congr
    · exact taken.numBits.symm
    · intro s low high
      rw [taken.numBits] at high
      exact stored.test s low high
  refine ⟨⟨mapFile, dirFile, ?_, ?_, valid⟩, empty, numClear.trans taken.numClear⟩
  · unfold FileHeader.fetchFrom at mapHdr ⊢
    rw [stored.other 0 (by decide) (by decide) (by decide)]
    exact mapHdr
  · unfold FileHeader.fetchFrom at dirHdr ⊢
    rw [stored.other 1 (by decide) (by decide) (by decide)]
    exact dirHdr

/-- Formatting succeeds. -/
theorem format_formatted (heap : Nat → Memory) (disk : Disk) :
    ∃ fs, format heap disk = some fs ∧ fs.Formatted := by
  have empty := BitMap.construct_taken (newWords (heap 0))
  have reserved : BitMap.Taken 2 (((BitMap.construct numSectors (newWords (heap 0))).mark
      freeMapSector).mark directorySector) :=
    (empty.mark (by decide) (by decide)).mark (by decide) (by decide)
  obtain ⟨mapHdr, afterMap, mapAllocated, isMap, mapTaken⟩ :=
    FileHeader.allocate_taken (.ofMemory (heap 2)) 128 reserved (by decide) 1 (by decide)
      (by decide)
  obtain ⟨dirHdr, afterDir, dirAllocated, isDir, dirTaken⟩ :=
    FileHeader.allocate_taken (.ofMemory (heap 3)) 200 mapTaken (by decide) 2 (by decide)
      (by decide)
  obtain ⟨mapStored, dirStored⟩ := mount_headers isMap isDir disk
  generalize written : dirHdr.writeBack 1 (mapHdr.writeBack 0 disk) = start at *
  have stored := @stored_dir_last (mount start) mapStored dirStored _ _
    (Directory.construct_tableSize numDirEntries (heap 1)) dirTaken.numBits (heap 4)
    (heap 5) start
  have run : format heap disk = some { mount start with
      disk := (Directory.construct numDirEntries (heap 1)).writeBack
        (mount start).directoryFile (heap 5)
        (afterDir.writeBack (mount start).freeMapFile (heap 4) start) } := by
    unfold format
    simp only [mapAllocated, dirAllocated, Option.bind_eq_bind, Option.bind_some, written]
    rfl
  refine ⟨_, run, ?_⟩
  apply stored.formatted
  · intro i low high
    exact Directory.construct_inUse numDirEntries (heap 1) low high
  · exact dirTaken
  · exact mapStored
  · exact dirStored
  · exact mapStored
  · exact dirStored

/-! ### A disk without files -/

section

variable {fs : FileSystem} (spec : fs.Formatted)

include spec

theorem Formatted.absent (name : Memory) : fs.directory.findIndex name = -1 := by
  rcases spec.laid.find_cases (fun _ => 0) name with absent | ⟨i, -, low, high, used, -⟩
  · exact absent.1
  · rw [spec.empty i low high] at used
    cases used

/-- Exactly the system sectors are marked. -/
theorem Formatted.taken : fs.freeMap.Taken 5 := by
  refine ⟨rfl, ?_, spec.numClear⟩
  intro s low high
  rw [Bool.eq_iff_iff, decide_eq_true_eq]
  have marked := spec.laid.valid.marked s low high
  constructor
  · intro test
    obtain ⟨o, owns⟩ := marked.mp test
    cases o with
    | system n =>
        obtain ⟨-, bound, rfl⟩ := owns
        exact bound
    | header i =>
        have unused := spec.empty i owns.1 owns.2.1
        rw [owns.2.2.1] at unused
        cases unused
    | data i j =>
        have unused := spec.empty i owns.1 owns.2.1
        rw [owns.2.2.1] at unused
        cases unused
  · intro bound
    exact marked.mpr ⟨.system s, low, bound, rfl⟩

/-- A first file of any size can be created. -/
theorem Formatted.create_first (heap : Nat → Memory) (name : Memory) (initialSize : Int)
    (nonneg : 0 ≤ initialSize) (small : initialSize ≤ maxFileSize) :
    ∃ fs', fs.create heap name initialSize = (true, fs') := by
  have room : 1 + divRoundUp initialSize sectorSize ≤ fs.freeMap.numClear := by
    rw [spec.numClear, divRoundUp_eq nonneg]
    simp only [sectorSize, maxFileSize] at *
    omega
  exact spec.laid.create_succeeds heap nonneg (spec.absent name) (by decide) (by decide)
    (spec.empty 0 (by decide) (by decide)) room

end

end FileSystem

end Nachos
