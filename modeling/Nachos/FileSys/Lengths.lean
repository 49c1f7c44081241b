/-
Module: Nachos.FileSys.Lengths
Purpose: The lengths of files that filehdr.cc and filesys.cc accept.  Allocate
  asks the free map alone whether there is room, so that it also makes headers
  for negative lengths and for more sectors than the table of a header holds.
Trusted boundary: words of the table have 32 bits; what lies behind the table is
  the memory that the header is in.
Main exports: FileHeader.Suits, FileHeader.suits_iff, lengths_exact
-/
import Nachos.FileSys.Negative

namespace Nachos

open Lib

namespace FileHeader

/-- A new header can describe a file: its sectors hold its bytes, the numbers
of all of them are in the table, and it reads back from its sector as it was
written.  `heap` is what the object held before. -/
structure Suits (heap hdr : FileHeader) : Prop where
  nonneg : 0 ≤ hdr.numBytes
  enough : hdr.numBytes ≤ hdr.numSectors * sectorSize
  sectors : 0 ≤ hdr.numSectors
  fits : hdr.numSectors ≤ numDirect
  /-- no round of the loop has stored outside the table -/
  stores : ∀ i, i < 0 ∨ numDirect ≤ i → hdr.dataSectors i = heap.dataSectors i
  readsBack : ∀ sector disk, hdr.SameFile (fetchFrom sector (hdr.writeBack sector disk))

/-- The loop of `Allocate` stores at the indices that it counts. -/
theorem allocateSectors_outside (hdr : FileHeader) (freeMap : BitMap) {count : Nat} {i : Int}
    (outside : i < 0 ∨ count ≤ i) :
    (allocateSectors hdr freeMap count).1.dataSectors i = hdr.dataSectors i := by
  induction count with
  | zero => rfl
  | succ count inductionHypothesis =>
      exact (Function.update_of_ne (by omega) _ _).trans (inductionHypothesis (by omega))

section

variable {heap hdr : FileHeader} {freeMap freeMap' : BitMap} {fileSize : Int}

/-- What `Allocate` returns when it does not fail. -/
theorem allocate_eq_some (success : allocate heap freeMap fileSize = some (hdr, freeMap')) :
    hdr.numBytes = fileSize ∧ hdr.numSectors = divRoundUp fileSize sectorSize ∧
      ∀ i : Int, i < 0 ∨ (divRoundUp fileSize sectorSize).toNat ≤ i →
        hdr.dataSectors i = heap.dataSectors i := by
  simp only [allocate] at success
  split at success
  · cases success
  · have sizes := allocateSectors_sizes
      { heap with numBytes := fileSize, numSectors := divRoundUp fileSize sectorSize }
      freeMap (divRoundUp fileSize sectorSize).toNat
    have outside (i : Int) (out : i < 0 ∨ (divRoundUp fileSize sectorSize).toNat ≤ i) :=
      allocateSectors_outside
        { heap with numBytes := fileSize, numSectors := divRoundUp fileSize sectorSize }
        freeMap out
    rw [Option.some.inj success] at sizes outside
    exact ⟨sizes.1, sizes.2, outside⟩

/-- A length that the table has room for. -/
theorem suits_of_allocate (words : freeMap.numBits ≤ 2 ^ 31) (nonneg : 0 ≤ fileSize)
    (small : fileSize ≤ maxFileSize)
    (success : allocate heap freeMap fileSize = some (hdr, freeMap')) : heap.Suits hdr := by
  obtain ⟨bytes, sound, allocated⟩ := allocate_spec nonneg small success
  obtain ⟨-, sectors, outside⟩ := allocate_eq_some success
  have enough := divRoundUp_eq nonneg
  have fits := sound.fits
  have start := sound.numSectors_nonneg
  refine
    { nonneg := sound.nonneg
      enough := ?_
      sectors := start
      fits := fits
      stores := ?_
      readsBack := ?_ }
  · rw [bytes, sectors, enough]
    simp only [sectorSize]
    omega
  · intro i out
    apply outside i
    rw [← sectors]
    omega
  · apply sound.fetchFrom_writeBack
    intro i low high
    have range := allocated.range i low high
    omega

/-- A header that `Allocate` has made can describe the file exactly if the
length is one that filehdr.h has in mind. -/
theorem suits_iff (words : freeMap.numBits ≤ 2 ^ 31)
    (success : allocate heap freeMap fileSize = some (hdr, freeMap')) :
    heap.Suits hdr ↔ 0 ≤ fileSize ∧ fileSize ≤ maxFileSize := by
  obtain ⟨bytes, sectors, -⟩ := allocate_eq_some success
  constructor
  · intro suits
    have nonneg := suits.nonneg
    have fits := suits.fits
    rw [bytes] at nonneg
    rw [sectors, divRoundUp_eq nonneg] at fits
    simp only [sectorSize, numDirect, maxFileSize] at *
    omega
  · rintro ⟨nonneg, small⟩
    exact suits_of_allocate words nonneg small success

/-- Whether `Allocate` fails. -/
theorem allocate_eq_none_iff :
    allocate heap freeMap fileSize = none ↔
      freeMap.numClear < divRoundUp fileSize sectorSize := by
  unfold allocate
  dsimp only
  split
  · rename_i few
    exact iff_of_true rfl few
  · rename_i enough
    exact iff_of_false (by simp) enough

end

end FileHeader

/-- A free map of `numSectors` clear bits. -/
theorem BitMap.numClear_all {b : BitMap} (clear : ∀ j, 0 ≤ j → j < b.numBits → b.test j = false)
    (nonneg : 0 ≤ b.numBits) : b.numClear = b.numBits := by
  unfold numClear
  rw [List.countP_eq_length.mpr, List.length_range]
  · omega
  · intro i member
    have bound := List.mem_range.mp member
    rw [clear i (by omega) (by omega)]
    rfl

/-- What `Allocate` makes can describe the file exactly if it fails, as there
are too few free sectors, or the length is one that the table has room for.  So
it is with the header that a successful `Create` writes. -/
theorem lengths_exact (freeMap : BitMap) (words : freeMap.numBits ≤ 2 ^ 31) (fileSize : Int)
    (heap : FileHeader) :
    ((∀ hdr freeMap', FileHeader.allocate heap freeMap fileSize = some (hdr, freeMap') →
        heap.Suits hdr) ↔
      freeMap.numClear < divRoundUp fileSize sectorSize ∨
        (0 ≤ fileSize ∧ fileSize ≤ maxFileSize)) ∧
      ∀ (heaps : Nat → Memory) (name : Memory) (fs fs' : FileSystem),
        fs.create heaps name fileSize = (true, fs') →
          ∃ sector directory hdr freeMap', fs' = { fs with
              disk := BitMap.writeBack fs.freeMapFile (heaps 4) freeMap'
                (Directory.writeBack fs.directoryFile (heaps 3) directory
                  (hdr.writeBack sector fs.disk)) } ∧
            ((FileHeader.ofMemory (heaps 2)).Suits hdr ↔
              0 ≤ fileSize ∧ fileSize ≤ maxFileSize) := by
  constructor
  · have fails : FileHeader.allocate heap freeMap fileSize = none ↔
        freeMap.numClear < divRoundUp fileSize sectorSize :=
      FileHeader.allocate_eq_none_iff
    rw [← fails]
    cases allocated : FileHeader.allocate heap freeMap fileSize with
    | none => exact iff_of_true (fun _ _ failed => nomatch failed) (Or.inl rfl)
    | some result =>
        obtain ⟨hdr, freeMap'⟩ := result
        have suits := FileHeader.suits_iff words allocated
        constructor
        · intro all
          exact Or.inr (suits.mp (all hdr freeMap' rfl))
        · rintro (failed | sizes)
          · cases failed
          · rintro hdr' freeMap'' same
            cases same
            exact suits.mpr sizes
  · intro heaps name fs fs' created
    obtain ⟨sector, directory, hdr, freeMap', -, -, -, allocated, result⟩ :=
      FileSystem.create_eq_true created
    refine ⟨sector, directory, hdr, freeMap', result, FileHeader.suits_iff ?_ allocated⟩
    rw [BitMap.find_numBits, FileSystem.fetchFreeMap_numBits]
    decide

/-- The free map of an empty disk. -/
def emptyMap : BitMap where
  numBits := numSectors
  map := fun _ => 0

theorem numClear_emptyMap : emptyMap.numClear = 1024 := by
  apply BitMap.numClear_all
  · intro j low high
    rw [BitMap.test_eq]
    exact BitVec.getLsbD_zero
  · decide

theorem allocate_emptyMap (heap : FileHeader) {fileSize : Int}
    (fits : divRoundUp fileSize sectorSize ≤ 1024) :
    ∃ hdr freeMap', FileHeader.allocate heap emptyMap fileSize = some (hdr, freeMap') := by
  cases allocated : FileHeader.allocate heap emptyMap fileSize with
  | none =>
      have few := FileHeader.allocate_eq_none_iff.mp allocated
      rw [numClear_emptyMap] at few
      omega
  | some result => exact ⟨result.1, result.2, rfl⟩

/-- For one byte more than a header has room for, `Allocate` stores the number
of a sector behind the table. -/
theorem allocate_overruns :
    ∃ hdr freeMap',
      FileHeader.allocate (.ofMemory fun _ => 0) emptyMap 3841 = some (hdr, freeMap') ∧
        hdr.numSectors = 31 ∧ ¬ (FileHeader.ofMemory fun _ => 0).Suits hdr := by
  obtain ⟨hdr, freeMap', allocated⟩ :=
    allocate_emptyMap (.ofMemory fun _ => 0) (by decide : divRoundUp 3841 sectorSize ≤ 1024)
  refine ⟨hdr, freeMap', allocated, (FileHeader.allocate_eq_some allocated).2.1,
    fun suits => ?_⟩
  have sizes := (FileHeader.suits_iff (by decide) allocated).mp suits
  exact absurd sizes.2 (by decide)

/-- A file that fills its header gets one that suits it. -/
theorem lengths_exact_emptyMap :
    ∃ hdr freeMap',
      FileHeader.allocate (.ofMemory fun _ => 0) emptyMap 3840 = some (hdr, freeMap') ∧
        (FileHeader.ofMemory fun _ => 0).Suits hdr := by
  obtain ⟨hdr, freeMap', allocated⟩ :=
    allocate_emptyMap (.ofMemory fun _ => 0) (by decide : divRoundUp 3840 sectorSize ≤ 1024)
  refine ⟨hdr, freeMap', allocated, ?_⟩
  exact (lengths_exact emptyMap (by decide) 3840 (.ofMemory fun _ => 0)).1.mpr
    (Or.inr ⟨by decide, by decide⟩) hdr freeMap' allocated

end Nachos
