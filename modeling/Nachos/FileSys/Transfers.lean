/-
Module: Nachos.FileSys.Transfers
Purpose: What `ReadAt` and `WriteAt` do to the contents of a file.  A file
  with a sound header is the sequence of bytes in its data sectors; a read
  delivers a stretch of it and a write replaces one, whatever the alignment,
  and no other sector is touched.
Trusted boundary: none
Main exports: FileHeader.Sound, FileHeader.content, OpenFile.readAt_eq,
  OpenFile.Reaches, OpenFile.writeAt_content, OpenFile.writeAt_other,
  OpenFile.readAt_congr, OpenFile.writeAt_congr
-/
import Nachos.FileSys.OpenFile

namespace Nachos

open Lib

namespace FileHeader

/-- The header describes a file: its sectors are as many as its bytes need,
all in the table, and distinct. -/
structure Sound (hdr : FileHeader) : Prop where
  nonneg : 0 ≤ hdr.numBytes
  enough : hdr.numSectors = divRoundUp hdr.numBytes sectorSize
  fits : hdr.numSectors ≤ numDirect
  distinct : ∀ i j, 0 ≤ i → i < hdr.numSectors → 0 ≤ j → j < hdr.numSectors →
    hdr.dataSectors i = hdr.dataSectors j → i = j

/-- Byte `i` of the file. -/
def content (hdr : FileHeader) (disk : Disk) (i : Int) : UInt8 :=
  disk (hdr.dataSectors (i / sectorSize)) (i % sectorSize)

theorem byteToSector_mul (hdr : FileHeader) (k : Int) :
    hdr.byteToSector (k * sectorSize) = hdr.dataSectors k := by
  unfold byteToSector
  rw [Int.mul_tdiv_cancel k (by decide)]

end FileHeader

theorem divRoundDown_eq {n : Int} (nonneg : 0 ≤ n) :
    divRoundDown n sectorSize = n / sectorSize :=
  Int.tdiv_eq_ediv_of_nonneg nonneg

theorem divRoundUp_eq {n : Int} (nonneg : 0 ≤ n) :
    divRoundUp n sectorSize = (n + 127) / sectorSize := by
  unfold divRoundUp
  rw [Int.tdiv_eq_ediv_of_nonneg nonneg, Int.tmod_eq_emod_of_nonneg nonneg]
  simp only [sectorSize]
  split <;> omega

namespace FileHeader

variable {hdr : FileHeader}

/-- A byte of the file is in one of its sectors. -/
theorem Sound.sector_lt (sound : hdr.Sound) {i : Int} (inside : i < hdr.numBytes) :
    i / sectorSize < hdr.numSectors := by
  have enough := sound.enough
  rw [divRoundUp_eq sound.nonneg] at enough
  simp only [sectorSize] at *
  omega

theorem Sound.numBytes_le (sound : hdr.Sound) : hdr.numBytes ≤ maxFileSize := by
  have enough := sound.enough
  have fits := sound.fits
  rw [divRoundUp_eq sound.nonneg] at enough
  simp only [sectorSize, numDirect, maxFileSize] at *
  omega

end FileHeader

namespace OpenFile

/-! ### The loops over sectors -/

/-- The buffer after the reading loop. -/
theorem readSectors_inside (hdr : FileHeader) (disk : Disk) (first : Int)
    (buf : Memory) {count : Nat} {i : Int} (low : 0 ≤ i)
    (high : i < count * sectorSize) :
    readSectors hdr disk first count buf i =
      disk (hdr.dataSectors (first + i / sectorSize)) (i % sectorSize) := by
  simp only [sectorSize] at *
  induction count with
  | zero => omega
  | succ count inductionHypothesis =>
      rw [readSectors, Disk.readSector, FileHeader.byteToSector_mul]
      simp only [sectorSize]
      by_cases last : (count : Int) * 128 ≤ i
      · rw [Memory.copy_inside _ _ last (by omega)]
        congr 2
        · omega
        · omega
      · rw [Memory.copy_outside _ _ (by omega)]
        exact inductionHypothesis (by omega)

/-- A sector that the writing loop does not reach. -/
theorem writeSectors_other (hdr : FileHeader) (first : Int) (buf : Memory)
    (disk : Disk) {count : Nat} {sector : Int}
    (other : ∀ k : Int, 0 ≤ k → k < count → sector ≠ hdr.dataSectors (first + k)) :
    writeSectors hdr first buf count disk sector = disk sector := by
  induction count with
  | zero => rfl
  | succ count inductionHypothesis =>
      rw [writeSectors, Disk.writeSector, FileHeader.byteToSector_mul]
      have here : sector ≠ hdr.dataSectors (first + count) :=
        other count (by omega) (by omega)
      rw [Function.update_of_ne here]
      apply inductionHypothesis
      intro k low high
      exact other k low (by omega)

/-- A sector that the writing loop reaches once. -/
theorem writeSectors_inside (hdr : FileHeader) (first : Int) (buf : Memory)
    (disk : Disk) {count : Nat} {k i : Int} (low : 0 ≤ k) (high : k < count)
    (distinct : ∀ j : Int, 0 ≤ j → j < count →
      hdr.dataSectors (first + k) = hdr.dataSectors (first + j) → k = j)
    (start : 0 ≤ i) (stop : i < sectorSize) :
    writeSectors hdr first buf count disk (hdr.dataSectors (first + k)) i =
      buf (k * sectorSize + i) := by
  simp only [sectorSize] at *
  induction count with
  | zero => omega
  | succ count inductionHypothesis =>
      rw [writeSectors, Disk.writeSector, FileHeader.byteToSector_mul]
      simp only [sectorSize]
      by_cases last : k = count
      · subst last
        rw [Function.update_self, Memory.copy_inside _ _ start (by omega)]
        congr 1
        omega
      · have different : hdr.dataSectors (first + k) ≠
            hdr.dataSectors (first + count) :=
          fun same => last (distinct count (by omega) (by omega) same)
        rw [Function.update_of_ne different]
        apply inductionHypothesis (by omega)
        intro j jLow jHigh
        exact distinct j jLow (by omega)

/-! ### Reading -/

section

variable {file : OpenFile} {disk : Disk} {numBytes position : Int}

theorem clip_inRange {fileLength : Int} (start : 0 ≤ position) (inside : position < fileLength)
    (word : fileLength < 2 ^ 31) (asks : 0 < numBytes) (small : position + numBytes < 2 ^ 31) :
    clip fileLength numBytes position = min numBytes (fileLength - position) := by
  unfold clip
  rw [wrap_eq_self (x := position + numBytes) (by omega) (by omega),
    wrap_eq_self (x := fileLength - position) (by omega) (by omega)]
  split <;> omega

theorem clip_eq (sound : file.hdr.Sound) (start : 0 ≤ position)
    (asks : 0 < numBytes) (inside : position < file.hdr.numBytes)
    (small : position + numBytes < 2 ^ 31) :
    clip file.hdr.numBytes numBytes position =
      min numBytes (file.hdr.numBytes - position) := by
  have bound := sound.numBytes_le
  simp only [maxFileSize] at bound
  exact clip_inRange start inside (by omega) asks small

theorem lastSector_eq {n : Int} (start : 0 ≤ position) (some : 0 < n)
    (small : position + n < 2 ^ 31) :
    lastSector n position = (position + n - 1) / sectorSize := by
  unfold lastSector
  rw [wrap_eq_self (x := position + n) (by omega) (by omega),
    wrap_eq_self (x := position + n - 1) (by omega) (by omega),
    divRoundDown_eq (by omega)]

/-- A request that is out of order gets nothing. -/
theorem readAt_nothing (into : Memory) (place : Int)
    (nothing : numBytes ≤ 0 ∨ file.hdr.numBytes ≤ position) :
    file.readAt disk into place numBytes position = (0, into) :=
  if_pos nothing

/-- `ReadAt` delivers a stretch of the file. -/
theorem readAt_eq (sound : file.hdr.Sound) (into : Memory) (place : Int)
    (start : 0 ≤ position) (asks : 0 < numBytes)
    (inside : position < file.hdr.numBytes)
    (small : position + numBytes < 2 ^ 31) :
    file.readAt disk into place numBytes position =
      (min numBytes (file.hdr.numBytes - position),
        Memory.copy (file.hdr.content disk) position into place
          (min numBytes (file.hdr.numBytes - position))) := by
  have bound := sound.numBytes_le
  unfold readAt
  rw [if_neg (by rw [FileHeader.fileLength]; omega)]
  simp only [FileHeader.fileLength, clip_eq sound start asks inside small]
  generalize length : min numBytes (file.hdr.numBytes - position) = n
  rw [lastSector_eq start (by omega) (by simp only [maxFileSize] at bound; omega),
    divRoundDown_eq start]
  congr 1
  funext i
  unfold Memory.copy
  split
  · rename_i within
    simp only [sectorSize] at *
    have sector_eq : position / 128 +
        (position - position / 128 * 128 + (i - place)) / 128 =
          (position + (i - place)) / 128 := by omega
    have offset_eq : (position - position / 128 * 128 + (i - place)) % 128 =
        (position + (i - place)) % 128 := by omega
    rw [readSectors_inside _ _ _ _ (by omega) (by simp only [sectorSize]; omega)]
    simp only [FileHeader.content, sectorSize, sector_eq, offset_eq]
  · rfl

/-! ### Writing -/

/-- Sector `j` of the file is one of those that a request for `numBytes` bytes
at `position` is about. -/
def Reaches (file : OpenFile) (numBytes position j : Int) : Prop :=
  0 < numBytes ∧ position < file.hdr.numBytes ∧ position / sectorSize ≤ j ∧
    j ≤ (min (position + numBytes) file.hdr.numBytes - 1) / sectorSize

/-- One sector of the file read into a buffer, at a byte of the file. -/
theorem readAt_sector (sound : file.hdr.Sound) (into : Memory) {place q i : Int}
    (nonneg : 0 ≤ q) (low : q * sectorSize ≤ i) (high : i < (q + 1) * sectorSize)
    (inside : i < file.hdr.numBytes) :
    (file.readAt disk into place sectorSize (q * sectorSize)).2
      (place + (i - q * sectorSize)) = file.hdr.content disk i := by
  have bound := sound.numBytes_le
  simp only [sectorSize, maxFileSize] at *
  rw [readAt_eq sound into place (by omega) (by omega) (by omega) (by omega)]
  dsimp only
  rw [Memory.copy_inside _ _ (by omega) (by omega)]
  congr 1
  omega

theorem readAt_sector_start (sound : file.hdr.Sound) (into : Memory) {q i : Int}
    (nonneg : 0 ≤ q) (low : q * sectorSize ≤ i) (high : i < (q + 1) * sectorSize)
    (inside : i < file.hdr.numBytes) :
    (file.readAt disk into 0 sectorSize (q * sectorSize)).2 (i - q * sectorSize) =
      file.hdr.content disk i := by
  rw [← readAt_sector sound into nonneg low high inside, Int.zero_add]

/-- Outside the sector that is read the buffer stays. -/
theorem readAt_sector_outside (sound : file.hdr.Sound) (into : Memory)
    {place q j : Int} (nonneg : 0 ≤ q)
    (outside : j < place ∨ place + sectorSize ≤ j) :
    (file.readAt disk into place sectorSize (q * sectorSize)).2 j = into j := by
  have bound := sound.numBytes_le
  simp only [sectorSize, maxFileSize] at *
  by_cases inside : q * 128 < file.hdr.numBytes
  · rw [readAt_eq sound into place (by omega) (by omega) inside (by omega)]
    dsimp only
    rw [Memory.copy_outside _ _ (by omega)]
  · rw [readAt_nothing into place (.inr (by omega))]

/-- The bytes of the first and the last sector that are not written are in the
buffer. -/
theorem partialSectors_eq (sound : file.hdr.Sound) (heap : Memory) {n i : Int}
    (start : 0 ≤ position) (some : 0 < n) (fits : position + n ≤ file.hdr.numBytes)
    (low : position / sectorSize * sectorSize ≤ i)
    (high : i < ((position + n - 1) / sectorSize + 1) * sectorSize)
    (inside : i < file.hdr.numBytes) (kept : i < position ∨ position + n ≤ i) :
    file.partialSectors disk heap n position (position / sectorSize)
        ((position + n - 1) / sectorSize) (i - position / sectorSize * sectorSize) =
      file.hdr.content disk i := by
  have bound := sound.numBytes_le
  have first_nonneg : 0 ≤ position / sectorSize := by
    simp only [sectorSize]
    omega
  have last_nonneg : 0 ≤ (position + n - 1) / sectorSize := by
    simp only [sectorSize]
    omega
  unfold partialSectors
  rw [wrap_eq_self (x := position + n) (by omega) (by simp only [maxFileSize] at bound; omega),
    wrap_eq_self (x := ((position + n - 1) / sectorSize + 1) * sectorSize)
      (by simp only [sectorSize]; omega)
      (by simp only [sectorSize, maxFileSize] at *; omega)]
  generalize first_eq : position / sectorSize = first at *
  generalize last_eq : (position + n - 1) / sectorSize = last at *
  simp only [sectorSize] at first_eq last_eq low high
  by_cases atEnd : ¬ position + n = (last + 1) * sectorSize ∧
      (first ≠ last ∨ position = first * sectorSize)
  · rw [if_pos atEnd]
    by_cases inLast : last * 128 ≤ i
    · have place : i - first * sectorSize =
          (last - first) * sectorSize + (i - last * sectorSize) := by
        simp only [sectorSize]
        omega
      rw [place]
      apply readAt_sector sound _ last_nonneg inLast _ inside
      simp only [sectorSize]
      omega
    · -- the byte is before the request, so the first sector was read for it
      have unaligned : ¬ position = first * sectorSize := by
        simp only [sectorSize]
        omega
      rw [readAt_sector_outside sound _ last_nonneg (by simp only [sectorSize]; omega),
        if_pos unaligned]
      exact readAt_sector_start sound heap first_nonneg low
        (by simp only [sectorSize]; omega) inside
  · rw [if_neg atEnd]
    -- both ends of the request are in the one sector, or its end is aligned
    have unaligned : ¬ position = first * sectorSize := by
      simp only [sectorSize] at *
      omega
    rw [if_pos unaligned]
    exact readAt_sector_start sound heap first_nonneg low
      (by simp only [sectorSize] at *; omega) inside

/-- `WriteAt` once the request is clipped. -/
theorem writeAt_eq (sound : file.hdr.Sound) (heap source : Memory)
    (start : 0 ≤ position) (asks : 0 < numBytes)
    (inside : position < file.hdr.numBytes)
    (small : position + numBytes < 2 ^ 31) {n : Int}
    (length : min numBytes (file.hdr.numBytes - position) = n) :
    file.writeAt disk heap source numBytes position =
      (n, writeSectors file.hdr (position / sectorSize)
        (Memory.copy source 0
          (file.partialSectors disk heap n position (position / sectorSize)
            ((position + n - 1) / sectorSize))
          (position - position / sectorSize * sectorSize) n)
        ((position + n - 1) / sectorSize + 1 - position / sectorSize).toNat disk) := by
  have bound := sound.numBytes_le
  unfold writeAt
  rw [if_neg (by rw [FileHeader.fileLength]; omega)]
  simp only [FileHeader.fileLength, clip_eq sound start asks inside small, length]
  rw [lastSector_eq start (by omega) (by simp only [maxFileSize] at bound; omega),
    divRoundDown_eq start]

theorem writeAt_nothing (heap source : Memory)
    (nothing : numBytes ≤ 0 ∨ file.hdr.numBytes ≤ position) :
    file.writeAt disk heap source numBytes position = (0, disk) :=
  if_pos nothing

theorem writeAt_count (sound : file.hdr.Sound) (heap source : Memory)
    (start : 0 ≤ position) (asks : 0 < numBytes)
    (inside : position < file.hdr.numBytes)
    (small : position + numBytes < 2 ^ 31) :
    (file.writeAt disk heap source numBytes position).1 =
      min numBytes (file.hdr.numBytes - position) := by
  rw [writeAt_eq sound heap source start asks inside small rfl]

/-- `WriteAt` replaces a stretch of the file. -/
theorem writeAt_content (sound : file.hdr.Sound) (heap source : Memory)
    (start : 0 ≤ position) (asks : 0 < numBytes)
    (inside : position < file.hdr.numBytes)
    (small : position + numBytes < 2 ^ 31) {i : Int} (low : 0 ≤ i)
    (high : i < file.hdr.numBytes) :
    file.hdr.content (file.writeAt disk heap source numBytes position).2 i =
      if position ≤ i ∧ i < position + min numBytes (file.hdr.numBytes - position) then
        source (i - position)
      else file.hdr.content disk i := by
  generalize length : min numBytes (file.hdr.numBytes - position) = n
  rw [writeAt_eq sound heap source start asks inside small length]
  have sector := sound.sector_lt high
  have last := sound.sector_lt (i := position + n - 1) (by omega)
  unfold FileHeader.content
  dsimp only
  have some : 0 < n := by omega
  have fits : position + n ≤ file.hdr.numBytes := by omega
  by_cases reached : position / sectorSize ≤ i / sectorSize ∧
      i / sectorSize ≤ (position + n - 1) / sectorSize
  · -- the sector is written back, and the byte comes from the buffer
    have sector_eq : i / sectorSize =
        position / sectorSize + (i / sectorSize - position / sectorSize) := by omega
    rw [sector_eq, writeSectors_inside _ _ _ _ (by omega) (by omega) _
      (by simp only [sectorSize]; omega) (by simp only [sectorSize]; omega)]
    · have offset_eq : (i / sectorSize - position / sectorSize) * sectorSize +
          i % sectorSize = i - position / sectorSize * sectorSize := by
        simp only [sectorSize]
        omega
      rw [offset_eq, ← sector_eq]
      simp only [sectorSize] at *
      by_cases written : position ≤ i ∧ i < position + n
      · rw [if_pos written, Memory.copy_inside _ _ (by omega) (by omega)]
        congr 1
        omega
      · rw [if_neg written, Memory.copy_outside _ _ (by omega)]
        exact partialSectors_eq sound heap start some fits (by simp only [sectorSize]; omega)
          (by simp only [sectorSize]; omega) high (by omega)
    · intro j jLow jHigh same
      have := sound.distinct _ _ (by simp only [sectorSize]; omega)
        (by simp only [sectorSize] at *; omega) (by simp only [sectorSize]; omega)
        (by simp only [sectorSize] at *; omega) same
      omega
  · -- the sector is not touched
    rw [writeSectors_other]
    · rw [if_neg (by simp only [sectorSize] at *; omega)]
    · intro k kLow kHigh same
      have := sound.distinct _ _ (by simp only [sectorSize]; omega) sector
        (by simp only [sectorSize]; omega) (by simp only [sectorSize] at *; omega) same
      simp only [sectorSize] at *
      omega

/-- `WriteAt` touches no sector but those of the file. -/
theorem writeAt_other (sound : file.hdr.Sound) (heap source : Memory)
    (start : 0 ≤ position) (small : position + numBytes < 2 ^ 31) {sector : Int}
    (other : ∀ i, 0 ≤ i → i < file.hdr.numSectors → sector ≠ file.hdr.dataSectors i) :
    (file.writeAt disk heap source numBytes position).2 sector = disk sector := by
  by_cases nothing : numBytes ≤ 0 ∨ file.hdr.numBytes ≤ position
  · rw [writeAt_nothing heap source nothing]
  · rw [writeAt_eq sound heap source start (by omega) (by omega) small rfl]
    dsimp only
    have last := sound.sector_lt
      (i := position + min numBytes (file.hdr.numBytes - position) - 1) (by omega)
    apply writeSectors_other
    intro k low high
    apply other
    · simp only [sectorSize]
      omega
    · omega

/-- A sector that is none of those that the request reaches stays. -/
theorem writeAt_unreached (sound : file.hdr.Sound) (heap source : Memory)
    (start : 0 ≤ position) (small : position + numBytes < 2 ^ 31) {sector : Int}
    (other : ∀ i, file.Reaches numBytes position i → sector ≠ file.hdr.dataSectors i) :
    (file.writeAt disk heap source numBytes position).2 sector = disk sector := by
  by_cases nothing : numBytes ≤ 0 ∨ file.hdr.numBytes ≤ position
  · rw [writeAt_nothing heap source nothing]
  · rw [writeAt_eq sound heap source start (by omega) (by omega) small rfl]
    dsimp only
    apply writeSectors_other
    intro k low high
    apply other
    refine ⟨by omega, by omega, by omega, ?_⟩
    simp only [sectorSize] at *
    omega

/-! ### Disks that agree on a file -/

variable {disk' : Disk}

/-- Reading depends on the bytes of the file. -/
theorem readAt_congr (sound : file.hdr.Sound)
    (same : ∀ i, 0 ≤ i → i < file.hdr.numBytes →
      file.hdr.content disk' i = file.hdr.content disk i)
    (into : Memory) (place : Int) (start : 0 ≤ position)
    (small : position + numBytes < 2 ^ 31) :
    file.readAt disk' into place numBytes position =
      file.readAt disk into place numBytes position := by
  by_cases nothing : numBytes ≤ 0 ∨ file.hdr.numBytes ≤ position
  · rw [readAt_nothing into place nothing, readAt_nothing into place nothing]
  · rw [readAt_eq sound into place start (by omega) (by omega) small,
      readAt_eq sound into place start (by omega) (by omega) small]
    congr 1
    funext i
    unfold Memory.copy
    split
    · exact same _ (by omega) (by omega)
    · rfl

theorem partialSectors_congr (sound : file.hdr.Sound)
    (same : ∀ i, 0 ≤ i → i < file.hdr.numBytes →
      file.hdr.content disk' i = file.hdr.content disk i)
    (heap : Memory) {n first last : Int} (firstLow : 0 ≤ first) (lastLow : 0 ≤ last)
    (firstHigh : first ≤ numDirect) (lastHigh : last ≤ numDirect) :
    file.partialSectors disk' heap n position first last =
      file.partialSectors disk heap n position first last := by
  simp only [numDirect] at firstHigh lastHigh
  unfold partialSectors
  dsimp only
  rw [readAt_congr sound same heap 0 (by simp only [sectorSize]; omega)
      (by simp only [sectorSize]; omega),
    readAt_congr sound same _ _ (by simp only [sectorSize]; omega)
      (by simp only [sectorSize]; omega)]

theorem writeSectors_congr (hdr : FileHeader) (first : Int) (buf : Memory) {count : Nat}
    {sector : Int} (here : disk' sector = disk sector) :
    writeSectors hdr first buf count disk' sector =
      writeSectors hdr first buf count disk sector := by
  induction count with
  | zero => exact here
  | succ count inductionHypothesis =>
      rw [writeSectors, writeSectors, Disk.writeSector, Disk.writeSector]
      generalize hdr.byteToSector ((first + count) * sectorSize) = target
      by_cases hit : sector = target
      · rw [← hit, Function.update_self, Function.update_self, inductionHypothesis]
      · rw [Function.update_of_ne hit, Function.update_of_ne hit]
        exact inductionHypothesis

/-- Writing does the same to a sector on disks that agree on it and on the
file. -/
theorem writeAt_congr (sound : file.hdr.Sound)
    (same : ∀ i, 0 ≤ i → i < file.hdr.numBytes →
      file.hdr.content disk' i = file.hdr.content disk i)
    (heap source : Memory) (start : 0 ≤ position) (small : position + numBytes < 2 ^ 31)
    {sector : Int} (here : disk' sector = disk sector) :
    (file.writeAt disk' heap source numBytes position).2 sector =
      (file.writeAt disk heap source numBytes position).2 sector := by
  by_cases nothing : numBytes ≤ 0 ∨ file.hdr.numBytes ≤ position
  · rw [writeAt_nothing heap source nothing, writeAt_nothing heap source nothing]
    exact here
  · have bound := sound.numBytes_le
    simp only [maxFileSize] at bound
    rw [writeAt_eq sound heap source start (by omega) (by omega) small rfl,
      writeAt_eq sound heap source start (by omega) (by omega) small rfl]
    dsimp only
    rw [partialSectors_congr sound same heap (by simp only [sectorSize]; omega)
      (by simp only [sectorSize]; omega) (by simp only [sectorSize, numDirect]; omega)
      (by simp only [sectorSize, numDirect]; omega)]
    exact writeSectors_congr file.hdr _ _ here

end

end OpenFile

end Nachos
