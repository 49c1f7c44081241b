/-
Module: Nachos.FileSys.Requests
Purpose: `ReadAt` and `WriteAt` for every request.  A request in order
  transfers exactly the stretch of the file that it names; the range check of
  the source lets other requests through, and which those are is decided here
  from the sectors and the parts of the buffers that the routines touch.
Trusted boundary: `new char[]` does not fail.  The source throws for a request
  whose sectors make more than 2^31 - 1 bytes; here it goes on.
Main exports: OpenFile.transferred, OpenFile.transfers_exactly, FileAccess,
  OpenFile.readAtAccesses, OpenFile.writeAtAccesses, OpenFile.Confined,
  OpenFile.InRange, OpenFile.confined_iff_inRange
-/
import Nachos.FileSys.Allocation

namespace Nachos

open Lib

namespace OpenFile

/-! ### Requests in order -/

/-- The number of bytes that a request for `numBytes` bytes at `position` is
to get. -/
def transferred (fileLength numBytes position : Int) : Int :=
  if numBytes ≤ 0 ∨ fileLength ≤ position then 0 else min numBytes (fileLength - position)

variable {file : OpenFile} {disk : Disk} {numBytes position : Int}

theorem transferred_nothing {fileLength : Int}
    (nothing : numBytes ≤ 0 ∨ fileLength ≤ position) :
    transferred fileLength numBytes position = 0 :=
  if_pos nothing

theorem transferred_something {fileLength : Int} (asks : 0 < numBytes)
    (inside : position < fileLength) :
    transferred fileLength numBytes position = min numBytes (fileLength - position) :=
  if_neg (by omega)

theorem readAt_transferred (sound : file.hdr.Sound) (into : Memory) (place : Int)
    (start : 0 ≤ position) (small : position + numBytes < 2 ^ 31) :
    file.readAt disk into place numBytes position =
      (transferred file.hdr.numBytes numBytes position,
        Memory.copy (file.hdr.content disk) position into place
          (transferred file.hdr.numBytes numBytes position)) := by
  by_cases nothing : numBytes ≤ 0 ∨ file.hdr.numBytes ≤ position
  · rw [readAt_nothing into place nothing, transferred_nothing nothing]
    congr 1
    funext i
    rw [Memory.copy_outside _ _ (by omega)]
  · rw [transferred_something (by omega) (by omega)]
    exact readAt_eq sound into place start (by omega) (by omega) small

theorem writeAt_transferred (sound : file.hdr.Sound) (heap source : Memory)
    (start : 0 ≤ position) (small : position + numBytes < 2 ^ 31) :
    (file.writeAt disk heap source numBytes position).1 =
      transferred file.hdr.numBytes numBytes position := by
  by_cases nothing : numBytes ≤ 0 ∨ file.hdr.numBytes ≤ position
  · rw [writeAt_nothing heap source nothing, transferred_nothing nothing]
  · rw [transferred_something (by omega) (by omega)]
    exact writeAt_count sound heap source start (by omega) (by omega) small

theorem writeAt_replaces (sound : file.hdr.Sound) (heap source : Memory)
    (start : 0 ≤ position) (small : position + numBytes < 2 ^ 31) {i : Int}
    (low : 0 ≤ i) (high : i < file.hdr.numBytes) :
    file.hdr.content (file.writeAt disk heap source numBytes position).2 i =
      if position ≤ i ∧ i < position + transferred file.hdr.numBytes numBytes position then
        source (i - position)
      else file.hdr.content disk i := by
  by_cases nothing : numBytes ≤ 0 ∨ file.hdr.numBytes ≤ position
  · rw [writeAt_nothing heap source nothing, transferred_nothing nothing]
    exact (if_neg (by omega)).symm
  · rw [transferred_something (by omega) (by omega)]
    exact writeAt_content sound heap source start (by omega) (by omega) small low high

/-- A request in order transfers exactly the part of the stretch that the file
has: a read delivers it and a write replaces it, and a write touches no sector
but those of the file. -/
theorem transfers_exactly (sound : file.hdr.Sound) (disk : Disk)
    (into heap source : Memory) (place : Int) (start : 0 ≤ position)
    (small : position + numBytes < 2 ^ 31) :
    file.readAt disk into place numBytes position =
        (transferred file.hdr.numBytes numBytes position,
          Memory.copy (file.hdr.content disk) position into place
            (transferred file.hdr.numBytes numBytes position)) ∧
      (file.writeAt disk heap source numBytes position).1 =
        transferred file.hdr.numBytes numBytes position ∧
      (∀ i, 0 ≤ i → i < file.hdr.numBytes →
        file.hdr.content (file.writeAt disk heap source numBytes position).2 i =
          if position ≤ i ∧
              i < position + transferred file.hdr.numBytes numBytes position then
            source (i - position)
          else file.hdr.content disk i) ∧
      (∀ sector, (∀ i, 0 ≤ i → i < file.hdr.numSectors →
          sector ≠ file.hdr.dataSectors i) →
        (file.writeAt disk heap source numBytes position).2 sector = disk sector) := by
  refine ⟨?read, ?count, ?replaced, ?others⟩
  case read => exact readAt_transferred sound into place start small
  case count => exact writeAt_transferred sound heap source start small
  case replaced =>
      intro i low high
      exact writeAt_replaces sound heap source start small low high
  case others =>
      intro sector other
      exact writeAt_other sound heap source start small other

/-- A file of 200 bytes in the sectors 7 and 5. -/
def twoSectors : OpenFile where
  hdr :=
    { numBytes := 200, numSectors := 2,
      dataSectors := fun i => if i = 0 then 7 else if i = 1 then 5 else 0 }
  seekPosition := 0

theorem twoSectors_sound : twoSectors.hdr.Sound where
  nonneg := by decide
  enough := by decide
  fits := by decide
  distinct := by
    intro i j iLow iHigh jLow jHigh same
    simp only [twoSectors] at iHigh jHigh same
    by_cases iFirst : i = 0
    · by_cases jFirst : j = 0
      · rw [iFirst, jFirst]
      · rw [if_pos iFirst, if_neg jFirst, if_pos (by omega)] at same
        cases same
    · by_cases jFirst : j = 0
      · rw [if_neg iFirst, if_pos (by omega), if_pos jFirst] at same
        cases same
      · omega

/-- A request across the boundary of the sectors and beyond the end of the
file: it writes the last 100 bytes. -/
theorem transfers_exactly_twoSectors :
    twoSectors.hdr.Sound ∧ (0 : Int) ≤ 100 ∧ (100 : Int) + 500 < 2 ^ 31 ∧
      (twoSectors.writeAt (fun _ _ => 1) (fun _ => 9) (fun _ => 2) 500 100).1 = 100 ∧
      twoSectors.hdr.content
        (twoSectors.writeAt (fun _ _ => 1) (fun _ => 9) (fun _ => 2) 500 100).2 99 = 1 := by
  have exact := transfers_exactly twoSectors_sound (fun _ _ => 1) (fun _ => 0) (fun _ => 9)
    (fun _ => 2) 0 (show (0 : Int) ≤ 100 by decide)
    (show (100 : Int) + 500 < 2 ^ 31 by decide)
  obtain ⟨-, count, replaced, -⟩ := exact
  refine ⟨twoSectors_sound, by decide, by decide, count, ?_⟩
  rw [replaced 99 (by decide) (by decide), if_neg (by decide)]
  rfl

end OpenFile

/-! ### What a request touches -/

/-- What `ReadAt` and `WriteAt` touch: a sector of the header's table that is
passed to `ByteToSector`, or `count` bytes of a temporary buffer from offset
`start` on. -/
inductive FileAccess where
  | sector (index : Int)
  | buffer (size start count : Int)

/-- The access is inside the table of the header or inside the buffer. -/
def FileAccess.Inside (numSectors : Int) : FileAccess → Prop
  | .sector index => 0 ≤ index ∧ index < numSectors
  | .buffer size start count => 0 ≤ start ∧ 0 ≤ count ∧ start + count ≤ size

namespace OpenFile

/-- The loop over `count` sectors from sector `first` on, with a buffer of
`size` bytes. -/
def sectorAccesses (size first : Int) (count : Nat) : List FileAccess :=
  (List.range count).flatMap fun k : Nat =>
    [.sector (((first + k) * sectorSize).tdiv sectorSize), .buffer size (k * sectorSize) sectorSize]

/-- The size of the temporary buffer. -/
def bufferSize (firstSector lastSector : Int) : Int :=
  wrap ((1 + lastSector - firstSector) * sectorSize)

/-- What `ReadAt` touches. -/
def readAtAccesses (file : OpenFile) (numBytes position : Int) : List FileAccess :=
  let fileLength := file.hdr.fileLength
  if numBytes ≤ 0 ∨ fileLength ≤ position then []
  else
    let numBytes := clip fileLength numBytes position
    let firstSector := divRoundDown position sectorSize
    let lastSector := lastSector numBytes position
    let size := bufferSize firstSector lastSector
    sectorAccesses size firstSector (lastSector + 1 - firstSector).toNat ++
      [.buffer size (position - firstSector * sectorSize) numBytes]

/-- What `ReadAt` touches when the bytes go to a buffer of `size` bytes, from
offset `place` on. -/
def readIntoAccesses (file : OpenFile) (size place numBytes position : Int) :
    List FileAccess :=
  let fileLength := file.hdr.fileLength
  file.readAtAccesses numBytes position ++
    if numBytes ≤ 0 ∨ fileLength ≤ position then []
    else [.buffer size place (clip fileLength numBytes position)]

/-- What `WriteAt` touches. -/
def writeAtAccesses (file : OpenFile) (numBytes position : Int) : List FileAccess :=
  let fileLength := file.hdr.fileLength
  if numBytes ≤ 0 ∨ fileLength ≤ position then []
  else
    let numBytes := clip fileLength numBytes position
    let firstSector := divRoundDown position sectorSize
    let lastSector := lastSector numBytes position
    let size := bufferSize firstSector lastSector
    let firstAligned := position = firstSector * sectorSize
    let lastAligned := wrap (position + numBytes) = wrap ((lastSector + 1) * sectorSize)
    (if ¬ firstAligned then
      file.readIntoAccesses size 0 sectorSize (firstSector * sectorSize)
    else []) ++
    (if ¬ lastAligned ∧ (firstSector ≠ lastSector ∨ firstAligned) then
      file.readIntoAccesses size ((lastSector - firstSector) * sectorSize) sectorSize
        (lastSector * sectorSize)
    else []) ++
    [.buffer size (position - firstSector * sectorSize) numBytes] ++
    sectorAccesses size firstSector (lastSector + 1 - firstSector).toNat

/-- The routine has kept to the file: it transferred `count` bytes from
`position` on, all of them in the file, and touched nothing outside the table
and the buffers. -/
structure Confined (file : OpenFile) (position count : Int) (accesses : List FileAccess) :
    Prop where
  accesses : ∀ access ∈ accesses, access.Inside file.hdr.numSectors
  bytes : ∀ i, 0 ≤ i → i < count → 0 ≤ position + i ∧ position + i < file.hdr.fileLength
  nonneg : 0 ≤ count
  bound : count ≤ max 0 (file.hdr.fileLength - position)

/-- `ReadAt` keeps to the file, whatever is on the disk and wherever the bytes
go. -/
def ReadConfined (file : OpenFile) (numBytes position : Int) : Prop :=
  ∀ disk into place,
    file.Confined position (file.readAt disk into place numBytes position).1
      (file.readAtAccesses numBytes position)

/-- `WriteAt` keeps to the file, whatever is on the disk and in memory. -/
def WriteConfined (file : OpenFile) (numBytes position : Int) : Prop :=
  ∀ disk heap source,
    file.Confined position (file.writeAt disk heap source numBytes position).1
      (file.writeAtAccesses numBytes position)

/-- The requests that the range check of the source is right about: nothing is
asked for, or the request starts in the file and its end is an integer. -/
def InRange (fileLength numBytes position : Int) : Prop :=
  numBytes ≤ 0 ∨ fileLength ≤ position ∨ (0 ≤ position ∧ position + numBytes < 2 ^ 31)

end OpenFile

/-! ### Lengths that `Create` admits -/

/-- The header of a file that the disk had room for; its length may be negative
and may be more than the table of a header is for. -/
structure FileHeader.Granted (hdr : FileHeader) : Prop where
  word : -2 ^ 31 ≤ hdr.numBytes
  enough : hdr.numSectors = divRoundUp hdr.numBytes sectorSize
  room : hdr.numSectors ≤ Nachos.numSectors

/-- What `Allocate` has granted. -/
theorem FileHeader.allocate_granted {heap hdr : FileHeader} {freeMap freeMap' : BitMap}
    {fileSize : Int} (word : -2 ^ 31 ≤ fileSize) (bits : freeMap.numBits = Nachos.numSectors)
    (success : allocate heap freeMap fileSize = some (hdr, freeMap')) :
    hdr.numBytes = fileSize ∧ hdr.Granted := by
  simp only [allocate] at success
  split at success
  · cases success
  · rename_i enough
    have sizes := allocateSectors_sizes
      { heap with numBytes := fileSize, numSectors := divRoundUp fileSize sectorSize }
      freeMap (divRoundUp fileSize sectorSize).toNat
    rw [Option.some.inj success] at sizes
    obtain ⟨bytes, count⟩ := sizes
    dsimp only at bytes count
    have clear : freeMap.numClear ≤ freeMap.numBits.toNat := by
      have most := List.countP_le_length (p := fun i : Nat => !freeMap.test i)
        (l := List.range freeMap.numBits.toNat)
      rw [List.length_range] at most
      exact Int.ofNat_le.mpr most
    refine ⟨bytes, by rw [bytes]; exact word, by rw [bytes]; exact count, ?_⟩
    rw [bits] at clear
    rw [count]
    simp only [Nachos.numSectors] at *
    omega

namespace FileHeader

variable {hdr : FileHeader} {i : Int}

theorem Granted.numBytes_le (granted : hdr.Granted) : hdr.numBytes ≤ 131072 := by
  by_cases empty : hdr.numBytes ≤ 0
  · omega
  · have enough := granted.enough
    have room := granted.room
    rw [divRoundUp_eq (by omega)] at enough
    simp only [sectorSize, Nachos.numSectors] at *
    omega

theorem Granted.sector_lt (granted : hdr.Granted) (low : 0 ≤ i) (inside : i < hdr.numBytes) :
    i / sectorSize < hdr.numSectors := by
  have enough := granted.enough
  rw [divRoundUp_eq (by omega)] at enough
  simp only [sectorSize] at *
  omega

end FileHeader

namespace OpenFile

variable {file : OpenFile} {numBytes position : Int}

/-! ### Requests in range -/

theorem sectorAccesses_inside {size first bound : Int} {count : Nat} (low : 0 ≤ first)
    (high : first + count ≤ bound) (fits : count * sectorSize ≤ size) :
    ∀ access ∈ sectorAccesses size first count, access.Inside bound := by
  intro access member
  obtain ⟨k, within, member⟩ := List.mem_flatMap.mp member
  have small := List.mem_range.mp within
  simp only [sectorSize] at *
  rcases List.mem_cons.mp member with sector | rest
  · rw [sector, Int.mul_tdiv_cancel _ (by decide)]
    exact ⟨by omega, by omega⟩
  · rw [List.mem_singleton.mp rest]
    exact ⟨by omega, by omega, by omega⟩

/-- Where a request of `n` bytes in the file begins and ends. -/
theorem span_eq (granted : file.hdr.Granted) {n : Int} (start : 0 ≤ position) (some : 0 < n)
    (fits : position + n ≤ file.hdr.numBytes) :
    divRoundDown position sectorSize = position / sectorSize ∧
      lastSector n position = (position + n - 1) / sectorSize ∧
      bufferSize (position / sectorSize) ((position + n - 1) / sectorSize) =
        (1 + (position + n - 1) / sectorSize - position / sectorSize) * sectorSize ∧
      (position + n - 1) / sectorSize < file.hdr.numSectors := by
  have bound := granted.numBytes_le
  refine ⟨divRoundDown_eq start, lastSector_eq start some (by omega), ?_,
    granted.sector_lt (by omega) (by omega)⟩
  unfold bufferSize
  simp only [sectorSize]
  rw [wrap_eq_self (by omega) (by omega)]

theorem readAtAccesses_inside (granted : file.hdr.Granted) (start : 0 ≤ position)
    (small : position + numBytes < 2 ^ 31) :
    ∀ access ∈ file.readAtAccesses numBytes position, access.Inside file.hdr.numSectors := by
  have bound := granted.numBytes_le
  unfold readAtAccesses
  dsimp only
  rw [FileHeader.fileLength]
  by_cases nothing : numBytes ≤ 0 ∨ file.hdr.numBytes ≤ position
  · rw [if_pos nothing]
    intro access member
    cases member
  · rw [if_neg nothing, clip_inRange start (by omega) (by omega) (by omega) small]
    generalize length : min numBytes (file.hdr.numBytes - position) = n
    obtain ⟨first, last, size, inside⟩ := span_eq granted (n := n) start (by omega) (by omega)
    rw [first, last, size]
    intro access member
    rcases List.mem_append.mp member with swept | copied
    · refine sectorAccesses_inside ?_ ?_ ?_ access swept
      · simp only [sectorSize]
        omega
      · simp only [sectorSize] at *
        omega
      · simp only [sectorSize]
        omega
    · rw [List.mem_singleton.mp copied]
      simp only [FileAccess.Inside, sectorSize]
      omega

/-- One sector of the file read into a larger buffer. -/
theorem readIntoAccesses_inside (granted : file.hdr.Granted) {size place sector : Int}
    (low : 0 ≤ sector) (high : sector < file.hdr.numSectors) (start : 0 ≤ place)
    (fits : place + sectorSize ≤ size) :
    ∀ access ∈ file.readIntoAccesses size place sectorSize (sector * sectorSize),
      access.Inside file.hdr.numSectors := by
  have bound := granted.numBytes_le
  have room := granted.room
  intro access member
  rcases List.mem_append.mp member with reading | copied
  · refine readAtAccesses_inside granted ?_ ?_ access reading
    · simp only [sectorSize]
      omega
    · simp only [sectorSize, numSectors] at *
      omega
  · split at copied
    · cases copied
    · rename_i something
      rw [FileHeader.fileLength] at something copied
      simp only [sectorSize, numSectors] at *
      rw [clip_inRange (by omega) (by omega) (by omega) (by omega) (by omega)] at copied
      rw [List.mem_singleton.mp copied]
      simp only [FileAccess.Inside]
      omega

theorem writeAtAccesses_inside (granted : file.hdr.Granted) (start : 0 ≤ position)
    (small : position + numBytes < 2 ^ 31) :
    ∀ access ∈ file.writeAtAccesses numBytes position, access.Inside file.hdr.numSectors := by
  have bound := granted.numBytes_le
  unfold writeAtAccesses
  dsimp only
  rw [FileHeader.fileLength]
  by_cases nothing : numBytes ≤ 0 ∨ file.hdr.numBytes ≤ position
  · rw [if_pos nothing]
    intro access member
    cases member
  · rw [if_neg nothing, clip_inRange start (by omega) (by omega) (by omega) small]
    generalize length : min numBytes (file.hdr.numBytes - position) = n
    obtain ⟨first, last, size, inside⟩ := span_eq granted (n := n) start (by omega) (by omega)
    rw [first, last, size]
    intro access member
    rcases List.mem_append.mp member with before | swept
    · rcases List.mem_append.mp before with parts | copied
      · rcases List.mem_append.mp parts with firstPart | lastPart
        · split at firstPart
          · refine readIntoAccesses_inside granted ?_ ?_ ?_ ?_ access firstPart
            all_goals
              simp only [sectorSize] at *
              omega
          · cases firstPart
        · split at lastPart
          · refine readIntoAccesses_inside granted ?_ ?_ ?_ ?_ access lastPart
            all_goals
              simp only [sectorSize] at *
              omega
          · cases lastPart
      · rw [List.mem_singleton.mp copied]
        simp only [FileAccess.Inside, sectorSize]
        omega
    · refine sectorAccesses_inside ?_ ?_ ?_ access swept
      all_goals
        simp only [sectorSize] at *
        omega

/-! ### Which requests are in range -/

/-- The number of bytes that both routines return. -/
def delivered (fileLength numBytes position : Int) : Int :=
  if numBytes ≤ 0 ∨ fileLength ≤ position then 0 else clip fileLength numBytes position

theorem readAt_delivered (disk : Disk) (into : Memory) (place : Int) :
    (file.readAt disk into place numBytes position).1 =
      delivered file.hdr.fileLength numBytes position := by
  unfold readAt delivered
  dsimp only
  split <;> rfl

theorem writeAt_delivered (disk : Disk) (heap source : Memory) :
    (file.writeAt disk heap source numBytes position).1 =
      delivered file.hdr.fileLength numBytes position := by
  unfold writeAt delivered
  dsimp only
  split <;> rfl

/-- A request in range keeps to the file when its accesses are inside. -/
theorem confined_of_inRange (granted : file.hdr.Granted) {accesses : List FileAccess}
    (inRange : InRange file.hdr.fileLength numBytes position)
    (inside : 0 ≤ position → position + numBytes < 2 ^ 31 →
      ∀ access ∈ accesses, access.Inside file.hdr.numSectors)
    (untouched : numBytes ≤ 0 ∨ file.hdr.fileLength ≤ position → accesses = []) :
    file.Confined position (delivered file.hdr.fileLength numBytes position) accesses := by
  have bound := granted.numBytes_le
  by_cases nothing : numBytes ≤ 0 ∨ file.hdr.fileLength ≤ position
  · rw [untouched nothing, delivered, if_pos nothing]
    refine ⟨?_, ?_, by omega, by omega⟩
    · intro access member
      cases member
    · intro i low high
      omega
  · have inOrder : 0 ≤ position ∧ position + numBytes < 2 ^ 31 := by
      rcases inRange with none | beyond | inOrder
      · exact absurd (.inl none) nothing
      · exact absurd (.inr beyond) nothing
      · exact inOrder
    have accessed := inside inOrder.1 inOrder.2
    rw [FileHeader.fileLength] at nothing ⊢
    rw [delivered, if_neg nothing,
      clip_inRange inOrder.1 (by omega) (by omega) (by omega) inOrder.2]
    refine ⟨accessed, ?_, by omega, by rw [FileHeader.fileLength]; omega⟩
    intro i low high
    rw [FileHeader.fileLength]
    omega

/-- A request out of range does not: the first byte that it moves is before the
file, or it moves more than there is. -/
theorem inRange_of_confined (granted : file.hdr.Granted) {accesses : List FileAccess}
    (positionLow : -2 ^ 31 ≤ position) (numBytesHigh : numBytes < 2 ^ 31)
    (confined : file.Confined position
      (delivered file.hdr.fileLength numBytes position) accesses) :
    InRange file.hdr.fileLength numBytes position := by
  have bound := granted.numBytes_le
  obtain ⟨-, bytes, nonneg, most⟩ := confined
  by_cases nothing : numBytes ≤ 0 ∨ file.hdr.fileLength ≤ position
  · exact nothing.elim .inl fun beyond => .inr (.inl beyond)
  · right
    right
    simp only [FileHeader.fileLength] at *
    rw [delivered, if_neg nothing] at bytes nonneg most
    unfold clip at bytes nonneg most
    by_cases before : position < 0
    · -- the sum does not leave the integers, and some byte is moved
      exfalso
      rw [wrap_eq_self (x := position + numBytes) (by omega) (by omega)] at bytes nonneg
      by_cases clipped : file.hdr.numBytes < position + numBytes
      · rw [if_pos clipped] at bytes nonneg
        have some : 0 < wrap (file.hdr.numBytes - position) := by
          by_contra none
          have zero : wrap (file.hdr.numBytes - position) = 0 := by omega
          unfold wrap at zero
          rw [Int.bmod_def] at zero
          split at zero <;> omega
        have first := (bytes 0 (by omega) some).1
        omega
      · rw [if_neg clipped] at bytes
        have first := (bytes 0 (by omega) (by omega)).1
        omega
    · refine ⟨by omega, ?_⟩
      by_contra large
      -- the sum has become negative, so the request was not clipped
      have negative : wrap (position + numBytes) = position + numBytes - 2 ^ 32 := by
        unfold wrap
        rw [Int.bmod_def]
        split <;> omega
      rw [negative, if_neg (by omega)] at most
      omega

/-- A request from before the file that gets anything leaves the table or the
buffer: rounding is towards zero, so either the buffer starts after the first
byte or the first sector has a negative index. -/
theorem outside_of_negative {n size bound : Int} {accesses : List FileAccess}
    (positionLow : -2 ^ 31 ≤ position) (before : position < 0) (some : 0 < n) (high : n < 2 ^ 31)
    (swept : ∀ access ∈ sectorAccesses size (divRoundDown position sectorSize)
      (lastSector n position + 1 - divRoundDown position sectorSize).toNat, access ∈ accesses)
    (copied : .buffer size (position - divRoundDown position sectorSize * sectorSize) n ∈
      accesses) :
    ∃ access ∈ accesses, ¬ access.Inside bound := by
  have first_eq : divRoundDown position sectorSize = -(-position / sectorSize) := by
    unfold divRoundDown
    rw [← Int.neg_neg position, Int.neg_tdiv, Int.tdiv_eq_ediv_of_nonneg (by omega),
      Int.neg_neg]
  by_cases aligned : position = divRoundDown position sectorSize * sectorSize
  · have last_le : divRoundDown position sectorSize ≤ lastSector n position := by
      unfold lastSector divRoundDown
      rw [wrap_eq_self (x := position + n) (by omega) (by omega),
        wrap_eq_self (x := position + n - 1) (by omega) (by omega)]
      exact Int.tdiv_le_tdiv (by decide) (by omega)
    refine ⟨.sector (((divRoundDown position sectorSize + (0 : Nat)) * sectorSize).tdiv
      sectorSize), swept _ ?_, ?_⟩
    · exact List.mem_flatMap.mpr ⟨0, List.mem_range.mpr (by omega), List.mem_cons_self⟩
    · rw [Int.mul_tdiv_cancel _ (by decide)]
      simp only [FileAccess.Inside, sectorSize] at *
      omega
  · refine ⟨_, copied, ?_⟩
    simp only [FileAccess.Inside, sectorSize] at *
    omega

/-- Both routines leave the table or their buffer on every request from before
the file that gets anything. -/
theorem accesses_outside (numBytesHigh : numBytes < 2 ^ 31) (positionLow : -2 ^ 31 ≤ position)
    (before : position < 0) (some : 0 < delivered file.hdr.fileLength numBytes position) :
    (∃ access ∈ file.readAtAccesses numBytes position,
        ¬ access.Inside file.hdr.numSectors) ∧
      ∃ access ∈ file.writeAtAccesses numBytes position,
        ¬ access.Inside file.hdr.numSectors := by
  have something : ¬ (numBytes ≤ 0 ∨ file.hdr.fileLength ≤ position) := by
    intro nothing
    rw [delivered, if_pos nothing] at some
    omega
  rw [delivered, if_neg something] at some
  have high : clip file.hdr.fileLength numBytes position < 2 ^ 31 := by
    unfold clip wrap
    split
    · exact Int.bmod_lt (by decide)
    · exact numBytesHigh
  constructor
  · unfold readAtAccesses
    rw [if_neg something]
    apply outside_of_negative positionLow before some high
    · intro access swept
      exact List.mem_append_left _ swept
    · exact List.mem_append_right _ List.mem_cons_self
  · unfold writeAtAccesses
    rw [if_neg something]
    apply outside_of_negative positionLow before some high
    · intro access swept
      exact List.mem_append_right _ swept
    · exact List.mem_append_left _ (List.mem_append_right _ List.mem_cons_self)

/-- `ReadAt` and `WriteAt` keep to the file exactly on the requests in range:
neither a negative position nor the wrapping of the sum is caught. -/
theorem confined_iff_inRange (granted : file.hdr.Granted) (positionLow : -2 ^ 31 ≤ position)
    (numBytesHigh : numBytes < 2 ^ 31) :
    (file.ReadConfined numBytes position ↔
        InRange file.hdr.fileLength numBytes position) ∧
      (file.WriteConfined numBytes position ↔
        InRange file.hdr.fileLength numBytes position) := by
  constructor
  · constructor
    · intro confined
      have here := confined (fun _ _ => 0) (fun _ => 0) 0
      rw [readAt_delivered] at here
      exact inRange_of_confined granted positionLow numBytesHigh here
    · intro inRange disk into place
      rw [readAt_delivered]
      exact confined_of_inRange granted inRange (readAtAccesses_inside granted)
        fun nothing => if_pos nothing
  · constructor
    · intro confined
      have here := confined (fun _ _ => 0) (fun _ => 0) fun _ => 0
      rw [writeAt_delivered] at here
      exact inRange_of_confined granted positionLow numBytesHigh here
    · intro inRange disk heap source
      rw [writeAt_delivered]
      exact confined_of_inRange granted inRange (writeAtAccesses_inside granted)
        fun nothing => if_pos nothing

/-- The first 100 bytes of a file of 200 bytes are a request in range. -/
theorem confined_iff_inRange_twoSectors :
    twoSectors.hdr.Granted ∧ -2 ^ 31 ≤ (0 : Int) ∧ (100 : Int) < 2 ^ 31 ∧
      twoSectors.ReadConfined 100 0 ∧ twoSectors.WriteConfined 100 0 := by
  have granted : twoSectors.hdr.Granted := ⟨by decide, by decide, by decide⟩
  have inRange : InRange twoSectors.hdr.fileLength 100 0 :=
    .inr (.inr ⟨by decide, by decide⟩)
  have confined := confined_iff_inRange granted
    (show -2 ^ 31 ≤ (0 : Int) by decide) (show (100 : Int) < 2 ^ 31 by decide)
  exact ⟨granted, by decide, by decide, confined.1.mpr inRange, confined.2.mpr inRange⟩

/-- After `Seek` to -5 the bytes before the file are read and written.  A
request of 2147483647 bytes at position 1 is not clipped: the source then throws
in `new char[]`, its sectors making 2^31 bytes. -/
theorem not_confined_twoSectors :
    twoSectors.hdr.Granted ∧
      ¬ (twoSectors.seek (-5)).ReadConfined 10 (twoSectors.seek (-5)).seekPosition ∧
      ¬ (twoSectors.seek (-5)).WriteConfined 10 (twoSectors.seek (-5)).seekPosition ∧
      ¬ twoSectors.ReadConfined 2147483647 1 ∧ ¬ twoSectors.WriteConfined 2147483647 1 := by
  have beyond : delivered twoSectors.hdr.fileLength 2147483647 1 = 2147483647 := by decide
  refine ⟨⟨by decide, by decide, by decide⟩, ?_, ?_, ?_, ?_⟩
  · intro confined
    have first := (confined (fun _ _ => 0) (fun _ => 0) 0).bytes 0 (by decide)
    rw [readAt_delivered] at first
    exact absurd (first (by decide)).1 (by decide)
  · intro confined
    have first := (confined (fun _ _ => 0) (fun _ => 0) fun _ => 0).bytes 0 (by decide)
    rw [writeAt_delivered] at first
    exact absurd (first (by decide)).1 (by decide)
  · intro confined
    have most := (confined (fun _ _ => 0) (fun _ => 0) 0).bound
    rw [readAt_delivered, beyond] at most
    exact absurd most (by decide)
  · intro confined
    have most := (confined (fun _ _ => 0) (fun _ => 0) fun _ => 0).bound
    rw [writeAt_delivered, beyond] at most
    exact absurd most (by decide)

/-- `Read` and `Write` are requests at the place that `Seek` set. -/
theorem read_seek (file : OpenFile) (disk : Disk) (into heap source : Memory)
    (numBytes position : Int) :
    ((file.seek position).read disk into numBytes).1 =
        (file.readAt disk into 0 numBytes position).1 ∧
      ((file.seek position).write disk heap source numBytes).1 =
        (file.writeAt disk heap source numBytes position).1 :=
  ⟨rfl, rfl⟩

end OpenFile

end Nachos
