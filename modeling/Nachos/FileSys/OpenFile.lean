/-
Module: Nachos.FileSys.OpenFile
Purpose: The disk, file headers and open files of filehdr.cc and openfile.cc.
  A header is stored on disk as the 32 words of its sector; `ReadAt` and
  `WriteAt` go through a buffer of whole sectors as the source does.
Trusted boundary: a sector that was written reads back as written; words are
  little-endian; memory that `new` returns holds anything, and `new` does not
  fail.  disk.cc asserts of each request that its sector is on the disk; here
  any sector can be asked for, and that those of the headers are on the disk is
  `Disk.Accounted.range`.
Main exports: Disk, FileHeader, FileHeader.toMemory, FileHeader.ofMemory,
  OpenFile, OpenFile.readAt, OpenFile.writeAt, OpenFile.read, OpenFile.write
-/
import Mathlib.Logic.Function.Basic
import Nachos.Lib.Memory

namespace Nachos

open Lib

/-! ### The disk -/

/-- `SectorSize` of disk.h. -/
abbrev sectorSize : Int := 128

/-- `NumSectors` of disk.h. -/
abbrev numSectors : Int := 1024

/-- The contents of every sector. -/
abbrev Disk := Int → Memory

namespace Disk

/-- `SynchDisk::ReadSector` into a buffer, from offset `place` on. -/
def readSector (sector : Int) (data : Memory) (place : Int) (disk : Disk) : Memory :=
  Memory.copy (disk sector) 0 data place sectorSize

/-- `SynchDisk::WriteSector` of a buffer, from offset `start` on. -/
def writeSector (sector : Int) (data : Memory) (start : Int) (disk : Disk) : Disk :=
  Function.update disk sector (Memory.copy data start (disk sector) 0 sectorSize)

end Disk

/-- `divRoundDown` and `divRoundUp` of utility.h. -/
def divRoundDown (n s : Int) : Int :=
  n.tdiv s

def divRoundUp (n s : Int) : Int :=
  n.tdiv s + if 0 < n.tmod s then 1 else 0

/-! ### File headers -/

/-- `NumDirect` and `MaxFileSize` of filehdr.h. -/
abbrev numDirect : Int := 30

abbrev maxFileSize : Int := 3840

/-- `class FileHeader`. -/
structure FileHeader where
  numBytes : Int
  numSectors : Int
  dataSectors : Int → Int

namespace FileHeader

/-- The integers of the object in the order in which they lie in memory. -/
def field (hdr : FileHeader) (w : Int) : Int :=
  if w = 0 then hdr.numBytes
  else if w = 1 then hdr.numSectors
  else hdr.dataSectors (w - 2)

/-- The object as bytes, `(char *)this`. -/
def toMemory (hdr : FileHeader) : Memory :=
  Memory.ofWords fun w => BitVec.ofInt 32 (hdr.field w)

/-- The object that bytes make up. -/
def ofMemory (bytes : Memory) : FileHeader where
  numBytes := (bytes.getWord 0).toInt
  numSectors := (bytes.getWord 4).toInt
  dataSectors := fun i => (bytes.getWord (8 + 4 * i)).toInt

/-- `FileHeader::FetchFrom`. -/
def fetchFrom (sector : Int) (disk : Disk) : FileHeader :=
  ofMemory (disk sector)

/-- `FileHeader::WriteBack`. -/
def writeBack (hdr : FileHeader) (sector : Int) (disk : Disk) : Disk :=
  disk.writeSector sector hdr.toMemory 0

/-- `FileHeader::ByteToSector`. -/
def byteToSector (hdr : FileHeader) (offset : Int) : Int :=
  hdr.dataSectors (offset.tdiv sectorSize)

/-- `FileHeader::FileLength`. -/
def fileLength (hdr : FileHeader) : Int :=
  hdr.numBytes

end FileHeader

/-! ### Open files -/

/-- `class OpenFile`. -/
structure OpenFile where
  hdr : FileHeader
  seekPosition : Int

namespace OpenFile

/-- `OpenFile::OpenFile`. -/
def openAt (sector : Int) (disk : Disk) : OpenFile where
  hdr := .fetchFrom sector disk
  seekPosition := 0

/-- The number of bytes that a request for `numBytes` at `position` gets, both
being in order. -/
def clip (fileLength numBytes position : Int) : Int :=
  if fileLength < wrap (position + numBytes) then wrap (fileLength - position)
  else numBytes

/-- The last sector of a request. -/
def lastSector (numBytes position : Int) : Int :=
  divRoundDown (wrap (wrap (position + numBytes) - 1)) sectorSize

/-- The loop that reads `count` sectors of the file, from sector `first` on,
into a buffer. -/
def readSectors (hdr : FileHeader) (disk : Disk) (first : Int) :
    Nat → Memory → Memory
  | 0, buf => buf
  | count + 1, buf =>
      disk.readSector (hdr.byteToSector ((first + count) * sectorSize))
        (readSectors hdr disk first count buf) (count * sectorSize)

/-- The loop that writes `count` sectors of the file, from sector `first` on,
from a buffer. -/
def writeSectors (hdr : FileHeader) (first : Int) (buf : Memory) :
    Nat → Disk → Disk
  | 0, disk => disk
  | count + 1, disk =>
      (writeSectors hdr first buf count disk).writeSector
        (hdr.byteToSector ((first + count) * sectorSize)) buf (count * sectorSize)

/-- `OpenFile::ReadAt` into a buffer, from offset `place` on: the number of
bytes read and the buffer.  Where the position is not negative, nothing is
copied from `buf` that has not been read. -/
def readAt (file : OpenFile) (disk : Disk) (into : Memory)
    (place numBytes position : Int) : Int × Memory :=
  let fileLength := file.hdr.fileLength
  if numBytes ≤ 0 ∨ fileLength ≤ position then (0, into)
  else
    let numBytes := clip fileLength numBytes position
    let firstSector := divRoundDown position sectorSize
    let lastSector := lastSector numBytes position
    let buf := readSectors file.hdr disk firstSector
      (lastSector + 1 - firstSector).toNat fun _ => 0
    (numBytes,
      Memory.copy buf (position - firstSector * sectorSize) into place numBytes)

/-- The buffer of `WriteAt` once the sectors that are modified in part are in
it; `heap` is what the new buffer held. -/
def partialSectors (file : OpenFile) (disk : Disk) (heap : Memory)
    (numBytes position firstSector lastSector : Int) : Memory :=
  let firstAligned := position = firstSector * sectorSize
  let lastAligned := wrap (position + numBytes) = wrap ((lastSector + 1) * sectorSize)
  let buf :=
    if ¬ firstAligned then
      (file.readAt disk heap 0 sectorSize (firstSector * sectorSize)).2
    else heap
  if ¬ lastAligned ∧ (firstSector ≠ lastSector ∨ firstAligned) then
    (file.readAt disk buf ((lastSector - firstSector) * sectorSize) sectorSize
      (lastSector * sectorSize)).2
  else buf

/-- `OpenFile::WriteAt`: the number of bytes written and the disk. -/
def writeAt (file : OpenFile) (disk : Disk) (heap source : Memory)
    (numBytes position : Int) : Int × Disk :=
  let fileLength := file.hdr.fileLength
  if numBytes ≤ 0 ∨ fileLength ≤ position then (0, disk)
  else
    let numBytes := clip fileLength numBytes position
    let firstSector := divRoundDown position sectorSize
    let lastSector := lastSector numBytes position
    let buf := Memory.copy source 0
      (file.partialSectors disk heap numBytes position firstSector lastSector)
      (position - firstSector * sectorSize) numBytes
    (numBytes, writeSectors file.hdr firstSector buf
      (lastSector + 1 - firstSector).toNat disk)

/-- `OpenFile::Seek`. -/
def seek (file : OpenFile) (position : Int) : OpenFile :=
  { file with seekPosition := position }

/-- `OpenFile::Read`. -/
def read (file : OpenFile) (disk : Disk) (into : Memory) (numBytes : Int) :
    Int × Memory × OpenFile :=
  let result := file.readAt disk into 0 numBytes file.seekPosition
  (result.1, result.2,
    { file with seekPosition := wrap (file.seekPosition + result.1) })

/-- `OpenFile::Write`. -/
def write (file : OpenFile) (disk : Disk) (heap source : Memory)
    (numBytes : Int) : Int × Disk × OpenFile :=
  let result := file.writeAt disk heap source numBytes file.seekPosition
  (result.1, result.2,
    { file with seekPosition := wrap (file.seekPosition + result.1) })

end OpenFile

end Nachos
