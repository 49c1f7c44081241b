/-
Module: Nachos.FileSys.FileSystem
Purpose: The file system of filesys.cc, and the runs of a program that uses
  it: it creates, opens and removes files, writes to those it has opened, and
  mounts the disk again.
Trusted boundary: one thread uses the file system.
Main exports: FileSystem, FileSystem.format, FileSystem.mount,
  FileSystem.create, FileSystem.openFile, FileSystem.remove, Session,
  FileAction, sessionMachine, Session.Proper
-/
import Nachos.FileSys.Allocation
import Nachos.FileSys.Directory
import Nachos.Lib.Transition

namespace Nachos

open Lib

/-- `FreeMapSector` and `DirectorySector` of filesys.cc. -/
abbrev freeMapSector : Int := 0

abbrev directorySector : Int := 1

/-- `NumDirEntries` of filesys.cc. -/
abbrev numDirEntries : Int := 10

/-- `FreeMapFileSize` and `DirectoryFileSize` of filesys.cc. -/
abbrev freeMapFileSize : Int := 128

abbrev directoryFileSize : Int := 200

/-- `class FileSystem`, with the disk it is on. -/
structure FileSystem where
  disk : Disk
  freeMapFile : OpenFile
  directoryFile : OpenFile

namespace FileSystem

/-- The two files that stay open while Nachos is running. -/
def mount (disk : Disk) : FileSystem where
  disk := disk
  freeMapFile := .openAt freeMapSector disk
  directoryFile := .openAt directorySector disk

/-- The words of a new array, as many as there are in memory. -/
def newWords (heap : Memory) : Int → BitVec 32 :=
  fun w => heap.getWord (4 * w)

/-- `FileSystem::FileSystem(TRUE)`; `none` when an assertion fails.  What the
blocks of new memory hold is given by `heap`, in the order of their
allocation. -/
def format (heap : Nat → Memory) (disk : Disk) : Option FileSystem := do
  let freeMap := BitMap.construct numSectors (newWords (heap 0))
  let directory := Directory.construct numDirEntries (heap 1)
  let reserved := (freeMap.mark freeMapSector).mark directorySector
  let (mapHdr, reserved) ←
    FileHeader.allocate (.ofMemory (heap 2)) reserved freeMapFileSize
  let (dirHdr, reserved) ←
    FileHeader.allocate (.ofMemory (heap 3)) reserved directoryFileSize
  let fs := mount
    (dirHdr.writeBack directorySector (mapHdr.writeBack freeMapSector disk))
  let disk := reserved.writeBack fs.freeMapFile (heap 4) fs.disk
  let disk := directory.writeBack fs.directoryFile (heap 5) disk
  some { fs with disk := disk }

/-- The directory as it is read from disk into a new table. -/
def fetchDirectory (heap : Memory) (fs : FileSystem) : Directory :=
  (Directory.construct numDirEntries heap).fetchFrom fs.directoryFile fs.disk

/-- The free map as it is read from disk into a new bit map. -/
def fetchFreeMap (heap : Memory) (fs : FileSystem) : BitMap :=
  (BitMap.construct numSectors (newWords heap)).fetchFrom fs.freeMapFile fs.disk

/-- `FileSystem::Create`. -/
def create (heap : Nat → Memory) (name : Memory) (initialSize : Int)
    (fs : FileSystem) : Bool × FileSystem :=
  let directory := fs.fetchDirectory (heap 0)
  if directory.find name ≠ -1 then (false, fs)
  else
    let (sector, freeMap) := (fs.fetchFreeMap (heap 1)).find
    if sector = -1 then (false, fs)
    else
      match directory.add name sector with
      | none => (false, fs)
      | some directory =>
          match FileHeader.allocate (.ofMemory (heap 2)) freeMap initialSize with
          | none => (false, fs)
          | some (hdr, freeMap) =>
              let disk := hdr.writeBack sector fs.disk
              let disk := directory.writeBack fs.directoryFile (heap 3) disk
              let disk := freeMap.writeBack fs.freeMapFile (heap 4) disk
              (true, { fs with disk := disk })

/-- `FileSystem::Open`, `none` being NULL. -/
def openFile (heap : Memory) (name : Memory) (fs : FileSystem) : Option OpenFile :=
  let sector := (fs.fetchDirectory heap).find name
  if 0 ≤ sector then some (.openAt sector fs.disk) else none

/-- `FileSystem::Remove`; `none` when an assertion fails. -/
def remove (heap : Nat → Memory) (name : Memory) (fs : FileSystem) :
    Option (Bool × FileSystem) :=
  let directory := fs.fetchDirectory (heap 0)
  let sector := directory.find name
  if sector = -1 then some (false, fs)
  else
    let fileHdr := FileHeader.fetchFrom sector fs.disk
    (fileHdr.deallocate (fs.fetchFreeMap (heap 1))).bind fun freeMap =>
      if 0 ≤ sector ∧ sector < numSectors then
        let freeMap := freeMap.clear sector
        let directory := (directory.remove name).getD directory
        let disk := freeMap.writeBack fs.freeMapFile (heap 2) fs.disk
        let disk := directory.writeBack fs.directoryFile (heap 3) disk
        some (true, { fs with disk := disk })
      else none

end FileSystem

/-! ### Programs that use it -/

/-- An `OpenFile` that the program has got, with the sector of its header and
whether the file has not been removed since; no routine reads these two. -/
structure Handle where
  file : OpenFile
  sector : Int
  live : Bool

/-- A program and the file system. -/
structure Session where
  fs : FileSystem
  handles : List Handle

/-- What the program does next. -/
inductive FileAction where
  | create (heap : Nat → Memory) (name : Memory) (initialSize : Int)
  | openFile (heap : Memory) (name : Memory)
  | remove (heap : Nat → Memory) (name : Memory)
  /-- `WriteAt` through one of the open files -/
  | writeAt (handle : Nat) (heap source : Memory) (numBytes position : Int)
  /-- Nachos is started again on the disk, with `format` FALSE -/
  | mount

namespace Session

/-- The files with a header in this sector are gone. -/
def forget (sector : Int) (handles : List Handle) : List Handle :=
  handles.map fun h => { h with live := h.live && h.sector != sector }

/-- The program keeps what `Open` returns, unless it is NULL. -/
def opened (s : Session) (sector : Int) : Option OpenFile → Session
  | none => s
  | some file => { s with handles := s.handles ++ [⟨file, sector, true⟩] }

/-- One step; `none` when an assertion fails, or where there is no such open
file. -/
def step (s : Session) : FileAction → Option Session
  | .create heap name initialSize =>
      some { s with fs := (s.fs.create heap name initialSize).2 }
  | .openFile heap name =>
      some (s.opened ((s.fs.fetchDirectory heap).find name) (s.fs.openFile heap name))
  | .remove heap name =>
      (s.fs.remove heap name).map fun result =>
        { fs := result.2
          handles :=
            if result.1 then
              forget ((s.fs.fetchDirectory (heap 0)).find name) s.handles
            else s.handles }
  | .writeAt handle heap source numBytes position =>
      s.handles[handle]?.map fun h =>
        { s with fs := { s.fs with
            disk := (h.file.writeAt s.fs.disk heap source numBytes position).2 } }
  | .mount => some { fs := .mount s.fs.disk, handles := [] }

/-- Sizes are those that a header can hold, and writes are in range and go to
files that have not been removed. -/
def Proper (s : Session) : FileAction → Prop
  | .create _ _ initialSize => 0 ≤ initialSize ∧ initialSize ≤ maxFileSize
  | .writeAt handle _ _ numBytes position =>
      0 ≤ position ∧ position + numBytes < 2 ^ 31 ∧
        ∀ h, s.handles[handle]? = some h → h.live = true
  | _ => True

end Session

/-- Programs that use the file system, as a machine. -/
def sessionMachine : Machine Session FileAction where
  step := Session.step

end Nachos
