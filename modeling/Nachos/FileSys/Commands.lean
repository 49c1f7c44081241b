/-
Module: Nachos.FileSys.Commands
Purpose: The commands of fstest.cc and main.cc on the Nachos disk: `-cp`, `-p`,
  `-r`, `-t` and `-f`.  A store of strings under the beginnings of their names is
  what they are about: whatever the disk looks like, each command prints and
  does what the store tells.
Trusted boundary: one thread uses the file system; UNIX files do not change
  while they are copied.
Main exports: Printed, FileCommand, FileSystem.command, FileStore,
  FileStore.command, FileSystem.Stores, commands_answered_as_store
-/
import Nachos.FileSys.Keys
import Nachos.FileSys.Room
import Nachos.FileSys.RoundTrip
import Nachos.FileSys.Undoing

namespace Nachos

open Lib

/-! ### What is printed -/

/-- A call of `printf`, or of `stats->Print`. -/
inductive Printed where
  | text (format : String)
  | file (format : String) (name : Memory)
  | sizes (format : String) (fileSize chunkSize : Int)
  | char (c : UInt8)
  | statistics

/-- `TransferSize`. -/
abbrev transferSize : Nat := 10

/-- `FileName`: "TestFile". -/
def testFile : Memory := .ofList [84, 101, 115, 116, 70, 105, 108, 101]

/-- `Contents`: "1234567890". -/
def testContents : Memory := .ofList [49, 50, 51, 52, 53, 54, 55, 56, 57, 48]

/-- `ContentSize`. -/
abbrev contentSize : Nat := 10

/-- `FileSize`. -/
abbrev testFileSize : Int := contentSize * 5000

/-! ### The loops -/

namespace OpenFile

/-- The loop of `Copy`: the disk once `fread` has got nothing of the rest of the
UNIX file, `none` when `fuel` does not last till then.  The buffer that `WriteAt`
allocates in round `n` holds `heap n`. -/
def copyLoop : Nat → (Nat → Memory) → List UInt8 → Memory → OpenFile → Disk → Option Disk
  | 0, _, _, _, _, _ => none
  | fuel + 1, heap, unread, buffer, file, disk =>
      let chunk := unread.take transferSize
      let buffer := Memory.copy (.ofList chunk) 0 buffer 0 chunk.length
      if 0 < chunk.length then
        let result := file.write disk (heap 0) buffer chunk.length
        copyLoop fuel (fun n => heap (n + 1)) (unread.drop transferSize) buffer result.2.2
          result.2.1
      else some disk

/-- The loop of `Print`. -/
def printLoop (disk : Disk) : Nat → Memory → OpenFile → Option (List Printed)
  | 0, _, _ => none
  | fuel + 1, buffer, file =>
      let result := file.read disk buffer transferSize
      if 0 < result.1 then
        (printLoop disk fuel result.2.1 result.2.2).map
          ((result.2.1.toList result.1.toNat).map Printed.char ++ ·)
      else some []

/-- The loop of `FileWrite` with `count` rounds to go: whether they all write, and
the disk. -/
def fileWriteLoop : Nat → (Nat → Memory) → OpenFile → Disk → Bool × Disk
  | 0, _, _, disk => (true, disk)
  | count + 1, heap, file, disk =>
      let result := file.write disk (heap 0) testContents contentSize
      if result.1 < 10 then (false, result.2.1)
      else fileWriteLoop count (fun n => heap (n + 1)) result.2.2 result.2.1

/-- The loop of `FileRead` with `count` rounds to go: whether they all read
`Contents`. -/
def fileReadLoop (disk : Disk) : Nat → Memory → OpenFile → Bool
  | 0, _, _ => true
  | count + 1, buffer, file =>
      let result := file.read disk buffer contentSize
      if result.1 < 10 ∨ ¬ strncmpIsZero result.2.1 testContents contentSize then false
      else fileReadLoop disk count result.2.1 result.2.2

end OpenFile

/-! ### The commands -/

namespace FileSystem

/-- `Copy` of the UNIX file `source`, `bytes` being what it holds when `fopen`
succeeds; `none` when the assertion fails or a loop does not end.  Blocks of new
memory hold `heap`, by the routine that allocates them. -/
def copy (fuel : Nat) (heap : Nat → Nat → Memory) (source : Memory)
    (bytes : Option (List UInt8)) (target : Memory) (fs : FileSystem) :
    Option (List Printed × FileSystem) :=
  match bytes with
  | none => some ([.file "Copy: couldn't open input file %s\n" source], fs)
  | some bytes =>
      let (created, fs) := fs.create (heap 0) target bytes.length
      if !created then some ([.file "Copy: couldn't create output file %s\n" target], fs)
      else
        (fs.openFile (heap 1 0) target).bind fun openFile =>
          (openFile.copyLoop fuel (heap 2) bytes (heap 1 1) fs.disk).map fun disk =>
            ([], { fs with disk := disk })

/-- `Print`. -/
def print (fuel : Nat) (heap : Nat → Memory) (name : Memory) (fs : FileSystem) :
    Option (List Printed) :=
  match fs.openFile (heap 0) name with
  | none => some [.file "Print: unable to open file %s\n" name]
  | some openFile => openFile.printLoop fs.disk fuel (heap 1)

/-- `FileWrite`. -/
def fileWrite (heap : Nat → Nat → Memory) (fs : FileSystem) : List Printed × FileSystem :=
  let header := Printed.sizes "Sequential write of %d byte file, in %d byte chunks\n"
    testFileSize contentSize
  let (created, fs) := fs.create (heap 0) testFile 0
  if !created then ([header, .file "Perf test: can't create %s\n" testFile], fs)
  else
    match fs.openFile (heap 1 0) testFile with
    | none => ([header, .file "Perf test: unable to open %s\n" testFile], fs)
    | some openFile =>
        let (written, disk) := openFile.fileWriteLoop 5000 (heap 2) fs.disk
        let fs := { fs with disk := disk }
        if written then ([header], fs)
        else ([header, .file "Perf test: unable to write %s\n" testFile], fs)

/-- `FileRead`. -/
def fileRead (heap : Nat → Memory) (fs : FileSystem) : List Printed :=
  let header := Printed.sizes "Sequential read of %d byte file, in %d byte chunks\n"
    testFileSize contentSize
  match fs.openFile (heap 1) testFile with
  | none => [header, .file "Perf test: unable to open file %s\n" testFile]
  | some openFile =>
      if openFile.fileReadLoop fs.disk 5000 (heap 0) then [header]
      else [header, .file "Perf test: unable to read %s\n" testFile]

/-- `PerformanceTest`. -/
def performanceTest (heap : Nat → Nat → Memory) (fs : FileSystem) :
    Option (List Printed × FileSystem) :=
  let (writing, fs) := fs.fileWrite heap
  let reading := fs.fileRead (heap 3)
  (fs.remove (heap 4) testFile).map fun (removed, fs) =>
    ([.text "Starting file system performance test:\n", .statistics] ++ writing ++ reading ++
      (if !removed then [.file "Perf test: unable to remove %s\n" testFile]
        else [.statistics]), fs)

end FileSystem

/-- The commands, and a new run of Nachos on the disk, without `-f` and with it. -/
inductive FileCommand where
  | copy (heap : Nat → Nat → Memory) (source : Memory) (bytes : Option (List UInt8))
      (target : Memory)
  | print (heap : Nat → Memory) (name : Memory)
  | remove (heap : Nat → Memory) (name : Memory)
  | performanceTest (heap : Nat → Nat → Memory)
  | restart
  | format (heap : Nat → Memory)

/-- A file that is copied is one that a header can hold. -/
def FileCommand.Fits : FileCommand → Prop
  | .copy _ _ (some bytes) _ => bytes.length ≤ maxFileSize
  | _ => True

namespace FileSystem

/-- What a command prints, and the file system after it. -/
def command (fuel : Nat) (fs : FileSystem) : FileCommand → Option (List Printed × FileSystem)
  | .copy heap source bytes target => fs.copy fuel heap source bytes target
  | .print heap name => (fs.print fuel heap name).map fun printed => (printed, fs)
  | .remove heap name => (fs.remove heap name).map fun result => ([], result.2)
  | .performanceTest heap => fs.performanceTest heap
  | .restart => some ([], .mount fs.disk)
  | .format heap => (FileSystem.format heap fs.disk).map fun fs => ([], fs)

/-- What a sequence of commands prints, and the file system after it. -/
def commands (fuel : Nat) : FileSystem → List FileCommand →
    Option (List (List Printed) × FileSystem)
  | fs, [] => some ([], fs)
  | fs, command :: commands => do
      let (printed, fs) ← fs.command fuel command
      let (rest, fs) ← FileSystem.commands fuel fs commands
      some (printed :: rest, fs)

end FileSystem

/-! ### The store -/

/-- From the beginnings of names to what the files hold. -/
abbrev FileStore := Finmap fun _ : List UInt8 => List UInt8

namespace FileStore

/-- A file of this name can be made. -/
abbrev HasRoom (m : FileStore) (name : Memory) : Prop :=
  nameKey name ∉ m ∧ m.keys.card < 10

/-- What `Copy` prints, and the store after it. -/
def copy (source : Memory) (bytes : Option (List UInt8)) (target : Memory) (m : FileStore) :
    List Printed × FileStore :=
  match bytes with
  | none => ([.file "Copy: couldn't open input file %s\n" source], m)
  | some bytes =>
      if m.HasRoom target then ([], m.insert (nameKey target) bytes)
      else ([.file "Copy: couldn't create output file %s\n" target], m)

/-- What `Print` prints. -/
def print (name : Memory) (m : FileStore) : List Printed :=
  match m.lookup (nameKey name) with
  | none => [.file "Print: unable to open file %s\n" name]
  | some bytes => bytes.map Printed.char

/-- What the performance test prints. -/
def performanceTest (m : FileStore) : List Printed :=
  [.text "Starting file system performance test:\n", .statistics,
    .sizes "Sequential write of %d byte file, in %d byte chunks\n" testFileSize contentSize,
    if m.HasRoom testFile then .file "Perf test: unable to write %s\n" testFile
      else .file "Perf test: can't create %s\n" testFile,
    .sizes "Sequential read of %d byte file, in %d byte chunks\n" testFileSize contentSize] ++
    if nameKey testFile ∈ m ∨ m.HasRoom testFile then
      [.file "Perf test: unable to read %s\n" testFile, .statistics]
    else [.file "Perf test: unable to open file %s\n" testFile,
      .file "Perf test: unable to remove %s\n" testFile]

/-- What a command prints, and the store after it. -/
def command (m : FileStore) : FileCommand → List Printed × FileStore
  | .copy _ source bytes target => m.copy source bytes target
  | .print _ name => (m.print name, m)
  | .remove _ name => ([], m.erase (nameKey name))
  | .performanceTest _ => (m.performanceTest, m.erase (nameKey testFile))
  | .restart => ([], m)
  | .format _ => ([], ∅)

/-- What a sequence of commands prints, and the store after it. -/
def commands : FileStore → List FileCommand → List (List Printed) × FileStore
  | m, [] => ([], m)
  | m, command :: commands =>
      let result := m.command command
      let rest := FileStore.commands result.2 commands
      (result.1 :: rest.1, rest.2)

end FileStore

/-! ### The loops end -/

theorem Memory.toList_add (m : Memory) (first second : Nat) :
    m.toList (first + second) = m.toList first ++ (m.drop first).toList second := by
  unfold Memory.toList Memory.drop
  rw [List.range_add, List.map_append, List.map_map]
  congr 1

namespace OpenFile

variable {file : OpenFile} {disk : Disk} {fuel : Nat}

/-- A `Read` before the end of the file gets the next bytes. -/
theorem read_next (sound : file.hdr.Sound) (start : 0 ≤ file.seekPosition)
    (inside : file.seekPosition < file.hdr.numBytes) (buffer : Memory) {size : Nat}
    (asks : 0 < size) (small : size ≤ 10) :
    ∃ count : Nat, (count : Int) = min (size : Int) (file.hdr.numBytes - file.seekPosition) ∧
      ∃ buffer' : Memory, file.read disk buffer size =
          ((count : Int), buffer', { file with seekPosition := file.seekPosition + count }) ∧
        buffer'.toList count =
          Memory.toList (Memory.drop file.seekPosition (file.hdr.content disk)) count := by
  have bound := sound.numBytes_le
  simp only [maxFileSize] at bound
  refine ⟨(min (size : Int) (file.hdr.numBytes - file.seekPosition)).toNat, by omega,
    Memory.copy (file.hdr.content disk) file.seekPosition buffer 0
      (min (size : Int) (file.hdr.numBytes - file.seekPosition)), ?_, ?_⟩
  · unfold read
    dsimp only
    rw [readAt_eq sound buffer 0 start (by omega) inside (by omega)]
    dsimp only
    rw [wrap_eq_self (by omega) (by omega), Int.toNat_of_nonneg (by omega)]
  · apply Memory.toList_congr
    intro i low high
    rw [Memory.copy_inside _ _ low (by omega), Int.sub_zero, Memory.drop]

/-- `Print` prints what the file holds. -/
theorem printLoop_eq (sound : file.hdr.Sound) (start : 0 ≤ file.seekPosition)
    (within : file.seekPosition ≤ file.hdr.numBytes) (buffer : Memory)
    (enough : file.hdr.numBytes - file.seekPosition + 10 ≤ 10 * fuel) :
    file.printLoop disk fuel buffer =
      some ((Memory.toList (Memory.drop file.seekPosition (file.hdr.content disk))
        (file.hdr.numBytes - file.seekPosition).toNat).map Printed.char) := by
  induction fuel generalizing file buffer with
  | zero => omega
  | succ fuel inductionHypothesis =>
      unfold printLoop
      dsimp only
      by_cases inside : file.seekPosition < file.hdr.numBytes
      · obtain ⟨count, length, buffer', call, bytes⟩ :=
          @read_next file disk sound start inside buffer transferSize (by decide) (by decide)
        have size : ((transferSize : Nat) : Int) = 10 := rfl
        have rest := @inductionHypothesis
          { file with seekPosition := file.seekPosition + count } sound
          (by dsimp only; omega) (by dsimp only; omega) buffer' (by dsimp only; omega)
        have pointer : Memory.drop (file.seekPosition + count) (file.hdr.content disk) =
            Memory.drop count (Memory.drop file.seekPosition (file.hdr.content disk)) := by
          funext i
          simp only [Memory.drop, Int.add_assoc]
        rw [call]
        dsimp only at rest ⊢
        rw [if_pos (by omega), rest, Option.map_some, Int.toNat_natCast, bytes, pointer,
          ← List.map_append, ← Memory.toList_add]
        congr 3
        omega
      · rw [read_finished (by omega), if_neg (by decide)]
        have none : (file.hdr.numBytes - file.seekPosition).toNat = 0 := by omega
        rw [none]
        rfl

/-- `WriteAt` looks at no other bytes of its source than those it is to write. -/
theorem write_congr (sound : file.hdr.Sound) (start : 0 ≤ file.seekPosition) (heap : Memory)
    {numBytes : Int} (fits : file.seekPosition + numBytes ≤ file.hdr.numBytes)
    {source source' : Memory} (agree : Memory.Agree numBytes source source') :
    file.write disk heap source numBytes = file.write disk heap source' numBytes := by
  have bound := sound.numBytes_le
  simp only [maxFileSize] at bound
  unfold write
  by_cases nothing : numBytes ≤ 0
  · rw [writeAt_nothing heap source (.inl nothing), writeAt_nothing heap source' (.inl nothing)]
  · have same : ∀ (target : Memory) (place : Int),
        Memory.copy source 0 target place numBytes =
          Memory.copy source' 0 target place numBytes := by
      intro target place
      funext i
      unfold Memory.copy
      split
      · exact agree _ (by omega) (by omega)
      · rfl
    have whole : min numBytes (file.hdr.numBytes - file.seekPosition) = numBytes :=
      Int.min_eq_left (by omega)
    rw [writeAt_eq sound heap source start (by omega) (by omega) (by omega) rfl,
      writeAt_eq sound heap source' start (by omega) (by omega) (by omega) rfl, whole, same]

/-- `Copy` writes the UNIX file in chunks. -/
theorem copyLoop_eq (sound : file.hdr.Sound) (start : 0 ≤ file.seekPosition)
    (heap : Nat → Memory) (buffer : Memory) {unread : List UInt8}
    (fits : file.seekPosition + unread.length ≤ file.hdr.numBytes)
    (enough : unread.length + 10 ≤ 10 * fuel) :
    ∃ writes : List (List UInt8), writes.flatten = unread ∧
      file.copyLoop fuel heap unread buffer disk =
        some (writeChunks heap writes file disk).2.1 := by
  induction fuel generalizing file disk heap buffer unread with
  | zero => omega
  | succ fuel inductionHypothesis =>
      have split := List.take_append_drop transferSize unread
      have length := congrArg List.length split
      have left : (unread.drop transferSize).length = unread.length - 10 := List.length_drop
      rw [List.length_append] at length
      unfold copyLoop
      dsimp only
      by_cases some : 0 < (unread.take transferSize).length
      · have agree := Memory.agree_copy (.ofList (unread.take transferSize)) buffer
          (unread.take transferSize).length
        have call := @write_congr file disk sound start (heap 0)
          (unread.take transferSize).length (by omega) _ _ agree
        obtain ⟨disk', written, -⟩ :=
          @write_chunk file disk sound start (heap 0) (unread.take transferSize) (by omega)
        obtain ⟨writes, cut, rest⟩ := @inductionHypothesis
          { file with seekPosition := file.seekPosition + (unread.take transferSize).length }
          disk' sound (by dsimp only; omega) (fun n => heap (n + 1))
          (Memory.copy (.ofList (unread.take transferSize)) 0 buffer 0
            (unread.take transferSize).length)
          (unread.drop transferSize) (by dsimp only; omega) (by omega)
        refine ⟨unread.take transferSize :: writes, ?_, ?_⟩
        · rw [List.flatten_cons, cut, split]
        · rw [if_pos some, call, written, writeChunks, written]
          exact rest
      · refine ⟨[], ?_, ?_⟩
        · rw [List.flatten_nil]
          apply (List.eq_nil_of_length_eq_zero _).symm
          omega
        · rw [if_neg some]
          rfl

/-- The disk after a UNIX file has been copied to a file of its length. -/
theorem copyLoop_spec (sound : file.hdr.Sound) (start : file.seekPosition = 0)
    {bytes : List UInt8} (length : file.hdr.numBytes = bytes.length) (heap : Nat → Memory)
    (buffer : Memory) (enough : 385 ≤ fuel) :
    ∃ disk', file.copyLoop fuel heap bytes buffer disk = some disk' ∧
      (∀ i, 0 ≤ i → i < file.hdr.numBytes →
        file.hdr.content disk' i = Memory.ofList bytes i) ∧
      ∀ s, (∀ i, 0 ≤ i → i < file.hdr.numSectors → s ≠ file.hdr.dataSectors i) →
        disk' s = disk s := by
  have bound := sound.numBytes_le
  simp only [maxFileSize] at bound
  obtain ⟨writes, rfl, ends⟩ := @copyLoop_eq file disk fuel sound (by omega) heap buffer bytes
    (by omega) (by omega)
  obtain ⟨-, content, others⟩ := @writeChunks_spec file disk sound (by omega) heap writes
    (by omega)
  refine ⟨_, ends, ?_, others⟩
  intro i low high
  rw [content i low high, if_pos (by omega), start, Int.sub_zero]

/-- Nothing can be written to an empty file. -/
theorem fileWriteLoop_empty (empty : file.hdr.numBytes ≤ file.seekPosition) (count : Nat)
    (heap : Nat → Memory) : file.fileWriteLoop (count + 1) heap disk = (false, disk) := by
  unfold fileWriteLoop write
  dsimp only
  rw [writeAt_nothing _ _ (.inr empty)]
  exact if_pos (show (0 : Int) < 10 by decide)

/-- A file never lasts for all the rounds of `FileRead`. -/
theorem fileReadLoop_false (sound : file.hdr.Sound) (start : 0 ≤ file.seekPosition)
    (within : file.seekPosition ≤ file.hdr.numBytes) {count : Nat}
    (short : file.hdr.numBytes < file.seekPosition + 10 * count)
    (buffer : Memory) : file.fileReadLoop disk count buffer = false := by
  induction count generalizing file buffer with
  | zero => omega
  | succ count inductionHypothesis =>
      unfold fileReadLoop
      dsimp only
      by_cases inside : file.seekPosition < file.hdr.numBytes
      · obtain ⟨n, length, buffer', call, -⟩ :=
          @read_next file disk sound start inside buffer contentSize (by decide) (by decide)
        have size : ((contentSize : Nat) : Int) = 10 := rfl
        rw [call]
        dsimp only
        split
        · rfl
        · rename_i goes
          exact @inductionHypothesis { file with seekPosition := file.seekPosition + n } sound
            (by dsimp only; omega) (by dsimp only; omega) (by dsimp only; omega) buffer'
      · rw [read_finished (by omega)]
        exact if_pos (.inl (by decide))

end OpenFile

/-! ### Files as slots -/

namespace FileSystem

variable {fs fs' fs'' : FileSystem} {m : FileStore} {name : Memory} {i : Int} {fuel : Nat}

/-- What an entry stands for: nothing, or the beginning of a name and a string. -/
def slot (fs : FileSystem) (i : Int) : Option (List UInt8 × List UInt8) :=
  (fs.directory.slot i).map fun entry => (entry.1, fs.contents i)

/-- The disk is laid out, and its files are those of the store. -/
structure Stores (fs : FileSystem) (m : FileStore) : Prop where
  laid : fs.Laid
  represents : Represents (Directory.indices 10) fs.slot m

/-- An entry that is the same, with a file that holds the same. -/
theorem slot_congr (entry : Directory.SameEntry fs.directory fs'.directory i)
    (same : fs.volume.inUse i = true → fs'.contents i = fs.contents i) :
    fs'.slot i = fs.slot i := by
  unfold slot
  rw [entry.slot]
  unfold Directory.slot
  cases used : fs.directory.inUse i with
  | false => rw [if_neg Bool.false_ne_true, Option.map_none, Option.map_none]
  | true => rw [if_pos rfl, Option.map_some, Option.map_some, same used]

theorem slot_eq_none : fs.slot i = none ↔ fs.directory.inUse i = false := by
  unfold slot
  rw [Option.map_eq_none_iff, Directory.slot_eq_none]

/-- A name is in the store when `FindIndex` finds it, which then tells where. -/
theorem Stores.findIndex_cases (stores : fs.Stores m) (name : Memory) :
    (fs.directory.findIndex name = -1 ∧ nameKey name ∉ m) ∨
      ∃ i, fs.directory.findIndex name = i ∧ 0 ≤ i ∧ i < 10 ∧ fs.volume.inUse i = true ∧
        fs.slot i = some (nameKey name, fs.contents i) ∧
        m.lookup (nameKey name) = some (fs.contents i) := by
  rcases fs.directory.findIndex_cases name with ⟨missed, absent⟩ | ⟨low, high, holds⟩
  · left
    refine ⟨missed, fun member => ?_⟩
    obtain ⟨i, inside, bytes, atI⟩ := stores.represents.mem_iff.mp member
    have bounds := Directory.mem_indices.mp inside
    obtain ⟨entry, dirAtI, same⟩ := Option.map_eq_some_iff.mp atI
    have present : fs.directory.holds name i = true := by
      rw [Directory.slot_of_holds, dirAtI, ← (Prod.mk.inj same).1,
        ← Directory.sector_of_slot dirAtI]
    rw [absent i bounds.1 bounds.2] at present
    cases present
  · right
    have here : fs.slot (fs.directory.findIndex name) =
        some (nameKey name, fs.contents (fs.directory.findIndex name)) := by
      unfold slot
      rw [Directory.slot_of_holds.mp holds, Option.map_some]
    exact ⟨_, rfl, low, high, Directory.inUse_of_holds holds, here,
      (stores.represents.lookup _ _).mpr ⟨_, Directory.mem_indices.mpr ⟨low, high⟩, here⟩⟩

/-- `Create` finds room exactly when the store has. -/
theorem Stores.hasRoom_iff (stores : fs.Stores m) (name : Memory) :
    m.HasRoom name ↔ fs.directory.findIndex name = -1 ∧
      ∃ i, 0 ≤ i ∧ i < numDirEntries ∧ fs.directory.inUse i = false := by
  have room := stores.represents.room
  rw [Directory.card_indices] at room
  unfold FileStore.HasRoom
  rw [room]
  apply and_congr
  · rcases stores.findIndex_cases name with ⟨missed, absent⟩ | ⟨i, index, low, -, -, -, found⟩
    · exact iff_of_true absent missed
    · refine iff_of_false (fun absent => absent (Finmap.mem_of_lookup_eq_some found)) ?_
      omega
  · constructor
    · rintro ⟨i, inside, free⟩
      have bounds := Directory.mem_indices.mp inside
      exact ⟨i, bounds.1, bounds.2, slot_eq_none.mp free⟩
    · rintro ⟨i, low, high, unused⟩
      exact ⟨i, Directory.mem_indices.mpr ⟨low, high⟩, slot_eq_none.mpr unused⟩

/-! ### Making a file -/

/-- The other entries after `Create`. -/
theorem Laid.slot_created (laid : fs.Laid) {heap : Memory} {initialSize sector : Int}
    {hdr : FileHeader} {freeMap : BitMap}
    (stored : Stored (hdr.writeBack sector fs.disk)
      ((fs.fetchDirectory heap).setEntry i name sector) freeMap fs')
    (created : Created fs name initialSize i sector hdr fs') {j : Int} (low : 0 ≤ j)
    (high : j < 10) (other : j ≠ i) : fs'.slot j = fs.slot j := by
  apply slot_congr
  · exact laid.stored_entry stored low high (Directory.setEntry_other _ name sector other)
  · intro used
    have same := created.volume.hdr j low high (by simpa [Volume.add, other] using used)
    rw [show (fs.volume.add i sector hdr).hdr j = fs.volume.hdr j by simp [Volume.add, other]]
      at same
    apply laid.contents_congr low high used same
    intro k kLow kHigh
    obtain ⟨least, marked⟩ := laid.data_spec low high used kLow kHigh
    have notHeader : (fs.volume.hdr j).dataSectors k ≠ sector := by
      intro equal
      exact created.fresh.unmarked _ .header (equal ▸ marked)
    rw [stored.other _ (by omega) (by omega) (by omega)]
    exact FileHeader.writeBack_other hdr fs.disk notHeader

/-- The new entry after `Create`. -/
theorem slot_of_stored {heap : Memory} {disk : Disk} {sector : Int} {freeMap : BitMap}
    (stored : Stored disk ((fs.fetchDirectory heap).setEntry i name sector) freeMap fs')
    (low : 0 ≤ i) (high : i < 10) (inRange : 0 ≤ sector ∧ sector < 1024) :
    fs'.directory.slot i = some (nameKey name, sector) := by
  rw [(stored.entry i low high).slot,
    Directory.slot_setEntry _ i name (by omega) (by omega), Function.update_self]

/-- A write to the file of one entry leaves the others as they are. -/
theorem Laid.slot_written (laid : fs.Laid) (low : 0 ≤ i) (high : i < 10)
    (used : fs.volume.inUse i = true) (same : SameFiles fs fs')
    (others : ∀ s, (∀ k, 0 ≤ k → k < (fs.volume.hdr i).numSectors →
      s ≠ (fs.volume.hdr i).dataSectors k) → fs'.disk s = fs.disk s)
    {j : Int} (jLow : 0 ≤ j) (jHigh : j < 10) (other : j ≠ i) : fs'.slot j = fs.slot j := by
  apply slot_congr (same.entry j jLow jHigh)
  intro jUsed
  apply laid.contents_congr jLow jHigh jUsed (same.volume.hdr j jLow jHigh jUsed)
  intro k kLow kHigh
  apply others
  intro l lLow lHigh equal
  have mine : fs.volume.Owns (.data i l) ((fs.volume.hdr j).dataSectors k) :=
    ⟨low, high, used, lLow, lHigh, equal⟩
  cases laid.valid.unique _ (.data j k) _ mine ⟨jLow, jHigh, jUsed, kLow, kHigh, rfl⟩
  exact other rfl

/-- A file of entry `i` holds a string. -/
theorem contents_eq {hdr : FileHeader} {bytes : List UInt8}
    (same : hdr.SameFile (fs.volume.hdr i)) (sound : hdr.Sound)
    (length : hdr.numBytes = bytes.length)
    (holds : ∀ k, 0 ≤ k → k < hdr.numBytes → hdr.content fs.disk k = Memory.ofList bytes k) :
    fs.contents i = bytes := by
  unfold contents
  rw [same.numBytes, length, Int.toNat_natCast]
  apply Memory.toList_eq_of_forall
  intro k bound
  rw [same.content sound fs.disk (by omega) (by omega), holds k (by omega) (by omega)]

/-- A new file in which a string has been written. -/
theorem Stores.copied (stores : fs.Stores m) {heap : Nat → Memory} {bytes : List UInt8}
    (small : (bytes.length : Int) ≤ maxFileSize)
    (success : fs.create heap name bytes.length = (true, fs')) :
    ∃ i, fs'.directory.findIndex name = i ∧ 0 ≤ i ∧ fs'.Laid ∧
      (fs'.volume.hdr i).Sound ∧ (fs'.volume.hdr i).numBytes = bytes.length ∧
      ∀ disk : Disk,
        (∀ s, (∀ k, 0 ≤ k → k < (fs'.volume.hdr i).numSectors →
          s ≠ (fs'.volume.hdr i).dataSectors k) → disk s = fs'.disk s) →
        (∀ k, 0 ≤ k → k < (fs'.volume.hdr i).numBytes →
          (fs'.volume.hdr i).content disk k = Memory.ofList bytes k) →
        Stores { fs' with disk := disk } (m.insert (nameKey name) bytes) := by
  obtain ⟨i, sector, hdr, freeMap, -, -, stored, created⟩ :=
    stores.laid.created_stored (by omega) small success
  have used := created.used
  have sound := created.laid.valid.sound i created.low created.high used
  have length := created.sameFile.numBytes.trans created.numBytes
  refine ⟨i, created.entry, created.low, created.laid, sound, length, ?_⟩
  intro disk others holds
  have has : fs'.volume.Has (fs'.volume.sector i) (fs'.volume.hdr i) :=
    ⟨i, created.low, created.high, used, rfl, .refl _⟩
  have same := created.laid.sameFiles has others
  have inside : i ∈ Directory.indices 10 :=
    Directory.mem_indices.mpr ⟨created.low, created.high⟩
  obtain ⟨absent, -⟩ := (stores.hasRoom_iff name).mpr
    ⟨(stores.laid.room_of_create success).1, i, created.low, created.high, created.unused⟩
  refine ⟨same.laid, ?_⟩
  apply (stores.represents.fill inside (slot_eq_none.mpr created.unused) absent bytes).congr
  intro j jInside
  obtain ⟨jLow, jHigh⟩ := Directory.mem_indices.mp jInside
  by_cases here : j = i
  · rw [here, Function.update_self]
    unfold slot
    rw [(same.entry i created.low created.high).slot,
      slot_of_stored stored created.low created.high
        (created.fresh.range sector .header), Option.map_some,
      contents_eq (same.volume.hdr i created.low created.high used) sound length holds]
  · rw [Function.update_of_ne here]
    exact (created.laid.slot_written created.low created.high used same others jLow jHigh
      here).trans (stores.laid.slot_created stored created jLow jHigh here)

/-! ### One command -/

/-- `Remove` takes the name out of the store. -/
theorem Stores.remove (stores : fs.Stores m) (heap : Nat → Memory) (name : Memory) :
    ∃ fs', fs.remove heap name = some (decide (nameKey name ∈ m), fs') ∧
      fs'.Stores (m.erase (nameKey name)) := by
  rcases stores.findIndex_cases name with
    ⟨missed, absent⟩ | ⟨i, index, low, high, used, atI, found⟩
  · refine ⟨fs, ?_, ?_⟩
    · rw [stores.laid.remove_absent heap missed, decide_eq_false absent]
    · rw [erase_of_absent absent]
      exact stores
  · obtain ⟨freeMap, fs', gone, stored, removed⟩ :=
      stores.laid.removed_stored heap index low
    have inside : i ∈ Directory.indices 10 := Directory.mem_indices.mpr ⟨low, high⟩
    refine ⟨fs', ?_, removed.laid, ?_⟩
    · rw [gone, decide_eq_true (Finmap.mem_of_lookup_eq_some found)]
    · apply (stores.represents.release inside atI).congr
      intro j jInside
      obtain ⟨jLow, jHigh⟩ := Directory.mem_indices.mp jInside
      by_cases here : j = i
      · rw [here, Function.update_self, slot_eq_none, (stored.entry i low high).inUse]
        exact Directory.setInUse_inUse _ i false
      · rw [Function.update_of_ne here]
        apply slot_congr
        · exact stores.laid.stored_entry stored jLow jHigh
            (Directory.setInUse_other _ false here)
        · intro jUsed
          have same := removed.volume.hdr j jLow jHigh
            (by simpa [Volume.drop, here] using jUsed)
          apply stores.laid.contents_congr jLow jHigh jUsed same
          intro k kLow kHigh
          obtain ⟨least, -⟩ := stores.laid.data_spec jLow jHigh jUsed kLow kHigh
          exact stored.other _ (by omega) (by omega) (by omega)

/-- A new run of Nachos finds the files. -/
theorem Stores.mount (stores : fs.Stores m) : (FileSystem.mount fs.disk).Stores m := by
  have laid := stores.laid.mount
  refine ⟨laid, stores.represents.congr ?_⟩
  intro i inside
  obtain ⟨low, high⟩ := Directory.mem_indices.mp inside
  have same : fs.volume.Same (FileSystem.mount fs.disk).volume :=
    stores.laid.volume_same laid.mapFile laid.dirFile (fun _ _ _ => rfl) (fun _ _ _ _ => rfl)
  apply slot_congr
  · exact stores.laid.directory_same laid.dirFile (fun _ _ _ => rfl) low high
  · intro used
    exact stores.laid.contents_congr low high used (same.hdr i low high used)
      (fun _ _ _ => rfl)

/-- A formatted disk has no files. -/
theorem Formatted.stores (spec : fs.Formatted) : fs.Stores ∅ := by
  refine ⟨spec.laid, Represents.empty ?_⟩
  intro i inside
  obtain ⟨low, high⟩ := Directory.mem_indices.mp inside
  rw [slot_eq_none]
  exact spec.empty i low high

/-- `Open` fails for a name that is not in the store, and else gives a file that
holds what the store has. -/
theorem Stores.openFile (stores : fs.Stores m) (heap name : Memory) :
    (fs.openFile heap name = none ∧ m.lookup (nameKey name) = none) ∨
      ∃ file bytes, fs.openFile heap name = some file ∧ m.lookup (nameKey name) = some bytes ∧
        file.hdr.Sound ∧ file.seekPosition = 0 ∧
        Memory.toList (file.hdr.content fs.disk) file.hdr.numBytes.toNat = bytes := by
  rcases stores.findIndex_cases name with
    ⟨missed, absent⟩ | ⟨i, index, low, high, used, -, found⟩
  · left
    refine ⟨?_, Finmap.lookup_eq_none.mpr absent⟩
    rcases stores.laid.find_cases heap name with lookup | ⟨i, index, low, -⟩
    · unfold FileSystem.openFile
      dsimp only
      rw [lookup.2, if_neg (by decide)]
    · omega
  · right
    exact ⟨_, _, stores.laid.openFile_eq heap index low, found,
      stores.laid.valid.sound i low high used, rfl, rfl⟩

/-- `Copy`. -/
theorem Stores.copy (stores : fs.Stores m) (heap : Nat → Nat → Memory) (source : Memory)
    {bytes : Option (List UInt8)} (target : Memory)
    (fits : (FileCommand.copy heap source bytes target).Fits) (enough : 385 ≤ fuel) :
    ∃ fs', fs.copy fuel heap source bytes target =
        some ((m.copy source bytes target).1, fs') ∧
      fs'.Stores (m.copy source bytes target).2 := by
  cases bytes with
  | none => exact ⟨fs, rfl, stores⟩
  | some bytes =>
      have small : (bytes.length : Int) ≤ maxFileSize := fits
      have room := stores.hasRoom_iff target
      unfold FileSystem.copy FileStore.copy
      dsimp only
      rcases stores.laid.create_cases (heap 0) target (by omega) small with
        ⟨failed, full⟩ | ⟨fs', success, free⟩
      · rw [failed, if_neg (fun has => full (room.mp has))]
        exact ⟨fs, rfl, stores⟩
      · obtain ⟨i, index, low, laid, sound, length, copied⟩ := stores.copied small success
        have opened := laid.openFile_eq (heap 1 0) index low
        obtain ⟨disk, ends, holds, others⟩ := @OpenFile.copyLoop_spec
          (.openAt (fs'.volume.sector i) fs'.disk) fs'.disk fuel sound rfl bytes length (heap 2)
          (heap 1 1) enough
        rw [success, if_pos (room.mpr free)]
        dsimp only
        rw [opened]
        simp only [Bool.not_true, Bool.false_eq_true, if_false, Option.bind_some]
        rw [ends]
        exact ⟨_, rfl, copied disk others holds⟩

/-- `Print`. -/
theorem Stores.print (stores : fs.Stores m) (heap : Nat → Memory) (name : Memory)
    (enough : 385 ≤ fuel) :
    fs.print fuel heap name = some (m.print name) := by
  unfold FileSystem.print FileStore.print
  rcases stores.openFile (heap 0) name with
    ⟨missed, absent⟩ | ⟨file, bytes, opened, found, sound, start, holds⟩
  · rw [missed, absent]
  · have bound := sound.numBytes_le
    simp only [maxFileSize] at bound
    have whole : Memory.drop file.seekPosition (file.hdr.content fs.disk) =
        file.hdr.content fs.disk := by
      funext k
      rw [Memory.drop, start, Int.zero_add]
    rw [opened, found]
    dsimp only
    rw [OpenFile.printLoop_eq sound (by omega) (by have := sound.nonneg; omega) (heap 1)
      (by omega), whole, start, Int.sub_zero, holds]

/-- `FileWrite` makes an empty file and cannot write to it, or makes none. -/
theorem Stores.fileWrite (stores : fs.Stores m) (heap : Nat → Nat → Memory) :
    ∃ fs', fs'.Stores (if m.HasRoom testFile then m.insert (nameKey testFile) [] else m) ∧
      fs.fileWrite heap =
        ([.sizes "Sequential write of %d byte file, in %d byte chunks\n" testFileSize
            contentSize,
          if m.HasRoom testFile then .file "Perf test: unable to write %s\n" testFile
            else .file "Perf test: can't create %s\n" testFile], fs') := by
  have room := stores.hasRoom_iff testFile
  unfold FileSystem.fileWrite
  dsimp only
  rcases stores.laid.create_cases (heap 0) testFile (Int.le_refl 0) (by decide) with
    ⟨failed, full⟩ | ⟨fs', success, free⟩
  · have none : ¬ m.HasRoom testFile := fun has => full (room.mp has)
    rw [failed, if_neg none, if_neg none]
    exact ⟨fs, stores, rfl⟩
  · have some := room.mpr free
    obtain ⟨i, index, low, laid, sound, length, copied⟩ :=
      @Stores.copied fs fs' m testFile stores (heap 0) [] (by decide) success
    have opened := laid.openFile_eq (heap 1 0) index low
    refine ⟨fs', ?_, ?_⟩
    · rw [if_pos some]
      apply copied fs'.disk (fun _ _ => rfl)
      intro k kLow kHigh
      rw [length] at kHigh
      simp only [List.length_nil] at kHigh
      omega
    · rw [success, if_pos some]
      dsimp only
      rw [opened]
      dsimp only
      rw [@OpenFile.fileWriteLoop_empty (.openAt (fs'.volume.sector i) fs'.disk) fs'.disk
        (Int.le_of_eq length) 4999]
      rfl

/-- `FileRead` never reads all that it looks for. -/
theorem Stores.fileRead (stores : fs.Stores m) (heap : Nat → Memory) :
    fs.fileRead heap =
      [.sizes "Sequential read of %d byte file, in %d byte chunks\n" testFileSize contentSize,
        if nameKey testFile ∈ m then .file "Perf test: unable to read %s\n" testFile
          else .file "Perf test: unable to open file %s\n" testFile] := by
  unfold FileSystem.fileRead
  rcases stores.openFile (heap 1) testFile with
    ⟨missed, absent⟩ | ⟨file, bytes, opened, found, sound, start, holds⟩
  · rw [missed, if_neg (Finmap.lookup_eq_none.mp absent)]
  · have bound := sound.numBytes_le
    have nonneg := sound.nonneg
    simp only [maxFileSize] at bound
    rw [opened, if_pos (Finmap.mem_of_lookup_eq_some found)]
    dsimp only
    rw [OpenFile.fileReadLoop_false sound (by omega) (by omega) (by omega)]
    rfl

/-- `PerformanceTest`. -/
theorem Stores.performanceTest (stores : fs.Stores m) (heap : Nat → Nat → Memory) :
    ∃ fs', fs.performanceTest heap = some (m.performanceTest, fs') ∧
      fs'.Stores (m.erase (nameKey testFile)) := by
  obtain ⟨between, written, writing⟩ := stores.fileWrite heap
  have reading := written.fileRead (heap 3)
  obtain ⟨fs', removed, stores'⟩ := written.remove (heap 4) testFile
  unfold FileSystem.performanceTest FileStore.performanceTest
  rw [writing]
  dsimp only
  rw [reading, removed, Option.map_some]
  refine ⟨fs', ?_, ?_⟩
  · by_cases some : m.HasRoom testFile
    · have made : nameKey testFile ∈ m.insert (nameKey testFile) [] :=
        Finmap.mem_insert.mpr (.inl rfl)
      have found : nameKey testFile ∈ m ∨ m.HasRoom testFile := .inr some
      simp only [if_pos some, if_pos made, if_pos found, decide_eq_true made]
      rfl
    · by_cases present : nameKey testFile ∈ m
      · have found : nameKey testFile ∈ m ∨ m.HasRoom testFile := .inl present
        simp only [if_neg some, if_pos present, if_pos found, decide_eq_true present]
        rfl
      · have missed : ¬ (nameKey testFile ∈ m ∨ m.HasRoom testFile) := not_or.mpr ⟨present, some⟩
        simp only [if_neg some, if_neg present, if_neg missed, decide_eq_false present]
        rfl
  · by_cases some : m.HasRoom testFile
    · rw [if_pos some, erase_insert_of_absent some.1] at stores'
      rw [erase_of_absent some.1]
      exact stores'
    · rw [if_neg some] at stores'
      exact stores'

/-- Every command does and prints what the store tells. -/
theorem Stores.command (stores : fs.Stores m) {command : FileCommand} (fits : command.Fits)
    (enough : 385 ≤ fuel) :
    ∃ fs', fs.command fuel command = some ((m.command command).1, fs') ∧
      fs'.Stores (m.command command).2 := by
  cases command with
  | copy heap source bytes target => exact stores.copy heap source target fits enough
  | print heap name =>
      refine ⟨fs, ?_, stores⟩
      rw [FileSystem.command, stores.print heap name enough]
      rfl
  | remove heap name =>
      obtain ⟨fs', removed, stores'⟩ := stores.remove heap name
      refine ⟨fs', ?_, stores'⟩
      rw [FileSystem.command, removed]
      rfl
  | performanceTest heap => exact stores.performanceTest heap
  | restart => exact ⟨_, rfl, stores.mount⟩
  | format heap =>
      obtain ⟨fs', formatted, spec⟩ := format_formatted heap fs.disk
      refine ⟨fs', ?_, spec.stores⟩
      rw [FileSystem.command, formatted]
      rfl

/-- Every sequence of them. -/
theorem Stores.commands {commands : List FileCommand} (stores : fs.Stores m)
    (fit : ∀ command ∈ commands, command.Fits) (enough : 385 ≤ fuel) :
    ∃ fs', fs.commands fuel commands = some ((m.commands commands).1, fs') ∧
      fs'.Stores (m.commands commands).2 := by
  induction commands generalizing fs m with
  | nil => exact ⟨fs, rfl, stores⟩
  | cons command commands inductionHypothesis =>
      obtain ⟨between, first, stores'⟩ := stores.command (fit command List.mem_cons_self) enough
      obtain ⟨fs', rest, stores''⟩ := inductionHypothesis stores'
        (fun later member => fit later (List.mem_cons_of_mem _ member))
      refine ⟨fs', ?_, stores''⟩
      rw [FileSystem.commands, first]
      simp only [Option.bind_eq_bind, Option.bind_some]
      rw [rest]
      rfl

end FileSystem

/-- From a formatted disk on, for every sequence of commands that copy no file
longer than a header can hold, however the UNIX files, the names and the memory
look: no assertion fails, every loop ends within 385 rounds, each command prints
what the store of strings under the first nine characters of their names tells,
which has room for ten, and the disk ends up with the files of the store. -/
theorem commands_answered_as_store {heap : Nat → Memory} {disk : Disk} {fs : FileSystem}
    (formatted : FileSystem.format heap disk = some fs) {commands : List FileCommand}
    (fit : ∀ command ∈ commands, command.Fits) {fuel : Nat} (enough : 385 ≤ fuel) :
    ∃ fs', fs.commands fuel commands = some ((FileStore.commands ∅ commands).1, fs') ∧
      fs'.Stores (FileStore.commands ∅ commands).2 := by
  obtain ⟨fresh, same, spec⟩ := FileSystem.format_formatted heap disk
  rw [formatted] at same
  obtain rfl := Option.some.inj same
  exact spec.stores.commands fit enough

/-- A file is copied and printed, a longer name with the same beginning is refused,
and a user's own test file does not outlive the performance test. -/
def someCommands : List FileCommand :=
  [.copy (fun _ _ _ => 0) (.ofList [117]) (some [1, 2, 3]) testFile,
    .restart,
    .print (fun _ _ => 9) testFile,
    .copy (fun _ _ _ => 0) (.ofList [117]) none (.ofList [97]),
    .copy (fun _ _ _ => 0) (.ofList [117]) (some [4]) testFile,
    .performanceTest (fun _ _ _ => 0),
    .print (fun _ _ => 9) testFile]

theorem commands_answered_as_store_someCommands :
    ∃ fs fs' : FileSystem, FileSystem.format (fun _ _ => 0) (fun _ _ => 0) = some fs ∧
      fs.commands 385 someCommands = some ((FileStore.commands ∅ someCommands).1, fs') ∧
      fs'.Stores (FileStore.commands ∅ someCommands).2 := by
  obtain ⟨fs, formatted, -⟩ := FileSystem.format_formatted (fun _ _ => 0) (fun _ _ => 0)
  obtain ⟨fs', answers, stores⟩ :=
    @commands_answered_as_store _ _ fs formatted someCommands (by
      intro command member
      simp only [someCommands, List.mem_cons, List.not_mem_nil, or_false] at member
      rcases member with rfl | rfl | rfl | rfl | rfl | rfl | rfl
      · exact (by decide : (3 : Int) ≤ 3840)
      · trivial
      · trivial
      · trivial
      · exact (by decide : (1 : Int) ≤ 3840)
      · trivial
      · trivial) 385 (Nat.le_refl 385)
  exact ⟨fs, fs', formatted, answers, stores⟩

end Nachos
