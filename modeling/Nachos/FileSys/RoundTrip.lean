/-
Module: Nachos.FileSys.RoundTrip
Purpose: A string that is written to a new file in chunks is what is read from
  it in chunks, however the two cut it, on every disk that a program can reach.
Trusted boundary: as in OpenFile.
Main exports: OpenFile.writeChunks, OpenFile.readChunks,
  OpenFile.writeChunks_spec, OpenFile.readChunks_spec, chunks_round_trip
-/
import Nachos.FileSys.Histories

namespace Nachos

open Lib

namespace OpenFile

/-! ### Successive calls -/

/-- Successive calls of `Write`, one for each chunk: the numbers they return,
the disk and the file.  The buffer of call `n` is new memory that holds
`heap n`. -/
def writeChunks (heap : Nat → Memory) :
    List (List UInt8) → OpenFile → Disk → List Int × Disk × OpenFile
  | [], file, disk => ([], disk, file)
  | chunk :: chunks, file, disk =>
      let result := file.write disk (heap 0) (.ofList chunk) chunk.length
      let rest := writeChunks (fun n => heap (n + 1)) chunks result.2.2 result.2.1
      (result.1 :: rest.1, rest.2)

/-- Successive calls of `Read`, one for each size: the numbers they return, each
with as many bytes of the buffer, and the file.  Call `n` reads into a buffer
that holds `into n`. -/
def readChunks (into : Nat → Memory) (disk : Disk) :
    List Nat → OpenFile → List (Int × List UInt8) × OpenFile
  | [], file => ([], file)
  | size :: sizes, file =>
      let result := file.read disk (into 0) size
      let rest := readChunks (fun n => into (n + 1)) disk sizes result.2.2
      ((result.1, result.2.1.toList result.1.toNat) :: rest.1, rest.2)

variable {file : OpenFile} {disk : Disk}

/-! ### One call -/

/-- A `Write` that ends within the file. -/
theorem write_chunk (sound : file.hdr.Sound) (start : 0 ≤ file.seekPosition)
    (heap : Memory) {chunk : List UInt8}
    (fits : file.seekPosition + chunk.length ≤ file.hdr.numBytes) :
    ∃ disk', file.write disk heap (.ofList chunk) chunk.length =
        ((chunk.length : Int), disk',
          { file with seekPosition := file.seekPosition + chunk.length }) ∧
      (∀ i, 0 ≤ i → i < file.hdr.numBytes → file.hdr.content disk' i =
        if file.seekPosition ≤ i ∧ i < file.seekPosition + chunk.length then
          Memory.ofList chunk (i - file.seekPosition)
        else file.hdr.content disk i) ∧
      ∀ s, (∀ i, 0 ≤ i → i < file.hdr.numSectors → s ≠ file.hdr.dataSectors i) →
        disk' s = disk s := by
  have bound := sound.numBytes_le
  simp only [maxFileSize] at bound
  have position := wrap_eq_self (x := file.seekPosition + chunk.length) (by omega)
    (by omega)
  by_cases some : 0 < chunk.length
  · have shorter : min (chunk.length : Int) (file.hdr.numBytes - file.seekPosition) =
        chunk.length := Int.min_eq_left (by omega)
    refine ⟨(file.writeAt disk heap (.ofList chunk) chunk.length file.seekPosition).2,
      ?_, ?_, ?_⟩
    · unfold write
      dsimp only
      rw [writeAt_count sound heap (.ofList chunk) start (by omega) (by omega) (by omega),
        shorter, position]
    · intro i low high
      rw [writeAt_content sound heap (.ofList chunk) start (by omega) (by omega) (by omega)
        low high, shorter]
    · intro s other
      exact writeAt_other sound heap (.ofList chunk) start (by omega) other
  · have empty : (chunk.length : Int) = 0 := by omega
    rw [empty] at position ⊢
    refine ⟨disk, ?_, ?_, ?_⟩
    · unfold write
      dsimp only
      rw [writeAt_nothing heap (.ofList chunk) (.inl (by omega))]
      dsimp only
      rw [position]
    · intro i low high
      rw [if_neg (by omega)]
    · intro s other
      rfl

/-- A `Read` that ends within the file. -/
theorem read_chunk (sound : file.hdr.Sound) (start : 0 ≤ file.seekPosition)
    (into : Memory) {size : Nat} (fits : file.seekPosition + size ≤ file.hdr.numBytes) :
    ∃ buffer, file.read disk into size =
        ((size : Int), buffer, { file with seekPosition := file.seekPosition + size }) ∧
      ∀ i : Int, 0 ≤ i → i < size →
        buffer i = file.hdr.content disk (file.seekPosition + i) := by
  have bound := sound.numBytes_le
  simp only [maxFileSize] at bound
  have position := wrap_eq_self (x := file.seekPosition + size) (by omega) (by omega)
  by_cases some : 0 < size
  · have shorter : min (size : Int) (file.hdr.numBytes - file.seekPosition) = size :=
      Int.min_eq_left (by omega)
    refine ⟨Memory.copy (file.hdr.content disk) file.seekPosition into 0 size, ?_, ?_⟩
    · unfold read
      dsimp only
      rw [readAt_eq sound into 0 start (by omega) (by omega) (by omega), shorter]
      dsimp only
      rw [position]
    · intro i low high
      rw [Memory.copy_inside _ _ low (by omega), Int.sub_zero]
  · have empty : (size : Int) = 0 := by omega
    rw [empty] at position ⊢
    refine ⟨into, ?_, ?_⟩
    · unfold read
      dsimp only
      rw [readAt_nothing into 0 (.inl (by omega))]
      dsimp only
      rw [position]
    · intro i low high
      omega

/-- A `Read` at the end of the file. -/
theorem read_finished (finished : file.hdr.numBytes ≤ file.seekPosition) (into : Memory)
    (numBytes : Int) : (file.read disk into numBytes).1 = 0 := by
  unfold read
  rw [readAt_nothing into 0 (.inr finished)]

/-! ### All calls -/

/-- The chunks end up in the file one after the other, and only sectors of the
file are written. -/
theorem writeChunks_spec (sound : file.hdr.Sound) (start : 0 ≤ file.seekPosition)
    (heap : Nat → Memory) {chunks : List (List UInt8)}
    (fits : file.seekPosition + chunks.flatten.length ≤ file.hdr.numBytes) :
    let result := writeChunks heap chunks file disk
    result.1 = chunks.map (fun chunk => (chunk.length : Int)) ∧
      (∀ i, 0 ≤ i → i < file.hdr.numBytes → file.hdr.content result.2.1 i =
        if file.seekPosition ≤ i ∧ i < file.seekPosition + chunks.flatten.length then
          Memory.ofList chunks.flatten (i - file.seekPosition)
        else file.hdr.content disk i) ∧
      ∀ s, (∀ i, 0 ≤ i → i < file.hdr.numSectors → s ≠ file.hdr.dataSectors i) →
        result.2.1 s = disk s := by
  induction chunks generalizing file disk heap with
  | nil =>
      refine ⟨rfl, ?_, ?_⟩
      · intro i low high
        rw [if_neg (by simp only [List.flatten_nil, List.length_nil]; omega)]
        rfl
      · intro s other
        rfl
  | cons chunk chunks inductionHypothesis =>
      rw [List.flatten_cons, List.length_append] at fits
      obtain ⟨disk', call, content, others⟩ :=
        @write_chunk file disk sound start (heap 0) chunk (by omega)
      have rest := @inductionHypothesis
        { file with seekPosition := file.seekPosition + chunk.length } disk' sound
        (by dsimp only; omega) (fun n => heap (n + 1)) (by dsimp only; omega)
      simp only [writeChunks, call]
      dsimp only at rest
      obtain ⟨counts, restContent, restOthers⟩ := rest
      refine ⟨?_, ?_, ?_⟩
      · rw [counts, List.map_cons]
      · intro i low high
        rw [restContent i low high, content i low high, List.flatten_cons,
          List.length_append]
        -- before the chunks, in this one, in a later one, and after them
        by_cases before : i < file.seekPosition
        · rw [if_neg (by omega), if_neg (by omega), if_neg (by omega)]
        · by_cases here : i < file.seekPosition + chunk.length
          · rw [if_neg (by omega), if_pos (by omega), if_pos (by omega),
              Memory.ofList_append_left chunk chunks.flatten (by omega)]
          · by_cases later : i < file.seekPosition + (chunk.length + chunks.flatten.length)
            · rw [if_pos (by omega), if_pos (by omega),
                Memory.ofList_append_right chunk chunks.flatten (by omega)]
              congr 1
              omega
            · rw [if_neg (by omega), if_neg (by omega), if_neg (by omega)]
      · intro s other
        rw [restOthers s other, others s other]

/-- Reading what the file holds from the seek position on. -/
theorem readChunks_spec (sound : file.hdr.Sound) (start : 0 ≤ file.seekPosition)
    (into : Nat → Memory) {chunks : List (List UInt8)}
    (fits : file.seekPosition + chunks.flatten.length ≤ file.hdr.numBytes)
    (holds : ∀ i : Int, 0 ≤ i → i < chunks.flatten.length →
      file.hdr.content disk (file.seekPosition + i) = Memory.ofList chunks.flatten i) :
    readChunks into disk (chunks.map List.length) file =
      (chunks.map fun chunk => ((chunk.length : Int), chunk),
        { file with seekPosition := file.seekPosition + chunks.flatten.length }) := by
  induction chunks generalizing file into with
  | nil =>
      simp only [readChunks, List.map_nil, List.flatten_nil, List.length_nil,
        Int.ofNat_zero, Int.add_zero]
  | cons chunk chunks inductionHypothesis =>
      rw [List.flatten_cons, List.length_append] at fits
      simp only [List.flatten_cons, List.length_append] at holds
      obtain ⟨buffer, call, bytes⟩ :=
        @read_chunk file disk sound start (into 0) chunk.length (by omega)
      have rest := @inductionHypothesis
        { file with seekPosition := file.seekPosition + chunk.length } sound
        (by dsimp only; omega) (fun n => into (n + 1)) (by dsimp only; omega)
      have same : buffer.toList chunk.length = chunk := by
        apply Memory.toList_eq_of_forall
        intro i bound
        rw [bytes i (by omega) (by omega), holds i (by omega) (by omega),
          Memory.ofList_append_left chunk chunks.flatten (by omega)]
      simp only [readChunks, List.map_cons, call, Int.toNat_natCast, same]
      rw [rest]
      · simp only [List.flatten_cons, List.length_append]
        rw [Int.natCast_add, Int.add_assoc]
      · intro i low high
        dsimp only
        rw [Int.add_assoc, holds (chunk.length + i) (by omega) (by omega),
          Memory.ofList_append_right chunk chunks.flatten (by omega)]
        congr 1
        omega

end OpenFile

/-! ### A new file -/

namespace FileSystem

variable {fs fs' : FileSystem} {name : Memory} {initialSize i sector : Int}
  {hdr : FileHeader}

/-- The file is still found, with the same header, when only data of files has
changed. -/
theorem SameFiles.openFile_eq (same : SameFiles fs fs') (heap : Memory)
    (index : fs.directory.findIndex name = i) (low : 0 ≤ i) :
    fs'.openFile heap name = some (.openAt (fs'.volume.sector i) fs'.disk) := by
  apply same.laid.openFile_eq heap _ low
  have size : fs'.directory.tableSize = fs.directory.tableSize := rfl
  rw [Directory.findIndex_congr size same.entry name]
  exact index

end FileSystem

/-- Writing a string to a file of its length and reading it back. -/
theorem OpenFile.chunks_written_then_read {file again : OpenFile} (disk : Disk)
    {string : List UInt8} {writes reads : List (List UInt8)}
    (writesCut : writes.flatten = string) (readsCut : reads.flatten = string)
    (sound : file.hdr.Sound) (length : file.hdr.numBytes = string.length)
    (same : file.hdr.SameFile again.hdr) (start : file.seekPosition = 0)
    (restart : again.seekPosition = 0) (heap into : Nat → Memory) :
    readChunks into (writeChunks heap writes file disk).2.1 (reads.map List.length) again =
      (reads.map fun chunk => ((chunk.length : Int), chunk),
        { again with seekPosition := string.length }) := by
  obtain ⟨-, content, -⟩ := @writeChunks_spec file disk sound (by omega) heap writes
    (by rw [writesCut]; omega)
  rw [writesCut, start] at content
  have result := @readChunks_spec again (writeChunks heap writes file disk).2.1
    (same.sound sound) (by omega) into reads (by rw [readsCut, same.numBytes]; omega)
  rw [readsCut, restart, Int.zero_add] at result
  apply result
  intro i low high
  rw [Int.zero_add, same.content sound _ low (by omega), content i low (by omega),
    if_pos (by omega), Int.sub_zero]

/-- On every disk that is reached from a formatted one by `Create` with sizes
that a header can hold, `Open`, `Remove`, mounting, and writes in range to files
that have not been removed: when a new file of the length of a string is
created, opened and written with one `Write` for each chunk of a cut of the
string, every `Write` returns the length of its chunk; when it is opened again
and read with one `Read` for each chunk of another cut, the pieces are these
chunks and make up the string; and any further `Read` returns 0. -/
theorem chunks_round_trip {formatHeap : Nat → Memory} {formatDisk : Disk}
    {fs : FileSystem} {acts : List FileAction} {s : Session}
    (formatted : FileSystem.format formatHeap formatDisk = some fs)
    (run : sessionMachine.exec ⟨fs, []⟩ acts = some s)
    (proper : sessionMachine.Steps Session.Proper ⟨fs, []⟩ acts)
    {string : List UInt8} (small : (string.length : Int) ≤ maxFileSize)
    {createHeap : Nat → Memory} {name : Memory} {fs' : FileSystem}
    (created : s.fs.create createHeap name string.length = (true, fs'))
    {writes reads : List (List UInt8)} (writesCut : writes.flatten = string)
    (readsCut : reads.flatten = string) (openHeap reopenHeap : Memory)
    (writeHeap into : Nat → Memory) :
    ∃ file counts disk file' again pieces again',
      fs'.openFile openHeap name = some file ∧
      OpenFile.writeChunks writeHeap writes file fs'.disk = (counts, disk, file') ∧
      counts = writes.map (fun chunk => (chunk.length : Int)) ∧
      ({ fs' with disk := disk } : FileSystem).openFile reopenHeap name = some again ∧
      OpenFile.readChunks into disk (reads.map List.length) again = (pieces, again') ∧
      pieces = reads.map (fun chunk => ((chunk.length : Int), chunk)) ∧
      (pieces.map Prod.snd).flatten = string ∧
      ∀ buffer count, (again'.read disk buffer count).1 = 0 := by
  have kept := Session.kept_of_run formatted run proper
  obtain ⟨i, sector, hdr, spec⟩ := kept.laid.created (by omega) small created
  have sound := spec.laid.valid.sound i spec.low spec.high spec.used
  have length : (fs'.volume.hdr i).numBytes = string.length :=
    spec.sameFile.numBytes.trans spec.numBytes
  have has : fs'.volume.Has (fs'.volume.sector i) (fs'.volume.hdr i) :=
    ⟨i, spec.low, spec.high, spec.used, rfl, .refl _⟩
  have opened := spec.laid.openFile_eq openHeap spec.entry spec.low
  generalize fileIs : OpenFile.openAt (fs'.volume.sector i) fs'.disk = file at opened
  have fileHdr : file.hdr = fs'.volume.hdr i := by rw [← fileIs]; rfl
  have fileStart : file.seekPosition = 0 := by rw [← fileIs]; rfl
  rw [← fileHdr] at sound length has
  obtain ⟨counts, -, others⟩ := @OpenFile.writeChunks_spec file fs'.disk sound (by omega)
    writeHeap writes (by rw [writesCut]; omega)
  have same := spec.laid.sameFiles has others
  obtain ⟨again, reopened, sameHdr, againStart⟩ : ∃ again,
      ({ fs' with disk := (OpenFile.writeChunks writeHeap writes file fs'.disk).2.1 } :
        FileSystem).openFile reopenHeap name = some again ∧
      file.hdr.SameFile again.hdr ∧ again.seekPosition = 0 :=
    ⟨_, same.openFile_eq reopenHeap spec.entry spec.low,
      fileHdr ▸ same.volume.hdr i spec.low spec.high spec.used, rfl⟩
  have readBack := OpenFile.chunks_written_then_read fs'.disk writesCut readsCut
    sound length sameHdr fileStart againStart writeHeap into
  refine ⟨file, _, _, _, again, _, _, opened, rfl, counts, reopened, readBack, rfl, ?_, ?_⟩
  · have pieces : (reads.map fun chunk => ((chunk.length : Int), chunk)).map Prod.snd =
        reads := by
      rw [List.map_map]
      exact List.map_id reads
    rw [pieces, readsCut]
  · intro buffer count
    apply OpenFile.read_finished
    exact Int.le_of_eq (sameHdr.numBytes.trans length)

/-- Three bytes written as one and two and read as two and one, on a new disk. -/
theorem three_bytes_round_trip :
    ∃ fs fs' : FileSystem,
      FileSystem.format (fun _ _ => 0) (fun _ _ => 0) = some fs ∧
      fs.create (fun _ _ => 0) (.ofList [97]) 3 = (true, fs') ∧
      ∃ file counts disk file' again pieces again',
        fs'.openFile (fun _ => 0) (.ofList [97]) = some file ∧
        OpenFile.writeChunks (fun _ _ => 0) [[1], [2, 3]] file fs'.disk =
          (counts, disk, file') ∧
        counts = [1, 2] ∧
        ({ fs' with disk := disk } : FileSystem).openFile (fun _ => 0) (.ofList [97]) =
          some again ∧
        OpenFile.readChunks (fun _ _ => 0) disk [2, 1] again = (pieces, again') ∧
        pieces = [(2, [1, 2]), (1, [3])] ∧
        (pieces.map Prod.snd).flatten = [1, 2, 3] ∧
        ∀ buffer count, (again'.read disk buffer count).1 = 0 := by
  obtain ⟨fs, formatted, spec⟩ :=
    FileSystem.format_formatted (fun _ _ => 0) (fun _ _ => 0)
  obtain ⟨fs', created⟩ := spec.create_first (fun _ _ => 0) (.ofList [97]) 3 (by decide)
    (by decide)
  exact ⟨fs, fs', formatted, created, @chunks_round_trip _ _ fs [] ⟨fs, []⟩ formatted rfl
    trivial [1, 2, 3] (by decide) _ _ fs' created [[1], [2, 3]] [[1, 2], [3]] rfl rfl
    (fun _ => 0) (fun _ => 0) (fun _ _ => 0) (fun _ _ => 0)⟩

end Nachos
