/-
Module: Nachos.FileSys.Undoing
Purpose: `Remove` undoes `Create`: the free map is as before bit for bit, the
  directory lists the same names with the same header sectors, and the other
  files hold what they held.
Trusted boundary: none
Main exports: FileSystem.contents, Directory.files, Volume.Same.undo,
  remove_undoes_create, FileSystem.Lone, secondFileGone
-/
import Nachos.FileSys.Room

namespace Nachos

open Lib

/-- The volume after a file has been added and dropped again. -/
theorem Volume.Same.undo {v added dropped : Volume} {i sector : Int} {hdr : FileHeader}
    (low : 0 ≤ i) (high : i < 10) (unused : v.inUse i = false)
    (fresh : v.Fresh sector hdr) (first : (v.add i sector hdr).Same added)
    (second : (added.drop i).Same dropped) : v.Same dropped := by
  have mySector : added.sector i = sector := by
    have same := first.sector i low high (by simp [Volume.add])
    simpa [Volume.add] using same
  have myHdr : hdr.SameFile (added.hdr i) := by
    have same := first.hdr i low high (by simp [Volume.add])
    simpa [Volume.add] using same
  have other : ∀ j, v.inUse j = true → j ≠ i := by
    rintro j used rfl
    rw [unused] at used
    cases used
  have before : ∀ j, v.inUse j = true → (v.add i sector hdr).inUse j = true := by
    intro j used
    simpa [Volume.add, other j used] using used
  have between : ∀ j, 0 ≤ j → j < 10 → v.inUse j = true →
      (added.drop i).inUse j = true := by
    intro j jLow jHigh used
    have still := (first.inUse j jLow jHigh).trans (before j used)
    simpa [Volume.drop, other j used] using still
  refine ⟨?_, ?_, ?_, ?_⟩
  · intro j jLow jHigh
    rw [second.inUse j jLow jHigh]
    by_cases same : j = i
    · rw [same, unused]
      simp [Volume.drop]
    · have kept := first.inUse j jLow jHigh
      simpa [Volume.drop, Volume.add, same] using kept
  · intro j jLow jHigh used
    have kept := first.sector j jLow jHigh (before j used)
    rw [second.sector j jLow jHigh (between j jLow jHigh used)]
    simpa [Volume.drop, Volume.add, other j used] using kept
  · intro j jLow jHigh used
    have kept := first.hdr j jLow jHigh (before j used)
    have keptStill := second.hdr j jLow jHigh (between j jLow jHigh used)
    simp only [Volume.add, Function.update_of_ne (other j used)] at kept
    exact kept.trans keptStill
  · intro s sLow sHigh
    have marked : added.marked s ↔ v.marked s ∨ s = sector ∨
        ∃ j, 0 ≤ j ∧ j < hdr.numSectors ∧ s = hdr.dataSectors j :=
      first.marked s sLow sHigh
    rw [second.marked s sLow sHigh]
    simp only [Volume.drop]
    rw [marked, mySector]
    constructor
    · rintro ⟨old | header | ⟨j, jLow, jHigh, data⟩, notHeader, notData⟩
      · exact old
      · exact absurd header notHeader
      · refine absurd ?_ (notData j jLow (myHdr.numSectors ▸ jHigh))
        rw [data, myHdr.dataSectors j jLow jHigh]
    · intro old
      refine ⟨.inl old, ?_, ?_⟩
      · rintro rfl
        exact fresh.unmarked s .header old
      · rintro j jLow jHigh equal
        rw [myHdr.numSectors] at jHigh
        rw [myHdr.dataSectors j jLow jHigh] at equal
        rw [equal] at old
        exact fresh.unmarked _ (.data j jLow jHigh) old

/-! ### What the directory lists and the files hold -/

/-- The names in use, as they are stored, with the sectors of the headers. -/
def Directory.files (dir : Directory) : Set (List UInt8 × Int) :=
  { file | ∃ i, 0 ≤ i ∧ i < dir.tableSize ∧ dir.inUse i = true ∧
    file = ((dir.name i).toList fileNameMaxLen, dir.sector i) }

theorem Directory.SameEntry.toList {dir dir' : Directory} {i : Int}
    (same : SameEntry dir dir' i) :
    (dir'.name i).toList fileNameMaxLen = (dir.name i).toList fileNameMaxLen := by
  unfold Memory.toList
  apply List.map_congr_left
  intro k member
  exact same.name k (List.mem_range.mp member)

/-- Directories whose entries in use are the same list the same. -/
theorem Directory.files_congr {dir dir' : Directory}
    (size : dir'.tableSize = dir.tableSize)
    (inUse : ∀ i, 0 ≤ i → i < dir.tableSize → dir'.inUse i = dir.inUse i)
    (entry : ∀ i, 0 ≤ i → i < dir.tableSize → dir.inUse i = true → SameEntry dir dir' i) :
    dir'.files = dir.files := by
  ext file
  constructor
  · rintro ⟨i, low, high, used, rfl⟩
    rw [size] at high
    rw [inUse i low high] at used
    have same := entry i low high used
    exact ⟨i, low, high, used, by rw [same.toList, same.sector]⟩
  · rintro ⟨i, low, high, used, rfl⟩
    have same := entry i low high used
    exact ⟨i, low, size ▸ high, (inUse i low high).trans used,
      by rw [same.toList, same.sector]⟩

namespace FileSystem

variable {fs fs' : FileSystem}

/-- The bytes of the file of entry `i`. -/
def contents (fs : FileSystem) (i : Int) : List UInt8 :=
  Memory.toList ((fs.volume.hdr i).content fs.disk) (fs.volume.hdr i).numBytes.toNat

/-- A data sector of a file is marked and is none of the system's. -/
theorem Laid.data_spec (laid : fs.Laid) {i j : Int} (low : 0 ≤ i) (high : i < 10)
    (used : fs.volume.inUse i = true) (jLow : 0 ≤ j)
    (jHigh : j < (fs.volume.hdr i).numSectors) :
    5 ≤ (fs.volume.hdr i).dataSectors j ∧
      fs.volume.marked ((fs.volume.hdr i).dataSectors j) := by
  have owns : fs.volume.Owns (.data i j) ((fs.volume.hdr i).dataSectors j) :=
    ⟨low, high, used, jLow, jHigh, rfl⟩
  obtain ⟨nonneg, -, marked⟩ := laid.valid.owned owns
  refine ⟨?_, marked⟩
  by_contra small
  cases laid.valid.unique (.system ((fs.volume.hdr i).dataSectors j)) _ _
    ⟨nonneg, by omega, rfl⟩ owns

/-- A file whose header and data sectors are as before holds what it held. -/
theorem Laid.contents_congr (laid : fs.Laid) {i : Int} (low : 0 ≤ i) (high : i < 10)
    (used : fs.volume.inUse i = true)
    (hdr : (fs.volume.hdr i).SameFile (fs'.volume.hdr i))
    (data : ∀ j, 0 ≤ j → j < (fs.volume.hdr i).numSectors →
      fs'.disk ((fs.volume.hdr i).dataSectors j) =
        fs.disk ((fs.volume.hdr i).dataSectors j)) :
    fs'.contents i = fs.contents i := by
  have sound := laid.valid.sound i low high used
  unfold contents Memory.toList
  rw [hdr.numBytes]
  apply List.map_congr_left
  intro k member
  have bound := List.mem_range.mp member
  have inside : (k : Int) < (fs.volume.hdr i).numBytes := by omega
  rw [hdr.content sound fs'.disk (by omega) inside]
  unfold FileHeader.content
  rw [data]
  · simp only [sectorSize]
    omega
  · exact sound.sector_lt inside

/-- An entry that the stored directory has as it was fetched. -/
theorem Laid.stored_entry (laid : fs.Laid) {heap : Memory} {disk : Disk} {dir : Directory}
    {b : BitMap} (stored : Stored disk dir b fs') {j : Int} (low : 0 ≤ j) (high : j < 10)
    (other : Directory.SameEntry (fs.fetchDirectory heap) dir j) :
    Directory.SameEntry fs.directory fs'.directory j :=
  ((laid.fetched_entry heap low high).trans other).trans (stored.entry j low high)

/-- `Create` and then `Remove` of the same name. -/
theorem Laid.remove_created (laid : fs.Laid) {heap : Nat → Memory} {name : Memory}
    {initialSize : Int} (nonneg : 0 ≤ initialSize) (small : initialSize ≤ maxFileSize)
    (success : fs.create heap name initialSize = (true, fs')) (heap' : Nat → Memory) :
    ∃ fs'', fs'.remove heap' name = some (true, fs'') ∧ fs''.Laid ∧
      fs.volume.Same fs''.volume ∧
      (∀ j, 0 ≤ j → j < 10 → fs.volume.inUse j = true →
        Directory.SameEntry fs.directory fs''.directory j) ∧
      ∀ s, 5 ≤ s → fs.volume.marked s → fs''.disk s = fs.disk s := by
  obtain ⟨i, sector, hdr, freeMap, -, -, stored, created⟩ :=
    laid.created_stored nonneg small success
  obtain ⟨freeMap', fs'', gone, stored', removed⟩ :=
    created.laid.removed_stored heap' created.entry created.low
  have same := Volume.Same.undo created.low created.high created.unused created.fresh
    created.volume removed.volume
  refine ⟨fs'', gone, removed.laid, same, ?_, ?_⟩
  · intro j low high used
    have other : j ≠ i := by
      rintro rfl
      rw [created.unused] at used
      cases used
    exact (laid.stored_entry stored low high (Directory.setEntry_other _ _ _ other)).trans
      (created.laid.stored_entry stored' low high (Directory.setInUse_other _ _ other))
  · intro s least marked
    have notHeader : s ≠ sector := by
      rintro rfl
      exact created.fresh.unmarked s .header marked
    rw [stored'.other s (by omega) (by omega) (by omega),
      stored.other s (by omega) (by omega) (by omega)]
    exact FileHeader.writeBack_other hdr fs.disk notHeader

end FileSystem

/-- On every disk that is reached from a formatted one: when `Create` succeeds,
with a size that a header can hold, a following `Remove` of the name succeeds,
every bit of the free map is as before, the directory lists the same names with
the same header sectors, and every other file holds the same bytes. -/
theorem remove_undoes_create {formatHeap : Nat → Memory} {formatDisk : Disk}
    {fs : FileSystem} {acts : List FileAction} {s : Session}
    (formatted : FileSystem.format formatHeap formatDisk = some fs)
    (run : sessionMachine.exec ⟨fs, []⟩ acts = some s)
    (proper : sessionMachine.Steps Session.Proper ⟨fs, []⟩ acts)
    {heap : Nat → Memory} {name : Memory} {initialSize : Int} {fs' : FileSystem}
    (nonneg : 0 ≤ initialSize) (small : initialSize ≤ maxFileSize)
    (success : s.fs.create heap name initialSize = (true, fs')) (heap' : Nat → Memory) :
    ∃ fs'', fs'.remove heap' name = some (true, fs'') ∧
      (∀ sector, 0 ≤ sector → sector < numSectors →
        fs''.freeMap.test sector = s.fs.freeMap.test sector) ∧
      fs''.directory.files = s.fs.directory.files ∧
      ∀ i, 0 ≤ i → i < numDirEntries → s.fs.directory.inUse i = true →
        fs''.contents i = s.fs.contents i := by
  have laid := (Session.kept_of_run formatted run proper).laid
  obtain ⟨fs'', gone, -, same, entry, disk⟩ :=
    laid.remove_created nonneg small success heap'
  refine ⟨fs'', gone, ?_, ?_, ?_⟩
  · intro sector low high
    exact Bool.eq_iff_iff.mpr (same.marked sector low high)
  · exact Directory.files_congr rfl same.inUse entry
  · intro i low high used
    apply laid.contents_congr low high used (same.hdr i low high used)
    intro j jLow jHigh
    obtain ⟨least, marked⟩ := laid.data_spec low high used jLow jHigh
    exact disk _ least marked

/-! ### A disk with one file -/

namespace FileSystem

variable {fs fs' : FileSystem} {name : Memory} {i : Int}

/-- The only file of the disk is that of entry `i`, under this name. -/
structure Lone (fs : FileSystem) (name : Memory) (i : Int) : Prop where
  laid : fs.Laid
  low : 0 ≤ i
  high : i < 10
  holds : fs.directory.holds name i = true
  only : ∀ j, 0 ≤ j → j < 10 → fs.directory.inUse j = true → j = i

/-- The first file of a disk. -/
theorem Formatted.lone (spec : fs.Formatted) {initialSize sector : Int} {hdr : FileHeader}
    (created : Created fs name initialSize i sector hdr fs') : fs'.Lone name i := by
  refine ⟨created.laid, created.low, created.high, ?_, ?_⟩
  · rcases fs'.directory.findIndex_cases name with absent | ⟨-, -, holds⟩
    · have low := created.low
      rw [← created.entry, absent.1] at low
      omega
    · rwa [created.entry] at holds
  · intro j low high used
    by_contra other
    have before := (created.volume.inUse j low high).symm.trans used
    simp only [Volume.add, Function.update_of_ne other, spec.empty j low high] at before
    cases before

theorem Lone.used (lone : fs.Lone name i) : fs.directory.inUse i = true :=
  Directory.inUse_of_holds lone.holds

theorem Lone.of_same (lone : fs.Lone name i) (laid : fs'.Laid)
    (same : fs.volume.Same fs'.volume)
    (entry : Directory.SameEntry fs.directory fs'.directory i) : fs'.Lone name i where
  laid := laid
  low := lone.low
  high := lone.high
  holds := (entry.holds name).trans lone.holds
  only j low high used := lone.only j low high ((same.inUse j low high).symm.trans used)

/-- A name that differs in its first characters is not found. -/
theorem Lone.absent (lone : fs.Lone name i) {other : Memory}
    (differ : strncmpIsZero name other fileNameMaxLen = false) :
    fs.directory.findIndex other = -1 := by
  rcases fs.directory.findIndex_cases other with absent | ⟨low, high, found⟩
  · exact absent.1
  · rw [lone.only _ low high (Directory.inUse_of_holds found)] at found
    have agree := Directory.strncmpIsZero_of_holds lone.holds found
    rw [differ] at agree
    cases agree

theorem Lone.present (lone : fs.Lone name i) : fs.directory.findIndex name ≠ -1 := by
  rcases fs.directory.findIndex_cases name with absent | ⟨low, -, -⟩
  · have holds := absent.2 i lone.low lone.high
    rw [lone.holds] at holds
    cases holds
  · omega

theorem Lone.unused (lone : fs.Lone name i) :
    ∃ j, 0 ≤ j ∧ j < numDirEntries ∧ fs.directory.inUse j = false := by
  by_contra full
  push Not at full
  have first := lone.only 0 (by decide) (by decide)
    (Bool.eq_true_of_not_eq_false (full 0 (by decide) (by decide)))
  have second := lone.only 1 (by decide) (by decide)
    (Bool.eq_true_of_not_eq_false (full 1 (by decide) (by decide)))
  omega

/-- There is room for a second file. -/
theorem Lone.create (lone : fs.Lone name i) (heap : Nat → Memory) (other : Memory)
    (initialSize : Int) (differ : strncmpIsZero name other fileNameMaxLen = false)
    (nonneg : 0 ≤ initialSize) (small : initialSize ≤ maxFileSize) :
    ∃ fs', fs.create heap other initialSize = (true, fs') := by
  obtain ⟨j, low, high, unused⟩ := lone.unused
  exact lone.laid.create_succeeds heap nonneg (lone.absent differ) low high unused
    (lone.laid.room_for nonneg small)

end FileSystem

/-- A file is created, opened and written to; then a second one is created and
removed. -/
def secondFileGone : List FileAction :=
  [.create (fun _ _ => 0) (.ofList [98]) 300, .openFile (fun _ => 0) (.ofList [98]),
    .writeAt 0 (fun _ => 0) (fun _ => 1) 150 40,
    .create (fun _ _ => 0) (.ofList [97]) 200, .remove (fun _ _ => 0) (.ofList [97])]

theorem proper_secondFileGone (fs : FileSystem) :
    sessionMachine.Steps Session.Proper ⟨fs, []⟩ secondFileGone := by
  refine ⟨⟨by decide, by decide⟩, ?_⟩
  rintro s ⟨⟩
  refine ⟨trivial, ?_⟩
  rintro s ⟨⟩
  refine ⟨⟨by decide, by decide, ?_⟩, ?_⟩
  · intro h found
    exact Session.opened_live found
  · intro s _
    refine ⟨⟨by decide, by decide⟩, ?_⟩
    intro s _
    exact ⟨trivial, fun s _ => trivial⟩

/-- The first file stays. -/
theorem FileSystem.Formatted.after_secondFileGone {fs : FileSystem} (spec : fs.Formatted) :
    ∃ s i, sessionMachine.exec ⟨fs, []⟩ secondFileGone = some s ∧
      s.fs.Lone (.ofList [98]) i := by
  obtain ⟨fs₁, created₁⟩ := spec.create_first (fun _ _ => 0) (.ofList [98]) 300 (by decide)
    (by decide)
  obtain ⟨i, sector, hdr, file⟩ := spec.laid.created (by decide) (by decide) created₁
  have lone₁ := spec.lone file
  have opened := lone₁.laid.openFile_eq (fun _ => 0) file.entry file.low
  have written := lone₁.laid.write (lone₁.laid.openFile_has opened) (fun _ => 0)
    (fun _ => 1) (show (0 : Int) ≤ 40 by decide) (show (40 : Int) + 150 < 2 ^ 31 by decide)
  have lone₂ := lone₁.of_same written.laid written.volume
    (written.entry i lone₁.low lone₁.high)
  obtain ⟨fs₃, created₃⟩ := lone₂.create (fun _ _ => 0) (.ofList [97]) 200 (by decide)
    (by decide) (by decide)
  obtain ⟨fs₄, gone, laid, same, entry, -⟩ :=
    lone₂.laid.remove_created (by decide) (by decide) created₃ (fun _ _ => 0)
  have lone₄ := lone₂.of_same laid same (entry i lone₂.low lone₂.high lone₂.used)
  have wrote (file : OpenFile) (sector : Int) := @Session.step_writeAt fs₁
    [⟨file, sector, true⟩] 0 _ (fun _ => 0) (fun _ => 1) 150 40 rfl
  have run : (sessionMachine.exec ⟨fs, []⟩ secondFileGone).map Session.fs =
      some fs₄ := by
    unfold secondFileGone
    rw [Machine.exec_cons_of_step (Session.step_create created₁),
      Machine.exec_cons_of_step (Session.step_openFile opened), List.nil_append,
      Machine.exec_cons_of_step (wrote _ _),
      Machine.exec_cons_of_step (Session.step_create created₃),
      Machine.exec_cons_of_step (Session.step_remove gone), Machine.exec_nil, Option.map_some]
  obtain ⟨s, ran, rfl⟩ := Option.map_eq_some_iff.mp run
  exact ⟨s, i, ran, lone₄⟩

/-- The second file comes and goes once more, beside the first. -/
theorem remove_undoes_create_beside_file :
    ∃ fs s fs',
      FileSystem.format (fun _ _ => 0) (fun _ _ => 0) = some fs ∧
      sessionMachine.exec ⟨fs, []⟩ secondFileGone = some s ∧
      s.fs.create (fun _ _ => 0) (.ofList [97]) 200 = (true, fs') ∧
      ∃ fs'', fs'.remove (fun _ _ => 0) (.ofList [97]) = some (true, fs'') ∧
        (∀ sector, 0 ≤ sector → sector < numSectors →
          fs''.freeMap.test sector = s.fs.freeMap.test sector) ∧
        fs''.directory.files = s.fs.directory.files ∧
        ∃ i, 0 ≤ i ∧ i < numDirEntries ∧ s.fs.directory.inUse i = true ∧
          fs''.contents i = s.fs.contents i := by
  obtain ⟨fs, formatted, spec⟩ :=
    FileSystem.format_formatted (fun _ _ => 0) (fun _ _ => 0)
  obtain ⟨s, i, run, lone⟩ := spec.after_secondFileGone
  obtain ⟨fs', created⟩ := lone.create (fun _ _ => 0) (.ofList [97]) 200 (by decide)
    (by decide) (by decide)
  obtain ⟨fs'', gone, marks, files, contents⟩ := remove_undoes_create formatted run
    (proper_secondFileGone fs) (by decide) (by decide) created (fun _ _ => 0)
  exact ⟨fs, s, fs', formatted, run, created, fs'', gone, marks, files, i, lone.low,
    lone.high, lone.used, contents i lone.low lone.high lone.used⟩

end Nachos
