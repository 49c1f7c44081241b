/-
Module: Nachos.FileSys.Accounting
Purpose: What the free map on disk accounts for.  Every use that the disk makes
  of a sector is named; along every history the marked sectors are those with
  a use, no sector has two, and `Remove` finds what it clears marked.  `Create`
  succeeds exactly when there is room, and otherwise leaves the disk alone; and
  the directory is what it can lack room in, not the disk.
Trusted boundary: none
Main exports: SectorUse, Disk.Uses, Disk.Accounted, accounted_along_history,
  create_succeeds_iff, create_fails_only_for_directory
-/
import Nachos.FileSys.Undoing

namespace Nachos

open Lib

/-! ### Uses of sectors -/

/-- What a sector can be used for. -/
inductive SectorUse where
  /-- sector 0 -/
  | freeMapHeader
  /-- sector 1 -/
  | directoryHeader
  /-- a data sector of the file of the free map -/
  | freeMapData (j : Int)
  /-- a data sector of the file of the directory -/
  | directoryData (j : Int)
  /-- the header of the file of an entry -/
  | header (i : Int)
  /-- a data sector of the file of an entry -/
  | data (i j : Int)

/-- Entry `j` of the table of a header, among the first `numSectors`. -/
def FileHeader.Occupies (hdr : FileHeader) (j s : Int) : Prop :=
  0 ≤ j ∧ j < hdr.numSectors ∧ s = hdr.dataSectors j

namespace Disk

/-- The uses that a disk makes of a sector, everything being read from there:
the headers of the two system files are in sectors 0 and 1, and the directory
is what the second of these files holds. -/
def Uses (disk : Disk) : SectorUse → Int → Prop
  | .freeMapHeader, s => s = freeMapSector
  | .directoryHeader, s => s = directorySector
  | .freeMapData j, s => (FileHeader.fetchFrom freeMapSector disk).Occupies j s
  | .directoryData j, s => (FileHeader.fetchFrom directorySector disk).Occupies j s
  | .header i, s =>
      let directory := (FileSystem.mount disk).directory
      0 ≤ i ∧ i < numDirEntries ∧ directory.inUse i = true ∧ s = directory.sector i
  | .data i j, s =>
      let directory := (FileSystem.mount disk).directory
      0 ≤ i ∧ i < numDirEntries ∧ directory.inUse i = true ∧
        (FileHeader.fetchFrom (directory.sector i) disk).Occupies j s

/-- The free map on disk marks exactly the sectors in use, and these are in
range and pairwise distinct. -/
structure Accounted (disk : Disk) : Prop where
  marked : ∀ s, 0 ≤ s → s < numSectors →
    ((FileSystem.mount disk).freeMap.test s = true ↔ ∃ use, disk.Uses use s)
  range : ∀ use s, disk.Uses use s → 0 ≤ s ∧ s < numSectors
  distinct : ∀ use use' s, disk.Uses use s → disk.Uses use' s → use = use'

end Disk

/-- The use that an owner makes of its sector. -/
def Owner.use : Owner → SectorUse
  | .system n =>
      if n = 0 then .freeMapHeader
      else if n = 1 then .directoryHeader
      else if n = 2 then .freeMapData 0
      else .directoryData (n - 3)
  | .header i => .header i
  | .data i j => .data i j

namespace FileSystem

variable {fs fs' : FileSystem}

/-- On a laid out disk the uses are those of the owners of the volume. -/
theorem Laid.uses_iff (laid : fs.Laid) (use : SectorUse) (s : Int) :
    fs.disk.Uses use s ↔
      ∃ o, (FileSystem.mount fs.disk).volume.Owns o s ∧ use = o.use := by
  constructor
  · intro uses
    cases use with
    | freeMapHeader => exact ⟨.system 0, ⟨by decide, by decide, uses⟩, rfl⟩
    | directoryHeader => exact ⟨.system 1, ⟨by decide, by decide, uses⟩, rfl⟩
    | freeMapData j =>
        obtain ⟨low, high, place⟩ := uses
        rw [laid.mapHdr.numSectors] at high
        rw [laid.mapHdr.dataSectors j low high] at place
        obtain rfl : j = 0 := by omega
        exact ⟨.system 2, ⟨by decide, by decide, place⟩, rfl⟩
    | directoryData j =>
        obtain ⟨low, high, place⟩ := uses
        rw [laid.dirHdr.numSectors] at high
        rw [laid.dirHdr.dataSectors j low high] at place
        refine ⟨.system (3 + j), ⟨by omega, by omega, place⟩, ?_⟩
        rw [Owner.use, if_neg (by omega), if_neg (by omega), if_neg (by omega)]
        congr 1
        omega
    | header i => exact ⟨.header i, uses, rfl⟩
    | data i j => exact ⟨.data i j, uses, rfl⟩
  · rintro ⟨o, owns, rfl⟩
    cases o with
    | system n =>
        obtain ⟨low, high, rfl⟩ := owns
        dsimp only [Owner.use]
        split
        · assumption
        · split
          · assumption
          · split
            · refine ⟨by decide, ?_, ?_⟩
              · rw [laid.mapHdr.numSectors]
                decide
              · rw [laid.mapHdr.dataSectors 0 (by decide) (by decide)]
                omega
            · refine ⟨by omega, ?_, ?_⟩
              · rw [laid.dirHdr.numSectors]
                omega
              · rw [laid.dirHdr.dataSectors (s - 3) (by omega) (by omega)]
                omega
    | header i => exact owns
    | data i j => exact owns

theorem Laid.accounted (laid : fs.Laid) : fs.disk.Accounted := by
  have valid := laid.mount.valid
  constructor
  · intro s low high
    rw [show (FileSystem.mount fs.disk).freeMap.test s = true ↔ _ from
      valid.marked s low high]
    simp only [laid.uses_iff]
    constructor
    · rintro ⟨o, owns⟩
      exact ⟨o.use, o, owns, rfl⟩
    · rintro ⟨use, o, owns, -⟩
      exact ⟨o, owns⟩
  · intro use s uses
    obtain ⟨o, owns, -⟩ := (laid.uses_iff use s).mp uses
    exact valid.range o s owns
  · intro use use' s uses uses'
    obtain ⟨o, owns, rfl⟩ := (laid.uses_iff use s).mp uses
    obtain ⟨o', owns', rfl⟩ := (laid.uses_iff use' s).mp uses'
    rw [valid.unique o o' s owns owns']

/-- The assertions that `Remove` makes hold. -/
theorem Laid.remove_ne_none (laid : fs.Laid) (heap : Nat → Memory) (name : Memory) :
    fs.remove heap name ≠ none := by
  rcases laid.removed heap name with absent | ⟨i, fs', gone, -⟩
  · rw [absent]
    exact Option.some_ne_none _
  · rw [gone]
    exact Option.some_ne_none _

end FileSystem

/-- From a formatted disk on, whatever files are created with sizes that a
header can hold, opened, removed and written to in range, and however often the
disk is mounted again: after every operation the free map on disk marks exactly
the sectors that the disk uses, no sector has two uses, all are in range, and no
`Remove` that could follow fails an assertion. -/
theorem accounted_along_history {heap : Nat → Memory} {disk : Disk} {fs : FileSystem}
    {acts : List FileAction} (formatted : FileSystem.format heap disk = some fs)
    (proper : sessionMachine.Steps Session.Proper ⟨fs, []⟩ acts) :
    sessionMachine.Along
      (fun s => s.fs.disk.Accounted ∧ ∀ heap name, s.fs.remove heap name ≠ none)
      ⟨fs, []⟩ acts := by
  apply (Session.kept_along formatted proper).mono
  intro s kept
  exact ⟨kept.laid.accounted, kept.laid.remove_ne_none⟩

/-- A file is created, opened, written to and removed on a new disk, which is
then mounted again. -/
theorem accounted_along_create_write_remove :
    ∃ fs : FileSystem, FileSystem.format (fun _ _ => 0) (fun _ _ => 0) = some fs ∧
      sessionMachine.Along
        (fun s => s.fs.disk.Accounted ∧ ∀ heap name, s.fs.remove heap name ≠ none)
        ⟨fs, []⟩
        [.create (fun _ _ => 0) (.ofList [97]) 200, .openFile (fun _ => 0) (.ofList [97]),
          .writeAt 0 (fun _ => 0) (fun _ => 1) 150 40,
          .remove (fun _ _ => 0) (.ofList [97]), .mount] := by
  obtain ⟨fs, formatted, spec⟩ :=
    FileSystem.format_formatted (fun _ _ => 0) (fun _ _ => 0)
  refine ⟨fs, formatted, accounted_along_history formatted ?_⟩
  refine ⟨⟨by decide, by decide⟩, ?_⟩
  rintro s ⟨⟩
  refine ⟨trivial, ?_⟩
  rintro s ⟨⟩
  refine ⟨⟨by decide, by decide, ?_⟩, ?_⟩
  · intro h found
    exact Session.opened_live found
  · intro s _
    exact ⟨trivial, fun s _ => ⟨trivial, fun s _ => trivial⟩⟩

/-! ### When Create succeeds -/

/-- On every disk that is reached from a formatted one, `Create` with a size
that a header can hold succeeds exactly when the name is not found, an entry of
the directory is not in use, and there is a clear sector for the header and for
each data sector; when it fails, the disk is as before. -/
theorem create_succeeds_iff {formatHeap : Nat → Memory} {formatDisk : Disk}
    {fs : FileSystem} {acts : List FileAction} {s : Session}
    (formatted : FileSystem.format formatHeap formatDisk = some fs)
    (run : sessionMachine.exec ⟨fs, []⟩ acts = some s)
    (proper : sessionMachine.Steps Session.Proper ⟨fs, []⟩ acts)
    (heap : Nat → Memory) (name : Memory) {initialSize : Int}
    (size : 0 ≤ initialSize ∧ initialSize ≤ maxFileSize) :
    ((s.fs.create heap name initialSize).1 = true ↔
        s.fs.directory.find name = -1 ∧
        (∃ i, 0 ≤ i ∧ i < numDirEntries ∧ s.fs.directory.inUse i = false) ∧
        1 + (initialSize + sectorSize - 1) / sectorSize ≤ s.fs.freeMap.numClear) ∧
      ((s.fs.create heap name initialSize).1 = false →
        (s.fs.create heap name initialSize).2.disk = s.fs.disk) := by
  have laid := (Session.kept_of_run formatted run proper).laid
  have sectors : divRoundUp initialSize sectorSize =
      (initialSize + sectorSize - 1) / sectorSize := by
    rw [divRoundUp_eq size.1, Int.add_sub_assoc]
    rfl
  rw [laid.find_eq_neg_one_iff, ← sectors]
  refine ⟨⟨?_, ?_⟩, ?_⟩
  · intro success
    have outcome : s.fs.create heap name initialSize =
        (true, (s.fs.create heap name initialSize).2) := by rw [← success]
    exact laid.room_of_create outcome
  · rintro ⟨absent, ⟨i, low, high, unused⟩, room⟩
    obtain ⟨fs', created⟩ :=
      laid.create_succeeds heap size.1 absent low high unused room
    rw [created]
  · intro failure
    have outcome : s.fs.create heap name initialSize =
        (false, (s.fs.create heap name initialSize).2) := by rw [← failure]
    rw [FileSystem.create_eq_false outcome]

/-- Beside a file that has been written to, a second one can be created where one
has been removed, but none of the name of the first. -/
theorem create_succeeds_beside_file :
    ∃ fs s, FileSystem.format (fun _ _ => 0) (fun _ _ => 0) = some fs ∧
      sessionMachine.exec ⟨fs, []⟩ secondFileGone = some s ∧
      (s.fs.create (fun _ _ => 0) (.ofList [97]) 200).1 = true ∧
      (s.fs.create (fun _ _ => 0) (.ofList [98]) 200).1 = false ∧
      (s.fs.create (fun _ _ => 0) (.ofList [98]) 200).2.disk = s.fs.disk := by
  obtain ⟨fs, formatted, spec⟩ :=
    FileSystem.format_formatted (fun _ _ => 0) (fun _ _ => 0)
  obtain ⟨s, i, run, lone⟩ := spec.after_secondFileGone
  have proper := proper_secondFileGone fs
  have fits : (0 : Int) ≤ 200 ∧ (200 : Int) ≤ maxFileSize := ⟨by decide, by decide⟩
  have second := create_succeeds_iff formatted run proper (fun _ _ => 0) (.ofList [97]) fits
  have again := create_succeeds_iff formatted run proper (fun _ _ => 0) (.ofList [98]) fits
  have refused : (s.fs.create (fun _ _ => 0) (.ofList [98]) 200).1 = false := by
    by_contra created
    have absent := (again.1.mp (Bool.eq_true_of_not_eq_false created)).1
    exact lone.present ((lone.laid.find_eq_neg_one_iff _).mp absent)
  refine ⟨fs, s, formatted, run, second.1.mpr ⟨?_, lone.unused, ?_⟩, refused,
    again.2 refused⟩
  · exact (lone.laid.find_eq_neg_one_iff _).mpr (lone.absent (by decide))
  · have room := lone.laid.room
    simp only [sectorSize]
    omega

/-- On every disk that is reached from a formatted one at least 709 sectors are
clear, so that `Create` with a size that a header can hold fails exactly for a
name that is found and where all ten entries of the directory are in use. -/
theorem create_fails_only_for_directory {formatHeap : Nat → Memory} {formatDisk : Disk}
    {fs : FileSystem} {acts : List FileAction} {s : Session}
    (formatted : FileSystem.format formatHeap formatDisk = some fs)
    (run : sessionMachine.exec ⟨fs, []⟩ acts = some s)
    (proper : sessionMachine.Steps Session.Proper ⟨fs, []⟩ acts)
    (heap : Nat → Memory) (name : Memory) {initialSize : Int}
    (nonneg : 0 ≤ initialSize) (small : initialSize ≤ maxFileSize) :
    709 ≤ s.fs.freeMap.numClear ∧
      ((s.fs.create heap name initialSize).1 = false ↔
        s.fs.directory.find name ≠ -1 ∨
          ∀ i, 0 ≤ i → i < numDirEntries → s.fs.directory.inUse i = true) := by
  have laid := (Session.kept_of_run formatted run proper).laid
  refine ⟨laid.room, ?_⟩
  rw [Ne, laid.find_eq_neg_one_iff]
  rcases laid.create_cases heap name nonneg small with
    ⟨outcome, full⟩ | ⟨fs', outcome, absent, i, low, high, unused⟩
  · rw [outcome]
    refine iff_of_true rfl ?_
    by_cases absent : s.fs.directory.findIndex name = -1
    · right
      intro i low high
      by_contra unused
      exact full ⟨absent, i, low, high, Bool.eq_false_iff.mpr unused⟩
    · exact .inl absent
  · rw [outcome]
    refine iff_of_false (fun equal => by cases equal) ?_
    rintro (present | used)
    · exact present absent
    · rw [used i low high] at unused
      cases unused

/-- Beside a file that has been written to: its name is refused, and another one
gets a file of the greatest size. -/
theorem create_fails_for_name_in_use :
    ∃ fs s, FileSystem.format (fun _ _ => 0) (fun _ _ => 0) = some fs ∧
      sessionMachine.exec ⟨fs, []⟩ secondFileGone = some s ∧
      709 ≤ s.fs.freeMap.numClear ∧
      (s.fs.create (fun _ _ => 0) (.ofList [98]) 3840).1 = false ∧
      (s.fs.create (fun _ _ => 0) (.ofList [97]) 3840).1 = true := by
  obtain ⟨fs, formatted, spec⟩ :=
    FileSystem.format_formatted (fun _ _ => 0) (fun _ _ => 0)
  obtain ⟨s, i, run, lone⟩ := spec.after_secondFileGone
  have fails (name : Memory) := create_fails_only_for_directory formatted run
    (proper_secondFileGone fs) (fun _ _ => 0) name (show (0 : Int) ≤ 3840 by decide)
    (by decide)
  refine ⟨fs, s, formatted, run, (fails (.ofList [98])).1, ?_, ?_⟩
  · apply (fails (.ofList [98])).2.mpr
    left
    rw [Ne, lone.laid.find_eq_neg_one_iff]
    exact lone.present
  · apply Bool.eq_true_of_not_eq_false
    intro failed
    rcases (fails (.ofList [97])).2.mp failed with found | full
    · exact found ((lone.laid.find_eq_neg_one_iff _).mpr (lone.absent (by decide)))
    · obtain ⟨j, low, high, unused⟩ := lone.unused
      rw [full j low high] at unused
      cases unused

end Nachos
