/-
Module: Nachos.FileSys.Histories
Purpose: Along every history of a freshly formatted disk the disk stays laid
  out, and every open file that has not been removed describes a file of the
  volume.
Trusted boundary: none
Main exports: Volume.Has, Session.Kept, Session.step_kept,
  Session.kept_along, Session.kept_of_run
-/
import Nachos.FileSys.Format

namespace Nachos

open Lib

/-! ### Files of a volume -/

namespace Volume

/-- A file with this header, in this sector, is in the directory. -/
def Has (v : Volume) (sector : Int) (hdr : FileHeader) : Prop :=
  ∃ i, 0 ≤ i ∧ i < 10 ∧ v.inUse i = true ∧ v.sector i = sector ∧
    (v.hdr i).SameFile hdr

variable {v v' : Volume} {sector : Int} {hdr : FileHeader}

theorem Has.of_same (has : v.Has sector hdr) (same : v.Same v') : v'.Has sector hdr := by
  obtain ⟨i, low, high, used, place, file⟩ := has
  refine ⟨i, low, high, ?_, ?_, ?_⟩
  · exact (same.inUse i low high).trans used
  · exact (same.sector i low high used).trans place
  · exact (same.hdr i low high used).symm.trans file

/-- A new entry leaves the others alone. -/
theorem Has.add {i newSector : Int} {newHdr : FileHeader} (has : v.Has sector hdr)
    (unused : v.inUse i = false) : (v.add i newSector newHdr).Has sector hdr := by
  obtain ⟨j, low, high, used, place, file⟩ := has
  have other : j ≠ i := by
    rintro rfl
    rw [used] at unused
    cases unused
  refine ⟨j, low, high, ?_, ?_, ?_⟩
  · simpa [Volume.add, other] using used
  · simpa [Volume.add, other] using place
  · simpa [Volume.add, other] using file

/-- Dropping a file leaves those with another header sector alone. -/
theorem Has.drop {i : Int} (has : v.Has sector hdr) (other : sector ≠ v.sector i) :
    (v.drop i).Has sector hdr := by
  obtain ⟨j, low, high, used, place, file⟩ := has
  have different : j ≠ i := by
    rintro rfl
    exact other place.symm
  refine ⟨j, low, high, ?_, place, file⟩
  simpa [Volume.drop, different] using used

end Volume

/-! ### Writing to a file of the volume -/

namespace FileSystem

variable {fs : FileSystem}

/-- On the disk of `fs'` only data of files may differ from that of `fs`. -/
structure SameFiles (fs fs' : FileSystem) : Prop where
  laid : fs'.Laid
  volume : fs.volume.Same fs'.volume
  entry : ∀ i, 0 ≤ i → i < 10 → Directory.SameEntry fs.directory fs'.directory i

/-- None of the system sectors and none of the headers is data of a file of the
volume. -/
theorem Laid.not_data (laid : fs.Laid) {sector : Int} {hdr : FileHeader}
    (has : fs.volume.Has sector hdr) {o : Owner} {s : Int} (owns : fs.volume.Owns o s)
    (notData : ∀ i j, o ≠ .data i j) {j : Int} (low : 0 ≤ j) (high : j < hdr.numSectors) :
    s ≠ hdr.dataSectors j := by
  obtain ⟨i, iLow, iHigh, used, -, same⟩ := has
  intro equal
  rw [same.numSectors] at high
  rw [same.dataSectors j low high] at equal
  have owns' : fs.volume.Owns (.data i j) s := ⟨iLow, iHigh, used, low, high, equal⟩
  exact notData i j (laid.valid.unique _ _ _ owns owns')

/-- A change to the data of one file. -/
theorem Laid.sameFiles (laid : fs.Laid) {sector : Int} {hdr : FileHeader}
    (has : fs.volume.Has sector hdr) {disk : Disk}
    (others : ∀ s, (∀ j, 0 ≤ j → j < hdr.numSectors → s ≠ hdr.dataSectors j) →
      disk s = fs.disk s) : SameFiles fs { fs with disk := disk } := by
  have system : ∀ s, 0 ≤ s → s < 5 → disk s = fs.disk s := by
    intro s low high
    apply others
    intro j jLow jHigh
    have owns : fs.volume.Owns (.system s) s := ⟨low, high, rfl⟩
    exact laid.not_data has owns (fun _ _ equal => by cases equal) jLow jHigh
  have headers : ∀ i, 0 ≤ i → i < 10 → fs.volume.inUse i = true →
      disk (fs.volume.sector i) = fs.disk (fs.volume.sector i) := by
    intro i low high used
    apply others
    intro j jLow jHigh
    have owns : fs.volume.Owns (.header i) (fs.volume.sector i) := ⟨low, high, used, rfl⟩
    exact laid.not_data has owns (fun _ _ equal => by cases equal) jLow jHigh
  have same := @Laid.volume_same fs { fs with disk := disk } laid laid.mapFile laid.dirFile
    system headers
  refine ⟨?_, same, ?_⟩
  · apply laid.keep
    · rfl
    · rfl
    · exact system 0 (by decide) (by decide)
    · exact system 1 (by decide) (by decide)
    · exact laid.valid.of_same same
  · intro i low high
    exact @Laid.directory_same fs { fs with disk := disk } laid laid.dirFile system i low high

/-- A write to a file of the volume. -/
theorem Laid.write (laid : fs.Laid) {file : OpenFile} {sector : Int}
    (has : fs.volume.Has sector file.hdr) (heap source : Memory)
    {numBytes position : Int} (start : 0 ≤ position)
    (small : position + numBytes < 2 ^ 31) :
    SameFiles fs { fs with
      disk := (file.writeAt fs.disk heap source numBytes position).2 } := by
  apply laid.sameFiles has
  intro s other
  obtain ⟨i, low, high, used, -, same⟩ := has
  have sound := same.sound (laid.valid.sound i low high used)
  exact OpenFile.writeAt_other sound heap source start small other

/-- Mounting finds everything as it was. -/
theorem Laid.mount (laid : fs.Laid) : (FileSystem.mount fs.disk).Laid where
  mapFile := laid.mapHdr
  dirFile := laid.dirHdr
  mapHdr := laid.mapHdr
  dirHdr := laid.dirHdr
  valid := laid.valid.of_same (laid.volume_same laid.mapHdr laid.dirHdr
    (fun _ _ _ => rfl) (fun _ _ _ _ => rfl))

/-- `Open` of a name that is in the directory. -/
theorem Laid.openFile_eq (laid : fs.Laid) (heap : Memory) {name : Memory} {i : Int}
    (index : fs.directory.findIndex name = i) (low : 0 ≤ i) :
    fs.openFile heap name = some (.openAt (fs.volume.sector i) fs.disk) := by
  unfold openFile
  rcases laid.find_cases heap name with absent | ⟨j, found, jLow, jHigh, used, lookup⟩
  · omega
  · obtain rfl : j = i := found.symm.trans index
    obtain ⟨notSystem, -, -⟩ := laid.sector_spec jLow jHigh used
    rw [lookup]
    exact if_pos (by omega)

/-- `Open` finds a file of the volume. -/
theorem Laid.openFile_has (laid : fs.Laid) {heap name : Memory} {file : OpenFile}
    (opened : fs.openFile heap name = some file) :
    fs.volume.Has ((fs.fetchDirectory heap).find name) file.hdr := by
  rcases laid.find_cases heap name with absent | ⟨i, index, low, high, used, found⟩
  · rw [openFile, absent.2] at opened
    cases opened
  · rw [laid.openFile_eq heap index low] at opened
    have same := Option.some.inj opened
    refine ⟨i, low, high, used, found.symm, ?_⟩
    rw [← same]
    exact .refl _

end FileSystem

/-! ### Histories -/

namespace Session

/-- The disk is laid out and the open files that are not forgotten are files of
the volume. -/
structure Kept (s : Session) : Prop where
  laid : s.fs.Laid
  handles : ∀ h ∈ s.handles, h.live = true → s.fs.volume.Has h.sector h.file.hdr

variable {s s' : Session}

theorem Kept.create (kept : s.Kept) {heap : Nat → Memory} {name : Memory}
    {initialSize : Int} (nonneg : 0 ≤ initialSize) (small : initialSize ≤ maxFileSize) :
    Kept { s with fs := (s.fs.create heap name initialSize).2 } := by
  rcases outcome : s.fs.create heap name initialSize with ⟨success, fs'⟩
  cases success with
  | false =>
      rw [FileSystem.create_eq_false outcome]
      exact kept
  | true =>
      obtain ⟨i, sector, hdr, created⟩ := kept.laid.created nonneg small outcome
      refine ⟨created.laid, ?_⟩
      intro h member live
      exact ((kept.handles h member live).add created.unused).of_same created.volume

theorem Kept.opened (kept : s.Kept) (heap name : Memory) :
    Kept (s.opened ((s.fs.fetchDirectory heap).find name) (s.fs.openFile heap name)) := by
  cases result : s.fs.openFile heap name with
  | none => exact kept
  | some file =>
      refine ⟨kept.laid, ?_⟩
      intro h member live
      rcases List.mem_append.mp member with old | new
      · exact kept.handles h old live
      · rw [List.mem_singleton.mp new]
        exact kept.laid.openFile_has result

/-- The files that are left when one is removed. -/
theorem Kept.removed (kept : s.Kept) {heap name : Memory} {i : Int} {fs' : FileSystem}
    (removed : s.fs.Removed name i fs') :
    Kept { fs := fs'
           handles := forget ((s.fs.fetchDirectory heap).find name) s.handles } := by
  have found := removed.find_eq kept.laid heap
  refine ⟨removed.laid, ?_⟩
  intro h member live
  obtain ⟨before, old, rfl⟩ := List.mem_map.mp member
  obtain ⟨wasLive, other⟩ := Bool.and_eq_true_iff.mp live
  rw [found] at other
  exact ((kept.handles before old wasLive).drop (bne_iff_ne.mp other)).of_same
    removed.volume

theorem Kept.write (kept : s.Kept) {h : Handle} (member : h ∈ s.handles)
    (live : h.live = true) (heap source : Memory) {numBytes position : Int}
    (start : 0 ≤ position) (small : position + numBytes < 2 ^ 31) :
    Kept { s with fs := { s.fs with
      disk := (h.file.writeAt s.fs.disk heap source numBytes position).2 } } := by
  have same := kept.laid.write (kept.handles h member live) heap source start small
  refine ⟨same.laid, ?_⟩
  intro other otherMember otherLive
  exact (kept.handles other otherMember otherLive).of_same same.volume

/-- One proper step. -/
theorem step_kept {action : FileAction} (kept : s.Kept) (proper : s.Proper action)
    (step : s.step action = some s') : s'.Kept := by
  cases action with
  | create heap name initialSize =>
      cases step
      exact kept.create proper.1 proper.2
  | openFile heap name =>
      cases step
      exact kept.opened heap name
  | remove heap name =>
      obtain ⟨result, outcome, rfl⟩ := Option.map_eq_some_iff.mp step
      rcases kept.laid.removed heap name with absent | ⟨i, fs', gone, removed⟩
      · rw [absent] at outcome
        cases outcome
        exact kept
      · rw [gone] at outcome
        cases outcome
        exact kept.removed removed
  | writeAt handle heap source numBytes position =>
      obtain ⟨h, found, rfl⟩ := Option.map_eq_some_iff.mp step
      obtain ⟨start, small, live⟩ := proper
      exact kept.write (List.mem_of_getElem? found) (live h found) heap source start small
  | mount =>
      cases step
      refine ⟨kept.laid.mount, ?_⟩
      intro h member
      cases member

/-- Every state of a proper history is as it should be. -/
theorem kept_along {heap : Nat → Memory} {disk : Disk} {fs : FileSystem}
    {acts : List FileAction} (formatted : FileSystem.format heap disk = some fs)
    (proper : sessionMachine.Steps Session.Proper ⟨fs, []⟩ acts) :
    sessionMachine.Along Kept ⟨fs, []⟩ acts := by
  obtain ⟨fresh, same, spec⟩ := FileSystem.format_formatted heap disk
  rw [formatted] at same
  cases same
  have start : Kept ⟨fs, []⟩ := by
    refine ⟨spec.laid, ?_⟩
    intro h member
    cases member
  exact Machine.along_of_guarded
    (fun _ _ _ kept proper step => step_kept kept proper step) start proper

theorem kept_of_run {heap : Nat → Memory} {disk : Disk} {fs : FileSystem}
    {acts : List FileAction} (formatted : FileSystem.format heap disk = some fs)
    (run : sessionMachine.exec ⟨fs, []⟩ acts = some s)
    (proper : sessionMachine.Steps Session.Proper ⟨fs, []⟩ acts) : s.Kept :=
  (kept_along formatted proper).finish run

/-! ### Steps whose outcome is known -/

section

variable {fs fs' : FileSystem} {handles : List Handle}

theorem step_create {heap : Nat → Memory} {name : Memory} {initialSize : Int} {success : Bool}
    (created : fs.create heap name initialSize = (success, fs')) :
    step ⟨fs, handles⟩ (.create heap name initialSize) = some ⟨fs', handles⟩ := by
  dsimp only [step]
  rw [created]

theorem step_openFile {heap name : Memory} {file : OpenFile}
    (opened : fs.openFile heap name = some file) :
    step ⟨fs, handles⟩ (.openFile heap name) =
      some ⟨fs, handles ++ [⟨file, (fs.fetchDirectory heap).find name, true⟩]⟩ := by
  dsimp only [step]
  rw [opened]
  rfl

theorem step_writeAt {handle : Nat} {h : Handle} {heap source : Memory}
    {numBytes position : Int} (found : handles[handle]? = some h) :
    step ⟨fs, handles⟩ (.writeAt handle heap source numBytes position) =
      some ⟨{ fs with disk := (h.file.writeAt fs.disk heap source numBytes position).2 },
        handles⟩ := by
  dsimp only [step]
  rw [found]
  rfl

theorem step_remove {heap : Nat → Memory} {name : Memory}
    (removed : fs.remove heap name = some (true, fs')) :
    step ⟨fs, handles⟩ (.remove heap name) =
      some ⟨fs', forget ((fs.fetchDirectory (heap 0)).find name) handles⟩ := by
  dsimp only [step]
  rw [removed]
  rfl

end

/-- What has been opened just now has not been removed. -/
theorem opened_live {fs : FileSystem} {sector : Int} {result : Option OpenFile}
    {n : Nat} {h : Handle}
    (found : (opened ⟨fs, []⟩ sector result).handles[n]? = some h) :
    h.live = true := by
  cases result with
  | none => simp [Session.opened] at found
  | some file =>
      have member := List.mem_of_getElem? found
      rw [List.mem_singleton.mp member]

end Session

end Nachos
