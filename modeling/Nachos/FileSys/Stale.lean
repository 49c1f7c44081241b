/-
Module: Nachos.FileSys.Stale
Purpose: What a `WriteAt` leaves alone.  An `OpenFile` keeps its own copy of the
  header, and `Remove` and `Create` recycle the sectors that the copy names: a
  write through an `OpenFile` of a removed file can hit another file.  It hits
  nothing else along every history in which no such write reaches a sector that
  is marked again.
Trusted boundary: none
Main exports: Session.WriteFrame, Session.Frames, Session.Harmless,
  harmless_writes_frame, stale_write_hits_other_file
-/
import Nachos.FileSys.Negative

namespace Nachos

open Lib

namespace Session

/-! ### What a write should leave alone -/

/-- A write through a handle has changed neither the free map nor the directory,
nor a byte of any file in the directory other than the one that the handle was
opened on. -/
structure WriteFrame (h : Handle) (s s' : Session) : Prop where
  freeMap : ∀ k, 0 ≤ k → k < freeMapFileSize →
    s'.fs.freeMapFile.hdr.content s'.fs.disk k = s.fs.freeMapFile.hdr.content s.fs.disk k
  directory : ∀ k, 0 ≤ k → k < directoryFileSize →
    s'.fs.directoryFile.hdr.content s'.fs.disk k =
      s.fs.directoryFile.hdr.content s.fs.disk k
  others : ∀ i, 0 ≤ i → i < numDirEntries → s.fs.directory.inUse i = true →
    ¬ (h.live = true ∧ s.fs.directory.sector i = h.sector) →
    s'.fs.contents i = s.fs.contents i

/-- The step is not a `WriteAt`, or leaves alone what it should. -/
def Frames (s : Session) (action : FileAction) : Prop :=
  match action with
  | .writeAt handle _ _ _ _ =>
      ∀ h s', s.handles[handle]? = some h → s.step action = some s' → WriteFrame h s s'
  | _ => True

/-- Sizes are those that a header can hold, and writes are in range. -/
def InRange (_ : Session) : FileAction → Prop
  | .create _ _ initialSize => 0 ≤ initialSize ∧ initialSize ≤ maxFileSize
  | .writeAt _ _ _ numBytes position => 0 ≤ position ∧ position + numBytes < 2 ^ 31
  | _ => True

/-- Sizes are at most what a header can hold, writes are in range, and a write
to a file that has been removed reaches no sector that is marked. -/
def Harmless (s : Session) : FileAction → Prop
  | .create _ _ initialSize => -2 ^ 31 ≤ initialSize ∧ initialSize ≤ maxFileSize
  | .writeAt handle _ _ numBytes position =>
      0 ≤ position ∧ position + numBytes < 2 ^ 31 ∧
        ∀ h, s.handles[handle]? = some h → h.live = true ∨
          ∀ j, h.file.Reaches numBytes position j →
            s.fs.freeMap.test (h.file.hdr.dataSectors j) = false
  | _ => True

/-! ### The invariant -/

/-- The file system has a shadow, every handle has the header of a file, and
those that are live have that of a file of the shadow. -/
structure Sheltered (s : Session) (shadow : FileSystem) : Prop where
  system : s.fs.Shadow shadow
  sound : ∀ h ∈ s.handles, h.file.hdr.clamped.Sound
  live : ∀ h ∈ s.handles, h.live = true → shadow.volume.Has h.sector h.file.hdr.clamped

variable {s s' : Session} {shadow : FileSystem}

theorem Sheltered.create (sheltered : s.Sheltered shadow) (heap : Nat → Memory)
    (name : Memory) {initialSize : Int} (int : -2 ^ 31 ≤ initialSize)
    (small : initialSize ≤ maxFileSize) :
    ∃ shadow', Sheltered { s with fs := (s.fs.create heap name initialSize).2 } shadow' := by
  obtain ⟨shadow', outcome, kept⟩ := sheltered.system.create heap name int small
  refine ⟨shadow', kept, sheltered.sound, ?_⟩
  intro h member live
  have has := sheltered.live h member live
  cases success : (s.fs.create heap name initialSize).1 with
  | false =>
      rw [success] at outcome
      rw [FileSystem.create_eq_false outcome]
      exact has
  | true =>
      rw [success] at outcome
      have nonneg : 0 ≤ max initialSize 0 := by omega
      have fits : max initialSize 0 ≤ maxFileSize := by
        simp only [maxFileSize] at *
        omega
      obtain ⟨i, sector, hdr, created⟩ := sheltered.system.laid.created nonneg fits outcome
      exact (has.add created.unused).of_same created.volume

theorem Sheltered.opened (sheltered : s.Sheltered shadow) (heap name : Memory) :
    Sheltered (s.opened ((s.fs.fetchDirectory heap).find name) (s.fs.openFile heap name))
      shadow := by
  cases result : s.fs.openFile heap name with
  | none => exact sheltered
  | some file =>
      have has := sheltered.system.openFile_has result
      refine ⟨sheltered.system, ?_, ?_⟩
      · intro h member
        rcases List.mem_append.mp member with old | new
        · exact sheltered.sound h old
        · rw [List.mem_singleton.mp new]
          obtain ⟨i, low, high, used, -, same⟩ := has
          exact same.sound (sheltered.system.laid.valid.sound i low high used)
      · intro h member live
        rcases List.mem_append.mp member with old | new
        · exact sheltered.live h old live
        · rw [List.mem_singleton.mp new]
          exact has

/-- The handles once a file has been removed. -/
theorem Sheltered.removed (sheltered : s.Sheltered shadow) {heap name : Memory} {i : Int}
    {fs' shadow' : FileSystem} (removed : shadow.Removed name i shadow')
    (kept : fs'.Shadow shadow') :
    Sheltered { fs := fs'
                handles := forget ((s.fs.fetchDirectory heap).find name) s.handles }
      shadow' := by
  have found : (s.fs.fetchDirectory heap).find name = shadow.volume.sector i := by
    rw [← sheltered.system.fetchDirectory_eq]
    exact removed.find_eq sheltered.system.laid heap
  refine ⟨kept, ?_, ?_⟩
  · intro h member
    obtain ⟨before, old, rfl⟩ := List.mem_map.mp member
    exact sheltered.sound before old
  · intro h member live
    obtain ⟨before, old, rfl⟩ := List.mem_map.mp member
    obtain ⟨wasLive, other⟩ := Bool.and_eq_true_iff.mp live
    rw [found] at other
    exact ((sheltered.live before old wasLive).drop (bne_iff_ne.mp other)).of_same
      removed.volume

/-! ### What a harmless write spares -/

section

variable {h : Handle} {numBytes position : Int}

/-- The sectors that a request reaches are in the table. -/
theorem Sheltered.reaches_bounds (sheltered : s.Sheltered shadow) (member : h ∈ s.handles)
    (start : 0 ≤ position) {j : Int} (reaches : h.file.Reaches numBytes position j) :
    0 ≤ j ∧ j < h.file.hdr.clamped.numSectors := by
  obtain ⟨-, inside, first, last⟩ := reaches
  have bound := @FileHeader.Sound.sector_lt _ (sheltered.sound h member)
    (min (position + numBytes) h.file.hdr.numBytes - 1)
    (by simp only [FileHeader.clamped]; omega)
  simp only [sectorSize] at *
  omega

/-- A write changes only sectors that the request reaches. -/
theorem Sheltered.write_unreached (sheltered : s.Sheltered shadow) (member : h ∈ s.handles)
    (heap source : Memory) (start : 0 ≤ position) (small : position + numBytes < 2 ^ 31)
    {sector : Int}
    (other : ∀ j, h.file.Reaches numBytes position j → sector ≠ h.file.hdr.dataSectors j) :
    (h.file.writeAt s.fs.disk heap source numBytes position).2 sector = s.fs.disk sector := by
  have sound := sheltered.sound h member
  by_cases empty : h.file.hdr.numBytes ≤ position
  · rw [OpenFile.writeAt_nothing heap source (.inr empty)]
  · have enough := sound.enough
    have bytes : h.file.hdr.clamped.numBytes = h.file.hdr.numBytes := by
      simp only [FileHeader.clamped]
      omega
    rw [bytes, divRoundUp_eq (by omega)] at enough
    have sectors : 0 ≤ h.file.hdr.numSectors := by
      simp only [FileHeader.clamped, sectorSize] at enough
      omega
    rw [FileHeader.clamped_eq (by omega) sectors] at sound
    exact OpenFile.writeAt_unreached sound heap source start small other

/-- A harmless write spares every sector with an owner other than data of the
file of the handle. -/
theorem Sheltered.write_spares (sheltered : s.Sheltered shadow) (member : h ∈ s.handles)
    (heap source : Memory) (start : 0 ≤ position) (small : position + numBytes < 2 ^ 31)
    (harmless : h.live = true ∨ ∀ j, h.file.Reaches numBytes position j →
      s.fs.freeMap.test (h.file.hdr.dataSectors j) = false)
    {o : Owner} {sector : Int} (owns : shadow.volume.Owns o sector)
    (other : ∀ i j, h.live = true → shadow.volume.sector i = h.sector → o ≠ .data i j) :
    (h.file.writeAt s.fs.disk heap source numBytes position).2 sector = s.fs.disk sector := by
  apply sheltered.write_unreached member heap source start small
  intro j reaches equal
  obtain ⟨low, high⟩ := sheltered.reaches_bounds member start reaches
  have valid := sheltered.system.laid.valid
  rcases harmless with live | unmarked
  · obtain ⟨i, iLow, iHigh, used, place, same⟩ := sheltered.live h member live
    rw [same.numSectors] at high
    have mine : shadow.volume.Owns (.data i j) sector :=
      ⟨iLow, iHigh, used, low, high, equal.trans (same.dataSectors j low high)⟩
    exact other i j live place (valid.unique o _ sector owns mine)
  · obtain ⟨nonneg, inRange, marked⟩ := valid.owned owns
    have test := unmarked j reaches
    rw [← equal, sheltered.system.test_eq nonneg inRange] at test
    have isSet : shadow.freeMap.test sector = true := marked
    rw [test] at isSet
    cases isSet

/-- What is left alone, and that the invariant is kept. -/
theorem Sheltered.write (sheltered : s.Sheltered shadow) (member : h ∈ s.handles)
    (heap source : Memory) (start : 0 ≤ position) (small : position + numBytes < 2 ^ 31)
    (harmless : h.live = true ∨ ∀ j, h.file.Reaches numBytes position j →
      s.fs.freeMap.test (h.file.hdr.dataSectors j) = false) :
    let after := { s with fs := { s.fs with
      disk := (h.file.writeAt s.fs.disk heap source numBytes position).2 } }
    after.Sheltered shadow ∧ WriteFrame h s after := by
  have sh := sheltered.system
  have spares := fun o sector => @Sheltered.write_spares s shadow h numBytes position sheltered
    member heap source start small harmless o sector
  generalize (h.file.writeAt s.fs.disk heap source numBytes position).2 = disk at *
  have system : ∀ n, 0 ≤ n → n < 5 → disk n = s.fs.disk n := by
    intro n low high
    apply spares (.system n) n ⟨low, high, rfl⟩
    intro i j _ _ equal
    cases equal
  have headers : ∀ i, 0 ≤ i → i < 10 → shadow.volume.inUse i = true →
      disk (shadow.volume.sector i) = s.fs.disk (shadow.volume.sector i) := by
    intro i low high used
    apply spares (.header i) _ ⟨low, high, used, rfl⟩
    intro i j _ _ equal
    cases equal
  have mapFile : s.fs.freeMapFile.hdr.Describes 128 2 1 := sh.mapFile ▸ sh.laid.mapFile
  have dirFile : s.fs.directoryFile.hdr.Describes 200 3 2 := sh.dirFile ▸ sh.laid.dirFile
  refine ⟨⟨sh.keep system headers, sheltered.sound, sheltered.live⟩, ?_, ?_, ?_⟩
  · intro k low high
    simp only [freeMapFileSize] at high
    exact mapFile.content_congr mapFile (fun n nLow nHigh => system n (by omega) (by omega))
      low (by simp only [sectorSize]; omega)
  · intro k low high
    simp only [directoryFileSize] at high
    exact dirFile.content_congr dirFile (fun n nLow nHigh => system n (by omega) (by omega))
      low (by simp only [sectorSize]; omega)
  · intro i low high used notMine
    have entry := sh.entry low high
    have used' : shadow.volume.inUse i = true := entry.inUse.symm.trans used
    apply sh.contents_keep system low high used' (headers i low high used')
    intro j jLow jHigh
    apply spares (.data i j) _ ⟨low, high, used', jLow, jHigh, rfl⟩
    intro i' j' live place equal
    cases equal
    exact notMine ⟨live, entry.sector.trans place⟩

end

/-! ### Histories -/

/-- One harmless step. -/
theorem step_sheltered {action : FileAction} (sheltered : ∃ shadow, s.Sheltered shadow)
    (harmless : s.Harmless action) (step : s.step action = some s') :
    ∃ shadow, s'.Sheltered shadow := by
  obtain ⟨shadow, sheltered⟩ := sheltered
  cases action with
  | create heap name initialSize =>
      cases step
      exact sheltered.create heap name harmless.1 harmless.2
  | openFile heap name =>
      cases step
      exact ⟨shadow, sheltered.opened heap name⟩
  | remove heap name =>
      obtain ⟨result, outcome, rfl⟩ := Option.map_eq_some_iff.mp step
      rcases sheltered.system.remove heap name with
        ⟨-, absent⟩ | ⟨i, fs', shadow', gone, removed, -, kept⟩
      · rw [absent] at outcome
        cases outcome
        exact ⟨shadow, sheltered⟩
      · rw [gone] at outcome
        cases outcome
        exact ⟨shadow', sheltered.removed removed kept⟩
  | writeAt handle heap source numBytes position =>
      obtain ⟨h, found, rfl⟩ := Option.map_eq_some_iff.mp step
      obtain ⟨start, small, spares⟩ := harmless
      exact ⟨shadow, (sheltered.write (List.mem_of_getElem? found) heap source start small
        (spares h found)).1⟩
  | mount =>
      cases step
      refine ⟨_, sheltered.system.mount, ?_, ?_⟩
      · intro h member
        cases member
      · intro h member
        cases member

/-- A harmless step leaves alone what it should. -/
theorem Sheltered.frames {action : FileAction} (sheltered : s.Sheltered shadow)
    (harmless : s.Harmless action) : s.Frames action := by
  cases action with
  | writeAt handle heap source numBytes position =>
      intro h s' found step
      obtain ⟨h', found', rfl⟩ := Option.map_eq_some_iff.mp step
      obtain rfl : h' = h := Option.some.inj (found'.symm.trans found)
      obtain ⟨start, small, spares⟩ := harmless
      exact (sheltered.write (List.mem_of_getElem? found) heap source start small
        (spares h' found)).2
  | _ => trivial

end Session

/-- Along every history of a formatted disk with sizes that a header can hold or
that are negative and with writes in range: when no write through an `OpenFile`
of a removed file reaches a sector that is marked in the free map, every
`WriteAt` leaves the free map, the directory and all files but its own alone. -/
theorem harmless_writes_frame {heap : Nat → Memory} {disk : Disk} {fs : FileSystem}
    {acts : List FileAction} (formatted : FileSystem.format heap disk = some fs)
    (harmless : sessionMachine.Steps Session.Harmless ⟨fs, []⟩ acts) :
    sessionMachine.Steps Session.Frames ⟨fs, []⟩ acts := by
  obtain ⟨fresh, same, spec⟩ := FileSystem.format_formatted heap disk
  rw [formatted] at same
  cases same
  have start : ∃ shadow, Session.Sheltered ⟨fs, []⟩ shadow := by
    refine ⟨fs, spec.laid.ownShadow, ?_, ?_⟩
    · intro h member
      cases member
    · intro h member
      cases member
  have along : sessionMachine.Along (fun s => ∃ shadow, s.Sheltered shadow) ⟨fs, []⟩ acts :=
    Machine.along_of_guarded
      (fun _ _ _ sheltered harmless step => Session.step_sheltered sheltered harmless step)
      start harmless
  apply along.steps harmless
  rintro s action ⟨shadow, sheltered⟩ harmless
  exact sheltered.frames harmless

/-- A file is created, opened, written to and removed on a new disk; another one
has a negative length. -/
theorem harmless_writes_frame_on_new_disk :
    ∃ fs : FileSystem, FileSystem.format (fun _ _ => 0) (fun _ _ => 0) = some fs ∧
      sessionMachine.Steps Session.Frames ⟨fs, []⟩
        [.create (fun _ _ => 0) (.ofList [98]) (-5),
          .create (fun _ _ => 0) (.ofList [97]) 200,
          .openFile (fun _ => 0) (.ofList [97]),
          .writeAt 0 (fun _ => 0) (fun _ => 1) 150 40,
          .remove (fun _ _ => 0) (.ofList [97])] := by
  obtain ⟨fs, formatted, -⟩ := FileSystem.format_formatted (fun _ _ => 0) (fun _ _ => 0)
  refine ⟨fs, formatted, harmless_writes_frame formatted ?_⟩
  refine ⟨⟨by decide, by decide⟩, ?_⟩
  rintro s ⟨⟩
  refine ⟨⟨by decide, by decide⟩, ?_⟩
  rintro s ⟨⟩
  refine ⟨trivial, ?_⟩
  rintro s ⟨⟩
  refine ⟨⟨by decide, by decide, ?_⟩, ?_⟩
  · intro h found
    exact .inl (Session.opened_live found)
  · intro s _
    exact ⟨trivial, fun s _ => trivial⟩

/-! ### A write that hits another file -/

namespace FileSystem

variable {fs fs' : FileSystem}

/-- A disk that says what a formatted one says. -/
theorem Formatted.of_same (spec : fs.Formatted) (laid : fs'.Laid)
    (same : fs.volume.Same fs'.volume) : fs'.Formatted := by
  refine ⟨laid, ?_, ?_⟩
  · intro i low high
    exact (same.inUse i low high).trans (spec.empty i low high)
  · rw [← spec.numClear]
    have size : fs'.freeMap.numBits = fs.freeMap.numBits := rfl
    apply BitMap.numClear_congr size
    intro s low high
    exact Bool.eq_iff_iff.mpr (same.marked s low high)

/-- The first file of one sector has its header in sector 5 and its data in
sector 6. -/
theorem Formatted.first_file (spec : fs.Formatted) {heap : Nat → Memory} {name : Memory}
    (success : fs.create heap name 128 = (true, fs')) :
    ∃ i, 0 ≤ i ∧ i < 10 ∧ fs'.directory.findIndex name = i ∧
      fs'.volume.inUse i = true ∧ fs'.volume.sector i = 5 ∧
      (fs'.volume.hdr i).Describes 128 6 1 ∧ fs'.Laid := by
  obtain ⟨i, sector, hdr, freeMap, find, allocation, -, created⟩ :=
    spec.laid.created_stored (by decide) (by decide) success
  have taken : (fs.fetchFreeMap (heap 1)).Taken 5 := by
    refine ⟨fetchFreeMap_numBits _ _, ?_, ?_⟩
    · intro s low high
      rw [spec.laid.fetched_test (heap 1) low high]
      exact spec.taken.test s low high
    · rw [spec.laid.fetched_numClear]
      exact spec.numClear
  rw [taken.find (by decide) (by decide)] at find
  obtain rfl : (5 : Int) = sector := (Prod.mk.inj find).1
  obtain ⟨hdr', freeMap', allocation', describes, -⟩ :=
    FileHeader.allocate_taken (.ofMemory (heap 2)) 128
      (taken.mark (by decide) (by decide)) (by decide) 1 rfl (by decide)
  obtain rfl : hdr' = hdr :=
    (Prod.mk.inj (Option.some.inj (allocation'.symm.trans allocation))).1
  have place := created.volume.sector i created.low created.high (by simp [Volume.add])
  refine ⟨i, created.low, created.high, created.entry, created.used, ?_, ?_, created.laid⟩
  · simpa [Volume.add] using place
  · exact created.sameFile.describes describes

/-- The first byte of a file that is not empty. -/
theorem contents_head {i : Int} (positive : 0 < (fs.volume.hdr i).numBytes) :
    (fs.contents i).head? = some ((fs.volume.hdr i).content fs.disk 0) := by
  obtain ⟨n, count⟩ : ∃ n, (fs.volume.hdr i).numBytes.toNat = n + 1 :=
    ⟨(fs.volume.hdr i).numBytes.toNat - 1, by omega⟩
  unfold contents Memory.toList
  rw [count, List.range_succ_eq_map]
  rfl

end FileSystem

/-- Writing one more than its first byte through the header of a file in sector 6
changes the file of entry `i`, whose data is in that sector. -/
theorem FileSystem.Laid.sixth_sector_hit {fs : FileSystem} (laid : fs.Laid) {i : Int}
    (low : 0 ≤ i) (high : i < 10) (place : fs.volume.sector i = 5)
    (describes : (fs.volume.hdr i).Describes 128 6 1)
    {file : OpenFile} (sound : file.hdr.Sound) (describes' : file.hdr.Describes 128 6 1)
    (heap : Memory) :
    ({ fs with disk := (file.writeAt fs.disk heap (fun _ => fs.disk 6 0 + 1) 1 0).2 } :
      FileSystem).contents i ≠ fs.contents i := by
  have written := @OpenFile.writeAt_content file fs.disk 1 0 sound heap
    (fun _ => fs.disk 6 0 + 1) (by decide) (by decide) (by rw [describes'.numBytes]; decide)
    (by decide) 0 (by decide) (by rw [describes'.numBytes]; decide)
  rw [describes'.numBytes, if_pos (by decide), describes'.content _ (by decide) (by decide)]
    at written
  have others : ∀ s, s ≠ 6 →
      (file.writeAt fs.disk heap (fun _ => fs.disk 6 0 + 1) 1 0).2 s = fs.disk s := by
    intro s other
    apply OpenFile.writeAt_other sound heap _ (by decide) (by decide)
    intro j jLow jHigh
    rw [describes'.numSectors] at jHigh
    rw [describes'.dataSectors j jLow jHigh]
    omega
  generalize (file.writeAt fs.disk heap (fun _ => fs.disk 6 0 + 1) 1 0).2 = disk at *
  have entry := @Laid.directory_same fs { fs with disk := disk } laid laid.dirFile
    (fun s sLow sHigh => others s (by omega)) i low high
  have hdr := @volume_hdr_same fs { fs with disk := disk } i entry
    (others _ (by rw [place]; decide))
  have after := hdr.describes describes
  intro same
  have heads := congrArg List.head? same
  rw [contents_head (by rw [after.numBytes]; decide),
    contents_head (by rw [describes.numBytes]; decide),
    after.content _ (by decide) (by decide), describes.content _ (by decide) (by decide)]
    at heads
  have bytes : disk 6 0 = fs.disk 6 0 := Option.some.inj heads
  have sum : fs.disk 6 0 + 1 = fs.disk 6 0 := written.symm.trans bytes
  have values := congrArg UInt8.toNat sum
  have bound := UInt8.toNat_lt (fs.disk 6 0)
  rw [UInt8.toNat_add] at values
  simp only [UInt8.reduceToNat] at values
  omega

/-- A file of one sector is created, opened and removed; the next file gets the
same sectors, and a write through the first one's `OpenFile` changes it. -/
theorem stale_write_hits_other_file :
    ¬ ∀ (heap : Nat → Memory) (disk : Disk) (fs : FileSystem) (acts : List FileAction),
      FileSystem.format heap disk = some fs →
      sessionMachine.Steps Session.InRange ⟨fs, []⟩ acts →
      sessionMachine.Steps Session.Frames ⟨fs, []⟩ acts := by
  intro claim
  obtain ⟨fs, formatted, spec⟩ :=
    FileSystem.format_formatted (fun _ _ => 0) (fun _ _ => 0)
  -- the first file
  obtain ⟨fs₁, created₁⟩ := spec.create_first (fun _ _ => 0) (.ofList [97]) 128 (by decide)
    (by decide)
  obtain ⟨i, low, high, index, used, -, describes, laid₁⟩ := spec.first_file created₁
  have opened := laid₁.openFile_eq (fun _ => 0) index low
  generalize fileIs : OpenFile.openAt (fs₁.volume.sector i) fs₁.disk = file at opened
  have fileHdr : file.hdr = fs₁.volume.hdr i := by rw [← fileIs]; rfl
  obtain ⟨fs₂, gone, laid₂, same, -, -⟩ :=
    spec.laid.remove_created (by decide) (by decide) created₁ (fun _ _ => 0)
  -- the second file
  have spec₂ := spec.of_same laid₂ same
  obtain ⟨fs₃, created₃⟩ := spec₂.create_first (fun _ _ => 0) (.ofList [98]) 128 (by decide)
    (by decide)
  obtain ⟨i₃, low₃, high₃, -, used₃, place₃, describes₃, laid₃⟩ := spec₂.first_file created₃
  have run : sessionMachine.exec ⟨fs, []⟩ [.create (fun _ _ => 0) (.ofList [97]) 128,
      .openFile (fun _ => 0) (.ofList [97]), .remove (fun _ _ => 0) (.ofList [97]),
      .create (fun _ _ => 0) (.ofList [98]) 128] =
      some ⟨fs₃, [⟨file, (fs₁.fetchDirectory fun _ => 0).find (.ofList [97]), false⟩]⟩ := by
    rw [Machine.exec_cons_of_step (Session.step_create created₁),
      Machine.exec_cons_of_step (Session.step_openFile opened),
      Machine.exec_cons_of_step (Session.step_remove gone),
      Machine.exec_cons_of_step (Session.step_create created₃), Machine.exec_nil]
    simp [Session.forget]
  -- the byte that is written differs from what the second file holds
  have frames := claim _ _ fs ([.create (fun _ _ => 0) (.ofList [97]) 128,
    .openFile (fun _ => 0) (.ofList [97]), .remove (fun _ _ => 0) (.ofList [97]),
    .create (fun _ _ => 0) (.ofList [98]) 128] ++
      [.writeAt 0 (fun _ => 0) (fun _ => fs₃.disk 6 0 + 1) 1 0]) formatted ?_
  · have frame := frames.at_step run _ _ rfl rfl
    have kept := frame.others i₃ low₃ high₃ used₃ (by simp)
    have sound := laid₁.valid.sound i low high used
    rw [← fileHdr] at sound describes
    exact laid₃.sixth_sector_hit low₃ high₃ place₃ describes₃ sound describes _ kept
  · exact ⟨⟨by decide, by decide⟩, fun _ _ => ⟨trivial, fun _ _ => ⟨trivial, fun _ _ =>
      ⟨⟨by decide, by decide⟩, fun _ _ => ⟨⟨by decide, by decide⟩, fun _ _ => trivial⟩⟩⟩⟩⟩

end Nachos
