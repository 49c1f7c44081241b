/-
Module: Nachos.FileSys.Names
Purpose: Which names denote which files.  The directory keeps and compares the
  first nine characters of a name: along every sequence of calls a name denotes
  the file that was created under a name with the same first nine characters
  and has not been removed since, and no other.
Trusted boundary: none
Main exports: SameName, Named, NameCall, namedMachine, Named.Denotes,
  names_denote_by_nine_characters, long_names_collide
-/
import Nachos.FileSys.Negative

namespace Nachos

open Lib

/-! ### Calls and the files they have made -/

/-- The strings are the same. -/
def SameString (first second : Memory) : Prop :=
  ∀ k, charAt first k = charAt second k

/-- The first nine characters of the strings are the same. -/
def SameName (first second : Memory) : Prop :=
  ∀ k < fileNameMaxLen, charAt first k = charAt second k

/-- The file system, with the files that have been created and not removed
since: the name that `Create` was given and the sector of the header.  No
routine reads the second field. -/
structure Named where
  fs : FileSystem
  alive : List (Memory × Int)

/-- A call of the file system. -/
inductive NameCall where
  | create (heap : Nat → Memory) (name : Memory) (initialSize : Int)
  | openFile (heap : Memory) (name : Memory)
  | remove (heap : Nat → Memory) (name : Memory)

namespace Named

/-- One call; `none` when an assertion fails. -/
def step (s : Named) : NameCall → Option Named
  | .create heap name initialSize =>
      let result := s.fs.create heap name initialSize
      some
        { fs := result.2
          alive :=
            if result.1 then s.alive ++ [(name, (s.fs.fetchFreeMap (heap 1)).find.1)]
            else s.alive }
  | .openFile _ _ => some s
  | .remove heap name =>
      (s.fs.remove heap name).map fun result =>
        { fs := result.2
          alive :=
            if result.1 then
              s.alive.filter fun f => f.2 != (s.fs.fetchDirectory (heap 0)).find name
            else s.alive }

/-- The names that `same` takes for one denote files as they should: `Open` and
`Remove` act on a file only if it is alive and was created under such a name,
and `Create` finds a name in the directory only because of such a file. -/
structure Denotes (same : Memory → Memory → Prop) (s : Named) : Prop where
  openFile : ∀ heap name file, s.fs.openFile heap name = some file →
    ∃ f ∈ s.alive, same f.1 name ∧ file = .openAt f.2 s.fs.disk
  remove : ∀ heap name fs', s.fs.remove heap name = some (true, fs') →
    ∃ f ∈ s.alive, same f.1 name ∧ fs'.directory.files =
      { file ∈ s.fs.directory.files | file.2 ≠ f.2 }
  create : ∀ heap name, (s.fs.fetchDirectory heap).find name ≠ -1 →
    ∃ f ∈ s.alive, same f.1 name

/-- The other direction: a name that `same` takes for that of a file finds this
file. -/
def Found (same : Memory → Memory → Prop) (s : Named) : Prop :=
  ∀ f ∈ s.alive, ∀ name, same f.1 name → ∀ heap,
    (s.fs.fetchDirectory heap).find name = f.2 ∧
      s.fs.openFile heap name = some (.openAt f.2 s.fs.disk)

/-- Names that are found in the same place are taken for one. -/
def Separate (same : Memory → Memory → Prop) (s : Named) : Prop :=
  ∀ heap name name', (s.fs.fetchDirectory heap).find name ≠ -1 →
    (s.fs.fetchDirectory heap).find name' = (s.fs.fetchDirectory heap).find name →
    same name name'

end Named

/-- Sequences of calls, as a machine. -/
def namedMachine : Machine Named NameCall where
  step := Named.step

/-- The size is an `int`, and `Create` does not succeed with one that is larger
than a header can hold. -/
def NameCall.SizeFits (s : Named) : NameCall → Prop
  | .create heap name initialSize =>
      -2 ^ 31 ≤ initialSize ∧ initialSize < 2 ^ 31 ∧
        (maxFileSize < initialSize → (s.fs.create heap name initialSize).1 = false)
  | _ => True

/-! ### Names in a directory -/

theorem SameName.symm {first second : Memory} (same : SameName first second) :
    SameName second first :=
  fun k bound => (same k bound).symm

theorem SameName.trans {first second third : Memory} (same : SameName first second)
    (same' : SameName second third) : SameName first third :=
  fun k bound => (same k bound).trans (same' k bound)

namespace Directory

variable {dir dir' : Directory} {i : Int} {name name' : Memory}

theorem holds_iff : dir.holds name i = true ↔
    dir.inUse i = true ∧ SameName (dir.name i) name := by
  unfold holds SameName
  rw [Bool.and_eq_true, strncmpIsZero_iff]

theorem sameName_of_holds (first : dir.holds name i = true)
    (second : dir.holds name' i = true) : SameName name name' :=
  strncmpIsZero_iff.mp (strncmpIsZero_of_holds first second)

theorem holds_of_sameName (holds : dir.holds name i = true) (same : SameName name name') :
    dir.holds name' i = true := by
  rw [holds_iff] at *
  exact ⟨holds.1, holds.2.trans same⟩

end Directory

/-- What is listed once an entry has gone. -/
theorem Directory.files_drop {dir dir' : Directory} {i : Int}
    (size : dir'.tableSize = dir.tableSize) (unused : dir'.inUse i = false)
    (others : ∀ j, 0 ≤ j → j < dir.tableSize → j ≠ i → SameEntry dir dir' j)
    (apart : ∀ j, 0 ≤ j → j < dir.tableSize → dir.inUse j = true → j ≠ i →
      dir.sector j ≠ dir.sector i) :
    dir'.files = { file ∈ dir.files | file.2 ≠ dir.sector i } := by
  ext file
  constructor
  · rintro ⟨j, low, high, used, rfl⟩
    rw [size] at high
    have other : j ≠ i := by
      rintro rfl
      rw [used] at unused
      cases unused
    have same := others j low high other
    rw [same.inUse] at used
    rw [same.toList, same.sector]
    exact ⟨⟨j, low, high, used, rfl⟩, apart j low high used other⟩
  · rintro ⟨⟨j, low, high, used, rfl⟩, different⟩
    have other : j ≠ i := by
      rintro rfl
      exact different rfl
    have same := others j low high other
    exact ⟨j, low, size ▸ high, same.inUse.trans used, by rw [same.toList, same.sector]⟩

/-- Two files have their headers in different sectors. -/
theorem Volume.Valid.sector_ne {v : Volume} (valid : v.Valid) {i j : Int} (low : 0 ≤ j)
    (high : j < 10) (used : v.inUse j = true) (low' : 0 ≤ i) (high' : i < 10)
    (used' : v.inUse i = true) (other : j ≠ i) : v.sector j ≠ v.sector i := by
  intro same
  have owns : v.Owns (.header j) (v.sector j) := ⟨low, high, used, rfl⟩
  have owns' : v.Owns (.header i) (v.sector j) := ⟨low', high', used', same⟩
  cases valid.unique _ _ _ owns owns'
  exact other rfl

theorem FileSystem.Removed.unused {fs fs' : FileSystem} {name : Memory} {i : Int}
    (removed : fs.Removed name i fs') : fs'.directory.inUse i = false := by
  have left : fs'.volume.inUse i = false := by
    simpa [Volume.drop] using removed.volume.inUse i removed.low removed.high
  exact left

theorem FileSystem.Shadow.files_eq {fs shadow : FileSystem} (sh : fs.Shadow shadow) :
    fs.directory.files = shadow.directory.files := by
  have size : fs.directory.tableSize = shadow.directory.tableSize := rfl
  apply Directory.files_congr size
  · intro i low high
    exact (sh.entry low high).inUse
  · intro i low high _
    exact sh.entry low high

/-! ### Sizes that no disk has room for -/

namespace FileSystem

/-- `Create` fails when the sectors of the disk are too few for the size. -/
theorem create_of_no_room (fs : FileSystem) (heap : Nat → Memory) (name : Memory)
    {initialSize : Int} (large : numSectors < divRoundUp initialSize sectorSize) :
    (fs.create heap name initialSize).1 = false := by
  cases outcome : fs.create heap name initialSize with
  | mk success fs' =>
      cases success with
      | false => rfl
      | true =>
          obtain ⟨i, directory, hdr, freeMap, -, found, added, allocated, -⟩ :=
            create_eq_true outcome
          have size : (fs.fetchFreeMap (heap 1)).find.2.numBits = numSectors := by
            rw [BitMap.find_numBits, FileSystem.fetchFreeMap_numBits]
          have few := BitMap.numClear_le (b := (fs.fetchFreeMap (heap 1)).find.2)
            (by rw [size]; decide)
          unfold FileHeader.allocate at allocated
          rw [if_pos (by dsimp only; omega)] at allocated
          cases allocated

end FileSystem

/-! ### The invariant -/

namespace Named

/-- The entries in use are the files that are alive, and no name is held
twice. -/
structure Listed (dir : Directory) (alive : List (Memory × Int)) : Prop where
  file : ∀ i, 0 ≤ i → i < 10 → dir.inUse i = true →
    ∃ f ∈ alive, f.2 = dir.sector i ∧ dir.holds f.1 i = true
  entry : ∀ f ∈ alive, ∃ i, 0 ≤ i ∧ i < 10 ∧ f.2 = dir.sector i ∧ dir.holds f.1 i = true
  unique : ∀ i j name, 0 ≤ i → i < 10 → 0 ≤ j → j < 10 → dir.holds name i = true →
    dir.holds name j = true → i = j

/-- A new entry. -/
theorem Listed.add {dir dir' : Directory} {alive : List (Memory × Int)}
    (listed : Listed dir alive) {i sector : Int} {name : Memory} (low : 0 ≤ i)
    (high : i < 10) (unused : dir.inUse i = false)
    (absent : ∀ j, 0 ≤ j → j < 10 → dir.holds name j = false)
    (others : ∀ j, 0 ≤ j → j < 10 → j ≠ i → Directory.SameEntry dir dir' j)
    (place : dir'.sector i = sector) (holds : dir'.holds name i = true) :
    Listed dir' (alive ++ [(name, sector)]) where
  file j jLow jHigh used := by
    by_cases new : j = i
    · subst new
      exact ⟨(name, sector), by simp, place.symm, holds⟩
    · have same := others j jLow jHigh new
      obtain ⟨f, member, at_f, named⟩ := listed.file j jLow jHigh (same.inUse ▸ used)
      refine ⟨f, List.mem_append_left _ member, at_f.trans same.sector.symm, ?_⟩
      rw [same.holds]
      exact named
  entry f member := by
    rcases List.mem_append.mp member with old | new
    · obtain ⟨j, jLow, jHigh, at_f, named⟩ := listed.entry f old
      have other : j ≠ i := by
        rintro rfl
        rw [Directory.inUse_of_holds named] at unused
        cases unused
      have same := others j jLow jHigh other
      refine ⟨j, jLow, jHigh, at_f.trans same.sector.symm, ?_⟩
      rw [same.holds]
      exact named
    · rw [List.mem_singleton.mp new]
      exact ⟨i, low, high, place.symm, holds⟩
  unique j k held jLow jHigh kLow kHigh first second := by
    -- a name that the new entry holds is held by no other
    have alone : ∀ l, 0 ≤ l → l < 10 → dir'.holds held i = true →
        dir'.holds held l = true → l = i := by
      intro l lLow lHigh mine its
      by_contra other
      rw [(others l lLow lHigh other).holds] at its
      have same := Directory.sameName_of_holds mine holds
      have named := absent l lLow lHigh
      rw [Directory.holds_of_sameName its same] at named
      cases named
    by_cases jNew : j = i
    · subst jNew
      exact (alone k kLow kHigh first second).symm
    · by_cases kNew : k = i
      · subst kNew
        exact alone j jLow jHigh second first
      · rw [(others j jLow jHigh jNew).holds] at first
        rw [(others k kLow kHigh kNew).holds] at second
        exact listed.unique j k held jLow jHigh kLow kHigh first second

/-- An entry goes. -/
theorem Listed.drop {dir dir' : Directory} {alive : List (Memory × Int)}
    (listed : Listed dir alive) {i : Int} (unused : dir'.inUse i = false)
    (others : ∀ j, 0 ≤ j → j < 10 → j ≠ i → Directory.SameEntry dir dir' j)
    (apart : ∀ j, 0 ≤ j → j < 10 → dir.inUse j = true → j ≠ i →
      dir.sector j ≠ dir.sector i) :
    Listed dir' (alive.filter fun f => f.2 != dir.sector i) := by
  have still : ∀ j name, dir'.holds name j = true → j ≠ i := by
    rintro j name holds rfl
    rw [Directory.inUse_of_holds holds] at unused
    cases unused
  refine ⟨?_, ?_, ?_⟩
  · intro j jLow jHigh used
    have other : j ≠ i := by
      rintro rfl
      rw [used] at unused
      cases unused
    have same := others j jLow jHigh other
    rw [same.inUse] at used
    obtain ⟨f, member, at_f, named⟩ := listed.file j jLow jHigh used
    refine ⟨f, ?_, at_f.trans same.sector.symm, ?_⟩
    · rw [List.mem_filter, bne_iff_ne, at_f]
      exact ⟨member, apart j jLow jHigh used other⟩
    · rw [same.holds]
      exact named
  · intro f member
    rw [List.mem_filter, bne_iff_ne] at member
    obtain ⟨j, jLow, jHigh, at_f, named⟩ := listed.entry f member.1
    have other : j ≠ i := by
      rintro rfl
      exact member.2 at_f
    have same := others j jLow jHigh other
    refine ⟨j, jLow, jHigh, at_f.trans same.sector.symm, ?_⟩
    rw [same.holds]
    exact named
  · intro j k name jLow jHigh kLow kHigh first second
    rw [(others j jLow jHigh (still j name first)).holds] at first
    rw [(others k kLow kHigh (still k name second)).holds] at second
    exact listed.unique j k name jLow jHigh kLow kHigh first second

/-- The file system has a shadow whose directory lists the files that are
alive. -/
def Tracked (s : Named) : Prop :=
  ∃ shadow, s.fs.Shadow shadow ∧ Listed shadow.directory s.alive

variable {s s' : Named} {shadow : FileSystem}

theorem tracked_create {heap : Nat → Memory} {name : Memory} {initialSize : Int}
    (sh : s.fs.Shadow shadow) (listed : Listed shadow.directory s.alive)
    (int : -2 ^ 31 ≤ initialSize) (small : initialSize ≤ maxFileSize) :
    Tracked
      { fs := (s.fs.create heap name initialSize).2
        alive :=
          if (s.fs.create heap name initialSize).1 then
            s.alive ++ [(name, (s.fs.fetchFreeMap (heap 1)).find.1)]
          else s.alive } := by
  obtain ⟨shadow', outcome, kept⟩ := sh.create heap name int small
  refine ⟨shadow', kept, ?_⟩
  dsimp only
  cases success : (s.fs.create heap name initialSize).1 with
  | false =>
      rw [success] at outcome
      rw [FileSystem.create_eq_false outcome]
      exact listed
  | true =>
      rw [success] at outcome
      have nonneg : 0 ≤ max initialSize 0 := by omega
      have fits : max initialSize 0 ≤ maxFileSize := by
        simp only [maxFileSize] at *
        omega
      obtain ⟨i, sector, hdr, freeMap, find, -, stored, created⟩ :=
        sh.laid.created_stored nonneg fits outcome
      obtain ⟨absent, -⟩ := sh.laid.room_of_create outcome
      rw [sh.fetchFreeMap_eq] at find
      rw [find, if_pos rfl]
      have range := created.fresh.range sector .header
      have mine := stored.entry i created.low created.high
      apply listed.add created.low created.high created.unused
      · intro j low high
        rcases shadow.directory.findIndex_cases name with none | ⟨found, -, -⟩
        · exact none.2 j low high
        · omega
      · intro j low high other
        exact sh.laid.stored_entry stored low high (Directory.setEntry_other _ _ _ other)
      · rw [mine.sector]
        exact Directory.setEntry_sector _ i name (by omega) (by omega)
      · rw [mine.holds]
        exact Directory.setEntry_holds ..

theorem tracked_remove {heap : Nat → Memory} {name : Memory}
    (sh : s.fs.Shadow shadow) (listed : Listed shadow.directory s.alive)
    (step : s.step (.remove heap name) = some s') : s'.Tracked := by
  obtain ⟨result, outcome, rfl⟩ := Option.map_eq_some_iff.mp step
  rcases sh.remove heap name with
    ⟨-, absent⟩ | ⟨i, fs', shadow', gone, removed, others, kept⟩
  · rw [absent] at outcome
    cases outcome
    exact ⟨shadow, sh, listed⟩
  · rw [gone] at outcome
    cases outcome
    refine ⟨shadow', kept, ?_⟩
    have found := removed.find_eq sh.laid (heap 0)
    rw [sh.fetchDirectory_eq] at found
    dsimp only
    rw [if_pos rfl, found]
    apply listed.drop _ others
    · intro j low high used
      exact sh.laid.valid.sector_ne low high used removed.low removed.high removed.used
    · exact removed.unused

/-- One call. -/
theorem step_tracked {call : NameCall} (tracked : s.Tracked) (fits : call.SizeFits s)
    (step : s.step call = some s') : s'.Tracked := by
  obtain ⟨shadow, sh, listed⟩ := tracked
  cases call with
  | create heap name initialSize =>
      obtain ⟨int, -, refused⟩ := fits
      cases step
      rcases Int.lt_or_le maxFileSize initialSize with large | small
      · -- a size that no header can hold: the call has failed
        have failed := refused large
        have nothing : (s.fs.create heap name initialSize).2 = s.fs :=
          FileSystem.create_eq_false (Prod.ext failed rfl)
        have unchanged : (s.fs.create heap name initialSize).2.Shadow shadow := by
          rwa [nothing]
        exact ⟨shadow, unchanged, by simpa [failed] using listed⟩
      · exact tracked_create sh listed int small
  | openFile heap name =>
      cases step
      exact ⟨shadow, sh, listed⟩
  | remove heap name => exact tracked_remove sh listed step

/-! ### What names denote -/

theorem alive_nonneg (sh : s.fs.Shadow shadow) (listed : Listed shadow.directory s.alive)
    {f : Memory × Int} (member : f ∈ s.alive) : 0 ≤ f.2 := by
  obtain ⟨i, low, high, place, named⟩ := listed.entry f member
  obtain ⟨notSystem, -, -⟩ := sh.laid.sector_spec low high (Directory.inUse_of_holds named)
  have least : 5 ≤ f.2 := place ▸ notSystem
  omega

/-- Looking up a name: there is none, or it is that of a file that is alive. -/
theorem lookup_cases (sh : s.fs.Shadow shadow) (listed : Listed shadow.directory s.alive)
    (heap name : Memory) :
    (s.fs.fetchDirectory heap).find name = -1 ∨
      ∃ f ∈ s.alive, SameName f.1 name ∧ (s.fs.fetchDirectory heap).find name = f.2 := by
  rcases sh.laid.find_cases heap name with absent | ⟨i, index, low, high, used, found⟩
  · rw [sh.fetchDirectory_eq] at absent
    exact .inl absent.2
  · right
    rw [sh.fetchDirectory_eq] at found
    rcases shadow.directory.findIndex_cases name with none | ⟨-, -, holds⟩
    · omega
    · rw [index] at holds
      obtain ⟨f, member, place, named⟩ := listed.file i low high used
      exact ⟨f, member, Directory.sameName_of_holds named holds, found.trans place.symm⟩

/-- A file that is alive is found under its name. -/
theorem lookup_alive (sh : s.fs.Shadow shadow) (listed : Listed shadow.directory s.alive)
    {f : Memory × Int} (member : f ∈ s.alive) {name : Memory} (same : SameName f.1 name)
    (heap : Memory) : (s.fs.fetchDirectory heap).find name = f.2 := by
  obtain ⟨i, low, high, place, named⟩ := listed.entry f member
  have holds := Directory.holds_of_sameName named same
  rcases shadow.directory.findIndex_cases name with none | ⟨found, bound, first⟩
  · rw [none.2 i low high] at holds
    cases holds
  · rcases sh.laid.find_cases heap name with absent | ⟨j, index, -, -, -, lookup⟩
    · omega
    · rw [index] at found bound first
      obtain rfl : j = i := listed.unique j i name found bound low high first holds
      rw [sh.fetchDirectory_eq] at lookup
      exact lookup.trans place.symm

theorem Tracked.denotes (tracked : s.Tracked) : s.Denotes SameName := by
  obtain ⟨shadow, sh, listed⟩ := tracked
  refine ⟨?_, ?_, ?_⟩
  · intro heap name file opened
    unfold FileSystem.openFile at opened
    rcases lookup_cases sh listed heap name with absent | ⟨f, member, same, found⟩
    · rw [absent] at opened
      cases opened
    · rw [found] at opened
      dsimp only at opened
      split at opened
      · exact ⟨f, member, same, (Option.some.inj opened).symm⟩
      · cases opened
  · intro heap name fs' gone
    rcases sh.remove heap name with
      ⟨-, absent⟩ | ⟨i, fs'', shadow', gone', removed, others, kept⟩
    · rw [absent] at gone
      cases gone
    · obtain rfl : fs'' = fs' := (Prod.mk.inj (Option.some.inj (gone'.symm.trans gone))).2
      have place := removed.find_eq sh.laid (heap 0)
      rw [sh.fetchDirectory_eq] at place
      rcases lookup_cases sh listed (heap 0) name with absent | ⟨f, member, same, found⟩
      · obtain ⟨notSystem, -, -⟩ := sh.laid.sector_spec removed.low removed.high removed.used
        omega
      · refine ⟨f, member, same, ?_⟩
        have size : shadow'.directory.tableSize = shadow.directory.tableSize := rfl
        rw [kept.files_eq, sh.files_eq, ← found, place]
        apply Directory.files_drop size removed.unused others
        intro j low high used
        exact sh.laid.valid.sector_ne low high used removed.low removed.high removed.used
  · intro heap name present
    rcases lookup_cases sh listed heap name with absent | ⟨f, member, same, -⟩
    · exact absurd absent present
    · exact ⟨f, member, same⟩

theorem Tracked.found (tracked : s.Tracked) : s.Found SameName := by
  obtain ⟨shadow, sh, listed⟩ := tracked
  intro f member name same heap
  have lookup := lookup_alive sh listed member same heap
  refine ⟨lookup, ?_⟩
  unfold FileSystem.openFile
  rw [lookup]
  exact if_pos (alive_nonneg sh listed member)

theorem Tracked.separate (tracked : s.Tracked) : s.Separate SameName := by
  obtain ⟨shadow, sh, listed⟩ := tracked
  intro heap name name' present together
  rcases lookup_cases sh listed heap name with absent | ⟨f, member, same, found⟩
  · exact absurd absent present
  · rcases lookup_cases sh listed heap name' with absent' | ⟨f', member', same', found'⟩
    · rw [absent'] at together
      exact absurd together.symm present
    · -- two files that are alive in one sector are one entry
      obtain ⟨i, low, high, place, named⟩ := listed.entry f member
      obtain ⟨j, low', high', place', named'⟩ := listed.entry f' member'
      have one : i = j := by
        by_contra other
        apply sh.laid.valid.sector_ne low high (Directory.inUse_of_holds named) low' high'
          (Directory.inUse_of_holds named') other
        exact place.symm.trans (found.symm.trans (together.symm.trans (found'.trans place')))
      subst one
      exact (same.symm.trans (Directory.sameName_of_holds named named')).trans same'

/-- From a formatted disk on. -/
theorem tracked_along {heap : Nat → Memory} {disk : Disk} {fs : FileSystem}
    {calls : List NameCall} (formatted : FileSystem.format heap disk = some fs)
    (fits : namedMachine.Steps (fun s call => call.SizeFits s) ⟨fs, []⟩ calls) :
    namedMachine.Along Tracked ⟨fs, []⟩ calls := by
  obtain ⟨fresh, same, spec⟩ := FileSystem.format_formatted heap disk
  rw [formatted] at same
  cases same
  have start : Tracked ⟨fs, []⟩ := by
    refine ⟨fs, spec.laid.ownShadow, ?_, ?_, ?_⟩
    · intro i low high used
      rw [show fs.directory.inUse i = false from spec.empty i low high] at used
      cases used
    · intro f member
      cases member
    · intro i j name low high _ _ holds _
      have used := Directory.inUse_of_holds holds
      rw [show fs.directory.inUse i = false from spec.empty i low high] at used
      cases used
  exact Machine.along_of_guarded
    (fun _ _ _ tracked fits step => step_tracked tracked fits step) start fits

end Named

/-- Along every sequence of calls from a formatted disk on in which no `Create`
succeeds with a size larger than a header can hold: `Open` and `Remove` act on a
file only if it was created under a name with the same first nine characters and
has not been removed since, and only because of such a file does `Create` find a
name in the directory; every such file is found; and names that find the same
file have the same first nine characters. -/
theorem names_denote_by_nine_characters {heap : Nat → Memory} {disk : Disk}
    {fs : FileSystem} {calls : List NameCall}
    (formatted : FileSystem.format heap disk = some fs)
    (fits : namedMachine.Steps (fun s call => call.SizeFits s) ⟨fs, []⟩ calls) :
    namedMachine.Along
      (fun s => s.Denotes SameName ∧ s.Found SameName ∧ s.Separate SameName)
      ⟨fs, []⟩ calls := by
  apply (Named.tracked_along formatted fits).mono
  intro s tracked
  exact ⟨tracked.denotes, tracked.found, tracked.separate⟩

/-- Two names of ten characters that differ in the last one. -/
def tenA : Memory := .ofList [97, 97, 97, 97, 97, 97, 97, 97, 97, 98]

def tenB : Memory := .ofList [97, 97, 97, 97, 97, 97, 97, 97, 97, 99]

/-- A file is created under one of them, opened under the other, and removed;
files of 200000 bytes are refused, because of the name or for want of room. -/
theorem names_denote_on_new_disk :
    ∃ fs : FileSystem, FileSystem.format (fun _ _ => 0) (fun _ _ => 0) = some fs ∧
      namedMachine.Along
        (fun s => s.Denotes SameName ∧ s.Found SameName ∧ s.Separate SameName)
        ⟨fs, []⟩
        [.create (fun _ _ => 0) tenA 200, .create (fun _ _ => 0) tenB 200000,
          .openFile (fun _ => 0) tenB, .remove (fun _ _ => 0) tenB,
          .create (fun _ _ => 0) tenB 200000] := by
  obtain ⟨fs, formatted, -⟩ := FileSystem.format_formatted (fun _ _ => 0) (fun _ _ => 0)
  refine ⟨fs, formatted, names_denote_by_nine_characters formatted ?_⟩
  have refused : ∀ s : Named,
      NameCall.SizeFits s (.create (fun _ _ => 0) tenB 200000) := fun s =>
    ⟨by decide, by decide, fun _ => s.fs.create_of_no_room _ _ (by decide)⟩
  have small : NameCall.SizeFits ⟨fs, []⟩ (.create (fun _ _ => 0) tenA 200) :=
    ⟨by decide, by decide, fun large => absurd large (by decide)⟩
  exact ⟨small, fun _ _ => ⟨refused _, fun _ _ => ⟨trivial, fun _ _ =>
    ⟨trivial, fun _ _ => ⟨refused _, fun _ _ => trivial⟩⟩⟩⟩⟩

/-- Strings do not denote files one by one: after a file has been created under
one name of ten characters, another name finds it. -/
theorem long_names_collide :
    ¬ ∀ (heap : Nat → Memory) (disk : Disk) (fs : FileSystem) (calls : List NameCall),
      FileSystem.format heap disk = some fs →
      namedMachine.Steps (fun s call => call.SizeFits s) ⟨fs, []⟩ calls →
      namedMachine.Along (fun s => s.Denotes SameString) ⟨fs, []⟩ calls := by
  intro claim
  obtain ⟨fs, formatted, spec⟩ :=
    FileSystem.format_formatted (fun _ _ => 0) (fun _ _ => 0)
  obtain ⟨fs', created⟩ := spec.create_first (fun _ _ => 0) tenA 200 (by decide) (by decide)
  have fits : namedMachine.Steps (fun s call => call.SizeFits s) ⟨fs, []⟩
      [.create (fun _ _ => 0) tenA 200] :=
    ⟨⟨by decide, by decide, fun large => absurd large (by decide)⟩, fun _ _ => trivial⟩
  have run : namedMachine.exec ⟨fs, []⟩ [.create (fun _ _ => 0) tenA 200] =
      some ⟨fs', [(tenA, (fs.fetchFreeMap fun _ => 0).find.1)]⟩ := by
    rw [Machine.exec_cons_of_step, Machine.exec_nil]
    dsimp only [namedMachine, Named.step]
    rw [created, if_pos rfl, List.nil_append]
  have tracked := (Named.tracked_along formatted fits).finish run
  have denotes := (claim _ _ fs _ formatted fits).finish run
  have nine : SameName tenA tenB := by
    unfold SameName
    decide
  obtain ⟨shadow, sh, listed⟩ := tracked
  have found := Named.lookup_alive sh listed (List.mem_singleton.mpr rfl) nine (fun _ => 0)
  have nonneg := Named.alive_nonneg sh listed (List.mem_singleton.mpr rfl)
  obtain ⟨f, member, same⟩ := denotes.create (fun _ => 0) tenB (by omega)
  rw [List.mem_singleton.mp member] at same
  have tenth : charAt tenA 9 ≠ charAt tenB 9 := by decide
  exact tenth (same 9)

end Nachos
