/-
Module: Nachos.FileSys.Directory
Purpose: The directory of directory.cc.  The table is kept as the bytes that
  are written to its file, 20 for each entry; the fields of the entries are
  read from there.
Trusted boundary: a `DirectoryEntry` has `inUse` at offset 0, `sector` at
  offset 4 and `name` at offset 8, and is 20 bytes long.
Main exports: Directory, Directory.find, Directory.add, Directory.remove,
  Directory.fetchFrom, Directory.writeBack, strncpy, strncmpIsZero
-/
import Nachos.FileSys.OpenFile

namespace Nachos

open Lib

/-! ### Strings -/

/-- Character `k` of a string that ends with NUL, and NUL after its end. -/
def charAt (string : Memory) (k : Nat) : UInt8 :=
  if (List.range k).all fun j : Nat => string j != 0 then string k else 0

/-- `strncpy(&target[place], source, count)`. -/
def strncpy (target : Memory) (place : Int) (source : Memory) (count : Int) : Memory :=
  fun i => if place ≤ i ∧ i < place + count then charAt source (i - place).toNat
    else target i

/-- `!strncmp(first, second, count)`. -/
def strncmpIsZero (first second : Memory) (count : Nat) : Bool :=
  (List.range count).all fun k => charAt first k == charAt second k

/-! ### The table -/

/-- `FileNameMaxLen` of directory.h. -/
abbrev fileNameMaxLen : Nat := 9

/-- `sizeof(DirectoryEntry)`. -/
abbrev entrySize : Int := 20

/-- `class Directory`. -/
structure Directory where
  tableSize : Int
  table : Memory

namespace Directory

/-- `table[i].inUse`, `table[i].sector` and `table[i].name`. -/
def inUse (dir : Directory) (i : Int) : Bool :=
  dir.table (i * entrySize) != 0

def sector (dir : Directory) (i : Int) : Int :=
  (dir.table.getWord (i * entrySize + 4)).toInt

def name (dir : Directory) (i : Int) : Memory :=
  fun k => dir.table (i * entrySize + 8 + k)

/-- `table[i].inUse = used;` -/
def setInUse (i : Int) (used : Bool) (dir : Directory) : Directory :=
  { dir with
    table := Function.update dir.table (i * entrySize) (if used then 1 else 0) }

/-- `strncpy(table[i].name, name, FileNameMaxLen);` -/
def setName (i : Int) (name : Memory) (dir : Directory) : Directory :=
  { dir with table := strncpy dir.table (i * entrySize + 8) name fileNameMaxLen }

/-- `table[i].sector = sector;` -/
def setSector (i sector : Int) (dir : Directory) : Directory :=
  { dir with
    table := dir.table.setWord (i * entrySize + 4) (BitVec.ofInt 32 sector) }

/-! ### The operations -/

/-- `Directory::Directory`, `heap` being what the new table held. -/
def construct (size : Int) (heap : Memory) : Directory :=
  (List.range size.toNat).foldl (fun (dir : Directory) (i : Nat) => dir.setInUse i false)
    { tableSize := size, table := heap }

/-- `Directory::FetchFrom`. -/
def fetchFrom (file : OpenFile) (disk : Disk) (dir : Directory) : Directory :=
  { dir with
    table := (file.readAt disk dir.table 0 (dir.tableSize * entrySize) 0).2 }

/-- `Directory::WriteBack`. -/
def writeBack (file : OpenFile) (heap : Memory) (dir : Directory) (disk : Disk) : Disk :=
  (file.writeAt disk heap dir.table (dir.tableSize * entrySize) 0).2

/-- An entry in use has the name. -/
def holds (dir : Directory) (name : Memory) (i : Int) : Bool :=
  dir.inUse i && strncmpIsZero (dir.name i) name fileNameMaxLen

/-- `Directory::FindIndex`. -/
def findIndex (dir : Directory) (name : Memory) : Int :=
  firstIndex (dir.holds name) dir.tableSize.toNat 0

/-- `Directory::Find`. -/
def find (dir : Directory) (name : Memory) : Int :=
  let i := dir.findIndex name
  if i ≠ -1 then dir.sector i else -1

/-- Entry `i` is made to stand for a file. -/
def setEntry (i : Int) (name : Memory) (newSector : Int) (dir : Directory) : Directory :=
  ((dir.setInUse i true).setName i name).setSector i newSector

/-- `Directory::Add`, `none` being FALSE. -/
def add (name : Memory) (newSector : Int) (dir : Directory) : Option Directory :=
  if dir.findIndex name ≠ -1 then none
  else
    let i := firstIndex (fun i => !dir.inUse i) dir.tableSize.toNat 0
    if i = -1 then none else some (dir.setEntry i name newSector)

/-- `Directory::Remove`, `none` being FALSE. -/
def remove (name : Memory) (dir : Directory) : Option Directory :=
  let i := dir.findIndex name
  if i = -1 then none else some (dir.setInUse i false)

/-! ### Fields after a store -/

theorem setInUse_table_of_ne (dir : Directory) (used : Bool) {i offset : Int}
    (other : offset ≠ i * entrySize) :
    (dir.setInUse i used).table offset = dir.table offset :=
  Function.update_of_ne other _ _

/-- The entries of two tables that agree there are the same. -/
structure SameEntry (dir dir' : Directory) (i : Int) : Prop where
  inUse : dir'.inUse i = dir.inUse i
  sector : dir'.sector i = dir.sector i
  name : ∀ k : Nat, k < fileNameMaxLen → dir'.name i k = dir.name i k

theorem SameEntry.trans {dir dir' dir'' : Directory} {i : Int}
    (first : SameEntry dir dir' i) (second : SameEntry dir' dir'' i) :
    SameEntry dir dir'' i where
  inUse := second.inUse.trans first.inUse
  sector := second.sector.trans first.sector
  name k bound := (second.name k bound).trans (first.name k bound)

theorem sameEntry_of_agree {dir dir' : Directory} {i : Int}
    (same : ∀ offset, i * entrySize ≤ offset → offset < (i + 1) * entrySize →
      dir'.table offset = dir.table offset) : SameEntry dir dir' i where
  inUse := by
    simp only [Directory.inUse, entrySize] at *
    rw [same _ (by omega) (by omega)]
  sector := by
    simp only [Directory.sector, entrySize] at *
    rw [Memory.getWord_congr]
    intro offset low high
    exact same offset (by omega) (by omega)
  name k bound := by
    simp only [Directory.name, entrySize, fileNameMaxLen] at *
    exact same _ (by omega) (by omega)

theorem setInUse_other (dir : Directory) (used : Bool) {i j : Int} (other : j ≠ i) :
    SameEntry dir (dir.setInUse i used) j := by
  apply sameEntry_of_agree
  intro offset low high
  apply setInUse_table_of_ne
  simp only [entrySize] at *
  omega

/-- Everything a new entry leaves alone. -/
theorem setEntry_other (dir : Directory) (name : Memory) (newSector : Int) {i j : Int}
    (other : j ≠ i) : SameEntry dir (dir.setEntry i name newSector) j := by
  apply sameEntry_of_agree
  intro offset low high
  simp only [entrySize] at low high
  have outside : offset < i * entrySize ∨ (i + 1) * entrySize ≤ offset := by
    simp only [entrySize]
    omega
  simp only [entrySize] at outside
  simp only [setEntry, setSector, setName]
  rw [Memory.setWord_outside _ _ (by simp only [entrySize]; omega), strncpy,
    if_neg (by simp only [entrySize, fileNameMaxLen]; omega)]
  exact setInUse_table_of_ne dir true (by simp only [entrySize]; omega)

theorem setEntry_inUse (dir : Directory) (i : Int) (name : Memory) (newSector : Int) :
    (dir.setEntry i name newSector).inUse i = true := by
  simp only [inUse, setEntry, setSector, setName, setInUse]
  rw [Memory.setWord_outside _ _ (by simp only [entrySize]; omega), strncpy,
    if_neg (by simp only [entrySize, fileNameMaxLen]; omega)]
  simp

theorem setEntry_sector (dir : Directory) (i : Int) (name : Memory) {newSector : Int}
    (low : -2 ^ 31 ≤ newSector) (high : newSector < 2 ^ 31) :
    (dir.setEntry i name newSector).sector i = newSector := by
  simp only [sector, setEntry, setSector]
  rw [Memory.getWord_setWord]
  exact toInt_ofInt_eq low high

theorem setEntry_name (dir : Directory) (i : Int) (name : Memory) (newSector : Int)
    {k : Nat} (bound : k < fileNameMaxLen) :
    (dir.setEntry i name newSector).name i k = charAt name k := by
  simp only [fileNameMaxLen] at bound
  simp only [Directory.name, setEntry, setSector, setName]
  rw [Memory.setWord_outside _ _ (by simp only [entrySize]; omega), strncpy,
    if_pos (by simp only [entrySize, fileNameMaxLen]; omega)]
  congr 1
  simp only [entrySize]
  omega

theorem setInUse_inUse (dir : Directory) (i : Int) (used : Bool) :
    (dir.setInUse i used).inUse i = used := by
  simp only [inUse, setInUse, Function.update_self]
  cases used <;> rfl

/-! ### Names -/

/-- A string is NUL after its end. -/
theorem charAt_eq_zero {string : Memory} {j k : Nat} (less : j < k)
    (zero : charAt string j = 0) : charAt string k = 0 := by
  unfold charAt at *
  split at zero
  · rw [if_neg]
    rw [List.all_eq_true]
    intro all
    have := all j (List.mem_range.mpr less)
    simp [zero] at this
  · rename_i ended
    rw [if_neg]
    intro all
    apply ended
    rw [List.all_eq_true] at *
    intro l member
    exact all l (List.mem_range.mpr (by have := List.mem_range.mp member; omega))

/-- The characters depend on the bytes up to them. -/
theorem charAt_congr {first second : Memory} {k : Nat}
    (same : ∀ j : Nat, j ≤ k → first j = second j) : charAt first k = charAt second k := by
  unfold charAt
  have all_eq : ((List.range k).all fun j : Nat => first j != 0) =
      (List.range k).all fun j : Nat => second j != 0 := by
    rw [Bool.eq_iff_iff, List.all_eq_true, List.all_eq_true]
    apply forall_congr'
    intro j
    apply forall_congr'
    intro member
    rw [same j (by have := List.mem_range.mp member; omega)]
  rw [all_eq, same k (by omega)]

/-- Copying the characters of a string gives the same characters. -/
theorem charAt_charAt {copied source : Memory} {k : Nat}
    (copies : ∀ j : Nat, j ≤ k → copied j = charAt source j) :
    charAt copied k = charAt source k := by
  conv_lhs => unfold charAt
  split
  · exact copies k (by omega)
  · rename_i ended
    simp only [List.all_eq_true, List.mem_range, bne_iff_ne, ne_eq, not_forall,
      not_not] at ended
    obtain ⟨j, less, zero⟩ := ended
    rw [copies j (by omega)] at zero
    exact (charAt_eq_zero less zero).symm

theorem strncmpIsZero_iff {first second : Memory} {count : Nat} :
    strncmpIsZero first second count = true ↔
      ∀ k < count, charAt first k = charAt second k := by
  simp [strncmpIsZero]

theorem inUse_of_holds {dir : Directory} {name : Memory} {i : Int}
    (holds : dir.holds name i = true) : dir.inUse i = true :=
  (Bool.and_eq_true_iff.mp holds).1

/-- Names that one entry answers to agree in their first characters. -/
theorem strncmpIsZero_of_holds {dir : Directory} {name name' : Memory} {i : Int}
    (first : dir.holds name i = true) (second : dir.holds name' i = true) :
    strncmpIsZero name name' fileNameMaxLen = true := by
  have stored := strncmpIsZero_iff.mp (Bool.and_eq_true_iff.mp first).2
  have stored' := strncmpIsZero_iff.mp (Bool.and_eq_true_iff.mp second).2
  exact strncmpIsZero_iff.mpr fun k bound => (stored k bound).symm.trans (stored' k bound)

/-- The same name is found in entries that are the same. -/
theorem SameEntry.holds {dir dir' : Directory} {i : Int} (same : SameEntry dir dir' i)
    (name : Memory) : dir'.holds name i = dir.holds name i := by
  unfold Directory.holds
  rw [same.inUse]
  congr 1
  rw [Bool.eq_iff_iff, strncmpIsZero_iff, strncmpIsZero_iff]
  apply forall_congr'
  intro k
  apply forall_congr'
  intro bound
  rw [charAt_congr fun j less => same.name j (by omega)]

theorem setEntry_holds (dir : Directory) (i : Int) (name : Memory) (newSector : Int) :
    (dir.setEntry i name newSector).holds name i = true := by
  rw [holds, setEntry_inUse, Bool.true_and, strncmpIsZero_iff]
  intro k bound
  apply charAt_charAt
  intro j less
  exact setEntry_name dir i name newSector (by omega)

/-! ### Finding and adding -/

theorem findIndex_cases (dir : Directory) (name : Memory) :
    (dir.findIndex name = -1 ∧
        ∀ j, 0 ≤ j → j < dir.tableSize → dir.holds name j = false) ∨
      (0 ≤ dir.findIndex name ∧ dir.findIndex name < dir.tableSize ∧
        dir.holds name (dir.findIndex name) = true) := by
  rcases firstIndex_cases (dir.holds name) dir.tableSize.toNat (i := 0) (by omega) with
    none | some
  · left
    refine ⟨none.1, ?_⟩
    intro j low high
    exact none.2 j low (by omega)
  · right
    refine ⟨some.1, ?_, some.2.2⟩
    have := some.2.1
    unfold findIndex
    omega

/-- A successful `Add` fills an entry that was free with a name that was
absent. -/
theorem add_eq_some {dir dir' : Directory} {name : Memory} {newSector : Int}
    (added : dir.add name newSector = some dir') :
    ∃ i, 0 ≤ i ∧ i < dir.tableSize ∧ dir.inUse i = false ∧
      (∀ j, 0 ≤ j → j < dir.tableSize → dir.holds name j = false) ∧
      dir' = dir.setEntry i name newSector := by
  unfold add at added
  rcases dir.findIndex_cases name with absent | present
  · rw [if_neg (by simp [absent.1])] at added
    rcases firstIndex_cases (fun i => !dir.inUse i) dir.tableSize.toNat (i := 0)
      (by omega) with none | some
    · simp [none.1] at added
    · rw [if_neg (by omega)] at added
      refine ⟨_, some.1, by omega, by simpa using some.2.2, absent.2, ?_⟩
      exact (Option.some.inj added).symm
  · rw [if_pos (by omega)] at added
    cases added

/-- There is room for a name that is not there. -/
theorem add_of_unused {dir : Directory} {name : Memory} {i : Int}
    (absent : dir.findIndex name = -1) (low : 0 ≤ i) (high : i < dir.tableSize)
    (unused : dir.inUse i = false) (newSector : Int) :
    ∃ dir', dir.add name newSector = some dir' := by
  unfold add
  rw [if_neg (by simp [absent])]
  dsimp only
  rcases firstIndex_cases (fun i => !dir.inUse i) dir.tableSize.toNat (i := 0)
    (by omega) with none | some
  · have used := none.2 i low (by omega)
    simp [unused] at used
  · rw [if_neg (by omega)]
    exact ⟨_, rfl⟩

/-- The new name is found in the new entry. -/
theorem findIndex_setEntry {dir : Directory} {i : Int} {name : Memory} {newSector : Int}
    (low : 0 ≤ i) (high : i < dir.tableSize)
    (absent : ∀ j, 0 ≤ j → j < dir.tableSize → dir.holds name j = false) :
    (dir.setEntry i name newSector).findIndex name = i := by
  have size : (dir.setEntry i name newSector).tableSize = dir.tableSize := rfl
  unfold findIndex
  rw [size]
  apply firstIndex_eq_of_first low (by omega) (setEntry_holds ..)
  intro j jLow jHigh
  rw [(setEntry_other dir name newSector (by omega)).holds]
  exact absent j jLow (by omega)

/-- Tables with the same entries find a name at the same place. -/
theorem findIndex_congr {dir dir' : Directory} (size : dir'.tableSize = dir.tableSize)
    (same : ∀ i, 0 ≤ i → i < dir.tableSize → SameEntry dir dir' i) (name : Memory) :
    dir'.findIndex name = dir.findIndex name := by
  unfold findIndex
  rw [size]
  apply firstIndex_congr
  intro j low high
  exact (same j low (by omega)).holds name

@[simp] theorem setEntry_tableSize (i : Int) (name : Memory) (newSector : Int)
    (dir : Directory) : (dir.setEntry i name newSector).tableSize = dir.tableSize :=
  rfl

@[simp] theorem setInUse_tableSize (i : Int) (used : Bool) (dir : Directory) :
    (dir.setInUse i used).tableSize = dir.tableSize :=
  rfl

end Directory

end Nachos
