/-
Module: Nachos.FileSys.Keys
Purpose: The directory of directory.cc as a finite map with a bound on its size,
  from the first characters of names to sectors: over any sequence of calls it
  answers as the map does, though entries are used again in place, keep old
  names and go through a file.
Trusted boundary: a sector number is an `int`; the file that the table is written
  to is as long as the table.
Main exports: nameKey, Directory.slot, DirectoryCall, Directory.answers,
  KeyMap.answers, directory_answers_as_map
-/
import Mathlib.Data.Finset.Card
import Nachos.FileSys.Format
import Nachos.FileSys.Requests
import Nachos.Lib.SlotMap

namespace Nachos

open Lib

/-! ### The map -/

/-- The first `FileNameMaxLen` characters of a name, with NUL after its end. -/
def nameKey (name : Memory) : List UInt8 :=
  (List.range fileNameMaxLen).map (charAt name)

/-- From the beginnings of names to sectors. -/
abbrev KeyMap := Finmap fun _ : List UInt8 => Int

/-- A call of a `Directory`; in the last one the table is written to a file and
read back, into a table that held `into`. -/
inductive DirectoryCall where
  | find (name : Memory)
  | add (name : Memory) (newSector : Int)
  | remove (name : Memory)
  | refresh (file : OpenFile) (heap : Memory) (disk : Disk) (into : Memory)

/-- What a call returns. -/
inductive DirectoryAnswer where
  | sector (sector : Int)
  | flag (success : Bool)
  | nothing
deriving DecidableEq, Repr

/-- The arguments are such as the callers promise: the sector is an `int`, and
the file is long enough. -/
def DirectoryCall.Fits (tableSize : Nat) : DirectoryCall → Prop
  | .add _ newSector => -2 ^ 31 ≤ newSector ∧ newSector < 2 ^ 31
  | .refresh file _ _ _ => file.hdr.Sound ∧ tableSize * entrySize ≤ file.hdr.numBytes
  | _ => True

/-- What a call returns and leaves of a map with room for `tableSize` keys. -/
def KeyMap.call (tableSize : Nat) (m : KeyMap) : DirectoryCall → DirectoryAnswer × KeyMap
  | .find name => (.sector ((m.lookup (nameKey name)).getD (-1)), m)
  | .add name newSector =>
      if nameKey name ∉ m ∧ m.keys.card < tableSize then
        (.flag true, m.insert (nameKey name) newSector)
      else (.flag false, m)
  | .remove name =>
      if nameKey name ∈ m then (.flag true, m.erase (nameKey name)) else (.flag false, m)
  | .refresh _ _ _ _ => (.nothing, m)

/-- What a call returns and leaves of a directory. -/
def Directory.call (dir : Directory) : DirectoryCall → DirectoryAnswer × Directory
  | .find name => (.sector (dir.find name), dir)
  | .add name newSector =>
      match dir.add name newSector with
      | some dir' => (.flag true, dir')
      | none => (.flag false, dir)
  | .remove name =>
      match dir.remove name with
      | some dir' => (.flag true, dir')
      | none => (.flag false, dir)
  | .refresh file heap disk into =>
      (.nothing, Directory.fetchFrom file (dir.writeBack file heap disk)
        { dir with table := into })

/-- The answers to a sequence of calls, and what it leaves. -/
def KeyMap.answers (tableSize : Nat) : KeyMap → List DirectoryCall → List DirectoryAnswer × KeyMap
  | m, [] => ([], m)
  | m, call :: calls =>
      let result := m.call tableSize call
      let rest := KeyMap.answers tableSize result.2 calls
      (result.1 :: rest.1, rest.2)

def Directory.answers : Directory → List DirectoryCall → List DirectoryAnswer × Directory
  | dir, [] => ([], dir)
  | dir, call :: calls =>
      let result := dir.call call
      let rest := Directory.answers result.2 calls
      (result.1 :: rest.1, rest.2)

theorem nameKey_eq_iff {first second : Memory} :
    nameKey first = nameKey second ↔ ∀ k < fileNameMaxLen, charAt first k = charAt second k := by
  unfold nameKey
  rw [List.map_inj_left]
  exact forall_congr' fun k => imp_congr List.mem_range Iff.rfl

/-! ### Entries as slots -/

namespace Directory

/-- The indices of the table. -/
def indices (tableSize : Nat) : Finset Int :=
  (Finset.range tableSize).image fun k : Nat => (k : Int)

/-- What an entry stands for: nothing, or a key and a sector. -/
def slot (dir : Directory) (i : Int) : Option (List UInt8 × Int) :=
  if dir.inUse i then some (nameKey (dir.name i), dir.sector i) else none

/-- The directory has `tableSize` entries, which hold the map. -/
structure Holds (tableSize : Nat) (dir : Directory) (m : KeyMap) : Prop where
  size : dir.tableSize = tableSize
  represents : Represents (indices tableSize) dir.slot m

variable {dir dir' : Directory} {tableSize : Nat} {m : KeyMap} {name : Memory} {i : Int}

theorem mem_indices : i ∈ indices tableSize ↔ 0 ≤ i ∧ i < tableSize := by
  simp only [indices, Finset.mem_image, Finset.mem_range]
  constructor
  · rintro ⟨k, inside, rfl⟩
    exact ⟨Int.natCast_nonneg k, by exact_mod_cast inside⟩
  · rintro ⟨low, high⟩
    exact ⟨i.toNat, by omega, Int.toNat_of_nonneg low⟩

theorem card_indices : (indices tableSize).card = tableSize := by
  have injective : Function.Injective fun k : Nat => (k : Int) :=
    fun _ _ same => Int.ofNat.inj same
  rw [indices, Finset.card_image_of_injective _ injective, Finset.card_range]

/-- An entry that `FindIndex` accepts holds the key of the name. -/
theorem slot_of_holds :
    dir.holds name i = true ↔ dir.slot i = some (nameKey name, dir.sector i) := by
  have keys : strncmpIsZero (dir.name i) name fileNameMaxLen = true ↔
      nameKey (dir.name i) = nameKey name := by
    rw [strncmpIsZero_iff, nameKey_eq_iff]
  unfold holds slot
  rw [Bool.and_eq_true, keys]
  by_cases used : dir.inUse i = true
  · rw [if_pos used]
    constructor
    · rintro ⟨-, same⟩
      rw [same]
    · intro same
      exact ⟨used, (Prod.mk.inj (Option.some.inj same)).1⟩
  · rw [if_neg used]
    exact iff_of_false (fun both => used both.1) nofun

theorem sector_of_slot {key : List UInt8} {v : Int} (atI : dir.slot i = some (key, v)) :
    v = dir.sector i := by
  unfold slot at atI
  split at atI
  · exact (Prod.mk.inj (Option.some.inj atI)).2.symm
  · cases atI

theorem slot_eq_none : dir.slot i = none ↔ dir.inUse i = false := by
  unfold slot
  cases dir.inUse i with
  | true => exact iff_of_false nofun nofun
  | false => exact iff_of_true rfl rfl

/-- Entries that are the same stand for the same. -/
theorem SameEntry.slot (same : SameEntry dir dir' i) : dir'.slot i = dir.slot i := by
  have keys : nameKey (dir'.name i) = nameKey (dir.name i) := by
    rw [nameKey_eq_iff]
    intro k bound
    exact charAt_congr fun j le => same.name j (Nat.lt_of_le_of_lt le bound)
  unfold Directory.slot
  rw [same.inUse, same.sector, keys]

/-- A new entry stands for what it was made for. -/
theorem slot_setEntry (dir : Directory) (i : Int) (name : Memory) {newSector : Int}
    (low : -2 ^ 31 ≤ newSector) (high : newSector < 2 ^ 31) :
    (dir.setEntry i name newSector).slot =
      Function.update dir.slot i (some (nameKey name, newSector)) := by
  funext j
  by_cases here : j = i
  · subst here
    have keys : nameKey ((dir.setEntry j name newSector).name j) = nameKey name := by
      rw [nameKey_eq_iff]
      intro k bound
      apply charAt_charAt
      intro l le
      exact setEntry_name dir j name newSector (Nat.lt_of_le_of_lt le bound)
    rw [Function.update_self]
    unfold slot
    rw [setEntry_inUse, setEntry_sector dir j name low high, keys]
    rfl
  · rw [Function.update_of_ne here]
    exact (setEntry_other dir name newSector here).slot

/-- An entry that is given up stands for nothing, whatever its name is. -/
theorem slot_setInUse (dir : Directory) (i : Int) :
    (dir.setInUse i false).slot = Function.update dir.slot i none := by
  funext j
  by_cases here : j = i
  · subst here
    rw [Function.update_self, slot_eq_none]
    exact setInUse_inUse dir j false
  · rw [Function.update_of_ne here]
    exact (setInUse_other dir false here).slot

/-! ### One call -/

/-- `FindIndex` misses a name whose key is not in the map, and else finds its
entry. -/
theorem Holds.findIndex (holds : Holds tableSize dir m) (name : Memory) :
    (dir.findIndex name = -1 ∧ nameKey name ∉ m) ∨
      (dir.findIndex name ≠ -1 ∧ dir.findIndex name ∈ indices tableSize ∧
        dir.slot (dir.findIndex name) = some (nameKey name, dir.sector (dir.findIndex name)) ∧
        m.lookup (nameKey name) = some (dir.sector (dir.findIndex name))) := by
  rcases dir.findIndex_cases name with ⟨missed, absent⟩ | ⟨low, high, found⟩
  · left
    refine ⟨missed, fun member => ?_⟩
    obtain ⟨i, inside, v, atI⟩ := holds.represents.mem_iff.mp member
    have bounds := mem_indices.mp inside
    rw [sector_of_slot atI] at atI
    have present := slot_of_holds.mpr atI
    rw [absent i bounds.1 (holds.size ▸ bounds.2)] at present
    cases present
  · right
    have inside : dir.findIndex name ∈ indices tableSize :=
      mem_indices.mpr ⟨low, holds.size ▸ high⟩
    have here : dir.slot (dir.findIndex name) =
        some (nameKey name, dir.sector (dir.findIndex name)) := slot_of_holds.mp found
    exact ⟨by omega, inside, here, (holds.represents.lookup _ _).mpr ⟨_, inside, here⟩⟩

theorem Holds.find (holds : Holds tableSize dir m) (name : Memory) :
    dir.find name = (m.lookup (nameKey name)).getD (-1) := by
  unfold Directory.find
  rcases holds.findIndex name with ⟨missed, absent⟩ | ⟨hit, -, -, found⟩
  · rw [if_neg (not_not.mpr missed), Finmap.lookup_eq_none.mpr absent]
    rfl
  · rw [if_pos hit, found]
    rfl

/-- `Add` fails where the key is there or every entry is in use. -/
theorem Holds.add_eq_none (holds : Holds tableSize dir m) {newSector : Int}
    (failed : dir.add name newSector = none) :
    ¬ (nameKey name ∉ m ∧ m.keys.card < tableSize) := by
  rintro ⟨absent, few⟩
  rcases holds.findIndex name with ⟨missed, -⟩ | ⟨-, -, -, found⟩
  · obtain ⟨i, inside, free⟩ := holds.represents.room.mp (few.trans_eq card_indices.symm)
    have bounds := mem_indices.mp inside
    obtain ⟨dir', added⟩ := add_of_unused missed bounds.1 (holds.size ▸ bounds.2)
      (slot_eq_none.mp free) newSector
    cases failed.symm.trans added
  · exact absent (Finmap.mem_of_lookup_eq_some found)

/-- `Add` puts the key and the sector into a free entry. -/
theorem Holds.add_eq_some (holds : Holds tableSize dir m) {newSector : Int}
    (low : -2 ^ 31 ≤ newSector) (high : newSector < 2 ^ 31)
    (added : dir.add name newSector = some dir') :
    (nameKey name ∉ m ∧ m.keys.card < tableSize) ∧
      Holds tableSize dir' (m.insert (nameKey name) newSector) := by
  obtain ⟨i, iLow, iHigh, unused, absent, rfl⟩ := Directory.add_eq_some added
  have inside : i ∈ indices tableSize := mem_indices.mpr ⟨iLow, holds.size ▸ iHigh⟩
  have free : dir.slot i = none := slot_eq_none.mpr unused
  have fresh : nameKey name ∉ m := by
    rcases holds.findIndex name with ⟨-, fresh⟩ | ⟨-, within, here, -⟩
    · exact fresh
    · have bounds := mem_indices.mp within
      have taken := slot_of_holds.mpr here
      rw [absent _ bounds.1 (holds.size ▸ bounds.2)] at taken
      cases taken
  refine ⟨⟨fresh, ?_⟩, holds.size, ?_⟩
  · exact (holds.represents.room.mpr ⟨i, inside, free⟩).trans_eq card_indices
  · rw [slot_setEntry dir i name low high]
    exact holds.represents.fill inside free fresh newSector

theorem Holds.remove_eq_none (holds : Holds tableSize dir m) (failed : dir.remove name = none) :
    nameKey name ∉ m := by
  unfold Directory.remove at failed
  rcases holds.findIndex name with ⟨-, absent⟩ | ⟨hit, -, -, -⟩
  · exact absent
  · rw [if_neg hit] at failed
    cases failed

/-- `Remove` takes the key out. -/
theorem Holds.remove_eq_some (holds : Holds tableSize dir m)
    (removed : dir.remove name = some dir') :
    nameKey name ∈ m ∧ Holds tableSize dir' (m.erase (nameKey name)) := by
  unfold Directory.remove at removed
  rcases holds.findIndex name with ⟨missed, -⟩ | ⟨hit, inside, here, found⟩
  · rw [if_pos missed] at removed
    cases removed
  · rw [if_neg hit] at removed
    obtain rfl := Option.some.inj removed
    refine ⟨Finmap.mem_of_lookup_eq_some found, holds.size, ?_⟩
    rw [slot_setInUse]
    exact holds.represents.release inside here

/-- The bytes of a table that has gone through a file. -/
theorem refresh_table {file : OpenFile} (sound : file.hdr.Sound) {dir : Directory}
    (nonneg : 0 ≤ dir.tableSize) (enough : dir.tableSize * entrySize ≤ file.hdr.numBytes)
    (heap : Memory) (disk : Disk) (into : Memory) {offset : Int} (low : 0 ≤ offset)
    (high : offset < dir.tableSize * entrySize) :
    (Directory.fetchFrom file (dir.writeBack file heap disk)
      { dir with table := into }).table offset = dir.table offset := by
  have bound := sound.numBytes_le
  unfold fetchFrom writeBack
  dsimp only
  simp only [entrySize, maxFileSize] at *
  have whole : OpenFile.transferred file.hdr.numBytes (dir.tableSize * 20) 0 =
      dir.tableSize * 20 := by
    rw [OpenFile.transferred_something (by omega) (by omega)]
    omega
  rw [OpenFile.readAt_transferred sound _ _ (by omega) (by omega), whole]
  dsimp only
  rw [Memory.copy_inside _ _ low (by omega), Int.zero_add, Int.sub_zero,
    OpenFile.writeAt_replaces sound _ _ (by omega) (by omega) low (by omega), whole,
    if_pos (by omega), Int.sub_zero]

theorem Holds.refresh (holds : Holds tableSize dir m) {file : OpenFile} (sound : file.hdr.Sound)
    (enough : tableSize * entrySize ≤ file.hdr.numBytes) (heap : Memory) (disk : Disk)
    (into : Memory) :
    Holds tableSize (Directory.fetchFrom file (dir.writeBack file heap disk)
      { dir with table := into }) m := by
  refine ⟨holds.size, holds.represents.congr ?_⟩
  intro i inside
  have bounds := mem_indices.mp inside
  have size := holds.size
  apply SameEntry.slot
  apply sameEntry_of_agree
  intro offset low high
  simp only [entrySize] at low high
  apply refresh_table sound (by omega) (by rw [size]; exact enough)
  · omega
  · rw [size]
    simp only [entrySize]
    omega

/-- A call is answered as by the map, and leaves what it leaves of the map. -/
theorem Holds.call (holds : Holds tableSize dir m) {call : DirectoryCall}
    (fits : call.Fits tableSize) :
    (dir.call call).1 = (m.call tableSize call).1 ∧
      Holds tableSize (dir.call call).2 (m.call tableSize call).2 := by
  cases call with
  | find name => exact ⟨congrArg DirectoryAnswer.sector (holds.find name), holds⟩
  | add name newSector =>
      unfold Directory.call KeyMap.call
      dsimp only
      cases added : dir.add name newSector with
      | none =>
          rw [if_neg (holds.add_eq_none added)]
          exact ⟨rfl, holds⟩
      | some dir' =>
          obtain ⟨room, holds'⟩ := holds.add_eq_some fits.1 fits.2 added
          rw [if_pos room]
          exact ⟨rfl, holds'⟩
  | remove name =>
      unfold Directory.call KeyMap.call
      dsimp only
      cases removed : dir.remove name with
      | none =>
          rw [if_neg (holds.remove_eq_none removed)]
          exact ⟨rfl, holds⟩
      | some dir' =>
          obtain ⟨present, holds'⟩ := holds.remove_eq_some removed
          rw [if_pos present]
          exact ⟨rfl, holds'⟩
  | refresh file heap disk into => exact ⟨rfl, holds.refresh fits.1 fits.2 heap disk into⟩

/-! ### Sequences of calls -/

theorem Holds.answers (calls : List DirectoryCall) (fit : ∀ call ∈ calls, call.Fits tableSize)
    (holds : Holds tableSize dir m) :
    (dir.answers calls).1 = (m.answers tableSize calls).1 ∧
      Holds tableSize (dir.answers calls).2 (m.answers tableSize calls).2 := by
  induction calls generalizing dir m with
  | nil => exact ⟨rfl, holds⟩
  | cons call calls inductionHypothesis =>
      obtain ⟨answer, holds'⟩ := holds.call (fit call List.mem_cons_self)
      obtain ⟨rest, last⟩ := inductionHypothesis
        (fun later member => fit later (List.mem_cons_of_mem _ member)) holds'
      exact ⟨congrArg₂ List.cons answer rest, last⟩

/-- A new directory holds nothing. -/
theorem holds_construct (tableSize : Nat) (heap : Memory) :
    Holds tableSize (construct tableSize heap) ∅ where
  size := construct_tableSize tableSize heap
  represents := by
    apply Represents.empty
    intro i inside
    have bounds := mem_indices.mp inside
    rw [slot_eq_none]
    exact construct_inUse tableSize heap bounds.1 bounds.2

end Directory

/-- From an empty directory every sequence of calls is answered as by the map
with room for `tableSize` keys, and no two entries in use ever have the same
key. -/
theorem directory_answers_as_map (tableSize : Nat) (heap : Memory) (calls : List DirectoryCall)
    (fit : ∀ call ∈ calls, call.Fits tableSize) :
    ((Directory.construct tableSize heap).answers calls).1 =
        (KeyMap.answers tableSize ∅ calls).1 ∧
      ∀ i j : Int, 0 ≤ i → i < tableSize → 0 ≤ j → j < tableSize →
        let dir := ((Directory.construct tableSize heap).answers calls).2
        dir.inUse i = true → dir.inUse j = true →
          nameKey (dir.name i) = nameKey (dir.name j) → i = j := by
  obtain ⟨answers, holds⟩ :=
    Directory.Holds.answers calls fit (Directory.holds_construct tableSize heap)
  refine ⟨answers, ?_⟩
  intro i j iLow iHigh jLow jHigh dir iUsed jUsed same
  apply holds.represents.distinct i (Directory.mem_indices.mpr ⟨iLow, iHigh⟩) j
    (Directory.mem_indices.mpr ⟨jLow, jHigh⟩)
  · exact if_pos iUsed
  · rw [same]
    exact if_pos jUsed

/-- A slot is filled, given up and filled again, goes through a file, and is
looked for. -/
def reusedSlot : List DirectoryCall :=
  [.add (.ofList [97, 98]) 5, .remove (.ofList [97, 98]), .add (.ofList [97]) 6,
    .refresh OpenFile.twoSectors (fun _ => 9) (fun _ _ => 1) fun _ => 3,
    .find (.ofList [97, 98]), .find (.ofList [97])]

theorem directory_answers_reusedSlot :
    ((Directory.construct 1 fun _ => 7).answers reusedSlot).1 =
      (KeyMap.answers 1 ∅ reusedSlot).1 :=
  (directory_answers_as_map 1 (fun _ => 7) reusedSlot (by
    intro call member
    simp only [reusedSlot, List.mem_cons, List.not_mem_nil, or_false] at member
    rcases member with rfl | rfl | rfl | rfl | rfl | rfl
    · exact ⟨by decide, by decide⟩
    · trivial
    · exact ⟨by decide, by decide⟩
    · exact ⟨OpenFile.twoSectors_sound, by decide⟩
    · trivial
    · trivial)).1

end Nachos
