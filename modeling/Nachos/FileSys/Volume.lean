/-
Module: Nachos.FileSys.Volume
Purpose: An abstract view of a disk with files: which entries of the directory
  are in use, where their headers are, what these say, and which sectors are
  marked.  Every sector has at most one owner, and the marked sectors are those
  that have one; adding and dropping a file keep this.
Trusted boundary: none
Main exports: FileHeader.SameFile, Volume, Owner, Volume.Owns, Volume.Valid,
  Volume.add, Volume.drop, Volume.Valid.add, Volume.Valid.drop
-/
import Nachos.FileSys.Transfers

namespace Nachos

open Lib

/-! ### Headers that describe the same file -/

/-- Two headers differ at most in the unused part of their tables. -/
structure FileHeader.SameFile (hdr hdr' : FileHeader) : Prop where
  numBytes : hdr'.numBytes = hdr.numBytes
  numSectors : hdr'.numSectors = hdr.numSectors
  dataSectors : ∀ i, 0 ≤ i → i < hdr.numSectors → hdr'.dataSectors i = hdr.dataSectors i

namespace FileHeader

variable {hdr hdr' hdr'' : FileHeader}

theorem SameFile.refl (hdr : FileHeader) : hdr.SameFile hdr :=
  ⟨rfl, rfl, fun _ _ _ => rfl⟩

theorem SameFile.symm (same : hdr.SameFile hdr') : hdr'.SameFile hdr where
  numBytes := same.numBytes.symm
  numSectors := same.numSectors.symm
  dataSectors i low high := (same.dataSectors i low (same.numSectors ▸ high)).symm

theorem SameFile.trans (same : hdr.SameFile hdr') (same' : hdr'.SameFile hdr'') :
    hdr.SameFile hdr'' where
  numBytes := same'.numBytes.trans same.numBytes
  numSectors := same'.numSectors.trans same.numSectors
  dataSectors i low high :=
    (same'.dataSectors i low (same.numSectors ▸ high)).trans (same.dataSectors i low high)

theorem SameFile.sound (same : hdr.SameFile hdr') (sound : hdr.Sound) : hdr'.Sound where
  nonneg := same.numBytes ▸ sound.nonneg
  enough := by rw [same.numSectors, same.numBytes, sound.enough]
  fits := same.numSectors ▸ sound.fits
  distinct i j low high low' high' equal := by
    rw [same.numSectors] at high high'
    rw [same.dataSectors i low high, same.dataSectors j low' high'] at equal
    exact sound.distinct i j low high low' high' equal

theorem SameFile.content (same : hdr.SameFile hdr') (sound : hdr.Sound) (disk : Disk)
    {i : Int} (low : 0 ≤ i) (high : i < hdr.numBytes) :
    hdr'.content disk i = hdr.content disk i := by
  unfold FileHeader.content
  rw [same.dataSectors _ (by simp only [sectorSize]; omega) (sound.sector_lt high)]

end FileHeader

/-! ### Volumes -/

/-- What the directory, the headers and the free map of a disk say. -/
structure Volume where
  inUse : Int → Bool
  sector : Int → Int
  hdr : Int → FileHeader
  marked : Int → Prop

/-- What a sector can be for: one of the first five, which hold the headers and
the data of the free map and the directory, or the header or a data sector of
the file of an entry. -/
inductive Owner where
  | system (n : Int)
  | header (i : Int)
  | data (i j : Int)

/-- The owner belongs to the file of entry `i`. -/
def Owner.Of (i : Int) : Owner → Prop
  | .system _ => False
  | .header i' => i' = i
  | .data i' _ => i' = i

namespace Volume

/-- The owner has this sector. -/
def Owns (v : Volume) : Owner → Int → Prop
  | .system n, s => 0 ≤ n ∧ n < 5 ∧ s = n
  | .header i, s => 0 ≤ i ∧ i < 10 ∧ v.inUse i = true ∧ s = v.sector i
  | .data i j, s => 0 ≤ i ∧ i < 10 ∧ v.inUse i = true ∧
      0 ≤ j ∧ j < (v.hdr i).numSectors ∧ s = (v.hdr i).dataSectors j

/-- Every sector has at most one owner, the marked sectors are those with an
owner, and the headers describe files. -/
structure Valid (v : Volume) : Prop where
  range : ∀ o s, v.Owns o s → 0 ≤ s ∧ s < 1024
  unique : ∀ o o' s, v.Owns o s → v.Owns o' s → o = o'
  marked : ∀ s, 0 ≤ s → s < 1024 → (v.marked s ↔ ∃ o, v.Owns o s)
  sound : ∀ i, 0 ≤ i → i < 10 → v.inUse i = true → (v.hdr i).Sound

/-- A sector with an owner is in range and marked. -/
theorem Valid.owned {v : Volume} {o : Owner} {s : Int} (valid : v.Valid)
    (owns : v.Owns o s) : 0 ≤ s ∧ s < 1024 ∧ v.marked s := by
  have range := valid.range o s owns
  exact ⟨range.1, range.2, (valid.marked s range.1 range.2).mpr ⟨o, owns⟩⟩

/-- Two volumes say the same. -/
structure Same (v v' : Volume) : Prop where
  inUse : ∀ i, 0 ≤ i → i < 10 → v'.inUse i = v.inUse i
  sector : ∀ i, 0 ≤ i → i < 10 → v.inUse i = true → v'.sector i = v.sector i
  hdr : ∀ i, 0 ≤ i → i < 10 → v.inUse i = true → (v.hdr i).SameFile (v'.hdr i)
  marked : ∀ s, 0 ≤ s → s < 1024 → (v'.marked s ↔ v.marked s)

theorem Same.owns_iff {v v' : Volume} (same : v.Same v') (o : Owner) (s : Int) :
    v'.Owns o s ↔ v.Owns o s := by
  cases o with
  | system n => exact Iff.rfl
  | header i =>
      constructor
      · rintro ⟨low, high, used, rfl⟩
        rw [same.inUse i low high] at used
        exact ⟨low, high, used, same.sector i low high used⟩
      · rintro ⟨low, high, used, rfl⟩
        exact ⟨low, high, (same.inUse i low high).trans used,
          (same.sector i low high used).symm⟩
  | data i j =>
      constructor
      · rintro ⟨low, high, used, jLow, jHigh, rfl⟩
        rw [same.inUse i low high] at used
        have sameFile := same.hdr i low high used
        rw [sameFile.numSectors] at jHigh
        exact ⟨low, high, used, jLow, jHigh, sameFile.dataSectors j jLow jHigh⟩
      · rintro ⟨low, high, used, jLow, jHigh, rfl⟩
        have sameFile := same.hdr i low high used
        exact ⟨low, high, (same.inUse i low high).trans used, jLow,
          sameFile.numSectors ▸ jHigh, (sameFile.dataSectors j jLow jHigh).symm⟩

theorem Valid.of_same {v v' : Volume} (valid : v.Valid) (same : v.Same v') :
    v'.Valid where
  range o s owns := valid.range o s ((same.owns_iff o s).mp owns)
  unique o o' s owns owns' :=
    valid.unique o o' s ((same.owns_iff o s).mp owns) ((same.owns_iff o' s).mp owns')
  marked s low high := by
    rw [same.marked s low high, valid.marked s low high]
    simp only [same.owns_iff]
  sound i low high used := by
    rw [same.inUse i low high] at used
    exact (same.hdr i low high used).sound (valid.sound i low high used)

/-! ### Adding and dropping a file -/

/-- A file with the given header in the given sector takes entry `i`. -/
def add (i sector : Int) (hdr : FileHeader) (v : Volume) : Volume where
  inUse := Function.update v.inUse i true
  sector := Function.update v.sector i sector
  hdr := Function.update v.hdr i hdr
  marked := fun s => v.marked s ∨ s = sector ∨
    ∃ j, 0 ≤ j ∧ j < hdr.numSectors ∧ s = hdr.dataSectors j

/-- The file of entry `i` goes. -/
def drop (i : Int) (v : Volume) : Volume where
  inUse := Function.update v.inUse i false
  sector := v.sector
  hdr := v.hdr
  marked := fun s => v.marked s ∧ s ≠ v.sector i ∧
    ∀ j, 0 ≤ j → j < (v.hdr i).numSectors → s ≠ (v.hdr i).dataSectors j

theorem owns_add_of_not {v : Volume} {i sector : Int} {hdr : FileHeader} {o : Owner}
    (other : ¬ o.Of i) (s : Int) : (v.add i sector hdr).Owns o s ↔ v.Owns o s := by
  cases o with
  | system n => exact Iff.rfl
  | header i' => simp [Owns, add, show i' ≠ i from other]
  | data i' j => simp [Owns, add, show i' ≠ i from other]

theorem owns_add_header {v : Volume} {i sector : Int} {hdr : FileHeader}
    (low : 0 ≤ i) (high : i < 10) (s : Int) :
    (v.add i sector hdr).Owns (.header i) s ↔ s = sector := by
  simp [Owns, add, low, high]

theorem owns_add_data {v : Volume} {i sector : Int} {hdr : FileHeader}
    (low : 0 ≤ i) (high : i < 10) (j s : Int) :
    (v.add i sector hdr).Owns (.data i j) s ↔
      0 ≤ j ∧ j < hdr.numSectors ∧ s = hdr.dataSectors j := by
  simp [Owns, add, low, high]

/-- A sector of the new file. -/
inductive NewSector (sector : Int) (hdr : FileHeader) : Int → Prop where
  | header : NewSector sector hdr sector
  | data (j : Int) (low : 0 ≤ j) (high : j < hdr.numSectors) :
      NewSector sector hdr (hdr.dataSectors j)

/-- The sectors of a new file are in range and were not marked, and they are
distinct. -/
structure Fresh (v : Volume) (sector : Int) (hdr : FileHeader) : Prop where
  sound : hdr.Sound
  range : ∀ s, NewSector sector hdr s → 0 ≤ s ∧ s < 1024
  unmarked : ∀ s, NewSector sector hdr s → ¬ v.marked s
  apart : ∀ j, 0 ≤ j → j < hdr.numSectors → hdr.dataSectors j ≠ sector

/-- Who owns a sector of the new volume. -/
theorem owns_add_cases {v : Volume} {i sector : Int} {hdr : FileHeader} {o : Owner}
    {s : Int} (low : 0 ≤ i) (high : i < 10) (owns : (v.add i sector hdr).Owns o s) :
    (¬ o.Of i ∧ v.Owns o s) ∨ (o.Of i ∧ NewSector sector hdr s) := by
  by_cases mine : o.Of i
  · right
    refine ⟨mine, ?_⟩
    cases o with
    | system n => exact mine.elim
    | header i' =>
        obtain rfl : i' = i := mine
        rw [owns_add_header low high] at owns
        rw [owns]
        exact .header
    | data i' j =>
        obtain rfl : i' = i := mine
        rw [owns_add_data low high] at owns
        obtain ⟨jLow, jHigh, rfl⟩ := owns
        exact .data j jLow jHigh
  · left
    exact ⟨mine, (owns_add_of_not mine s).mp owns⟩

/-- The owners within the new file are distinct. -/
theorem Fresh.unique {v : Volume} {i sector : Int} {hdr : FileHeader}
    (fresh : v.Fresh sector hdr) (low : 0 ≤ i) (high : i < 10) {o o' : Owner} {s : Int}
    (mine : o.Of i) (mine' : o'.Of i) (owns : (v.add i sector hdr).Owns o s)
    (owns' : (v.add i sector hdr).Owns o' s) : o = o' := by
  cases o with
  | system n => exact mine.elim
  | header first =>
      obtain rfl : first = i := mine
      rw [owns_add_header low high] at owns
      cases o' with
      | system n => exact mine'.elim
      | header second => rw [show second = first from mine']
      | data second j =>
          obtain rfl : second = first := mine'
          rw [owns_add_data low high] at owns'
          obtain ⟨jLow, jHigh, equal⟩ := owns'
          exact absurd (equal.symm.trans owns) (fresh.apart j jLow jHigh)
  | data first j =>
      obtain rfl : first = i := mine
      rw [owns_add_data low high] at owns
      obtain ⟨jLow, jHigh, equal⟩ := owns
      cases o' with
      | system n => exact mine'.elim
      | header second =>
          obtain rfl : second = first := mine'
          rw [owns_add_header low high] at owns'
          exact absurd (equal.symm.trans owns') (fresh.apart j jLow jHigh)
      | data second j' =>
          obtain rfl : second = first := mine'
          rw [owns_add_data low high] at owns'
          obtain ⟨jLow', jHigh', equal'⟩ := owns'
          rw [fresh.sound.distinct j j' jLow jHigh jLow' jHigh'
            (equal.symm.trans equal')]

/-- A file on fresh sectors can be added in an entry that is not in use. -/
theorem Valid.add {v : Volume} {i sector : Int} {hdr : FileHeader} (valid : v.Valid)
    (low : 0 ≤ i) (high : i < 10) (unused : v.inUse i = false)
    (fresh : v.Fresh sector hdr) : (v.add i sector hdr).Valid where
  range o s owns := by
    rcases owns_add_cases low high owns with ⟨-, old⟩ | ⟨-, new⟩
    · exact valid.range o s old
    · exact fresh.range s new
  unique o o' s owns owns' := by
    rcases owns_add_cases low high owns with ⟨-, old⟩ | ⟨mine, new⟩
    · rcases owns_add_cases low high owns' with ⟨-, old'⟩ | ⟨-, new'⟩
      · exact valid.unique o o' s old old'
      · exact absurd (valid.owned old).2.2 (fresh.unmarked s new')
    · rcases owns_add_cases low high owns' with ⟨-, old'⟩ | ⟨mine', -⟩
      · exact absurd (valid.owned old').2.2 (fresh.unmarked s new)
      · exact fresh.unique low high mine mine' owns owns'
  marked s sLow sHigh := by
    constructor
    · rintro (old | rfl | ⟨j, jLow, jHigh, rfl⟩)
      · obtain ⟨o, owns⟩ := (valid.marked s sLow sHigh).mp old
        have other : ¬ o.Of i := by
          intro mine
          cases o with
          | system n => exact mine
          | header i' =>
              obtain rfl : i' = i := mine
              rw [owns.2.2.1] at unused
              cases unused
          | data i' j =>
              obtain rfl : i' = i := mine
              rw [owns.2.2.1] at unused
              cases unused
        exact ⟨o, (owns_add_of_not other s).mpr owns⟩
      · exact ⟨.header i, (owns_add_header low high _).mpr rfl⟩
      · exact ⟨.data i j, (owns_add_data low high j _).mpr ⟨jLow, jHigh, rfl⟩⟩
    · rintro ⟨o, owns⟩
      rcases owns_add_cases low high owns with ⟨-, old⟩ | ⟨-, new⟩
      · exact .inl (valid.owned old).2.2
      · cases new with
        | header => exact .inr (.inl rfl)
        | data j jLow jHigh => exact .inr (.inr ⟨j, jLow, jHigh, rfl⟩)
  sound j jLow jHigh used := by
    by_cases same : j = i
    · simpa [Volume.add, same] using fresh.sound
    · simp only [Volume.add, Function.update_of_ne same] at used ⊢
      exact valid.sound j jLow jHigh used

theorem owns_drop_iff {v : Volume} {i : Int} (o : Owner) (s : Int) :
    (v.drop i).Owns o s ↔ ¬ o.Of i ∧ v.Owns o s := by
  cases o with
  | system n => simp [Owns, Owner.Of]
  | header i' =>
      by_cases same : i' = i
      · simp [Owns, Owner.Of, drop, same]
      · simp [Owns, Owner.Of, drop, same]
  | data i' j =>
      by_cases same : i' = i
      · simp [Owns, Owner.Of, drop, same]
      · simp [Owns, Owner.Of, drop, same]

/-- A file can be dropped. -/
theorem Valid.drop {v : Volume} {i : Int} (valid : v.Valid) (low : 0 ≤ i)
    (high : i < 10) (used : v.inUse i = true) : (v.drop i).Valid where
  range o s owns := valid.range o s ((owns_drop_iff o s).mp owns).2
  unique o o' s owns owns' :=
    valid.unique o o' s ((owns_drop_iff o s).mp owns).2 ((owns_drop_iff o' s).mp owns').2
  marked s sLow sHigh := by
    simp only [owns_drop_iff]
    constructor
    · rintro ⟨old, notHeader, notData⟩
      obtain ⟨o, owns⟩ := (valid.marked s sLow sHigh).mp old
      refine ⟨o, ?_, owns⟩
      intro mine
      cases o with
      | system n => exact mine
      | header i' =>
          obtain rfl : i' = i := mine
          exact notHeader owns.2.2.2
      | data i' j =>
          obtain rfl : i' = i := mine
          obtain ⟨-, -, -, jLow, jHigh, equal⟩ := owns
          exact notData j jLow jHigh equal
    · rintro ⟨o, other, owns⟩
      refine ⟨(valid.owned owns).2.2, ?_, ?_⟩
      · intro equal
        have same := valid.unique o (.header i) s owns ⟨low, high, used, equal⟩
        exact other (same ▸ rfl)
      · intro j jLow jHigh equal
        have same := valid.unique o (.data i j) s owns
          ⟨low, high, used, jLow, jHigh, equal⟩
        exact other (same ▸ rfl)
  sound j jLow jHigh stillUsed := by
    have other : j ≠ i := by
      rintro rfl
      simp [Volume.drop] at stillUsed
    simp only [Volume.drop, Function.update_of_ne other] at stillUsed ⊢
    exact valid.sound j jLow jHigh stillUsed

end Volume

end Nachos
