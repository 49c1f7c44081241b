/-
Module: Nachos.Lib.SlotMap
Purpose: Finite maps kept in a table of slots, each of which is free or holds a
  key with its value.  A key may stand in any slot, but in one only; the table
  then has a free slot exactly as long as the map has fewer keys than there are
  slots.
Trusted boundary: none
Main exports: Represents, Represents.fill, Represents.release,
  Represents.room, erase_of_absent, erase_insert_of_absent
-/
import Mathlib.Data.Finmap
import Mathlib.Logic.Function.Basic

namespace Nachos.Lib

variable {ι α β : Type*} [DecidableEq α]

/-! ### Keys that are not in the map -/

section

variable {m : Finmap fun _ : α => β} {key : α}

theorem erase_of_absent (absent : key ∉ m) : m.erase key = m := by
  apply Finmap.ext_lookup
  intro other
  by_cases same : other = key
  · rw [same, Finmap.lookup_erase, Finmap.lookup_eq_none.mpr absent]
  · rw [Finmap.lookup_erase_ne same]

theorem erase_insert_of_absent (absent : key ∉ m) (v : β) : (m.insert key v).erase key = m := by
  apply Finmap.ext_lookup
  intro other
  by_cases same : other = key
  · rw [same, Finmap.lookup_erase, Finmap.lookup_eq_none.mpr absent]
  · rw [Finmap.lookup_erase_ne same, Finmap.lookup_insert_of_ne m same]

end

/-! ### Tables of slots -/

/-- The slots hold the map: each entry of the map is in some slot, and no key is
in two. -/
structure Represents (slots : Finset ι) (slot : ι → Option (α × β)) (m : Finmap fun _ : α => β) :
    Prop where
  distinct : ∀ i ∈ slots, ∀ j ∈ slots, ∀ key v w,
    slot i = some (key, v) → slot j = some (key, w) → i = j
  lookup : ∀ key v, m.lookup key = some v ↔ ∃ i ∈ slots, slot i = some (key, v)

namespace Represents

variable {slots : Finset ι} {slot slot' : ι → Option (α × β)} {m : Finmap fun _ : α => β}
  {i : ι} {key : α} {v : β}

/-- Slots that are all free hold no entry. -/
theorem empty (free : ∀ i ∈ slots, slot i = none) : Represents slots slot ∅ where
  distinct := by
    intro i inside j _ key v w atI
    rw [free i inside] at atI
    cases atI
  lookup := by
    intro key v
    rw [Finmap.lookup_empty]
    constructor
    · intro none
      cases none
    · rintro ⟨i, inside, atI⟩
      rw [free i inside] at atI
      cases atI

/-- The map depends only on what the slots hold. -/
theorem congr (represents : Represents slots slot m) (same : ∀ i ∈ slots, slot' i = slot i) :
    Represents slots slot' m where
  distinct := by
    intro i inside j inside' key v w atI atJ
    rw [same i inside] at atI
    rw [same j inside'] at atJ
    exact represents.distinct i inside j inside' key v w atI atJ
  lookup := by
    intro key v
    rw [represents.lookup]
    apply exists_congr
    intro i
    apply and_congr_right
    intro inside
    rw [same i inside]

theorem mem_iff (represents : Represents slots slot m) :
    key ∈ m ↔ ∃ i ∈ slots, ∃ v, slot i = some (key, v) := by
  rw [Finmap.mem_iff]
  constructor
  · rintro ⟨v, found⟩
    obtain ⟨i, inside, atI⟩ := (represents.lookup key v).mp found
    exact ⟨i, inside, v, atI⟩
  · rintro ⟨i, inside, v, atI⟩
    exact ⟨v, (represents.lookup key v).mpr ⟨i, inside, atI⟩⟩

section

variable [DecidableEq ι]

/-- A key that is not in the map goes into a free slot. -/
theorem fill (represents : Represents slots slot m) (inside : i ∈ slots) (free : slot i = none)
    (absent : key ∉ m) (v : β) :
    Represents slots (Function.update slot i (some (key, v))) (m.insert key v) where
  distinct := by
    intro j jInside k kInside other w x atJ atK
    by_cases jFilled : j = i
    · by_cases kFilled : k = i
      · rw [jFilled, kFilled]
      · subst jFilled
        rw [Function.update_self] at atJ
        rw [Function.update_of_ne kFilled] at atK
        cases atJ
        exact absurd (represents.mem_iff.mpr ⟨k, kInside, x, atK⟩) absent
    · by_cases kFilled : k = i
      · subst kFilled
        rw [Function.update_self] at atK
        rw [Function.update_of_ne jFilled] at atJ
        cases atK
        exact absurd (represents.mem_iff.mpr ⟨j, jInside, w, atJ⟩) absent
      · rw [Function.update_of_ne jFilled] at atJ
        rw [Function.update_of_ne kFilled] at atK
        exact represents.distinct j jInside k kInside other w x atJ atK
  lookup := by
    intro other w
    by_cases same : other = key
    · subst same
      rw [Finmap.lookup_insert]
      constructor
      · intro found
        cases found
        exact ⟨i, inside, Function.update_self ..⟩
      · rintro ⟨j, jInside, atJ⟩
        by_cases filled : j = i
        · subst filled
          rw [Function.update_self] at atJ
          cases atJ
          rfl
        · rw [Function.update_of_ne filled] at atJ
          exact absurd (represents.mem_iff.mpr ⟨j, jInside, w, atJ⟩) absent
    · rw [Finmap.lookup_insert_of_ne m same, represents.lookup]
      constructor
      · rintro ⟨j, jInside, atJ⟩
        refine ⟨j, jInside, ?_⟩
        rwa [Function.update_of_ne]
        rintro rfl
        rw [free] at atJ
        cases atJ
      · rintro ⟨j, jInside, atJ⟩
        by_cases filled : j = i
        · subst filled
          rw [Function.update_self] at atJ
          cases atJ
          exact absurd rfl same
        · rw [Function.update_of_ne filled] at atJ
          exact ⟨j, jInside, atJ⟩

/-- A slot that becomes free takes its key out of the map. -/
theorem release (represents : Represents slots slot m) (inside : i ∈ slots)
    (atI : slot i = some (key, v)) :
    Represents slots (Function.update slot i none) (m.erase key) where
  distinct := by
    intro j jInside k kInside other w x atJ atK
    have jKept : j ≠ i := by
      rintro rfl
      rw [Function.update_self] at atJ
      cases atJ
    have kKept : k ≠ i := by
      rintro rfl
      rw [Function.update_self] at atK
      cases atK
    rw [Function.update_of_ne jKept] at atJ
    rw [Function.update_of_ne kKept] at atK
    exact represents.distinct j jInside k kInside other w x atJ atK
  lookup := by
    intro other w
    by_cases same : other = key
    · subst same
      rw [Finmap.lookup_erase]
      constructor
      · intro none
        cases none
      · rintro ⟨j, jInside, atJ⟩
        by_cases freed : j = i
        · subst freed
          rw [Function.update_self] at atJ
          cases atJ
        · rw [Function.update_of_ne freed] at atJ
          exact absurd (represents.distinct j jInside i inside _ _ _ atJ atI) freed
    · rw [Finmap.lookup_erase_ne same, represents.lookup]
      constructor
      · rintro ⟨j, jInside, atJ⟩
        refine ⟨j, jInside, ?_⟩
        rwa [Function.update_of_ne]
        rintro rfl
        rw [atI] at atJ
        cases atJ
        exact absurd rfl same
      · rintro ⟨j, jInside, atJ⟩
        by_cases freed : j = i
        · subst freed
          rw [Function.update_self] at atJ
          cases atJ
        · rw [Function.update_of_ne freed] at atJ
          exact ⟨j, jInside, atJ⟩

end

/-- There are as many keys as slots that are not free. -/
theorem card_eq (represents : Represents slots slot m) :
    m.keys.card = (slots.filter fun i => (slot i).isSome).card := by
  symm
  have held {i : ι} (mem : i ∈ slots.filter fun i => (slot i).isSome) :
      i ∈ slots ∧ ∃ entry, slot i = some entry := by
    rw [Finset.mem_filter] at mem
    exact ⟨mem.1, Option.isSome_iff_exists.mp mem.2⟩
  refine Finset.card_bij
    (fun i mem => ((slot i).get (Finset.mem_filter.mp mem).2).1) ?_ ?_ ?_
  · intro i mem
    obtain ⟨inside, entry, atI⟩ := held mem
    simp only [atI, Option.get_some, Finmap.mem_keys]
    exact represents.mem_iff.mpr ⟨i, inside, entry.2, atI⟩
  · intro i mem j mem' same
    obtain ⟨inside, entry, atI⟩ := held mem
    obtain ⟨inside', entry', atJ⟩ := held mem'
    simp only [atI, atJ, Option.get_some] at same
    refine represents.distinct i inside j inside' entry.1 entry.2 entry'.2 atI ?_
    rw [same]
    exact atJ
  · intro key mem
    obtain ⟨i, inside, v, atI⟩ := represents.mem_iff.mp (Finmap.mem_keys.mp mem)
    refine ⟨i, Finset.mem_filter.mpr ⟨inside, by rw [atI]; rfl⟩, ?_⟩
    simp only [atI, Option.get_some]

/-- A slot is free exactly as long as the map has fewer keys than there are
slots. -/
theorem room (represents : Represents slots slot m) :
    m.keys.card < slots.card ↔ ∃ i ∈ slots, slot i = none := by
  rw [represents.card_eq]
  constructor
  · intro few
    obtain ⟨i, inside, free⟩ := Finset.exists_mem_notMem_of_card_lt_card few
    refine ⟨i, inside, ?_⟩
    rw [Finset.mem_filter, not_and] at free
    exact Option.not_isSome_iff_eq_none.mp (free inside)
  · rintro ⟨i, inside, free⟩
    apply Finset.card_lt_card
    apply Finset.filter_ssubset.mpr
    exact ⟨i, inside, by rw [free]; exact Bool.false_ne_true⟩

end Represents

end Nachos.Lib
