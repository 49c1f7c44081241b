/-
Module: Nachos.UserProg.SlotRaces
Purpose: Threads that call `Table::Put`, `Get` and `Remove` at once.  `Put`
  takes a slot under the lock and fills it after the lock is released, `Get`
  takes no lock, and the constructor leaves in the slots what the heap held.
Trusted boundary: none; the critical sections are atomic steps
Main exports: SlotRaces, slotRaces, SlotRaces.Undisturbed, SlotRaces.Sound,
  slots_lawful, SlotRaces.put_alone, SlotRaces.get_alone
-/
import Mathlib.Data.Fintype.Option
import Nachos.Lib.Slots
import Nachos.UserProg.Table

namespace Nachos

open Lib

namespace Table

variable {F : Type}

/-- The critical section of `Put`: the slot that `map.Find` gives and marks. -/
def take (t : Table F) : Int × Table F :=
  let found := t.map.find
  (found.1, { t with map := found.2 })

/-- What `Put` does after it: `table[i] = f`. -/
def fill (i : Int) (f : Option F) (t : Table F) : Table F :=
  { t with table := Function.update t.table i f }

theorem put_eq (f : Option F) (t : Table F) :
    t.put f = if t.take.1 ≠ -1 then (t.take.1, t.take.2.fill t.take.1 f) else t.take := rfl

/-- `Put` takes a slot whose bit was clear, or there is none. -/
theorem take_cases (t : Table F) :
    t.take = (-1, t) ∨
      ∃ i, 0 ≤ i ∧ i < t.map.numBits ∧ t.map.test i = false ∧
        t.take = (i, { t with map := t.map.mark i }) := by
  unfold take
  rcases t.map.find_cases with ⟨found, -⟩ | ⟨i, found, low, high, isClear⟩
  · left
    rw [found]
  · right
    rw [found]
    exact ⟨i, low, high, isClear, rfl⟩

/-- `Remove` empties a slot whose bit is marked, or changes nothing. -/
theorem remove_cases (i : Int) (t : Table F) :
    (0 ≤ i ∧ i < t.size ∧ t.map.test i = true ∧
        t.remove i =
          (t.table i, { t with map := t.map.clear i, table := Function.update t.table i none })) ∨
      (¬ (0 ≤ i ∧ i < t.size ∧ t.map.test i = true) ∧ t.remove i = (none, t)) := by
  unfold remove
  by_cases inside : 0 ≤ i ∧ i < t.size
  · rw [if_pos inside]
    by_cases marked : t.map.test i = true
    · rw [if_pos marked]
      exact .inl ⟨inside.1, inside.2, marked, rfl⟩
    · rw [if_neg marked]
      exact .inr ⟨fun all => marked all.2.2, rfl⟩
  · rw [if_neg inside]
    exact .inr ⟨fun all => inside ⟨all.1, all.2.1⟩, rfl⟩

end Table

/-! ### Threads in the table's calls -/

/-- Where a thread is in a call. -/
inductive SlotPc (F : Type) where
  | idle
  /-- in `Put`, before its critical section -/
  | putting (f : Option F)
  /-- in `Put`, before `table[i] = f` -/
  | filling (i : Int) (f : Option F)
  /-- in `Put`, before `return i` -/
  | returning (i : Int) (f : Option F)
  /-- in `Get`, before the test -/
  | getting (i : Int)
  /-- in `Get`, before `table[i]` is read -/
  | reading (i : Int)
  /-- in `Remove`, before its critical section -/
  | removing (i : Int)
deriving DecidableEq

/-- A `Put` has taken the slot and has not returned. -/
def SlotPc.Waits {F : Type} (p : SlotPc F) (i : Int) (f : Option F) : Prop :=
  p = .filling i f ∨ p = .returning i f

/-- Threads that use one table, and what has happened to its slots, newest
first. -/
structure SlotRaces (T F : Type) where
  table : Table F
  pc : T → SlotPc F
  log : List (SlotEvent Int F)

/-- A thread calls, or goes on to its next step. -/
inductive SlotAction (T F : Type) where
  | callPut (t : T) (f : Option F)
  | callGet (t : T) (i : Int)
  | callRemove (t : T) (i : Int)
  | go (t : T)

namespace SlotRaces

variable {T F : Type} [DecidableEq T]

def setPc (t : T) (p : SlotPc F) (s : SlotRaces T F) : SlotRaces T F :=
  { s with pc := Function.update s.pc t p }

/-- An operation is entered in the log where it takes effect: a `Put` where it
takes its slot, and again where it returns, a `Get` where it tests the bit or
reads the entry, a `Remove` in its critical section. -/
def record (event : SlotEvent Int F) (s : SlotRaces T F) : SlotRaces T F :=
  { s with log := event :: s.log }

/-- The next step of a thread. -/
def go (t : T) (s : SlotRaces T F) : Option (SlotRaces T F) :=
  match s.pc t with
  | .idle => none
  | .putting f =>
      let taken := s.table.take
      if taken.1 ≠ -1 then
        some (({ s with table := taken.2 }.record (.took taken.1 f)).setPc t
          (.filling taken.1 f))
      else some ({ s with table := taken.2 }.setPc t .idle)
  | .filling i f => some ({ s with table := s.table.fill i f }.setPc t (.returning i f))
  | .returning i f => some ((s.record (.returned i f)).setPc t .idle)
  | .getting i =>
      if 0 ≤ i ∧ i < s.table.size ∧ s.table.map.test i = true then some (s.setPc t (.reading i))
      else some ((s.record (.got i none)).setPc t .idle)
  | .reading i => some ((s.record (.got i (s.table.table i))).setPc t .idle)
  | .removing i =>
      let removed := s.table.remove i
      some (({ s with table := removed.2 }.record (.removed i removed.1)).setPc t .idle)

/-- A call starts. -/
def call (t : T) (p : SlotPc F) (s : SlotRaces T F) : Option (SlotRaces T F) :=
  match s.pc t with
  | .idle => some (s.setPc t p)
  | _ => none

def step (s : SlotRaces T F) : SlotAction T F → Option (SlotRaces T F)
  | .callPut t f => s.call t (.putting f)
  | .callGet t i => s.call t (.getting i)
  | .callRemove t i => s.call t (.removing i)
  | .go t => s.go t

/-- A new table, and nobody in a call. -/
def start (size : Int) (bits : Int → BitVec 32) (heap : Int → Option F) : SlotRaces T F where
  table := .construct size bits heap
  pc := fun _ => .idle
  log := []

end SlotRaces

def slotRaces (T F : Type) [DecidableEq T] : Machine (SlotRaces T F) (SlotAction T F) :=
  ⟨SlotRaces.step⟩

namespace SlotRaces

/-! ### What goes wrong, and what keeps it away -/

/-- The callers get what they expect. -/
def Lawful {T F : Type} (s : SlotRaces T F) : Prop := Lib.Lawful s.log

/-- No `Remove` of a slot comes between the moment when a `Put` takes it and
the return of the `Put`, and a `Get` that reads the slot before it is filled
finds a null pointer there. -/
def Admits {T F : Type} (s : SlotRaces T F) : SlotPc F → Prop
  | .removing i => ∀ u f, ¬ (s.pc u).Waits i f
  | .reading i => (∃ u f, s.pc u = .filling i f) → s.table.table i = none
  | _ => True

def Undisturbed {T F : Type} (s : SlotRaces T F) : SlotAction T F → Prop
  | .go t => s.Admits (s.pc t)
  | _ => True

variable {T F : Type} {size : Int} {s s' : SlotRaces T F}

/-- The slot has been taken and nobody is about to fill it. -/
def Filled (s : SlotRaces T F) (i : Int) : Prop := ∀ u f, s.pc u ≠ .filling i f

/-- The bit and the entry of a slot are those of what occupies it. -/
def Slot (size : Int) (s : SlotRaces T F) (i : Int) : Prop :=
  match occupant i s.log with
  | .untouched => 0 ≤ i → i < size → s.table.map.test i = false
  | .free => 0 ≤ i ∧ i < size ∧ s.table.map.test i = false ∧ s.table.table i = none
  | .taken f => 0 ≤ i ∧ i < size ∧ s.table.map.test i = true ∧
      (s.Filled i → s.table.table i = f)
  | .settled f => 0 ≤ i ∧ i < size ∧ s.table.map.test i = true ∧ s.table.table i = f

structure Sound (size : Int) (s : SlotRaces T F) : Prop where
  numBits : s.table.map.numBits = size
  sizes : s.table.size = size
  fitting : Fitting s.log
  slots : ∀ i, s.Slot size i
  waits : ∀ t i f, (s.pc t).Waits i f → occupant i s.log = .taken f
  owned : ∀ i f, occupant i s.log = .taken f → ∃ t, (s.pc t).Waits i f
  alone : ∀ t u i f g, (s.pc t).Waits i f → (s.pc u).Waits i g → t = u
  readers : ∀ t i, s.pc t = .reading i → 0 ≤ i ∧ i < size ∧ occupant i s.log ≠ .untouched

/-- A slot that a step does not touch. -/
theorem Slot.congr (s' : SlotRaces T F) {i : Int} (slot : s.Slot size i)
    (occupied : occupant i s'.log = occupant i s.log)
    (bit : s'.table.map.test i = s.table.map.test i)
    (entry : s'.table.table i = s.table.table i) (filled : s'.Filled i → s.Filled i) :
    s'.Slot size i := by
  unfold Slot at slot ⊢
  rw [occupied, bit, entry]
  cases here : occupant i s.log with
  | untouched =>
      rw [here] at slot
      exact slot
  | free =>
      rw [here] at slot
      exact slot
  | taken f =>
      rw [here] at slot
      exact ⟨slot.1, slot.2.1, slot.2.2.1, fun now => slot.2.2.2 (filled now)⟩
  | settled f =>
      rw [here] at slot
      exact slot

/-- The bit of a slot is marked exactly when it is occupied. -/
theorem Sound.occupied_iff (sound : Sound size s) {i : Int} (low : 0 ≤ i) (high : i < size) :
    s.table.map.test i = true ↔
      ∃ f, occupant i s.log = .taken f ∨ occupant i s.log = .settled f := by
  have slot := sound.slots i
  unfold Slot at slot
  cases here : occupant i s.log with
  | untouched =>
      rw [here] at slot
      simp [slot low high]
  | free =>
      rw [here] at slot
      simp [slot.2.2.1]
  | taken f =>
      rw [here] at slot
      simp [slot.2.2.1]
  | settled f =>
      rw [here] at slot
      simp [slot.2.2.1]

/-- A `Get` that reads an entry. -/
theorem Sound.read_fits (sound : Sound size s) {i : Int} (touched : occupant i s.log ≠ .untouched)
    (undisturbed : (∃ u f, s.pc u = .filling i f) → s.table.table i = none) :
    SlotEvent.Fits s.log (.got i (s.table.table i)) := by
  have slot := sound.slots i
  unfold Slot at slot
  cases inside : occupant i s.log with
  | untouched => exact absurd inside touched
  | free =>
      simp only [inside] at slot
      simp only [SlotEvent.Fits, inside]
      exact slot.2.2.2
  | taken f =>
      simp only [inside] at slot
      simp only [SlotEvent.Fits, inside]
      by_cases filling : ∃ u g, s.pc u = .filling i g
      · exact .inl (undisturbed filling)
      · exact .inr (slot.2.2.2 fun u g fills => filling ⟨u, g, fills⟩)
  | settled f =>
      simp only [inside] at slot
      simp only [SlotEvent.Fits, inside]
      exact slot.2.2.2

/-- A slot whose test fails holds nothing. -/
theorem Sound.vacant (sound : Sound size s) {i : Int}
    (fails : ¬ (0 ≤ i ∧ i < size ∧ s.table.map.test i = true)) :
    occupant i s.log = .untouched ∨ occupant i s.log = .free := by
  have slot := sound.slots i
  unfold Slot at slot
  cases inside : occupant i s.log with
  | untouched => exact .inl rfl
  | free => exact .inr rfl
  | taken f =>
      simp only [inside] at slot
      exact absurd ⟨slot.1, slot.2.1, slot.2.2.1⟩ fails
  | settled f =>
      simp only [inside] at slot
      exact absurd ⟨slot.1, slot.2.1, slot.2.2.1⟩ fails

theorem sound_start (size : Int) (bits : Int → BitVec 32) (heap : Int → Option F) :
    Sound size (start (T := T) size bits heap) := by
  refine ⟨?_, rfl, trivial, ?_, by simp [start, SlotPc.Waits], by simp [start, occupant],
    by simp [start, SlotPc.Waits], by simp [start]⟩
  · rw [start, Table.construct]
    exact BitMap.construct_numBits size bits
  · intro i low high
    rw [start, Table.construct]
    exact BitMap.construct_test size bits low high

variable [DecidableEq T]

theorem setPc_self (s : SlotRaces T F) (t : T) (p : SlotPc F) : (s.setPc t p).pc t = p := by
  simp [setPc]

theorem setPc_of_ne {t u : T} (other : u ≠ t) (s : SlotRaces T F) (p : SlotPc F) :
    (s.setPc t p).pc u = s.pc u := by
  simp [setPc, other]

/-- A thread that fills no slot does not keep one from being filled. -/
theorem filled_of_setPc {t : T} {p : SlotPc F} {i : Int}
    (idle : ∀ f, s.pc t ≠ .filling i f) (filled : (s.setPc t p).Filled i) : s.Filled i := by
  intro u f fills
  by_cases same : u = t
  · exact idle f (same ▸ fills)
  · exact filled u f ((setPc_of_ne same s p).trans fills)

/-- A step that does not concern what is in the slots. -/
theorem Sound.quiet (sound : Sound size s) (t : T) (p : SlotPc F)
    (log : List (SlotEvent Int F)) (occupied : ∀ i, occupant i log = occupant i s.log)
    (fitting : Fitting log) (before : ∀ i f, ¬ (s.pc t).Waits i f)
    (after : ∀ i f, ¬ p.Waits i f)
    (reads : ∀ i, p = .reading i → 0 ≤ i ∧ i < size ∧ occupant i s.log ≠ .untouched) :
    Sound size ({ s with log := log }.setPc t p) := by
  have waits (u : T) (i : Int) (f : Option F) :
      (({ s with log := log }.setPc t p).pc u).Waits i f ↔ (s.pc u).Waits i f := by
    by_cases same : u = t
    · rw [same, setPc_self]
      exact iff_of_false (after i f) (before i f)
    · rw [setPc_of_ne same]
  refine ⟨sound.numBits, sound.sizes, fitting, ?_, ?_, ?_, ?_, ?_⟩
  · intro i
    refine (sound.slots i).congr ({ s with log := log }.setPc t p) (occupied i) rfl rfl ?_
    intro filled u f fills
    exact filled_of_setPc (s := { s with log := log })
      (fun g filling => before i g (.inl filling)) filled u f fills
  · intro u i f waiting
    exact (occupied i).trans (sound.waits u i f ((waits u i f).mp waiting))
  · intro i f taken
    obtain ⟨u, waiting⟩ := sound.owned i f ((occupied i).symm.trans taken)
    exact ⟨u, (waits u i f).mpr waiting⟩
  · intro u v i f g first second
    exact sound.alone u v i f g ((waits u i f).mp first) ((waits v i g).mp second)
  · intro u i reading
    have known : 0 ≤ i ∧ i < size ∧ occupant i s.log ≠ .untouched := by
      by_cases same : u = t
      · rw [same, setPc_self] at reading
        exact reads i reading
      · rw [setPc_of_ne same] at reading
        exact sound.readers u i reading
    exact ⟨known.1, known.2.1, fun untouched => known.2.2 ((occupied i).symm.trans untouched)⟩

/-- The readers after a step that makes a thread read nothing. -/
theorem Sound.readers_setPc (sound : Sound size s) (t : T) {p : SlotPc F}
    (notReading : ∀ i, p ≠ .reading i) (others : s'.pc = s.pc)
    (touched : ∀ i, occupant i s.log ≠ .untouched → occupant i s'.log ≠ .untouched) (u : T)
    (i : Int) (reading : (s'.setPc t p).pc u = .reading i) :
    0 ≤ i ∧ i < size ∧ occupant i (s'.setPc t p).log ≠ .untouched := by
  have other : u ≠ t := by
    rintro rfl
    rw [setPc_self] at reading
    exact notReading i reading
  rw [setPc_of_ne other, others] at reading
  obtain ⟨low, high, before⟩ := sound.readers u i reading
  exact ⟨low, high, touched i before⟩

/-- A `Put` takes a slot. -/
theorem Sound.take (sound : Sound size s) {t : T} {i : Int} {f : Option F}
    (here : s.pc t = .putting f) (low : 0 ≤ i) (high : i < size)
    (isClear : s.table.map.test i = false) :
    Sound size (({ s with table := { s.table with map := s.table.map.mark i } }.record
      (.took i f)).setPc t (.filling i f)) := by
  have empty := sound.vacant (i := i) (by simp [isClear])
  have notTaken (g : Option F) : occupant i s.log ≠ .taken g := by
    rcases empty with untouched | free
    · simp [untouched]
    · simp [free]
  have idle (j : Int) (g : Option F) : ¬ (s.pc t).Waits j g := by
    simp [SlotPc.Waits, here]
  have notWaiting (u : T) (g : Option F) : ¬ (s.pc u).Waits i g := fun waiting =>
    notTaken g (sound.waits u i g waiting)
  have elsewhere {j : Int} (other : j ≠ i) (u : T) (g : Option F) :
      (((s.record (.took i f)).setPc t (.filling i f)).pc u).Waits j g ↔
        (s.pc u).Waits j g := by
    by_cases same : u = t
    · rw [same, setPc_self]
      refine iff_of_false ?_ (idle j g)
      simp [SlotPc.Waits, other.symm]
    · rw [setPc_of_ne same]
      rfl
  refine ⟨sound.numBits, sound.sizes, ⟨empty, sound.fitting⟩, ?_, ?_, ?_, ?_, ?_⟩
  · intro j
    by_cases same : j = i
    · subst same
      simp only [Slot, record, setPc, occupant, ↓reduceIte]
      refine ⟨low, high, by simp [BitMap.test_mark], fun filled => ?_⟩
      exact absurd (Function.update_self t _ s.pc) (filled t f)
    · apply (sound.slots j).congr
      · exact if_neg (Ne.symm same)
      · simp [record, setPc, BitMap.test_mark, same]
      · rfl
      · exact filled_of_setPc fun g filling => idle j g (.inl filling)
  · intro u j g waiting
    by_cases same : j = i
    · subst same
      by_cases sameThread : u = t
      · rw [sameThread, setPc_self] at waiting
        obtain rfl : f = g := by simpa [SlotPc.Waits] using waiting
        exact if_pos rfl
      · rw [setPc_of_ne sameThread] at waiting
        exact absurd waiting (notWaiting u g)
    · exact (if_neg (Ne.symm same)).trans
        (sound.waits u j g ((elsewhere same u g).mp waiting))
  · intro j g taken
    by_cases same : j = i
    · subst same
      obtain rfl : f = g := by simpa [record, setPc, occupant] using taken
      exact ⟨t, .inl (setPc_self _ t _)⟩
    · obtain ⟨u, waiting⟩ := sound.owned j g ((if_neg (Ne.symm same)).symm.trans taken)
      exact ⟨u, (elsewhere same u g).mpr waiting⟩
  · intro u v j g k first second
    by_cases same : j = i
    · subst same
      have only {w : T} {m : Option F}
          (waiting : (((s.record (.took j f)).setPc t (.filling j f)).pc w).Waits j m) :
          w = t := by
        by_contra other
        rw [setPc_of_ne other] at waiting
        exact notWaiting w m waiting
      rw [only first, only second]
    · exact sound.alone u v j g k ((elsewhere same u g).mp first)
        ((elsewhere same v k).mp second)
  · exact sound.readers_setPc t (by simp) rfl fun j => touched_cons _

/-- A `Put` fills its slot. -/
theorem Sound.fill (sound : Sound size s) {t : T} {i : Int} {f : Option F}
    (here : s.pc t = .filling i f) :
    Sound size ({ s with table := s.table.fill i f }.setPc t (.returning i f)) := by
  have taken := sound.waits t i f (.inl here)
  have waits (u : T) (j : Int) (g : Option F) :
      (({ s with table := s.table.fill i f }.setPc t (.returning i f)).pc u).Waits j g ↔
        (s.pc u).Waits j g := by
    by_cases same : u = t
    · rw [same, setPc_self, here]
      simp [SlotPc.Waits]
    · rw [setPc_of_ne same]
  refine ⟨sound.numBits, sound.sizes, sound.fitting, ?_, ?_, ?_, ?_, ?_⟩
  · intro j
    by_cases same : j = i
    · subst same
      have slot := sound.slots j
      simp only [Slot, taken] at slot
      simp only [Slot, setPc, taken]
      refine ⟨slot.1, slot.2.1, slot.2.2.1, fun _ => ?_⟩
      simp [Table.fill]
    · refine (sound.slots j).congr
        ({ s with table := s.table.fill i f }.setPc t (.returning i f)) rfl rfl ?_ ?_
      · simp [setPc, Table.fill, same]
      · intro filled u g fills
        by_cases sameThread : u = t
        · rw [sameThread, here] at fills
          cases fills
          exact same rfl
        · exact filled u g ((setPc_of_ne sameThread _ _).trans fills)
  · exact fun u j g waiting => sound.waits u j g ((waits u j g).mp waiting)
  · intro j g occupied
    obtain ⟨u, waiting⟩ := sound.owned j g occupied
    exact ⟨u, (waits u j g).mpr waiting⟩
  · intro u v j g k first second
    exact sound.alone u v j g k ((waits u j g).mp first) ((waits v j k).mp second)
  · exact sound.readers_setPc t (by simp) rfl fun j before => before

/-- A `Put` returns its slot. -/
theorem Sound.returned (sound : Sound size s) {t : T} {i : Int} {f : Option F}
    (here : s.pc t = .returning i f) :
    Sound size ((s.record (.returned i f)).setPc t .idle) := by
  have taken := sound.waits t i f (.inr here)
  have waits {u : T} {j : Int} {g : Option F}
      (waiting : (((s.record (.returned i f)).setPc t .idle).pc u).Waits j g) :
      j ≠ i ∧ (s.pc u).Waits j g := by
    by_cases same : u = t
    · rw [same, setPc_self] at waiting
      simp [SlotPc.Waits] at waiting
    · rw [setPc_of_ne same] at waiting
      refine ⟨?_, waiting⟩
      rintro rfl
      exact same (sound.alone u t j g f waiting (.inr here))
  refine ⟨sound.numBits, sound.sizes, ⟨taken, sound.fitting⟩, ?_, ?_, ?_, ?_, ?_⟩
  · intro j
    by_cases same : j = i
    · subst same
      have slot := sound.slots j
      simp only [Slot, taken] at slot
      simp only [Slot, record, setPc, occupant, ↓reduceIte]
      refine ⟨slot.1, slot.2.1, slot.2.2.1, slot.2.2.2 ?_⟩
      intro u g fills
      obtain rfl := sound.alone u t j g f (.inl fills) (.inr here)
      rw [here] at fills
      cases fills
    · refine (sound.slots j).congr ((s.record (.returned i f)).setPc t .idle)
        (if_neg (Ne.symm same)) rfl rfl ?_
      exact filled_of_setPc (s := s.record (.returned i f)) fun g fills => by
        have fills : s.pc t = .filling j g := fills
        rw [here] at fills
        cases fills
  · intro u j g waiting
    obtain ⟨other, before⟩ := waits waiting
    exact (if_neg other.symm).trans (sound.waits u j g before)
  · intro j g occupied
    have other : j ≠ i := by
      rintro rfl
      simp [record, setPc, occupant] at occupied
    obtain ⟨u, waiting⟩ := sound.owned j g ((if_neg other.symm).symm.trans occupied)
    refine ⟨u, ?_⟩
    have otherThread : u ≠ t := by
      rintro rfl
      rw [SlotPc.Waits, here] at waiting
      simp only [reduceCtorEq, SlotPc.returning.injEq, false_or] at waiting
      exact other waiting.1.symm
    rwa [setPc_of_ne otherThread]
  · intro u v j g k first second
    exact sound.alone u v j g k (waits first).2 (waits second).2
  · exact sound.readers_setPc t (by simp) rfl fun j => touched_cons _

/-- A `Remove` empties a slot for which no `Put` waits. -/
theorem Sound.removed (sound : Sound size s) {t : T} {i : Int}
    (here : s.pc t = .removing i) (low : 0 ≤ i) (high : i < size)
    (marked : s.table.map.test i = true) (unwaited : ∀ u f, ¬ (s.pc u).Waits i f) :
    Sound size (({ s with table := { s.table with
      map := s.table.map.clear i, table := Function.update s.table.table i none } }.record
      (.removed i (s.table.table i))).setPc t .idle) := by
  obtain ⟨f, settled⟩ : ∃ f, occupant i s.log = .settled f := by
    obtain ⟨f, taken | settled⟩ := (sound.occupied_iff low high).mp marked
    · obtain ⟨u, waiting⟩ := sound.owned i f taken
      exact absurd waiting (unwaited u f)
    · exact ⟨f, settled⟩
  have entry : s.table.table i = f := by
    have slot := sound.slots i
    simp only [Slot, settled] at slot
    exact slot.2.2.2
  have waits (u : T) (j : Int) (g : Option F) :
      (((s.record (.removed i (s.table.table i))).setPc t .idle).pc u).Waits j g ↔
        (s.pc u).Waits j g := by
    by_cases same : u = t
    · rw [same, setPc_self, here]
      simp [SlotPc.Waits]
    · rw [setPc_of_ne same]
      rfl
  refine ⟨sound.numBits, sound.sizes, ⟨.inl (by rw [entry, settled]), sound.fitting⟩,
    ?_, ?_, ?_, ?_, ?_⟩
  · intro j
    by_cases same : j = i
    · subst same
      simp only [Slot, record, setPc, occupant, ↓reduceIte, settled]
      exact ⟨low, high, by simp [BitMap.test_clear], by simp⟩
    · apply (sound.slots j).congr
      · exact if_neg (Ne.symm same)
      · simp [record, setPc, BitMap.test_clear, same]
      · simp [record, setPc, same]
      · exact filled_of_setPc fun g fills => by
          have fills : s.pc t = .filling j g := fills
          rw [here] at fills
          cases fills
  · intro u j g waiting
    have before := (waits u j g).mp waiting
    have other : j ≠ i := by
      rintro rfl
      exact unwaited u g before
    exact (if_neg other.symm).trans (sound.waits u j g before)
  · intro j g occupied
    have other : j ≠ i := by
      rintro rfl
      simp [record, setPc, occupant, settled] at occupied
    obtain ⟨u, waiting⟩ := sound.owned j g ((if_neg other.symm).symm.trans occupied)
    exact ⟨u, (waits u j g).mpr waiting⟩
  · intro u v j g k first second
    exact sound.alone u v j g k ((waits u j g).mp first) ((waits v j k).mp second)
  · exact sound.readers_setPc t (by simp) rfl fun j => touched_cons _

theorem Sound.go (sound : Sound size s) {t : T} (undisturbed : s.Undisturbed (.go t))
    (step : s.go t = some s') : Sound size s' := by
  unfold SlotRaces.go at step
  cases here : s.pc t with
  | idle => simp [here] at step
  | putting f =>
      simp only [here] at step
      have before (i : Int) (g : Option F) : ¬ (s.pc t).Waits i g := by
        simp [SlotPc.Waits, here]
      rcases s.table.take_cases with full | ⟨i, low, high, isClear, taken⟩
      · rw [full] at step
        cases step
        exact sound.quiet t .idle s.log (fun _ => rfl) sound.fitting before
          (by simp [SlotPc.Waits]) (by simp)
      · rw [taken, if_pos (by dsimp only; omega)] at step
        cases step
        exact sound.take here low (sound.numBits ▸ high) isClear
  | filling i f =>
      simp only [here, Option.some.injEq] at step
      subst step
      exact sound.fill here
  | returning i f =>
      simp only [here, Option.some.injEq] at step
      subst step
      exact sound.returned here
  | getting i =>
      simp only [here] at step
      have before (j : Int) (g : Option F) : ¬ (s.pc t).Waits j g := by
        simp [SlotPc.Waits, here]
      split at step
      · rename_i passes
        rw [sound.sizes] at passes
        cases step
        refine sound.quiet t (.reading i) s.log (fun _ => rfl) sound.fitting before
          (by simp [SlotPc.Waits]) ?_
        intro j same
        cases same
        refine ⟨passes.1, passes.2.1, fun untouched => ?_⟩
        obtain ⟨f, taken | settled⟩ := (sound.occupied_iff passes.1 passes.2.1).mp passes.2.2
        · simp [taken] at untouched
        · simp [settled] at untouched
      · rename_i fails
        rw [sound.sizes] at fails
        cases step
        refine sound.quiet t .idle (.got i none :: s.log) (fun _ => rfl)
          ⟨?_, sound.fitting⟩ before (by simp [SlotPc.Waits]) (by simp)
        rcases sound.vacant fails with untouched | free
        · simp [SlotEvent.Fits, untouched]
        · simp [SlotEvent.Fits, free]
  | reading i =>
      simp only [here, Option.some.injEq] at step
      subst step
      simp only [Undisturbed, Admits, here] at undisturbed
      have touched := (sound.readers t i here).2.2
      exact sound.quiet t .idle (.got i (s.table.table i) :: s.log) (fun _ => rfl)
        ⟨sound.read_fits touched undisturbed, sound.fitting⟩
        (by simp [SlotPc.Waits, here]) (by simp [SlotPc.Waits]) (by simp)
  | removing i =>
      simp only [here, Option.some.injEq] at step
      simp only [Undisturbed, Admits, here] at undisturbed
      rcases s.table.remove_cases i with ⟨low, high, marked, removed⟩ | ⟨fails, removed⟩
      · rw [removed] at step
        subst step
        exact sound.removed here low (sound.sizes ▸ high) marked undisturbed
      · rw [removed] at step
        rw [sound.sizes] at fails
        subst step
        have vacant := sound.vacant fails
        refine sound.quiet t .idle (.removed i none :: s.log) ?_
          ⟨.inr ⟨rfl, vacant⟩, sound.fitting⟩
          (by simp [SlotPc.Waits, here]) (by simp [SlotPc.Waits]) (by simp)
        intro j
        by_cases same : i = j
        · subst same
          rcases vacant with untouched | free
          · simp [occupant, untouched]
          · simp [occupant, free]
        · exact if_neg same

theorem Sound.call (sound : Sound size s) {t : T} {p : SlotPc F}
    (unwaiting : ∀ i f, ¬ p.Waits i f) (notReading : ∀ i, p ≠ .reading i)
    (step : s.call t p = some s') : Sound size s' := by
  unfold SlotRaces.call at step
  split at step
  · rename_i here
    cases step
    exact sound.quiet t p s.log (fun _ => rfl) sound.fitting (by simp [SlotPc.Waits, here])
      unwaiting fun i reading => absurd reading (notReading i)
  · cases step

/-- What one step preserves. -/
theorem Sound.step (sound : Sound size s) {action : SlotAction T F}
    (undisturbed : s.Undisturbed action) (step : s.step action = some s') : Sound size s' := by
  cases action with
  | callPut t f => exact sound.call (by simp [SlotPc.Waits]) (by simp) step
  | callGet t i => exact sound.call (by simp [SlotPc.Waits]) (by simp) step
  | callRemove t i => exact sound.call (by simp [SlotPc.Waits]) (by simp) step
  | go t => exact sound.go undisturbed step

/-! ### The calls one at a time -/

theorem setPc_idle {t : T} (idle : s.pc t = .idle) : Function.update s.pc t .idle = s.pc := by
  rw [← idle, Function.update_eq_self]

/-- A `Put` that nothing comes between is `Table::Put`. -/
theorem put_alone {t : T} (f : Option F) (idle : s.pc t = .idle) :
    ∃ n, (slotRaces T F).exec s (.callPut t f :: List.replicate n (.go t)) =
      some { s with
        table := (s.table.put f).2
        log := if (s.table.put f).1 = -1 then s.log else
          .returned (s.table.put f).1 f :: .took (s.table.put f).1 f :: s.log } := by
  by_cases found : s.table.take.1 = -1
  · refine ⟨1, ?_⟩
    simp [slotRaces, Machine.exec, SlotRaces.step, SlotRaces.call, SlotRaces.go, setPc, idle,
      setPc_idle idle, Table.put_eq, found]
  · refine ⟨3, ?_⟩
    simp [slotRaces, Machine.exec, SlotRaces.step, SlotRaces.call, SlotRaces.go, setPc, record,
      idle, setPc_idle idle, Table.put_eq, found]

/-- A `Get` that nothing comes between is `Table::Get`. -/
theorem get_alone {t : T} (i : Int) (idle : s.pc t = .idle) :
    ∃ n, (slotRaces T F).exec s (.callGet t i :: List.replicate n (.go t)) =
      some (s.record (.got i (s.table.get i))) := by
  by_cases passes : 0 ≤ i ∧ i < s.table.size ∧ s.table.map.test i = true
  · refine ⟨2, ?_⟩
    simp [slotRaces, Machine.exec, SlotRaces.step, SlotRaces.call, SlotRaces.go, setPc, record,
      idle, setPc_idle idle, Table.get, passes]
  · refine ⟨1, ?_⟩
    simp [slotRaces, Machine.exec, SlotRaces.step, SlotRaces.call, SlotRaces.go, setPc, record,
      idle, setPc_idle idle, Table.get, passes]

end SlotRaces

open SlotRaces

/-- In every run of threads in the calls of a table in which no `Remove` comes
between the taking of its slot and the return of a `Put`, and no `Get` reads
what a taken slot held before it is filled, the callers get what they expect. -/
theorem slots_lawful {T F : Type} [DecidableEq T] (size : Int) (bits : Int → BitVec 32)
    (heap : Int → Option F) (actions : List (SlotAction T F))
    (undisturbed : (slotRaces T F).Steps Undisturbed (start size bits heap) actions) :
    (slotRaces T F).Along SlotRaces.Lawful (start size bits heap) actions := by
  have along : (slotRaces T F).Along (Sound size) (start size bits heap) actions :=
    Machine.along_of_guarded
      (fun s action s' sound undisturbed step => Sound.step sound undisturbed step)
      (sound_start size bits heap) undisturbed
  exact along.mono fun s sound => sound.fitting.lawful

namespace SlotRaces

instance decidableWaits {F : Type} [DecidableEq F] (p : SlotPc F) (i : Int) (f : Option F) :
    Decidable (p.Waits i f) :=
  inferInstanceAs (Decidable (p = .filling i f ∨ p = .returning i f))

instance decidableAdmits {T F : Type} [Fintype T] [Fintype F] [DecidableEq F]
    (s : SlotRaces T F) : ∀ p, Decidable (s.Admits p)
  | .removing i => inferInstanceAs (Decidable (∀ u f, ¬ (s.pc u).Waits i f))
  | .reading i =>
      inferInstanceAs (Decidable ((∃ u f, s.pc u = .filling i f) → s.table.table i = none))
  | .idle => isTrue trivial
  | .putting _ => isTrue trivial
  | .filling _ _ => isTrue trivial
  | .returning _ _ => isTrue trivial
  | .getting _ => isTrue trivial

instance decidableUndisturbed {T F : Type} [Fintype T] [Fintype F] [DecidableEq F]
    (s : SlotRaces T F) : ∀ action, Decidable (s.Undisturbed action)
  | .go t => inferInstanceAs (Decidable (s.Admits (s.pc t)))
  | .callPut _ _ => isTrue trivial
  | .callGet _ _ => isTrue trivial
  | .callRemove _ _ => isTrue trivial

end SlotRaces

/-- A `Get` whose test comes before the slot is filled, and a `Remove` after
the `Put` has returned. -/
theorem slots_lawful_twoThreads :
    (slotRaces Bool Unit).Along SlotRaces.Lawful (start 2 (fun _ => 0) fun _ => none)
      [.callPut false (some ()), .go false, .callGet true 0, .go true, .go false, .go true,
        .go false, .callRemove true 0, .go true] :=
  slots_lawful 2 (fun _ => 0) (fun _ => none) _ (by decide +kernel)

/-- A `Remove` that overtakes the filling of a slot. -/
theorem slots_overtaken :
    ¬ ∀ (T F : Type) (_ : DecidableEq T) (size : Int) (bits : Int → BitVec 32)
        (heap : Int → Option F) (actions : List (SlotAction T F)),
      (slotRaces T F).Along SlotRaces.Lawful (start size bits heap) actions := by
  intro always
  obtain ⟨s, run, log⟩ : ∃ s, (slotRaces Bool Unit).exec (start 1 (fun _ => 0) fun _ => none)
      [.callPut false (some ()), .go false, .callRemove true 0, .go true, .go false, .go false,
        .callGet true 0, .go true] = some s ∧
      s.log = [.got 0 none, .returned 0 (some ()), .removed 0 none, .took 0 (some ())] :=
    ⟨_, rfl, by decide +kernel⟩
  have lawful := (always Bool Unit inferInstance 1 (fun _ => 0) (fun _ => none) _).finish run
  rw [SlotRaces.Lawful, log] at lawful
  have lost := lawful.1.2 (some ()) ⟨[], _, rfl, fun _ => List.not_mem_nil⟩
  cases lost

end Nachos
