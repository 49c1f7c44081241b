/-
Module: Nachos.UserProg.Table
Purpose: `class Table` of addrspace.cc as the table of open files of an address
  space, and the system calls Open and Close on it.  The ids of the console are
  kept from files only by the bits of two slots that hold nothing, and `Close`
  takes any id.
Trusted boundary: none
Main exports: Table, Table.get, Table.put, Table.remove, Descriptors,
  descriptors, Descriptors.OpensFresh, Descriptors.Reaches,
  Descriptors.ConsoleKept, opens_fresh_iff
-/
import Nachos.FileSys.BitMap
import Nachos.Lib.Transition

namespace Nachos

open Lib

/-! ### The table -/

/-- `class Table`; a pointer that is 0 is `none`. -/
structure Table (F : Type) where
  map : BitMap
  table : Int → Option F
  size : Int

namespace Table

variable {F : Type}

/-- `Table::Table`; `bits` and `heap` are what the new arrays held. -/
def construct (s : Int) (bits : Int → BitVec 32) (heap : Int → Option F) : Table F where
  map := .construct s bits
  table := heap
  size := s

/-- `Table::Get`. -/
def get (t : Table F) (i : Int) : Option F :=
  if 0 ≤ i ∧ i < t.size ∧ t.map.test i = true then t.table i else none

/-- `Table::Put`: the slot and the table. -/
def put (f : Option F) (t : Table F) : Int × Table F :=
  let found := t.map.find
  if found.1 ≠ -1 then
    (found.1, { t with map := found.2, table := Function.update t.table found.1 f })
  else (found.1, { t with map := found.2 })

/-- `Table::Remove`: the element and the table. -/
def remove (i : Int) (t : Table F) : Option F × Table F :=
  if 0 ≤ i ∧ i < t.size then
    if t.map.test i = true then
      (t.table i, { t with map := t.map.clear i, table := Function.update t.table i none })
    else (none, t)
  else (none, t)

variable {t : Table F}

/-- `Put` fills a slot whose bit was clear, or there is none. -/
theorem put_cases (f : Option F) (t : Table F) :
    (t.put f = (-1, t) ∧ ∀ j, 0 ≤ j → j < t.map.numBits → t.map.test j = true) ∨
      ∃ i, 0 ≤ i ∧ i < t.map.numBits ∧ t.map.test i = false ∧
        t.put f = (i, { t with map := t.map.mark i, table := Function.update t.table i f }) := by
  unfold put
  rcases t.map.find_cases with ⟨found, full⟩ | ⟨i, found, low, high, isClear⟩
  · left
    rw [found]
    exact ⟨if_neg (by simp), full⟩
  · right
    rw [found]
    exact ⟨i, low, high, isClear, if_pos (by dsimp only; omega)⟩

/-- `Put` takes the first slot whose bit is clear. -/
theorem put_of_first (f : Option F) {k : Int} (low : 0 ≤ k) (high : k < t.map.numBits)
    (isClear : t.map.test k = false) (before : ∀ j, 0 ≤ j → j < k → t.map.test j = true) :
    t.put f = (k, { t with map := t.map.mark k, table := Function.update t.table k f }) := by
  unfold put
  rw [BitMap.find_of_first low high isClear before]
  exact if_pos (by dsimp only; omega)

theorem put_sizes (f : Option F) (t : Table F) :
    (t.put f).2.map.numBits = t.map.numBits ∧ (t.put f).2.size = t.size := by
  rcases t.put_cases f with ⟨found, -⟩ | ⟨i, -, -, -, found⟩
  · rw [found]
    exact ⟨rfl, rfl⟩
  · rw [found]
    exact ⟨rfl, rfl⟩

/-- After `Remove` the bit is clear. -/
theorem remove_test {i : Int} (low : 0 ≤ i) (high : i < t.size) :
    (t.remove i).2.map.test i = false := by
  unfold remove
  rw [if_pos ⟨low, high⟩]
  split
  · dsimp only
    rw [BitMap.test_clear]
    simp
  · rename_i unmarked
    simpa using unmarked

end Table

/-! ### Open and Close -/

/-- `MaxOpenFiles` of addrspace.h. -/
abbrev maxOpenFiles : Int := 256

/-- `ConsoleInput` and `ConsoleOutput` of syscall.h as ids. -/
abbrev inputId : Int := 0

abbrev outputId : Int := 1

/-- The table of an address space, and the files that `Open` has returned an id
for which `Close` has not been called with that id since. -/
structure Descriptors (F : Type) where
  fileTable : Table F
  opened : Int → Option F

/-- The system calls; `found` is what `fileSystem->Open` gives for the name,
and nothing where the name cannot be read. -/
inductive DescriptorCall (F : Type) where
  | openFile (found : Option F)
  | closeFile (id : Int)

/-- Where the bytes of a `Write` go, or those of a `Read` come from. -/
inductive Target (F : Type) where
  | nowhere
  | terminal
  | file (f : F)
  | bad

namespace Descriptors

variable {F : Type}

/-- `Open_Syscall` after the name has been read: the id and the table. -/
def openSyscall (found : Option F) (fileTable : Table F) : Int × Table F :=
  match found with
  | some f => fileTable.put (some f)
  | none => (-1, fileTable)

/-- `Close_Syscall`. -/
def closeSyscall (fd : Int) (fileTable : Table F) : Table F :=
  (fileTable.remove fd).2

/-- The target of `Write_Syscall`. -/
def writeTarget (id : Int) (fileTable : Table F) : Target F :=
  if id = inputId then .nowhere
  else if id = outputId then .terminal
  else
    match fileTable.get id with
    | some f => .file f
    | none => .bad

/-- The source of `Read_Syscall`. -/
def readTarget (id : Int) (fileTable : Table F) : Target F :=
  if id = outputId then .nowhere
  else if id = inputId then .terminal
  else
    match fileTable.get id with
    | some f => .file f
    | none => .bad

/-- One system call. -/
def step (s : Descriptors F) : DescriptorCall F → Option (Descriptors F)
  | .openFile found =>
      let result := openSyscall found s.fileTable
      some
        { fileTable := result.2
          opened := if result.1 = -1 then s.opened
            else Function.update s.opened result.1 found }
  | .closeFile id =>
      some
        { fileTable := closeSyscall id s.fileTable
          opened := Function.update s.opened id none }

/-- The table that `AddrSpace::AddrSpace` leaves. -/
def start (bits : Int → BitVec 32) (heap : Int → Option F) : Descriptors F where
  fileTable := (((Table.construct maxOpenFiles bits heap).put none).2.put none).2
  opened := fun _ => none

/-- `Open` returns -1, or an id that is none of the console's and that is not
open. -/
def OpensFresh (s : Descriptors F) : DescriptorCall F → Prop
  | .openFile found =>
      let id := (openSyscall found s.fileTable).1
      id = -1 ∨ (id ≠ inputId ∧ id ≠ outputId ∧ s.opened id = none)
  | .closeFile _ => True

/-- An id that is open stands for its file. -/
def Reaches (s : Descriptors F) : Prop :=
  ∀ id f, s.opened id = some f →
    s.fileTable.get id = some f ∧ writeTarget id s.fileTable = .file f ∧
      readTarget id s.fileTable = .file f

/-- When `Open` finds its file, the bits of the two slots of the console are
still marked. -/
def ConsoleKept (s : Descriptors F) : DescriptorCall F → Prop
  | .openFile (some _) =>
      s.fileTable.map.test inputId = true ∧ s.fileTable.map.test outputId = true
  | _ => True

end Descriptors

/-- The system calls of one user program as a machine. -/
def descriptors (F : Type) : Machine (Descriptors F) (DescriptorCall F) where
  step := Descriptors.step

namespace Descriptors

variable {F : Type} {s s' : Descriptors F}

/-! ### What holds after any calls -/

/-- An id that is open has a marked slot that holds its file. -/
structure Consistent (s : Descriptors F) : Prop where
  numBits : s.fileTable.map.numBits = maxOpenFiles
  size : s.fileTable.size = maxOpenFiles
  holds : ∀ id f, s.opened id = some f → 0 ≤ id ∧ id < maxOpenFiles ∧
    s.fileTable.map.test id = true ∧ s.fileTable.table id = some f

theorem Consistent.get (consistent : Consistent s) {id : Int} {f : F}
    (isOpen : s.opened id = some f) : s.fileTable.get id = some f := by
  obtain ⟨low, high, marked, here⟩ := consistent.holds id f isOpen
  unfold Table.get
  rw [if_pos ⟨low, by rw [consistent.size]; exact high, marked⟩, here]

theorem consistent_start (bits : Int → BitVec 32) (heap : Int → Option F) :
    Consistent (start bits heap) where
  numBits := by
    simp only [start]
    rw [(Table.put_sizes _ _).1, (Table.put_sizes _ _).1]
    exact BitMap.construct_numBits _ _
  size := by
    simp only [start]
    rw [(Table.put_sizes _ _).2, (Table.put_sizes _ _).2]
    rfl
  holds := by
    intro id f isOpen
    cases isOpen

/-- What `Open` does: nothing, or a slot whose bit was clear gets the file. -/
theorem openFile_cases (found : Option F) (step : s.step (.openFile found) = some s') :
    (s' = s ∧ (openSyscall found s.fileTable).1 = -1 ∧
        (found = none ∨ ∀ j, 0 ≤ j → j < s.fileTable.map.numBits →
          s.fileTable.map.test j = true)) ∨
      ∃ f i, found = some f ∧ 0 ≤ i ∧ i < s.fileTable.map.numBits ∧
        s.fileTable.map.test i = false ∧ (openSyscall found s.fileTable).1 = i ∧
        s' =
          { fileTable := { s.fileTable with
              map := s.fileTable.map.mark i
              table := Function.update s.fileTable.table i (some f) }
            opened := Function.update s.opened i (some f) } := by
  cases found with
  | none =>
      left
      simp only [Descriptors.step, openSyscall, ↓reduceIte, Option.some.injEq] at step
      exact ⟨step.symm, rfl, .inl rfl⟩
  | some f =>
      rcases s.fileTable.put_cases (some f) with ⟨put, full⟩ | ⟨i, low, high, isClear, put⟩
      · left
        have call : openSyscall (some f) s.fileTable = (-1, s.fileTable) := put
        simp only [Descriptors.step, call, ↓reduceIte, Option.some.injEq] at step
        exact ⟨step.symm, by rw [call], .inr full⟩
      · right
        have call : openSyscall (some f) s.fileTable = (i, { s.fileTable with
            map := s.fileTable.map.mark i
            table := Function.update s.fileTable.table i (some f) }) := put
        have notNone : ¬ i = -1 := by omega
        simp only [Descriptors.step, call, if_neg notNone, Option.some.injEq] at step
        exact ⟨f, i, rfl, low, high, isClear, by rw [call], step.symm⟩

theorem Consistent.openFile (consistent : Consistent s) (found : Option F)
    (step : s.step (.openFile found) = some s') : Consistent s' := by
  rcases openFile_cases found step with ⟨rfl, -⟩ | ⟨f, i, -, low, high, -, -, rfl⟩
  · exact consistent
  · rw [consistent.numBits] at high
    refine ⟨consistent.numBits, consistent.size, ?_⟩
    intro id g isOpen
    dsimp only at isOpen ⊢
    rw [BitMap.test_mark]
    by_cases same : id = i
    · rw [same, Function.update_self] at isOpen
      rw [same, Function.update_self]
      exact ⟨low, high, by simp, isOpen⟩
    · rw [Function.update_of_ne same] at isOpen
      rw [Function.update_of_ne same]
      obtain ⟨idLow, idHigh, marked, here⟩ := consistent.holds id g isOpen
      exact ⟨idLow, idHigh, by simp [marked], here⟩

/-- An id that was not open need not be. -/
theorem Consistent.forget (consistent : Consistent s) (fd : Int) :
    Consistent { s with opened := Function.update s.opened fd none } := by
  refine ⟨consistent.numBits, consistent.size, ?_⟩
  intro id f isOpen
  dsimp only at isOpen ⊢
  by_cases same : id = fd
  · rw [same, Function.update_self] at isOpen
    cases isOpen
  · rw [Function.update_of_ne same] at isOpen
    exact consistent.holds id f isOpen

theorem Consistent.closeFile (consistent : Consistent s) (fd : Int)
    (step : s.step (.closeFile fd) = some s') : Consistent s' := by
  cases step
  unfold closeSyscall Table.remove
  split
  · split
    · refine ⟨consistent.numBits, consistent.size, ?_⟩
      intro id f isOpen
      dsimp only at isOpen ⊢
      by_cases same : id = fd
      · rw [same, Function.update_self] at isOpen
        cases isOpen
      · rw [Function.update_of_ne same] at isOpen
        rw [Function.update_of_ne same, BitMap.test_clear]
        obtain ⟨low, high, marked, here⟩ := consistent.holds id f isOpen
        exact ⟨low, high, by simp [marked, same], here⟩
    · exact consistent.forget fd
  · exact consistent.forget fd

theorem Consistent.step (consistent : Consistent s) (call : DescriptorCall F)
    (step : s.step call = some s') : Consistent s' := by
  cases call with
  | openFile found => exact consistent.openFile found step
  | closeFile id => exact consistent.closeFile id step

/-- `Open` takes the first slot, so that the bits of the console decide. -/
theorem Consistent.opensFresh_iff (consistent : Consistent s) (call : DescriptorCall F) :
    s.OpensFresh call ↔ s.ConsoleKept call := by
  cases call with
  | closeFile id => exact Iff.rfl
  | openFile found =>
      cases found with
      | none => exact iff_of_true (.inl rfl) trivial
      | some f =>
          have bits := consistent.numBits
          have taken (id : Int) (marked : s.fileTable.map.test id = false) :
              s.opened id = none := by
            cases isOpen : s.opened id with
            | none => rfl
            | some g =>
                have held := (consistent.holds id g isOpen).2.2.1
                rw [marked] at held
                cases held
          constructor
          · intro fresh
            by_contra lost
            by_cases first : s.fileTable.map.test inputId = true
            · have second : s.fileTable.map.test outputId = false := by
                rw [← Bool.not_eq_true]
                exact fun second => lost ⟨first, second⟩
              have put := Table.put_of_first (some f) (by decide) (by rw [bits]; decide) second
                (fun j low high => by
                  obtain rfl : j = inputId := by
                    simp only [outputId, inputId] at *
                    omega
                  exact first)
              have call : (openSyscall (some f) s.fileTable).1 = outputId := by
                simp only [openSyscall, put]
              rcases fresh with none | ⟨-, notOutput, -⟩
              · rw [call] at none
                cases none
              · exact notOutput call
            · rw [Bool.not_eq_true] at first
              have put := Table.put_of_first (some f) (by decide) (by rw [bits]; decide) first
                (fun j low high => by
                  simp only [inputId] at *
                  omega)
              have call : (openSyscall (some f) s.fileTable).1 = inputId := by
                simp only [openSyscall, put]
              rcases fresh with none | ⟨notInput, -, -⟩
              · rw [call] at none
                cases none
              · exact notInput call
          · rintro ⟨first, second⟩
            rcases s.fileTable.put_cases (some f) with
              ⟨put, -⟩ | ⟨i, low, high, isClear, put⟩
            · left
              simp only [openSyscall, put]
            · right
              have call : (openSyscall (some f) s.fileTable).1 = i := by
                simp only [openSyscall, put]
              rw [call]
              refine ⟨?_, ?_, taken i isClear⟩
              · rintro rfl
                rw [first] at isClear
                cases isClear
              · rintro rfl
                rw [second] at isClear
                cases isClear

/-- No file is open under an id of the console. -/
structure Apart (s : Descriptors F) : Prop extends Consistent s where
  input : s.opened inputId = none
  output : s.opened outputId = none

theorem Apart.reaches (apart : Apart s) : s.Reaches := by
  intro id f isOpen
  have here := apart.toConsistent.get isOpen
  have notInput : id ≠ inputId := by
    rintro rfl
    rw [apart.input] at isOpen
    cases isOpen
  have notOutput : id ≠ outputId := by
    rintro rfl
    rw [apart.output] at isOpen
    cases isOpen
  refine ⟨here, ?_, ?_⟩
  · unfold writeTarget
    rw [if_neg notInput, if_neg notOutput, here]
  · unfold readTarget
    rw [if_neg notOutput, if_neg notInput, here]

theorem Apart.step (apart : Apart s) {call : DescriptorCall F} (kept : s.ConsoleKept call)
    (step : s.step call = some s') : Apart s' := by
  have consistent := apart.toConsistent.step call step
  cases call with
  | closeFile fd =>
      cases step
      refine ⟨consistent, ?_, ?_⟩
      · dsimp only
        rw [Function.update_apply, apart.input, ite_self]
      · dsimp only
        rw [Function.update_apply, apart.output, ite_self]
  | openFile found =>
      have fresh := (apart.toConsistent.opensFresh_iff (.openFile found)).mpr kept
      rcases openFile_cases found step with ⟨rfl, -⟩ | ⟨f, i, -, low, -, -, answer, rfl⟩
      · exact apart
      · rcases fresh with none | ⟨notInput, notOutput, -⟩
        · rw [answer] at none
          omega
        · rw [answer] at notInput notOutput
          refine ⟨consistent, ?_, ?_⟩
          · dsimp only
            rw [Function.update_of_ne notInput.symm, apart.input]
          · dsimp only
            rw [Function.update_of_ne notOutput.symm, apart.output]

theorem exec_total (s : Descriptors F) (calls : List (DescriptorCall F)) :
    ∃ s', (descriptors F).exec s calls = some s' := by
  induction calls generalizing s with
  | nil => exact ⟨s, rfl⟩
  | cons call calls inductionHypothesis =>
      cases call with
      | openFile found =>
          obtain ⟨s', run⟩ := inductionHypothesis _
          exact ⟨s', (Machine.exec_cons_eq_some _).mpr ⟨_, rfl, run⟩⟩
      | closeFile fd =>
          obtain ⟨s', run⟩ := inductionHypothesis _
          exact ⟨s', (Machine.exec_cons_eq_some _).mpr ⟨_, rfl, run⟩⟩

end Descriptors

open Descriptors

/-- The ids that `Open` returns are fresh and stand for their files as long as
they are open exactly in the runs in which every `Open` that finds its file
finds the bits of the console marked. -/
theorem opens_fresh_iff {F : Type} (bits : Int → BitVec 32) (heap : Int → Option F)
    (calls : List (DescriptorCall F)) :
    ((descriptors F).Steps OpensFresh (start bits heap) calls ∧
        (descriptors F).Along Reaches (start bits heap) calls) ↔
      (descriptors F).Steps ConsoleKept (start bits heap) calls := by
  obtain ⟨s', run⟩ := exec_total (start bits heap) calls
  have agree : (descriptors F).Steps OpensFresh (start bits heap) calls ↔
      (descriptors F).Steps ConsoleKept (start bits heap) calls :=
    Machine.steps_congr_of_invariant
      (fun s call s' consistent step => Consistent.step consistent call step)
      (fun s call s' consistent _ => Consistent.opensFresh_iff consistent call)
      (consistent_start bits heap) run
  constructor
  · exact fun both => agree.mp both.1
  · intro kept
    refine ⟨agree.mpr kept, ?_⟩
    have apart : (descriptors F).Along Apart (start bits heap) calls :=
      Machine.along_of_guarded
        (fun s call s' apart kept step => Apart.step apart kept step)
        ⟨consistent_start bits heap, rfl, rfl⟩ kept
    exact apart.mono fun s apart => apart.reaches

/-- Wherever a program closes the id of the console's input, the next file that
it opens gets that id. -/
theorem Descriptors.Consistent.not_fresh {F : Type} {s : Descriptors F}
    (consistent : Consistent s) (f : F) :
    ¬ (descriptors F).Steps OpensFresh s [.closeFile inputId, .openFile (some f)] := by
  rintro ⟨-, later⟩
  obtain ⟨s', closed⟩ : ∃ s', s.step (.closeFile inputId) = some s' := ⟨_, rfl⟩
  have kept := ((consistent.step _ closed).opensFresh_iff _).mp (later s' closed).1
  have isClear : s'.fileTable.map.test inputId = false := by
    cases closed
    exact Table.remove_test (by decide) (by rw [consistent.size]; decide)
  rw [kept.1] at isClear
  cases isClear

/-- A program that closes id 0 and opens a file. -/
theorem open_after_close_input :
    ¬ ∀ (F : Type) (bits : Int → BitVec 32) (heap : Int → Option F)
        (calls : List (DescriptorCall F)),
      (descriptors F).Steps OpensFresh (start bits heap) calls ∧
        (descriptors F).Along Reaches (start bits heap) calls := by
  intro always
  have consistent := consistent_start (F := Unit) (fun _ => 0) fun _ => none
  exact consistent.not_fresh () (always Unit _ _ _).1

namespace Descriptors

variable {F : Type}

/-- Two calls of `Put` on an empty table mark the bits of the console. -/
theorem put_twice {t : Table F} (inside : outputId < t.map.numBits)
    (isClear : ∀ j, 0 ≤ j → j ≤ outputId → t.map.test j = false) :
    ((t.put none).2.put none).2.map.test inputId = true ∧
      ((t.put none).2.put none).2.map.test outputId = true := by
  simp only [outputId] at inside isClear
  have first := t.put_of_first none (k := 0) (by omega) (by omega)
    (isClear 0 (by omega) (by omega)) (fun j low high => by omega)
  rw [first]
  dsimp only
  have second := Table.put_of_first
    (t := { t with map := t.map.mark 0, table := Function.update t.table 0 none }) none (k := 1)
    (by omega) (by dsimp only [BitMap.mark_numBits]; exact inside)
    (by
      dsimp only
      rw [BitMap.test_mark, isClear 1 (by omega) (by omega)]
      decide)
    (fun j low high => by
      obtain rfl : j = 0 := by omega
      dsimp only
      rw [BitMap.test_mark]
      simp)
  rw [second]
  dsimp only
  rw [BitMap.test_mark, BitMap.test_mark, BitMap.test_mark, BitMap.test_mark]
  simp

/-- The bits of the console are marked to begin with. -/
theorem start_kept (bits : Int → BitVec 32) (heap : Int → Option F) :
    (start bits heap).fileTable.map.test inputId = true ∧
      (start bits heap).fileTable.map.test outputId = true := by
  apply put_twice
  · rw [Table.construct, BitMap.construct_numBits]
    decide
  · intro j low high
    have inside : j < maxOpenFiles := by
      simp only [outputId, maxOpenFiles] at *
      omega
    have isClear := BitMap.construct_test maxOpenFiles bits low inside
    rw [Table.construct]
    dsimp only
    rw [isClear]

/-- As long as the program closes neither of them, they stay so. -/
theorem consoleKept_of_unclosed (bits : Int → BitVec 32) (heap : Int → Option F)
    {calls : List (DescriptorCall F)}
    (unclosed : ∀ call ∈ calls, call ≠ .closeFile inputId ∧ call ≠ .closeFile outputId) :
    (descriptors F).Steps ConsoleKept (start bits heap) calls := by
  have marked := start_kept bits heap
  generalize start bits heap = s at marked
  induction calls generalizing s with
  | nil => trivial
  | cons call calls inductionHypothesis =>
      refine ⟨?_, ?_⟩
      · cases call with
        | closeFile fd => trivial
        | openFile found =>
            cases found with
            | none => trivial
            | some f => exact marked
      · intro s' step
        apply inductionHypothesis fun later member =>
          unclosed later (List.mem_cons_of_mem _ member)
        cases call with
        | closeFile fd =>
            obtain ⟨notInput, notOutput⟩ := unclosed _ List.mem_cons_self
            cases step
            unfold closeSyscall Table.remove
            split
            · split
              · dsimp only
                rw [BitMap.test_clear, BitMap.test_clear, marked.1, marked.2]
                constructor
                · simpa using fun same => notInput (by rw [← same])
                · simpa using fun same => notOutput (by rw [← same])
              · exact marked
            · exact marked
        | openFile found =>
            rcases openFile_cases found step with ⟨rfl, -⟩ | ⟨f, i, -, -, -, -, -, rfl⟩
            · exact marked
            · dsimp only
              rw [BitMap.test_mark, BitMap.test_mark, marked.1, marked.2]
              exact ⟨rfl, rfl⟩

end Descriptors

end Nachos
