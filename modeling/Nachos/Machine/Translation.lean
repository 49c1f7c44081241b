/-
Module: Nachos.Machine.Translation
Purpose: The simulated processor of machine.h, the translation of virtual
  addresses and the access to main memory of translate.cc, and the way into the
  kernel on an exception (machine.cc).
Trusted boundary: an `int` of the host has 32 bits in two's complement and
  wraps around; the array of a page table has `pageTableSize` entries.
Main exports: ExceptionType, TranslationEntry, Processor, Simulation, Handler,
  Processor.translate, Simulation.delayedLoad, Simulation.raiseException,
  Simulation.readMem, Simulation.writeMem, Intact, Access
-/
import Mathlib.Algebra.GroupWithZero.Nat
import Mathlib.Logic.Function.Basic
import Nachos.Lib.Memory
import Nachos.Machine.Interrupt

namespace Nachos

open Lib (Memory)

/-! ### Data model -/

/-- `PageSize`, `NumPhysPages` and `MemorySize` of machine.h. -/
abbrev pageSize : Nat := 128

abbrev numPhysPages : Nat := 32

abbrev memorySize : Nat := numPhysPages * pageSize

/-- `enum ExceptionType` of machine.h. -/
inductive ExceptionType where
  | noException
  | syscallException
  | pageFaultException
  | readOnlyException
  | busErrorException
  | addressErrorException
  | overflowException
  | illegalInstrException
deriving DecidableEq, Repr

/-- `class TranslationEntry`. -/
structure TranslationEntry where
  virtualPage : BitVec 32
  physicalPage : BitVec 32
  valid : Bool
  readOnly : Bool
  use : Bool
  dirty : Bool
deriving DecidableEq, Repr

/-- The numbers of the registers that have a name in machine.h. -/
abbrev stackReg : BitVec 32 := 29

abbrev retAddrReg : BitVec 32 := 31

abbrev hiReg : BitVec 32 := 32

abbrev loReg : BitVec 32 := 33

abbrev pcReg : BitVec 32 := 34

abbrev nextPCReg : BitVec 32 := 35

abbrev prevPCReg : BitVec 32 := 36

abbrev loadReg : BitVec 32 := 37

abbrev loadValueReg : BitVec 32 := 38

abbrev badVAddrReg : BitVec 32 := 39

/-- `NumTotalRegs` of machine.h. -/
abbrev numTotalRegs : Nat := 40

/-- `class Machine`.  An index of `registers` is any `int`; the words beyond
`numTotalRegs` are what the host has next to the array. -/
structure Processor where
  registers : BitVec 32 → BitVec 32
  mainMemory : Memory
  tlb : Option (List TranslationEntry)
  pageTable : Option (List TranslationEntry)
  lastUsed : Nat → Int
  /-- `stats->totalTicks` -/
  totalTicks : Int
  /-- the status of `interrupt` -/
  status : MachineStatus
  /-- whether the simulator was built with `HOST_IS_BIG_ENDIAN` -/
  hostIsBigEndian : Bool
  /-- the indices at which `DelayedLoad` has stored a value, newest first; no
  routine reads it -/
  loaded : List (BitVec 32)

/-- A call of `ExceptionHandler`, with the machine it finds. -/
structure Raised where
  which : ExceptionType
  badVAddr : BitVec 32
  entry : Processor

/-- The machine and the exceptions that it has raised, newest first; no routine
reads the latter. -/
structure Simulation extends Processor where
  raised : List Raised

/-- Why a routine of the machine does not return. -/
inductive Stop where
  /-- the kernel has called `interrupt->Halt` -/
  | halted
  /-- an `ASSERT` has failed -/
  | aborted
  /-- the host has trapped an arithmetic operation -/
  | trapped
deriving DecidableEq, Repr

/-- How a routine of the machine ends. -/
inductive Ending (α : Type) where
  | returns (value : α) (s : Simulation)
  | stops (why : Stop) (s : Simulation)

/-- Go on with `next` where a routine returns. -/
def Ending.andThen {α β : Type} (e : Ending α) (next : α → Simulation → Ending β) : Ending β :=
  match e with
  | .returns value s => next value s
  | .stops why s => .stops why s

/-- `ExceptionHandler`: the machine that it leaves, or `none` when it halts. -/
abbrev Handler := ExceptionType → Processor → Option Processor

/-! ### Entering the kernel -/

namespace Processor

/-- The assignment `registers[r] = v`. -/
def set (r v : BitVec 32) (m : Processor) : Processor :=
  { m with registers := Function.update m.registers r v }

/-- `Machine::DelayedLoad`. -/
def delayedLoad (nextReg nextValue : BitVec 32) (m : Processor) : Processor :=
  let target := m.registers loadReg
  let finished := m.set target (m.registers loadValueReg)
  { ((finished.set loadReg nextReg).set loadValueReg nextValue).set 0 0 with
    loaded := target :: m.loaded }

theorem set_registers (m : Processor) (r v i : BitVec 32) :
    (m.set r v).registers i = if i = r then v else m.registers i :=
  Function.update_apply _ _ _ _

theorem delayedLoad_registers (m : Processor) (nextReg nextValue i : BitVec 32) :
    (m.delayedLoad nextReg nextValue).registers i =
      if i = 0 then 0
      else if i = loadValueReg then nextValue
      else if i = loadReg then nextReg
      else if i = m.registers loadReg then m.registers loadValueReg
      else m.registers i := by
  simp only [delayedLoad, set_registers]

/-- `Machine::RaiseException` up to the call of `ExceptionHandler`. -/
def trapped (badVAddr : BitVec 32) (m : Processor) : Processor :=
  { (m.set badVAddrReg badVAddr).delayedLoad 0 0 with status := .systemMode }

end Processor

namespace Simulation

/-- The assignment `registers[r] = v`. -/
def set (r v : BitVec 32) (s : Simulation) : Simulation :=
  { s with toProcessor := s.toProcessor.set r v }

/-- `Machine::DelayedLoad`. -/
def delayedLoad (nextReg nextValue : BitVec 32) (s : Simulation) : Simulation :=
  { s with toProcessor := s.toProcessor.delayedLoad nextReg nextValue }

/-- The machine where `ExceptionHandler` is called. -/
def entering (which : ExceptionType) (badVAddr : BitVec 32) (s : Simulation) : Simulation where
  toProcessor := s.trapped badVAddr
  raised := ⟨which, badVAddr, s.trapped badVAddr⟩ :: s.raised

/-- `Machine::RaiseException`, followed by a `return` of `value`. -/
def raiseException {α : Type} (handler : Handler) (which : ExceptionType)
    (badVAddr : BitVec 32) (value : α) (s : Simulation) : Ending α :=
  match handler which (s.trapped badVAddr) with
  | none => .stops .halted (s.entering which badVAddr)
  | some m =>
      .returns value
        { m with
          status := .userMode
          raised := (s.entering which badVAddr).raised }

/-- After an exception nothing is done but to return. -/
theorem andThen_raiseException {α β : Type} (handler : Handler) (which : ExceptionType)
    (badVAddr : BitVec 32) (s : Simulation) {value : α} {result : β}
    {next : α → Simulation → Ending β} (returns : ∀ s, next value s = .returns result s) :
    (s.raiseException handler which badVAddr value).andThen next =
      s.raiseException handler which badVAddr result := by
  unfold raiseException
  cases handler which (s.trapped badVAddr) with
  | none => rfl
  | some m => exact returns _

/-- An exception never ends in success. -/
theorem raiseException_ne_some {α : Type} {handler : Handler} {which : ExceptionType}
    {badVAddr : BitVec 32} {s s' : Simulation} {result : α} :
    s.raiseException handler which badVAddr none ≠ Ending.returns (some result) s' := by
  unfold raiseException
  split
  · intro same
    cases same
  · intro same
    cases same

end Simulation

/-! ### Address translation -/

namespace Processor

/-- `Machine::Translate` once the entry is found, `store` putting it back into
its table: the exception, or the physical address; `none` when the last
assertion fails. -/
def translateBy (entry : TranslationEntry) (store : TranslationEntry → Processor)
    (offset size : Nat) (writing : Bool) :
    Option (Except ExceptionType (Nat × Processor)) :=
  if entry.readOnly ∧ writing then some (.error .readOnlyException)
  else if entry.physicalPage.toNat ≥ numPhysPages then some (.error .busErrorException)
  else
    let physAddr := entry.physicalPage.toNat * pageSize + offset
    if physAddr + size ≤ memorySize then
      some (.ok (physAddr, store { entry with use := true, dirty := entry.dirty || writing }))
    else none

/-- The condition under which `Machine::Translate` reports an alignment
error. -/
def misaligned (virtAddr : BitVec 32) (size : Nat) : Prop :=
  (size = 4 ∧ virtAddr &&& 3 ≠ 0) ∨ (size = 2 ∧ virtAddr &&& 1 ≠ 0)

instance (virtAddr : BitVec 32) (size : Nat) : Decidable (misaligned virtAddr size) :=
  inferInstanceAs (Decidable (_ ∨ _))

/-- `Machine::Translate`: the exception, or the physical address and the
machine with the bits of the entry set; `none` when an assertion fails. -/
def translate (virtAddr : BitVec 32) (size : Nat) (writing : Bool) (m : Processor) :
    Option (Except ExceptionType (Nat × Processor)) :=
  if misaligned virtAddr size then some (.error .addressErrorException)
  else
    let vpn := virtAddr.toNat / pageSize
    let offset := virtAddr.toNat % pageSize
    match m.tlb, m.pageTable with
    | none, some pageTable =>
        match pageTable[vpn]? with
        | none => some (.error .addressErrorException)
        | some entry =>
            if entry.valid then
              translateBy entry (fun e => { m with pageTable := some (pageTable.set vpn e) })
                offset size writing
            else some (.error .pageFaultException)
    | some tlb, none =>
        let i := tlb.findIdx fun e => e.valid && e.virtualPage.toNat == vpn
        match tlb[i]? with
        | none => some (.error .pageFaultException)
        | some entry =>
            translateBy entry (fun e => { m with tlb := some (tlb.set i e) })
              offset size writing
    | _, _ => none

/-! ### Main memory -/

/-- The bytes of a word and of a short in the opposite order. -/
def swapWord (word : BitVec 32) : BitVec 32 :=
  ((word >>> 24) &&& 0x000000ff) ||| ((word >>> 8) &&& 0x0000ff00) |||
    ((word <<< 8) &&& 0x00ff0000) ||| ((word <<< 24) &&& 0xff000000)

def swapShort (shortword : BitVec 16) : BitVec 16 :=
  ((shortword <<< 8) &&& 0xff00) ||| ((shortword >>> 8) &&& 0x00ff)

/-- `WordToHost` and `WordToMachine`. -/
def wordToHost (m : Processor) (word : BitVec 32) : BitVec 32 :=
  if m.hostIsBigEndian then swapWord word else word

/-- `ShortToHost` and `ShortToMachine`. -/
def shortToHost (m : Processor) (shortword : BitVec 16) : BitVec 16 :=
  if m.hostIsBigEndian then swapShort shortword else shortword

/-- How much byte `i` of a number of `count` bytes weighs for the host. -/
def lane (m : Processor) (count i : Nat) : Nat :=
  if m.hostIsBigEndian then count - 1 - i else i

/-- The number of `count` bytes that the host reads from main memory. -/
def hostLoad (m : Processor) (physAddr count : Nat) : Nat :=
  ((List.range count).map fun i : Nat =>
    (m.mainMemory (physAddr + i)).toNat * 256 ^ m.lane count i).sum

/-- Main memory after the host has stored a number of `count` bytes. -/
def hostStore (m : Processor) (physAddr count : Nat) (value : BitVec 32) : Memory :=
  fun i =>
    if (physAddr : Int) ≤ i ∧ i < physAddr + count then
      Memory.byteOf value (m.lane count (i - physAddr).toNat)
    else m.mainMemory i

/-- The time stamp that a successful access leaves. -/
def stamp (physAddr : Nat) (m : Processor) : Processor :=
  { m with lastUsed := Function.update m.lastUsed (physAddr / pageSize) m.totalTicks }

end Processor

namespace Simulation

/-- `Machine::ReadMem`: the value, or `none` for `FALSE`. -/
def readMem (handler : Handler) (addr : BitVec 32) (size : Nat) (s : Simulation) :
    Ending (Option (BitVec 32)) :=
  match s.translate addr size false with
  | none => .stops .aborted s
  | some (.error exception) => s.raiseException handler exception addr none
  | some (.ok (physAddr, m)) =>
      let read (value : BitVec 32) :=
        Ending.returns (some value) { s with toProcessor := m.stamp physAddr }
      match size with
      | 1 => read ((BitVec.ofNat 8 (m.hostLoad physAddr 1)).signExtend 32)
      | 2 => read ((m.shortToHost (BitVec.ofNat 16 (m.hostLoad physAddr 2))).setWidth 32)
      | 4 => read (m.wordToHost (BitVec.ofNat 32 (m.hostLoad physAddr 4)))
      | _ => .stops .aborted { s with toProcessor := m }

/-- `Machine::WriteMem`: `none` for `FALSE`. -/
def writeMem (handler : Handler) (addr : BitVec 32) (size : Nat) (value : BitVec 32)
    (s : Simulation) : Ending (Option Unit) :=
  match s.translate addr size true with
  | none => .stops .aborted s
  | some (.error exception) => s.raiseException handler exception addr none
  | some (.ok (physAddr, m)) =>
      let wrote (mainMemory : Memory) :=
        Ending.returns (some ())
          { s with toProcessor := { m with mainMemory := mainMemory }.stamp physAddr }
      match size with
      | 1 => wrote (m.hostStore physAddr 1 (value &&& 0xff))
      | 2 =>
          wrote (m.hostStore physAddr 2
            ((m.shortToHost ((value &&& 0xffff).setWidth 16)).setWidth 32))
      | 4 => wrote (m.hostStore physAddr 4 (m.wordToHost value))
      | _ => .stops .aborted { s with toProcessor := m }

end Simulation

/-! ### What an access to memory can do -/

/-- One of a TLB and a page table is there, and not both. -/
def Processor.Mapped (m : Processor) : Prop :=
  m.tlb.isSome ≠ m.pageTable.isSome

instance (m : Processor) : Decidable m.Mapped :=
  inferInstanceAs (Decidable (_ ≠ _))

/-- From `m` to `m'` no register has changed and no delayed load was done. -/
structure Kept (m m' : Processor) : Prop where
  registers : m'.registers = m.registers
  loaded : m'.loaded = m.loaded
  mapped : m'.Mapped ↔ m.Mapped

/-- From `m` to `m'` main memory has not changed either: only the bits of
translation entries and the time stamps have. -/
structure Intact (m m' : Processor) : Prop extends Kept m m' where
  mainMemory : m'.mainMemory = m.mainMemory

namespace Processor

variable {m m' : Processor} {virtAddr : BitVec 32} {size physAddr : Nat} {writing : Bool}

/-- What `translateBy` can give: an exception that is no system call, or the
entry put back with its bits set; its assertion fails only for an access across
the end of the page. -/
inductive TranslatedBy (store : TranslationEntry → Processor) (offset size : Nat) :
    Option (Except ExceptionType (Nat × Processor)) → Prop where
  | fault {which : ExceptionType} (noCall : which ≠ .syscallException) :
      TranslatedBy store offset size (some (.error which))
  | found (physAddr : Nat) (entry : TranslationEntry) :
      TranslatedBy store offset size (some (.ok (physAddr, store entry)))
  | crosses (outside : pageSize < offset + size) : TranslatedBy store offset size none

/-- What `Machine::Translate` can give: an exception that is no system call, or
a machine in which only the bits of an entry may be other; its assertions fail
only for an aligned access. -/
inductive Translated (m : Processor) (virtAddr : BitVec 32) (size : Nat) :
    Option (Except ExceptionType (Nat × Processor)) → Prop where
  | fault {which : ExceptionType} (noCall : which ≠ .syscallException) :
      Translated m virtAddr size (some (.error which))
  | found (physAddr : Nat) {m' : Processor} (intact : Intact m m') :
      Translated m virtAddr size (some (.ok (physAddr, m')))
  | aborts (aligned : ¬ misaligned virtAddr size)
      (cause : ¬ m.Mapped ∨ pageSize < virtAddr.toNat % pageSize + size) :
      Translated m virtAddr size none

theorem translatedBy (entry : TranslationEntry) (store : TranslationEntry → Processor)
    (offset size : Nat) (writing : Bool) :
    TranslatedBy store offset size (translateBy entry store offset size writing) := by
  unfold translateBy
  split
  · exact TranslatedBy.fault (by decide)
  · split
    · exact TranslatedBy.fault (by decide)
    · dsimp only
      split
      · exact TranslatedBy.found _ _
      · apply TranslatedBy.crosses
        simp only [numPhysPages, pageSize, memorySize] at *
        omega

theorem TranslatedBy.translated {store : TranslationEntry → Processor}
    {result : Option (Except ExceptionType (Nat × Processor))}
    (byEntry : TranslatedBy store (virtAddr.toNat % pageSize) size result)
    (aligned : ¬ misaligned virtAddr size) (intact : ∀ entry, Intact m (store entry)) :
    Translated m virtAddr size result := by
  cases byEntry with
  | fault noCall => exact Translated.fault noCall
  | found physAddr entry => exact Translated.found physAddr (intact entry)
  | crosses outside => exact Translated.aborts aligned (Or.inr outside)

theorem translated (m : Processor) (virtAddr : BitVec 32) (size : Nat) (writing : Bool) :
    Translated m virtAddr size (m.translate virtAddr size writing) := by
  unfold translate
  split
  · exact Translated.fault (by decide)
  · rename_i aligned
    dsimp only
    split
    · rename_i noTlb table
      split
      · exact Translated.fault (by decide)
      · split
        · apply (translatedBy _ _ _ _ _).translated aligned
          exact fun entry => ⟨⟨rfl, rfl, by simp [Mapped, noTlb, table]⟩, rfl⟩
        · exact Translated.fault (by decide)
    · rename_i tlb noTable
      split
      · exact Translated.fault (by decide)
      · apply (translatedBy _ _ _ _ _).translated aligned
        exact fun entry => ⟨⟨rfl, rfl, by simp [Mapped, noTable, tlb]⟩, rfl⟩
    · rename_i notPageTable notTlb
      apply Translated.aborts aligned
      left
      intro mapped
      cases first : m.tlb with
      | none =>
          cases second : m.pageTable with
          | none => simp [Mapped, first, second] at mapped
          | some table => exact notPageTable table first second
      | some tlb =>
          cases second : m.pageTable with
          | none => exact notTlb tlb first second
          | some table => simp [Mapped, first, second] at mapped

/-- A successful translation changes nothing but the bits of an entry. -/
theorem intact_of_translate
    (ok : m.translate virtAddr size writing = some (.ok (physAddr, m'))) : Intact m m' := by
  have translated := m.translated virtAddr size writing
  rw [ok] at translated
  cases translated with
  | found physAddr intact => exact intact

/-- The sizes that the machine and the kernel ask for. -/
def AccessSize (size : Nat) : Prop :=
  size = 1 ∨ size = 2 ∨ size = 4

/-- An aligned access does not cross the end of its page. -/
theorem offset_add_le (known : AccessSize size) (aligned : ¬ misaligned virtAddr size) :
    virtAddr.toNat % pageSize + size ≤ pageSize := by
  have byFour : (virtAddr &&& 3).toNat = virtAddr.toNat % 4 := by
    rw [BitVec.toNat_and]
    exact Nat.and_two_pow_sub_one_eq_mod virtAddr.toNat 2
  have byTwo : (virtAddr &&& 1).toNat = virtAddr.toNat % 2 := by
    rw [BitVec.toNat_and]
    exact Nat.and_two_pow_sub_one_eq_mod virtAddr.toNat 1
  simp only [misaligned, ne_eq, not_or, not_and, not_not] at aligned
  rcases known with rfl | rfl | rfl
  · simp only [pageSize]
    omega
  · rw [aligned.2 rfl] at byTwo
    simp only [pageSize]
    simp at byTwo
    omega
  · rw [aligned.1 rfl] at byFour
    simp only [pageSize]
    simp at byFour
    omega

/-- The assertions of `Machine::Translate` hold as soon as one of a TLB and a
page table is there. -/
theorem translate_ne_none (mapped : m.Mapped) (known : AccessSize size) :
    m.translate virtAddr size writing ≠ none := by
  intro none
  have translated := m.translated virtAddr size writing
  rw [none] at translated
  cases translated with
  | aborts aligned cause =>
      have inside := offset_add_le known aligned
      rcases cause with unmapped | outside
      · exact unmapped mapped
      · omega

theorem translate_eq_none (unmapped : ¬ m.Mapped) (aligned : ¬ misaligned virtAddr size) :
    m.translate virtAddr size writing = none := by
  unfold translate
  rw [if_neg aligned]
  dsimp only
  split
  · rename_i first second
    simp [Mapped, first, second] at unmapped
  · rename_i first second
    simp [Mapped, first, second] at unmapped
  · rfl

theorem translate_misaligned (unaligned : misaligned virtAddr size) :
    m.translate virtAddr size writing = some (.error .addressErrorException) :=
  if_pos unaligned

/-- A failed translation is never reported as a system call. -/
theorem translate_ne_syscall :
    m.translate virtAddr size writing ≠ some (.error .syscallException) := by
  intro error
  have translated := m.translated virtAddr size writing
  rw [error] at translated
  cases translated with
  | fault noCall => exact noCall rfl

end Processor

/-- The ways in which `ReadMem` or `WriteMem` at `addr` can end: with a value
and a machine within `Frame`, by raising one exception that is no system call,
or on an assertion. -/
inductive Accessed (handler : Handler) (addr : BitVec 32) (s : Simulation)
    (Frame : Processor → Processor → Prop) {α : Type} : Ending (Option α) → Prop where
  | succeeds (value : α) {m : Processor} (frame : Frame s.toProcessor m) :
      Accessed handler addr s Frame (.returns (some value) { s with toProcessor := m })
  | raises {which : ExceptionType} (fault : which ≠ .syscallException) :
      Accessed handler addr s Frame (s.raiseException handler which addr none)
  | aborts (unmapped : ¬ s.Mapped) : Accessed handler addr s Frame (.stops .aborted s)

/-- An access that returns `TRUE` has stayed within the frame. -/
theorem Accessed.frame_of_returns {handler : Handler} {addr : BitVec 32} {s s' : Simulation}
    {Frame : Processor → Processor → Prop} {α : Type} {e : Ending (Option α)} {value : α}
    (accessed : Accessed handler addr s Frame e) (returned : e = .returns (some value) s') :
    Frame s.toProcessor s'.toProcessor := by
  cases accessed with
  | succeeds read frame =>
      cases returned
      exact frame
  | @raises which fault =>
      unfold Simulation.raiseException at returned
      cases answer : handler which (s.trapped addr) with
      | none => simp [answer] at returned
      | some m => simp [answer] at returned
  | aborts unmapped => cases returned

namespace Simulation

open Processor

variable (handler : Handler) (addr : BitVec 32) {size : Nat} (s : Simulation)

theorem accessed_readMem (known : AccessSize size) :
    Accessed handler addr s Intact (s.readMem handler addr size) := by
  unfold readMem
  split
  · rename_i none
    apply Accessed.aborts
    intro mapped
    exact translate_ne_none mapped known none
  · rename_i exception error
    apply Accessed.raises
    rintro rfl
    exact translate_ne_syscall error
  · rename_i physAddr m ok
    have intact := intact_of_translate ok
    have stamped : Intact s.toProcessor (m.stamp physAddr) :=
      ⟨⟨intact.registers, intact.loaded, intact.mapped⟩, intact.mainMemory⟩
    rcases known with rfl | rfl | rfl
    · exact Accessed.succeeds _ stamped
    · exact Accessed.succeeds _ stamped
    · exact Accessed.succeeds _ stamped

theorem accessed_writeMem (value : BitVec 32) (known : AccessSize size) :
    Accessed handler addr s Kept (s.writeMem handler addr size value) := by
  unfold writeMem
  split
  · rename_i none
    apply Accessed.aborts
    intro mapped
    exact translate_ne_none mapped known none
  · rename_i exception error
    apply Accessed.raises
    rintro rfl
    exact translate_ne_syscall error
  · rename_i physAddr m ok
    have intact := intact_of_translate ok
    have kept (mainMemory : Memory) :
        Kept s.toProcessor ({ m with mainMemory := mainMemory }.stamp physAddr) :=
      ⟨intact.registers, intact.loaded, intact.mapped⟩
    rcases known with rfl | rfl | rfl
    · exact Accessed.succeeds _ (kept _)
    · exact Accessed.succeeds _ (kept _)
    · exact Accessed.succeeds _ (kept _)

end Simulation

end Nachos
