/-
Module: Nachos.Machine.UserPrograms
Purpose: Runs of a user program: the registers that `AddrSpace::InitRegisters`
  sets up, the system calls of exception.cc as far as the machine sees them,
  and the interrupts between instructions.
Trusted boundary: what the file system and the terminal answer to a system call
  is arbitrary; the buffers of the kernel are large enough.
Main exports: Processor.initRegisters, Service, exceptionHandler, UserAction,
  userMachine, Orderly
-/
import Nachos.Lib.Transition
import Nachos.Machine.Exceptions

namespace Nachos

open Lib (Memory)
open Processor

/-! ### The kernel as the machine sees it -/

/-- `AddrSpace::InitRegisters` for an address space of `numPages` pages; the
record of delayed loads starts here. -/
def Processor.initRegisters (numPages : BitVec 32) (m : Processor) : Processor :=
  let cleared : Processor :=
    { m with
      registers := fun r => if r.toNat < numTotalRegs then 0 else m.registers r
      loaded := [] }
  ((cleared.set pcReg 0).set nextPCReg 4).set stackReg (numPages * 128 - 16)

/-- What the rest of the kernel does in a system call: the interrupts that it
takes, the result of opening a file, whether the file table has the id, and
what `OpenFile::Read` or the terminal delivers. -/
structure Service where
  interrupts : Nat
  opened : List UInt8 → BitVec 32
  found : Bool
  length : BitVec 32
  buf : Memory

/-- `CheckIfDue` calls `DelayedLoad(0, 0)` before each handler. -/
def Processor.interrupted : Nat → Processor → Processor
  | 0, m => m
  | n + 1, m => (m.delayedLoad 0 0).interrupted n

/-- How `ExceptionHandler` answers every exception but a system call; it is
also entered for the accesses that the kernel itself makes. -/
def unexpected : Handler :=
  fun _ _ => none

/-- The loop of `copyin` with `n` bytes to go: the bytes and the machine, or
`none` when the machine is halted.  As the handler does not return, a failed
`ReadMem` is not repeated. -/
def copyin : Nat → BitVec 32 → Processor → Option (List UInt8 × Processor)
  | 0, _, m => some ([], m)
  | n + 1, vaddr, m =>
      match Simulation.readMem unexpected vaddr 1 ⟨m, []⟩ with
      | .returns (some value) s =>
          (copyin n (vaddr + 1) s.toProcessor).map fun rest =>
            (Memory.byteOf value 0 :: rest.1, rest.2)
      | _ => none

/-- The loop of `copyout` with `n` bytes to go, `i` bytes being written. -/
def copyout (buf : Memory) : Nat → Int → BitVec 32 → Processor → Option Processor
  | 0, _, _, m => some m
  | n + 1, i, vaddr, m =>
      match Simulation.writeMem unexpected vaddr 1 ((buf i).toBitVec.signExtend 32) ⟨m, []⟩ with
      | .returns (some _) s => copyout buf n (i + 1) (vaddr + 1) s.toProcessor
      | _ => none

/-- The numbers of the system calls in syscall.h that the kernel serves. -/
abbrev scCreate : BitVec 32 := 4

abbrev scOpen : BitVec 32 := 5

abbrev scRead : BitVec 32 := 6

abbrev scWrite : BitVec 32 := 7

abbrev scClose : BitVec 32 := 8

abbrev consoleInput : BitVec 32 := 0

abbrev consoleOutput : BitVec 32 := 1

section SystemCalls

variable (service : Service)

/-- `Create_Syscall`. -/
def createSyscall (vaddr len : BitVec 32) (m : Processor) : Option Processor :=
  (copyin len.toInt.toNat vaddr m).map fun copied => copied.2.interrupted service.interrupts

/-- `Open_Syscall`: the id and the machine. -/
def openSyscall (vaddr len : BitVec 32) (m : Processor) : Option (BitVec 32 × Processor) :=
  (copyin len.toInt.toNat vaddr m).map fun copied =>
    (service.opened copied.1, copied.2.interrupted service.interrupts)

/-- `Write_Syscall`. -/
def writeSyscall (vaddr len id : BitVec 32) (m : Processor) : Option Processor :=
  if id = consoleInput then some m
  else (copyin len.toInt.toNat vaddr m).map fun copied => copied.2.interrupted service.interrupts

/-- `Read_Syscall`: the length and the machine. -/
def readSyscall (vaddr len id : BitVec 32) (m : Processor) : Option (BitVec 32 × Processor) :=
  if id = consoleOutput then some (-1, m)
  else if id = consoleInput then
    (copyout service.buf len.toInt.toNat 0 vaddr m).map fun m => (len, m)
  else if service.found then
    -- the loop of `copyout` does nothing for a length that is not positive
    (copyout service.buf service.length.toInt.toNat 0 vaddr
      (m.interrupted service.interrupts)).map fun m => (service.length, m)
  else some (-1, m)

/-- `Close_Syscall`. -/
def closeSyscall (m : Processor) : Processor :=
  m.interrupted service.interrupts

/-- The `switch` of `ExceptionHandler`: the return value and the machine. -/
def systemCall (m : Processor) : Option (BitVec 32 × Processor) :=
  let type := m.registers 2
  if type = scCreate then
    (createSyscall service (m.registers 4) (m.registers 5) m).map fun m => (0, m)
  else if type = scOpen then openSyscall service (m.registers 4) (m.registers 5) m
  else if type = scWrite then
    (writeSyscall service (m.registers 4) (m.registers 5) (m.registers 6) m).map fun m => (0, m)
  else if type = scRead then
    readSyscall service (m.registers 4) (m.registers 5) (m.registers 6) m
  else if type = scClose then some (0, closeSyscall service m)
  else none

/-- The end of a system call: the return value is put in and the program
counters move on. -/
def Processor.resume (rv : BitVec 32) (m : Processor) : Processor :=
  let m := m.set 2 rv
  let m := m.set prevPCReg (m.registers pcReg)
  let m := m.set pcReg (m.registers nextPCReg)
  m.set nextPCReg (m.registers pcReg + 4)

/-- `ExceptionHandler`. -/
def exceptionHandler : Handler :=
  fun which m =>
    if which = .syscallException then
      (systemCall service m).map fun result => result.2.resume result.1
    else none

/-- For a failed translation, which is never a system call, `ExceptionHandler`
does what `unexpected` does. -/
theorem raiseException_exceptionHandler {α : Type} {m : Processor} {virtAddr : BitVec 32}
    {size : Nat} {writing : Bool} {which : ExceptionType}
    (failed : m.translate virtAddr size writing = some (.error which)) (badVAddr : BitVec 32)
    (value : α) (s : Simulation) :
    s.raiseException (exceptionHandler service) which badVAddr value =
      s.raiseException unexpected which badVAddr value := by
  have fault : which ≠ .syscallException := by
    rintro rfl
    exact translate_ne_syscall failed
  simp only [Simulation.raiseException, exceptionHandler, unexpected, if_neg fault]

/-- `unexpected` is what `ExceptionHandler` does for an access of the kernel
that fails. -/
theorem readMem_exceptionHandler (addr : BitVec 32) (size : Nat) (s : Simulation) :
    s.readMem (exceptionHandler service) addr size = s.readMem unexpected addr size := by
  unfold Simulation.readMem
  cases translated : s.translate addr size false with
  | none => rfl
  | some result =>
      cases result with
      | ok place => rfl
      | error which => exact raiseException_exceptionHandler service translated addr none s

theorem writeMem_exceptionHandler (addr : BitVec 32) (size : Nat) (value : BitVec 32)
    (s : Simulation) :
    s.writeMem (exceptionHandler service) addr size value =
      s.writeMem unexpected addr size value := by
  unfold Simulation.writeMem
  cases translated : s.translate addr size true with
  | none => rfl
  | some result =>
      cases result with
      | ok place => rfl
      | error which => exact raiseException_exceptionHandler service translated addr none s

end SystemCalls

/-! ### Runs of a user program -/

/-- What happens to the machine in `Machine::Run`. -/
inductive UserAction where
  /-- `OneInstruction`, with what the kernel does if it is a system call -/
  | instruction (service : Service)
  /-- the clock in `OneTick` -/
  | tick
  /-- an interrupt that is due -/
  | interrupt

/-- Runs of a user program; a run ends where the machine is halted or the
simulator fails. -/
def userMachine : Lib.Machine Processor UserAction where
  step m
    | .instruction service =>
        match Simulation.oneInstruction (exceptionHandler service) ⟨m, []⟩ with
        | .returns _ s => some s.toProcessor
        | .stops _ _ => none
    | .tick => some { m with totalTicks := m.totalTicks + userTick }
    | .interrupt => some (m.delayedLoad 0 0)

/-! ### Register 0 and the delayed load -/

/-- Register 0 holds 0, every delayed load goes to a general purpose register,
and the words next to the array of registers are those of `start`. -/
structure Orderly (start m : Processor) : Prop where
  zero : m.registers 0 = 0
  pending : GeneralPurpose (m.registers loadReg)
  loaded : ∀ r ∈ m.loaded, GeneralPurpose r
  outside : ∀ r : BitVec 32, numTotalRegs ≤ r.toNat → m.registers r = start.registers r

namespace Orderly

variable {start m m' : Processor}

/-- Only the registers and the record of delayed loads matter. -/
theorem of_eq (orderly : Orderly start m) (registers : m'.registers = m.registers)
    (loaded : m'.loaded = m.loaded) : Orderly start m' := by
  constructor
  · rw [registers, orderly.zero]
  · rw [registers]
    exact orderly.pending
  · rw [loaded]
    exact orderly.loaded
  · rw [registers]
    exact orderly.outside

/-- An assignment to a register that is neither register 0 nor `LoadReg`. -/
theorem set (orderly : Orderly start m) {r : BitVec 32} (v : BitVec 32)
    (nonzero : 0 ≠ r) (notLoad : loadReg ≠ r) (inside : r.toNat < numTotalRegs) :
    Orderly start (m.set r v) := by
  constructor
  · rw [set_registers, if_neg nonzero, orderly.zero]
  · rw [set_registers, if_neg notLoad]
    exact orderly.pending
  · exact orderly.loaded
  · intro other outside
    have different : other ≠ r := by
      rintro rfl
      omega
    rw [set_registers, if_neg different, orderly.outside other outside]

theorem delayedLoad (pending : GeneralPurpose (m.registers loadReg))
    (loaded : ∀ r ∈ m.loaded, GeneralPurpose r)
    (outside : ∀ r : BitVec 32, numTotalRegs ≤ r.toNat → m.registers r = start.registers r)
    {nextReg : BitVec 32} (target : GeneralPurpose nextReg) (nextValue : BitVec 32) :
    Orderly start (m.delayedLoad nextReg nextValue) := by
  constructor
  · rw [delayedLoad_registers, if_pos rfl]
  · rw [delayedLoad_registers, if_neg (by decide), if_neg (by decide), if_pos rfl]
    exact target
  · intro r member
    rcases List.mem_cons.mp member with rfl | earlier
    · exact pending
    · exact loaded r earlier
  · intro r high
    have different {named : BitVec 32} (low : named.toNat < numTotalRegs) : r ≠ named := by
      rintro rfl
      omega
    have general := generalPurpose_iff.mp pending
    rw [delayedLoad_registers, if_neg (different (by decide)), if_neg (different (by decide)),
      if_neg (different (by decide)), if_neg (different (by simp only [numTotalRegs]; omega)),
      outside r high]

theorem kept (orderly : Orderly start m) (kept : Kept m m') : Orderly start m' :=
  orderly.of_eq kept.registers kept.loaded

/-- An interrupt between instructions. -/
theorem interrupt (orderly : Orderly start m) : Orderly start (m.delayedLoad 0 0) :=
  delayedLoad orderly.pending orderly.loaded orderly.outside generalPurpose_zero 0

theorem interrupted (orderly : Orderly start m) (n : Nat) : Orderly start (m.interrupted n) := by
  induction n generalizing m with
  | zero => exact orderly
  | succ n inductionHypothesis => exact inductionHypothesis orderly.interrupt

/-- Where `ExceptionHandler` is entered. -/
theorem trapped (orderly : Orderly start m) (badVAddr : BitVec 32) :
    Orderly start (m.trapped badVAddr) := by
  have reported := orderly.set badVAddr (r := badVAddrReg) (by decide) (by decide) (by decide)
  exact reported.interrupt.of_eq rfl rfl

/-- The program counters may take any value. -/
theorem counters (orderly : Orderly start m) (prevPC pc nextPC : BitVec 32) :
    Orderly start (((m.set prevPCReg prevPC).set pcReg pc).set nextPCReg nextPC) := by
  have previous : Orderly start (m.set prevPCReg prevPC) :=
    orderly.set prevPC (by decide) (by decide) (by decide)
  have current : Orderly start ((m.set prevPCReg prevPC).set pcReg pc) :=
    previous.set pc (by decide) (by decide) (by decide)
  exact current.set nextPC (by decide) (by decide) (by decide)

theorem resume (orderly : Orderly start m) (rv : BitVec 32) : Orderly start (m.resume rv) := by
  have returned : Orderly start (m.set 2 rv) :=
    orderly.set rv (by decide) (by decide) (by decide)
  exact returned.counters _ _ _

theorem initRegisters (numPages : BitVec 32) (m : Processor) :
    Orderly m (m.initRegisters numPages) := by
  have cleared : Orderly m
      { m with
        registers := fun r => if r.toNat < numTotalRegs then 0 else m.registers r
        loaded := [] } := by
    constructor
    · rfl
    · exact generalPurpose_zero
    · simp
    · intro r outside
      exact if_neg (by omega)
  have current := cleared.set 0 (r := pcReg) (by decide) (by decide) (by decide)
  have next := current.set 4 (r := nextPCReg) (by decide) (by decide) (by decide)
  exact next.set _ (r := stackReg) (by decide) (by decide) (by decide)

/-! ### System calls -/

theorem copyin {n : Nat} {vaddr : BitVec 32} {bytes : List UInt8} (orderly : Orderly start m)
    (copied : Nachos.copyin n vaddr m = some (bytes, m')) : Orderly start m' := by
  induction n generalizing vaddr m bytes with
  | zero =>
      cases copied
      exact orderly
  | succ n inductionHypothesis =>
      unfold Nachos.copyin at copied
      split at copied
      · rename_i value s read
        obtain ⟨rest, further, last⟩ := Option.map_eq_some_iff.mp copied
        cases last
        have accessed := Simulation.accessed_readMem unexpected vaddr ⟨m, []⟩ (Or.inl rfl)
        exact inductionHypothesis (orderly.kept (accessed.frame_of_returns read).toKept) further
      · cases copied

theorem copyout {buf : Memory} {n : Nat} {i : Int} {vaddr : BitVec 32}
    (orderly : Orderly start m) (copied : Nachos.copyout buf n i vaddr m = some m') :
    Orderly start m' := by
  induction n generalizing vaddr m i with
  | zero =>
      cases copied
      exact orderly
  | succ n inductionHypothesis =>
      unfold Nachos.copyout at copied
      split at copied
      · rename_i _ s wrote
        have accessed := Simulation.accessed_writeMem unexpected vaddr ⟨m, []⟩
          ((buf i).toBitVec.signExtend 32) (Or.inl rfl)
        exact inductionHypothesis (orderly.kept (accessed.frame_of_returns wrote)) copied
      · cases copied

/-- What a system call that copies a name or data in leaves. -/
theorem copied {service : Service} {n : Nat} {vaddr : BitVec 32} (orderly : Orderly start m)
    (call : (Nachos.copyin n vaddr m).map (fun c => c.2.interrupted service.interrupts) =
      some m') : Orderly start m' := by
  obtain ⟨⟨bytes, left⟩, read, last⟩ := Option.map_eq_some_iff.mp call
  cases last
  exact (orderly.copyin read).interrupted _

theorem readSyscall {service : Service} {vaddr len id rv : BitVec 32}
    (orderly : Orderly start m)
    (call : Nachos.readSyscall service vaddr len id m = some (rv, m')) : Orderly start m' := by
  unfold Nachos.readSyscall at call
  split at call
  · cases call
    exact orderly
  · split at call
    · obtain ⟨left, wrote, last⟩ := Option.map_eq_some_iff.mp call
      cases last
      exact orderly.copyout wrote
    · split at call
      · obtain ⟨left, wrote, last⟩ := Option.map_eq_some_iff.mp call
        cases last
        exact (orderly.interrupted _).copyout wrote
      · cases call
        exact orderly

theorem systemCall {service : Service} {rv : BitVec 32} (orderly : Orderly start m)
    (call : Nachos.systemCall service m = some (rv, m')) : Orderly start m' := by
  unfold Nachos.systemCall at call
  dsimp only at call
  split at call
  · -- `Create`
    obtain ⟨left, created, last⟩ := Option.map_eq_some_iff.mp call
    cases last
    exact orderly.copied created
  · split at call
    · -- `Open`
      obtain ⟨⟨bytes, left⟩, read, last⟩ := Option.map_eq_some_iff.mp call
      cases last
      exact (orderly.copyin read).interrupted _
    · split at call
      · -- `Write`
        obtain ⟨left, wrote, last⟩ := Option.map_eq_some_iff.mp call
        cases last
        unfold writeSyscall at wrote
        split at wrote
        · cases wrote
          exact orderly
        · exact orderly.copied wrote
      · split at call
        · exact orderly.readSyscall call
        · split at call
          · -- `Close`
            cases call
            exact orderly.interrupted _
          · cases call

theorem exceptionHandler {service : Service} {which : ExceptionType} (orderly : Orderly start m)
    (answer : Nachos.exceptionHandler service which m = some m') : Orderly start m' := by
  unfold Nachos.exceptionHandler at answer
  split at answer
  · obtain ⟨⟨rv, left⟩, call, last⟩ := Option.map_eq_some_iff.mp answer
    cases last
    exact (orderly.systemCall call).resume rv
  · cases answer

/-! ### Instructions -/

theorem raiseException {service : Service} {which : ExceptionType} {badVAddr : BitVec 32}
    {s s' : Simulation} (orderly : Orderly start s.toProcessor)
    (raised : s.raiseException (Nachos.exceptionHandler service) which badVAddr () =
      .returns () s') : Orderly start s'.toProcessor := by
  unfold Simulation.raiseException at raised
  cases answer : Nachos.exceptionHandler service which (s.trapped badVAddr) with
  | none => simp [answer] at raised
  | some left =>
      simp only [answer, Ending.returns.injEq, true_and] at raised
      rw [← raised]
      exact ((orderly.trapped badVAddr).exceptionHandler answer).of_eq rfl rfl

/-- The end of an instruction that has completed. -/
theorem advance {s s' : Simulation} (orderly : Orderly start s.toProcessor)
    (computes : Computes s s') (pcAfter : BitVec 32) {nextLoadReg : BitVec 32}
    (target : GeneralPurpose nextLoadReg) (nextLoadValue : BitVec 32) :
    Orderly start (s'.advance pcAfter nextLoadReg nextLoadValue).toProcessor := by
  have loading : s'.registers loadReg = s.registers loadReg := computes.registers _ (by decide)
  have outside (r : BitVec 32) (high : numTotalRegs ≤ r.toNat) :
      s'.registers r = start.registers r := by
    simp only [numTotalRegs] at high
    rw [computes.registers r (by omega), orderly.outside r high]
  have finished : Orderly start (s'.delayedLoad nextLoadReg nextLoadValue).toProcessor := by
    apply delayedLoad _ _ outside target
    · rw [loading]
      exact orderly.pending
    · rw [computes.loaded]
      exact orderly.loaded
  exact finished.counters _ _ _

theorem oneInstruction {service : Service} {s : Simulation} (orderly : Orderly start m)
    (performed : Simulation.oneInstruction (Nachos.exceptionHandler service) ⟨m, []⟩ =
      .returns () s) : Orderly start s.toProcessor := by
  have stepped := Simulation.stepped_oneInstruction (Nachos.exceptionHandler service) ⟨m, []⟩
  generalize Simulation.oneInstruction (Nachos.exceptionHandler service) ⟨m, []⟩ = e
    at performed stepped
  cases stepped with
  | completes pcAfter nextLoadValue computes target =>
      cases performed
      exact orderly.advance (s := ⟨m, []⟩) computes pcAfter target nextLoadValue
  | raises which badVAddr intact =>
      exact (orderly.kept intact.toKept).raiseException performed
  | fails => cases performed

end Orderly

/-- One action keeps the registers in order. -/
theorem orderly_step {start : Processor} (m : Processor) (action : UserAction) (m' : Processor)
    (orderly : Orderly start m) (step : userMachine.step m action = some m') :
    Orderly start m' := by
  cases action with
  | instruction service =>
      simp only [userMachine] at step
      split at step
      · rename_i s performed
        cases step
        exact orderly.oneInstruction performed
      · cases step
  | tick =>
      cases step
      exact orderly.of_eq rfl rfl
  | interrupt =>
      cases step
      exact orderly.interrupt

/-- From the registers that `InitRegisters` sets up, register 0 holds 0 between
instructions and a delayed load goes to a general purpose register, so that no
`DelayedLoad` of the run has touched another register or what lies beyond
them. -/
theorem user_registers_orderly (numPages : BitVec 32) (m m' : Processor)
    (actions : List UserAction)
    (run : userMachine.exec (m.initRegisters numPages) actions = some m') :
    m'.registers 0 = 0 ∧ GeneralPurpose (m'.registers loadReg) ∧
      (∀ r ∈ m'.loaded, GeneralPurpose r) ∧
      ∀ r : BitVec 32, numTotalRegs ≤ r.toNat → m'.registers r = m.registers r := by
  have orderly : Orderly m m' :=
    Lib.Machine.invariant orderly_step (Orderly.initRegisters numPages m) run
  exact ⟨orderly.zero, orderly.pending, orderly.loaded, orderly.outside⟩

/-- A kernel that is never asked. -/
def noService : Service where
  interrupts := 0
  opened := fun _ => -1
  found := false
  length := 0
  buf := fun _ => 0

/-- `lw $2, 0($0)` and a delay slot, with an interrupt after each. -/
theorem load_and_interrupts_orderly :
    ∃ m',
      userMachine.exec ((onePage 0x8c020000 fun _ => 1).initRegisters 1)
          [.instruction noService, .tick, .interrupt, .instruction noService, .interrupt] =
        some m' ∧
      m'.registers 0 = 0 ∧ GeneralPurpose (m'.registers loadReg) ∧
      (∀ r ∈ m'.loaded, GeneralPurpose r) ∧
      ∀ r : BitVec 32, numTotalRegs ≤ r.toNat →
        m'.registers r = (onePage 0x8c020000 fun _ => 1).registers r := by
  obtain ⟨m', run⟩ : ∃ m',
      userMachine.exec ((onePage 0x8c020000 fun _ => 1).initRegisters 1)
          [.instruction noService, .tick, .interrupt, .instruction noService, .interrupt] =
        some m' := ⟨_, rfl⟩
  exact ⟨m', run, user_registers_orderly 1 _ m' _ run⟩

end Nachos
