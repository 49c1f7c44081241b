/-
Module: Nachos.Machine.Exceptions
Purpose: What one instruction of a user program can do to the machine: it
  completes, or it raises one exception before it has changed anything, or the
  simulator itself fails.
Trusted boundary: none
Main exports: GeneralPurpose, Computes, Executed, Stepped,
  Simulation.stepped_oneInstruction, Restartable
-/
import Nachos.Machine.Instructions

namespace Nachos

open Processor

/-! ### The registers of an instruction -/

/-- The number of a general purpose register. -/
def GeneralPurpose (r : BitVec 32) : Prop :=
  0 ≤ r.toInt ∧ r.toInt < 32

instance (r : BitVec 32) : Decidable (GeneralPurpose r) :=
  inferInstanceAs (Decidable (_ ∧ _))

theorem generalPurpose_iff {r : BitVec 32} : GeneralPurpose r ↔ r.toNat < 32 := by
  unfold GeneralPurpose
  rw [BitVec.toInt_eq_toNat_cond]
  split
  · omega
  · omega

theorem GeneralPurpose.ne {r named : BitVec 32} (general : GeneralPurpose r)
    (high : 32 ≤ named.toNat) : named ≠ r := by
  rintro rfl
  have low := generalPurpose_iff.mp general
  omega

theorem generalPurpose_gpr (r : BitVec 5) : GeneralPurpose (gpr r) := by
  apply generalPurpose_iff.mpr
  have small := r.isLt
  simp only [gpr, BitVec.toNat_setWidth]
  omega

theorem generalPurpose_zero : GeneralPurpose 0 := by
  decide

/-! ### Decoded instructions -/

/-- The operation codes for which `OneInstruction` has no case. -/
def OpCode.Uncovered (op : OpCode) : Prop :=
  op = .rfe ∨ op = .special ∨ op = .bcond

instance (op : OpCode) : Decidable op.Uncovered :=
  inferInstanceAs (Decidable (_ ∨ _))

/-- Only the first two entries of `opTable` call for further decoding, and no
entry of `specialTable` does. -/
theorem opTable_covered : ∀ op ∈ opTable, op.1 = .special ∨ op.1 = .bcond ∨ ¬ op.1.Uncovered := by
  decide

theorem specialTable_covered : ∀ op ∈ specialTable, ¬ op.Uncovered := by
  decide

theorem branchOp_covered (value : BitVec 32) : ¬ (Instruction.branchOp value).Uncovered := by
  unfold Instruction.branchOp
  dsimp only
  repeat' split
  all_goals decide

/-- An entry that a table gives for any index satisfies what its entries and
the default do. -/
theorem forall_getD {α : Type} {P : α → Prop} {table : List α} {d : α}
    (entries : ∀ x ∈ table, P x) (other : P d) (i : Nat) : P (table.getD i d) := by
  rw [List.getD_eq_getElem?_getD]
  cases found : table[i]? with
  | none => exact other
  | some x => exact entries x (List.mem_of_getElem? found)

theorem decode_covered (value : BitVec 32) : ¬ (Instruction.decode value).opCode.Uncovered := by
  have major := forall_getD (d := (OpCode.res, Format.ifmt)) opTable_covered (by decide)
    ((value >>> 26) &&& 0x3f).toNat
  unfold Instruction.decode
  dsimp only
  split
  · exact forall_getD specialTable_covered (by decide) _
  · rename_i notSpecial
    split
    · exact branchOp_covered value
    · rename_i notBcond
      rcases major with special | bcond | covered
      · exact absurd special notSpecial
      · exact absurd bcond notBcond
      · exact covered

/-! ### What the `switch` can do -/

/-- The operands for which the simulator fails on a decoded instruction: the
assertion of the unaligned loads and stores, and a quotient that does not
fit. -/
def Instruction.Unguarded (instr : Instruction) (registers : BitVec 32 → BitVec 32) : Prop :=
  ((instr.opCode = .lwl ∨ instr.opCode = .lwr ∨ instr.opCode = .swl ∨ instr.opCode = .swr) ∧
      (registers (gpr instr.rs) + instr.extra) &&& 3 ≠ 0) ∨
    (instr.opCode = .div ∧ registers (gpr instr.rs) = BitVec.intMin 32 ∧
      registers (gpr instr.rt) = -1)

instance (instr : Instruction) (registers : BitVec 32 → BitVec 32) :
    Decidable (instr.Unguarded registers) :=
  inferInstanceAs (Decidable (_ ∨ _))

/-- From `s` to `s'` only general purpose registers, `Hi` and `Lo` and main
memory have changed, and no exception was raised. -/
structure Computes (s s' : Simulation) : Prop where
  registers : ∀ r : BitVec 32, 34 ≤ r.toNat → s'.registers r = s.registers r
  loaded : s'.loaded = s.loaded
  raised : s'.raised = s.raised

/-- The ways in which the `switch` can end. -/
inductive Executed (handler : Handler) (instr : Instruction) (s : Simulation) :
    Ending Flow → Prop where
  | breaks {s' : Simulation} {pcAfter nextLoadReg : BitVec 32} (nextLoadValue : BitVec 32)
      (computes : Computes s s') (target : GeneralPurpose nextLoadReg) :
      Executed handler instr s (.returns (.breaks pcAfter nextLoadReg nextLoadValue) s')
  | raises {m : Processor} (which : ExceptionType) (badVAddr : BitVec 32)
      (intact : Intact s.toProcessor m) :
      Executed handler instr s
        (Simulation.raiseException handler which badVAddr .leaves { s with toProcessor := m })
  | fails {s' : Simulation} {why : Stop} (failure : why ≠ .halted) (quiet : s'.raised = s.raised)
      (cause : instr.Unguarded s.registers ∨ instr.opCode.Uncovered ∨ ¬ s.Mapped) :
      Executed handler instr s (.stops why s')

theorem Computes.refl (s : Simulation) : Computes s s :=
  ⟨fun _ _ => rfl, rfl, rfl⟩

theorem Intact.refl (m : Processor) : Intact m m :=
  ⟨⟨rfl, rfl, Iff.rfl⟩, rfl⟩

theorem Kept.computes {s : Simulation} {m : Processor} (kept : Kept s.toProcessor m) :
    Computes s { s with toProcessor := m } :=
  ⟨fun _ _ => by rw [kept.registers], kept.loaded, rfl⟩

theorem Intact.trans_kept {m m' m'' : Processor} (first : Intact m m')
    (second : Kept m' m'') : Kept m m'' :=
  ⟨second.registers.trans first.registers, second.loaded.trans first.loaded,
    second.mapped.trans first.mapped⟩

/-- An assignment to a general purpose register, `Hi` or `Lo`. -/
theorem Computes.set {s s' : Simulation} (computes : Computes s s') {r : BitVec 32}
    (low : r.toNat < 34) (v : BitVec 32) : Computes s (s'.set r v) := by
  refine ⟨?_, computes.loaded, computes.raised⟩
  intro named high
  have other : named ≠ r := by
    rintro rfl
    omega
  have same : (s'.set r v).registers named = s'.registers named :=
    Function.update_of_ne other _ _
  rw [same, computes.registers named high]

theorem Computes.set_gpr {s s' : Simulation} (computes : Computes s s') (r : BitVec 5)
    (v : BitVec 32) : Computes s (s'.set (gpr r) v) := by
  apply computes.set
  have low := generalPurpose_iff.mp (generalPurpose_gpr r)
  omega

namespace Executed

variable {handler : Handler} {instr : Instruction} {s : Simulation} {pcAfter : BitVec 32}

/-- A `break` without a delayed load. -/
theorem computed {s' : Simulation} (computes : Computes s s') :
    Executed handler instr s (.returns (.breaks pcAfter 0 0) s') :=
  breaks 0 computes generalPurpose_zero

theorem assign (r : BitVec 5) (v : BitVec 32) :
    Executed handler instr s (s.assign pcAfter (gpr r) v) :=
  computed ((Computes.refl s).set_gpr r v)

theorem setLoHi (lo hi : BitVec 32) : Executed handler instr s (s.setLoHi pcAfter lo hi) :=
  computed (((Computes.refl s).set (by decide) lo).set (by decide) hi)

/-- An exception that the `switch` itself raises. -/
theorem raise (which : ExceptionType) (badVAddr : BitVec 32) :
    Executed handler instr s (s.raiseException handler which badVAddr .leaves) :=
  raises which badVAddr (Intact.refl s.toProcessor)

/-- An access to memory after reads that have changed nothing, and what follows
when it succeeds. -/
theorem orReturn {α : Type} {m : Processor} {Frame : Processor → Processor → Prop}
    {addr : BitVec 32} {e : Ending (Option α)} {next : α → Simulation → Ending Flow}
    (intact : Intact s.toProcessor m)
    (accessed : Accessed handler addr { s with toProcessor := m } Frame e)
    (continues : ∀ value m', Frame m m' →
      Executed handler instr s (next value { s with toProcessor := m' })) :
    Executed handler instr s (e.orReturn next) := by
  cases accessed with
  | succeeds value frame => exact continues value _ frame
  | raises fault =>
      unfold Ending.orReturn
      rw [Simulation.andThen_raiseException]
      · exact raises _ _ intact
      · exact fun _ => rfl
  | aborts unmapped =>
      have quiet : { s with toProcessor := m }.raised = s.raised := rfl
      have cause : ¬ s.Mapped := fun mapped => unmapped (intact.mapped.mpr mapped)
      exact fails (by decide) quiet (Or.inr (Or.inr cause))

theorem load (addr : BitVec 32) {size : Nat} (known : AccessSize size) (rt : BitVec 5)
    (value : Simulation → BitVec 32 → BitVec 32) :
    Executed handler instr s (s.load handler addr size pcAfter (gpr rt) value) := by
  apply orReturn (Intact.refl _) (s.accessed_readMem handler addr known)
  intro read m frame
  exact breaks _ frame.toKept.computes (generalPurpose_gpr rt)

theorem store {m : Processor} (intact : Intact s.toProcessor m) (addr : BitVec 32)
    {size : Nat} (known : AccessSize size) (value : BitVec 32) :
    Executed handler instr s
      (Simulation.store handler addr size pcAfter value { s with toProcessor := m }) := by
  apply orReturn intact (Simulation.accessed_writeMem handler addr _ value known)
  intro _ m' frame
  exact computed (intact.trans_kept frame).computes

theorem storePart (tmp : BitVec 32) (value : Simulation → BitVec 32 → BitVec 32) :
    Executed handler instr s (s.storePart handler tmp pcAfter value) := by
  have word : AccessSize 4 := Or.inr (Or.inr rfl)
  apply orReturn (Intact.refl _) (s.accessed_readMem handler (tmp &&& ~~~3) word)
  intro read m intact
  exact store intact (tmp &&& ~~~3) word _

/-- The assertion of the unaligned loads and stores. -/
theorem assertWord {tmp : BitVec 32} {next : Ending Flow}
    (cause : tmp &&& 3 ≠ 0 → instr.Unguarded s.registers)
    (continues : Executed handler instr s next) :
    Executed handler instr s (s.assertWord tmp next) := by
  unfold Simulation.assertWord
  split
  · exact continues
  · rename_i unaligned
    exact fails (by decide) rfl (Or.inl (cause unaligned))

end Executed

/-- What the `switch` can do, whatever the instruction is. -/
theorem Simulation.executed_execute (handler : Handler) (instr : Instruction) (s : Simulation) :
    Executed handler instr s (s.execute handler instr) := by
  have byte : AccessSize 1 := Or.inl rfl
  have short : AccessSize 2 := Or.inr (Or.inl rfl)
  have word : AccessSize 4 := Or.inr (Or.inr rfl)
  have linked (r : BitVec 5) (v : BitVec 32) : Computes s (s.set (gpr r) v) :=
    (Computes.refl s).set_gpr r v
  have returnLinked (v : BitVec 32) : Computes s (s.set retAddrReg v) :=
    (Computes.refl s).set (by decide) v
  unfold Simulation.execute
  dsimp only
  cases op : instr.opCode with
  | add | addi | sub =>
      dsimp only
      split
      · exact Executed.raise _ _
      · exact Executed.assign _ _
  | addiu | addu | and | andi | lui | mfhi | mflo | nor | or | ori | sll | sllv | slt | slti
  | sltiu | sltu | sra | srav | srl | srlv | subu | xor | xori => exact Executed.assign _ _
  | mthi | mtlo => exact Executed.computed ((Computes.refl s).set (by decide) _)
  | mult | multu => exact Executed.setLoHi _ _
  | beq | bgez | bgtz | blez | bltz | bne | j | jr => exact Executed.computed (Computes.refl s)
  | bgezal | bltzal | jal => exact Executed.computed (returnLinked _)
  | jalr => exact Executed.computed (linked _ _)
  | div =>
      dsimp only
      split
      · exact Executed.setLoHi _ _
      · split
        · rename_i overflow
          exact Executed.fails (by decide) rfl (Or.inl (Or.inr ⟨op, overflow⟩))
        · exact Executed.setLoHi _ _
  | divu =>
      dsimp only
      split
      · exact Executed.setLoHi _ _
      · exact Executed.setLoHi _ _
  | lb | lbu => exact Executed.load _ byte _ _
  | lh | lhu =>
      dsimp only
      split
      · exact Executed.raise _ _
      · exact Executed.load _ short _ _
  | lw =>
      dsimp only
      split
      · exact Executed.raise _ _
      · exact Executed.load _ word _ _
  | lwl | lwr =>
      apply Executed.assertWord
      · exact fun unaligned => Or.inl ⟨by simp [op], unaligned⟩
      · exact Executed.load _ word _ _
  | sb => exact Executed.store (Intact.refl _) _ byte _
  | sh => exact Executed.store (Intact.refl _) _ short _
  | sw => exact Executed.store (Intact.refl _) _ word _
  | swl | swr =>
      apply Executed.assertWord
      · exact fun unaligned => Or.inl ⟨by simp [op], unaligned⟩
      · exact Executed.storePart _ _
  | syscall | unimp | res => exact Executed.raise _ _
  | rfe | special | bcond =>
      exact Executed.fails (by decide) rfl (Or.inr (Or.inl (by simp [OpCode.Uncovered, op])))

/-! ### What one instruction can do -/

/-- The instruction word at the program counter, where it can be read. -/
def Processor.fetch (m : Processor) : Option (BitVec 32) :=
  match m.translate (m.registers pcReg) 4 false with
  | some (.ok (physAddr, m')) => some (m'.wordToHost (BitVec.ofNat 32 (m'.hostLoad physAddr 4)))
  | _ => none

/-- The instruction that is next is one of those on whose operands the simulator
fails. -/
def Processor.Hazard (m : Processor) : Prop :=
  ∃ raw ∈ m.fetch, (Instruction.decode raw).Unguarded m.registers

/-- The ways in which `OneInstruction` can end. -/
inductive Stepped (handler : Handler) (s : Simulation) : Ending Unit → Prop where
  | completes {s' : Simulation} (pcAfter : BitVec 32) {nextLoadReg : BitVec 32}
      (nextLoadValue : BitVec 32) (computes : Computes s s')
      (target : GeneralPurpose nextLoadReg) :
      Stepped handler s (.returns () (s'.advance pcAfter nextLoadReg nextLoadValue))
  | raises {m : Processor} (which : ExceptionType) (badVAddr : BitVec 32)
      (intact : Intact s.toProcessor m) :
      Stepped handler s
        (Simulation.raiseException handler which badVAddr () { s with toProcessor := m })
  | fails {s' : Simulation} {why : Stop} (failure : why ≠ .halted) (quiet : s'.raised = s.raised)
      (cause : s.Hazard ∨ ¬ s.Mapped) : Stepped handler s (.stops why s')

theorem Intact.trans {m m' m'' : Processor} (first : Intact m m')
    (second : Intact m' m'') : Intact m m'' :=
  ⟨first.trans_kept second.toKept, second.mainMemory.trans first.mainMemory⟩

namespace Simulation

variable (handler : Handler)

/-- The fetch of an instruction: the word, an exception or a failed
assertion. -/
theorem readMem_pc (s : Simulation) :
    (∃ raw m, s.fetch = some raw ∧ Intact s.toProcessor m ∧
        s.readMem handler (s.registers pcReg) 4 =
          .returns (some raw) { s with toProcessor := m }) ∨
      (s.fetch = none ∧ ∃ which,
        s.readMem handler (s.registers pcReg) 4 =
          s.raiseException handler which (s.registers pcReg) none) ∨
      (s.fetch = none ∧ ¬ misaligned (s.registers pcReg) 4 ∧ ¬ s.Mapped ∧
        s.readMem handler (s.registers pcReg) 4 = .stops .aborted s) := by
  have word : AccessSize 4 := Or.inr (Or.inr rfl)
  unfold readMem fetch
  cases translated : s.translate (s.registers pcReg) 4 false with
  | none =>
      right
      right
      refine ⟨rfl, ?_, ?_, rfl⟩
      · intro unaligned
        rw [translate_misaligned unaligned] at translated
        cases translated
      · intro mapped
        exact translate_ne_none mapped word translated
  | some result =>
      cases result with
      | error exception =>
          right
          left
          exact ⟨rfl, exception, rfl⟩
      | ok place =>
          obtain ⟨physAddr, m⟩ := place
          have intact := intact_of_translate translated
          left
          exact ⟨_, m.stamp physAddr, rfl,
            ⟨⟨intact.registers, intact.loaded, intact.mapped⟩, intact.mainMemory⟩, rfl⟩

theorem stepped_perform {s : Simulation} {m : Processor} {raw : BitVec 32}
    (fetched : s.fetch = some raw) (intact : Intact s.toProcessor m) :
    Stepped handler s
      (Simulation.perform handler (Instruction.decode raw) { s with toProcessor := m }) := by
  have executed :=
    executed_execute handler (Instruction.decode raw) { s with toProcessor := m }
  have covered := decode_covered raw
  unfold perform
  generalize execute handler (Instruction.decode raw) { s with toProcessor := m } = e at executed
  cases executed with
  | breaks nextLoadValue computes target =>
      refine Stepped.completes _ nextLoadValue ⟨?_, ?_, computes.raised⟩ target
      · intro r high
        rw [computes.registers r high, intact.registers]
      · rw [computes.loaded, intact.loaded]
  | raises which badVAddr further =>
      rw [andThen_raiseException]
      · exact Stepped.raises which badVAddr (intact.trans further)
      · exact fun _ => rfl
  | fails failure quiet cause =>
      refine Stepped.fails failure quiet ?_
      rcases cause with unguarded | uncovered | unmapped
      · left
        rw [intact.registers] at unguarded
        exact ⟨raw, fetched, unguarded⟩
      · exact absurd uncovered covered
      · right
        exact fun mapped => unmapped (intact.mapped.mpr mapped)

/-- What `OneInstruction` can do, whatever the program is. -/
theorem stepped_oneInstruction (s : Simulation) :
    Stepped handler s (s.oneInstruction handler) := by
  unfold oneInstruction
  rcases s.readMem_pc handler with ⟨raw, m, fetched, intact, read⟩ | ⟨-, which, raises⟩ |
    ⟨-, -, unmapped, aborts⟩
  · rw [read]
    exact stepped_perform handler fetched intact
  · rw [raises, andThen_raiseException]
    · exact Stepped.raises which (s.registers pcReg) (Intact.refl s.toProcessor)
    · exact fun _ => rfl
  · rw [aborts]
    exact Stepped.fails (by decide) rfl (Or.inr unmapped)

end Simulation

/-! ### Exceptions -/

/-- The machine where a routine ends. -/
def Ending.final {α : Type} : Ending α → Simulation
  | .returns _ s => s
  | .stops _ s => s

theorem final_raiseException {α : Type} (handler : Handler) (which : ExceptionType)
    (badVAddr : BitVec 32) (value : α) (s : Simulation) :
    (s.raiseException handler which badVAddr value).final.raised =
      ⟨which, badVAddr, s.trapped badVAddr⟩ :: s.raised := by
  unfold Simulation.raiseException
  cases handler which (s.trapped badVAddr) with
  | none => rfl
  | some m => rfl

/-- What `ExceptionHandler` finds when it is called: the machine as it was
before the instruction, with the pending delayed load applied and the address
of the exception in its register. -/
structure Restartable (m : Processor) (call : Raised) : Prop where
  mainMemory : call.entry.mainMemory = m.mainMemory
  pc : call.entry.registers pcReg = m.registers pcReg
  nextPC : call.entry.registers nextPCReg = m.registers nextPCReg
  prevPC : call.entry.registers prevPCReg = m.registers prevPCReg
  /-- register 0 takes no value -/
  delayed : call.entry.registers (m.registers loadReg) =
    if m.registers loadReg = 0 then 0 else m.registers loadValueReg
  others : ∀ r, r ≠ m.registers loadReg → r ≠ loadReg → r ≠ loadValueReg → r ≠ badVAddrReg →
    call.entry.registers r = m.registers r
  load : call.entry.registers loadReg = 0
  loadValue : call.entry.registers loadValueReg = 0
  badVAddr : call.entry.registers badVAddrReg = call.badVAddr

/-- The registers that `ExceptionHandler` finds. -/
theorem trapped_registers (m : Processor) (badVAddr r : BitVec 32) :
    (m.trapped badVAddr).registers r =
      if r = 0 then 0
      else if r = loadValueReg then 0
      else if r = loadReg then 0
      else if r = m.registers loadReg then m.registers loadValueReg
      else if r = badVAddrReg then badVAddr
      else m.registers r := by
  simp [trapped, delayedLoad_registers, set_registers]

theorem restartable_trapped {m m' : Processor} (zero : m.registers 0 = 0)
    (pending : GeneralPurpose (m.registers loadReg)) (intact : Intact m m')
    (which : ExceptionType) (badVAddr : BitVec 32) :
    Restartable m ⟨which, badVAddr, m'.trapped badVAddr⟩ := by
  have registers := trapped_registers m' badVAddr
  simp only [intact.registers] at registers
  have others (r : BitVec 32) (delayed : r ≠ m.registers loadReg) (load : r ≠ loadReg)
      (loadValue : r ≠ loadValueReg) (bad : r ≠ badVAddrReg) :
      (m'.trapped badVAddr).registers r = m.registers r := by
    rw [registers, if_neg loadValue, if_neg load, if_neg delayed, if_neg bad]
    split
    · rename_i isZero
      rw [isZero, zero]
    · rfl
  constructor
  · exact intact.mainMemory
  · exact others _ (pending.ne (by decide)) (by decide) (by decide) (by decide)
  · exact others _ (pending.ne (by decide)) (by decide) (by decide) (by decide)
  · exact others _ (pending.ne (by decide)) (by decide) (by decide) (by decide)
  · have notLoad : m.registers loadReg ≠ loadReg := (pending.ne (by decide)).symm
    have notLoadValue : m.registers loadReg ≠ loadValueReg := (pending.ne (by decide)).symm
    rw [registers, if_neg notLoadValue, if_neg notLoad, if_pos rfl]
  · exact others
  · rw [registers, if_neg (by decide), if_neg (by decide), if_pos rfl]
  · rw [registers, if_neg (by decide), if_pos rfl]
  · have notDelayed : badVAddrReg ≠ m.registers loadReg := pending.ne (by decide)
    rw [registers, if_neg (by decide), if_neg (by decide), if_neg (by decide),
      if_neg notDelayed, if_pos rfl]

/-- An instruction that raises an exception has raised just one when the
handler is entered, and has changed nothing that would stand in the way of
starting it again. -/
theorem exception_restartable (handler : Handler) (m : Processor) (zero : m.registers 0 = 0)
    (pending : GeneralPurpose (m.registers loadReg))
    (raises : (Simulation.oneInstruction handler ⟨m, []⟩).final.raised ≠ []) :
    ∃ call, (Simulation.oneInstruction handler ⟨m, []⟩).final.raised = [call] ∧
      Restartable m call := by
  have stepped := Simulation.stepped_oneInstruction handler ⟨m, []⟩
  generalize Simulation.oneInstruction handler ⟨m, []⟩ = e at raises stepped
  cases stepped with
  | completes pcAfter nextLoadValue computes target => exact absurd computes.raised raises
  | raises which badVAddr intact =>
      rw [final_raiseException]
      exact ⟨_, rfl, restartable_trapped zero pending intact which badVAddr⟩
  | fails failure quiet cause => exact absurd quiet raises

/-- A machine with one page, whose first word is an instruction. -/
def onePage (word : BitVec 32) (registers : BitVec 32 → BitVec 32) : Processor where
  registers := registers
  mainMemory := Lib.Memory.setWord (fun _ => 0) 0 word
  tlb := none
  pageTable := some [⟨0, 0, true, false, false, false⟩]
  lastUsed := fun _ => 0
  totalTicks := 0
  status := .userMode
  hostIsBigEndian := false
  loaded := []

/-- `lw $2, 1($0)` while the value 7 is on its way to register 5. -/
def unalignedLoad : Processor :=
  onePage 0x8c020001 fun r =>
    if r = loadReg then 5 else if r = loadValueReg then 7 else if r = nextPCReg then 4 else 0

theorem unalignedLoad_restartable :
    ∃ call,
      (Simulation.oneInstruction (fun _ m => some m) ⟨unalignedLoad, []⟩).final.raised = [call] ∧
        Restartable unalignedLoad call :=
  exception_restartable _ _ rfl (by decide) (List.cons_ne_nil _ _)

/-! ### Failures of the simulator -/

/-- A routine returns, or the kernel has halted the machine: no assertion has
failed and no operation was trapped. -/
def Ending.Survives {α : Type} : Ending α → Prop
  | .returns _ _ => True
  | .stops why _ => why = .halted

theorem survives_raiseException {α : Type} (handler : Handler) (which : ExceptionType)
    (badVAddr : BitVec 32) (value : α) (s : Simulation) :
    (s.raiseException handler which badVAddr value).Survives := by
  unfold Simulation.raiseException
  cases handler which (s.trapped badVAddr) with
  | none => rfl
  | some m => trivial

namespace Simulation

theorem execute_unguarded (handler : Handler) {instr : Instruction} {s : Simulation}
    (unguarded : instr.Unguarded s.registers) :
    ∃ why, why ≠ .halted ∧ s.execute handler instr = .stops why s := by
  rcases unguarded with ⟨op, unaligned⟩ | ⟨op, dividend, divisor⟩
  · have fails (next : Ending Flow) :
        s.assertWord (s.registers (gpr instr.rs) + instr.extra) next = .stops .aborted s :=
      if_neg unaligned
    refine ⟨.aborted, by decide, ?_⟩
    rcases op with op | op | op | op
    · simp only [execute, op, fails]
    · simp only [execute, op, fails]
    · simp only [execute, op, fails]
    · simp only [execute, op, fails]
  · refine ⟨.trapped, by decide, ?_⟩
    have nonzero : s.registers (gpr instr.rt) ≠ 0 := by
      rw [divisor]
      decide
    simp only [execute, op, if_neg nonzero]
    exact if_pos ⟨dividend, divisor⟩

variable (handler : Handler) {s : Simulation}

theorem not_survives_of_hazard (hazard : s.Hazard) :
    ¬ (s.oneInstruction handler).Survives := by
  obtain ⟨raw, fetched, unguarded⟩ := hazard
  rcases s.readMem_pc handler with ⟨raw', m, fetched', intact, read⟩ | ⟨none, -⟩ | ⟨none, -⟩
  · obtain rfl : raw' = raw := Option.some.inj (fetched'.symm.trans fetched)
    rw [← intact.registers] at unguarded
    obtain ⟨why, failure, stops⟩ := execute_unguarded handler
      (s := { s with toProcessor := m }) unguarded
    simp only [oneInstruction, read, Ending.andThen, perform, stops]
    exact failure
  · exact absurd fetched (by simp [none])
  · exact absurd fetched (by simp [none])

theorem not_survives_of_unmapped (unmapped : ¬ s.Mapped)
    (aligned : ¬ misaligned (s.registers pcReg) 4) : ¬ (s.oneInstruction handler).Survives := by
  simp only [oneInstruction, readMem, translate_eq_none unmapped aligned, Ending.andThen]
  exact fun halted => absurd halted (show Stop.aborted ≠ Stop.halted by decide)

theorem survives_of_misaligned (unaligned : misaligned (s.registers pcReg) 4) :
    (s.oneInstruction handler).Survives := by
  unfold oneInstruction readMem
  rw [translate_misaligned unaligned]
  dsimp only
  rw [andThen_raiseException]
  · exact survives_raiseException handler _ _ () s
  · exact fun _ => rfl

theorem survives_of_mapped (mapped : s.Mapped) (safe : ¬ s.Hazard) :
    (s.oneInstruction handler).Survives := by
  have stepped := s.stepped_oneInstruction handler
  generalize s.oneInstruction handler = e at stepped
  cases stepped with
  | completes => trivial
  | raises which badVAddr intact => exact survives_raiseException handler which badVAddr () _
  | fails failure quiet cause =>
      rcases cause with hazard | unmapped
      · exact absurd hazard safe
      · exact absurd mapped unmapped

end Simulation

/-- With a page table installed, the simulator survives exactly the instructions
that are not an unaligned `LWL`, `LWR`, `SWL` or `SWR` and not the division of
the least integer by -1; a TLB beside the page table stops it at the first
aligned fetch. -/
theorem survives_oneInstruction_iff (handler : Handler) (m : Processor)
    (installed : m.pageTable.isSome) :
    (Simulation.oneInstruction handler ⟨m, []⟩).Survives ↔
      (misaligned (m.registers pcReg) 4 ∨ m.tlb = none) ∧ ¬ m.Hazard := by
  have mapped_iff : m.Mapped ↔ m.tlb = none := by
    cases tlb : m.tlb with
    | none => simp [Mapped, tlb, installed]
    | some entries => simp [Mapped, tlb, installed]
  constructor
  · intro survives
    constructor
    · by_contra neither
      rw [not_or, ← mapped_iff] at neither
      exact Simulation.not_survives_of_unmapped handler (s := ⟨m, []⟩) neither.2 neither.1 survives
    · intro hazard
      exact Simulation.not_survives_of_hazard handler (s := ⟨m, []⟩) hazard survives
  · rintro ⟨unaligned | noTlb, safe⟩
    · exact Simulation.survives_of_misaligned handler (s := ⟨m, []⟩) unaligned
    · exact Simulation.survives_of_mapped handler (s := ⟨m, []⟩) (mapped_iff.mpr noTlb) safe

theorem survives_unalignedLoad :
    (Simulation.oneInstruction (fun _ m => some m) ⟨unalignedLoad, []⟩).Survives := by
  apply (survives_oneInstruction_iff _ _ rfl).mpr
  refine ⟨Or.inr rfl, ?_⟩
  rintro ⟨raw, fetched, unguarded⟩
  obtain rfl : 0x8c020001 = raw := Option.some.inj fetched
  exact absurd unguarded (by decide)

/-- `lwl $2, 1($0)`. -/
def unalignedLeft : Processor :=
  onePage 0x88020001 fun r => if r = nextPCReg then 4 else 0

/-- `div $2, $3` of the least integer by -1. -/
def overflowingDivision : Processor :=
  onePage 0x0043001a fun r =>
    if r = 2 then BitVec.intMin 32 else if r = 3 then -1 else if r = nextPCReg then 4 else 0

/-- The assertion of `LWL` and the division of the host end the simulation. -/
theorem instructions_stop_simulator :
    (unalignedLeft.registers 0 = 0 ∧ GeneralPurpose (unalignedLeft.registers loadReg) ∧
      unalignedLeft.pageTable.isSome ∧
      ¬ (Simulation.oneInstruction (fun _ m => some m) ⟨unalignedLeft, []⟩).Survives) ∧
    (overflowingDivision.registers 0 = 0 ∧
      GeneralPurpose (overflowingDivision.registers loadReg) ∧
      overflowingDivision.pageTable.isSome ∧
      ¬ (Simulation.oneInstruction (fun _ m => some m) ⟨overflowingDivision, []⟩).Survives) := by
  have left : unalignedLeft.Hazard := ⟨0x88020001, rfl, by decide⟩
  have division : overflowingDivision.Hazard := ⟨0x0043001a, rfl, by decide⟩
  constructor
  · refine ⟨rfl, by decide, rfl, ?_⟩
    exact Simulation.not_survives_of_hazard (s := ⟨unalignedLeft, []⟩) _ left
  · refine ⟨rfl, by decide, rfl, ?_⟩
    exact Simulation.not_survives_of_hazard (s := ⟨overflowingDivision, []⟩) _ division

end Nachos
