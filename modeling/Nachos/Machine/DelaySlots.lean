/-
Module: Nachos.Machine.DelaySlots
Purpose: The load delay slot and interrupts.  Between two instructions an
  interrupt applies the load that is pending; an instruction that does not use
  its target ends the same whether or not that has happened, so that a program
  which respects the delay slot cannot see where interrupts arrive.
Trusted boundary: none
Main exports: Instruction.reads, Instruction.writes, Independent, Alike,
  Simulation.execute_alike, Simulation.execute_frame, Undisturbed,
  interrupts_invisible
-/
import Nachos.Machine.UserPrograms

namespace Nachos

open Lib (Memory)
open Processor

/-! ### The registers that an instruction uses -/

namespace Instruction

/-- The registers whose values `OneInstruction` reads for an operation;
`OP_OR` never looks at `rt`. -/
def reads (instr : Instruction) : List (BitVec 32) :=
  let rs := gpr instr.rs
  let rt := gpr instr.rt
  match instr.opCode with
  | .add | .addu | .and | .beq | .bne | .div | .divu | .mult | .multu | .nor | .sllv | .slt
  | .sltu | .srav | .srlv | .sub | .subu | .xor | .lwl | .lwr | .sb | .sh | .sw | .swl
  | .swr => [rs, rt]
  | .addi | .addiu | .andi | .bgez | .bgezal | .bgtz | .blez | .bltz | .bltzal | .jalr | .jr
  | .lb | .lbu | .lh | .lhu | .lw | .mthi | .mtlo | .or | .ori | .slti | .sltiu | .xori => [rs]
  | .sll | .sra | .srl => [rt]
  | .mfhi => [hiReg]
  | .mflo => [loReg]
  | .j | .jal | .lui | .syscall | .rfe | .unimp | .res | .special | .bcond => []

/-- The registers that it assigns or loads into, the one for the link
included. -/
def writes (instr : Instruction) : List (BitVec 32) :=
  match instr.opCode with
  | .add | .addu | .and | .jalr | .mfhi | .mflo | .nor | .or | .sll | .sllv | .slt | .sltu
  | .sra | .srav | .srl | .srlv | .sub | .subu | .xor => [gpr instr.rd]
  | .addi | .addiu | .andi | .lui | .ori | .slti | .sltiu | .xori | .lb | .lbu | .lh | .lhu
  | .lw | .lwl | .lwr => [gpr instr.rt]
  | .bgezal | .bltzal | .jal => [retAddrReg]
  | .div | .divu | .mult | .multu => [loReg, hiReg]
  | .mthi => [hiReg]
  | .mtlo => [loReg]
  | .beq | .bgez | .bgtz | .blez | .bltz | .bne | .j | .jr | .sb | .sh | .sw | .swl | .swr
  | .syscall | .rfe | .unimp | .res | .special | .bcond => []

/-- The instruction neither reads nor writes the target of a pending load; of
register 0 only the partial loads notice. -/
def Independent (instr : Instruction) (target : BitVec 32) : Prop :=
  (target = 0 ∧ ¬ ((instr.opCode = .lwl ∨ instr.opCode = .lwr) ∧ gpr instr.rt = 0)) ∨
    (target ≠ 0 ∧ target ∉ instr.reads ∧ target ∉ instr.writes)

instance (instr : Instruction) (target : BitVec 32) : Decidable (instr.Independent target) :=
  inferInstanceAs (Decidable (_ ∨ _))

end Instruction

/-! ### Machines that differ in their registers only -/

namespace Processor

/-- The machine with other registers. -/
def withRegisters (registers : BitVec 32 → BitVec 32) (loaded : List (BitVec 32))
    (m : Processor) : Processor :=
  { m with registers := registers, loaded := loaded }

variable {m m' : Processor} {virtAddr : BitVec 32} {size physAddr : Nat} {writing : Bool}
  {registers : BitVec 32 → BitVec 32} {loaded : List (BitVec 32)}

theorem translateBy_withRegisters {entry : TranslationEntry}
    {store store' : TranslationEntry → Processor} {offset : Nat}
    (stores : ∀ e, store' e = (store e).withRegisters registers loaded)
    (ok : translateBy entry store offset size writing = some (.ok (physAddr, m'))) :
    translateBy entry store' offset size writing =
      some (.ok (physAddr, m'.withRegisters registers loaded)) := by
  unfold translateBy at ok ⊢
  split at ok
  · cases ok
  · rename_i writable
    rw [if_neg writable]
    split at ok
    · cases ok
    · rename_i framed
      rw [if_neg framed]
      dsimp only at ok ⊢
      split at ok
      · rename_i inside
        rw [if_pos inside, stores]
        cases ok
        rfl
      · cases ok

/-- Registers play no part in a translation. -/
theorem translate_withRegisters
    (ok : m.translate virtAddr size writing = some (.ok (physAddr, m'))) :
    (m.withRegisters registers loaded).translate virtAddr size writing =
      some (.ok (physAddr, m'.withRegisters registers loaded)) := by
  unfold translate at ok ⊢
  split at ok
  · cases ok
  · rename_i aligned
    rw [if_neg aligned]
    dsimp only [withRegisters] at ok ⊢
    split at ok
    · rename_i pageTable noTlb table
      simp only [noTlb]
      split at ok
      · cases ok
      · rename_i entry here
        split at ok
        · rename_i valid
          rw [if_pos valid]
          exact translateBy_withRegisters (fun _ => by rw [withRegisters, noTlb]) ok
        · cases ok
    · rename_i tlb hasTlb noTable
      simp only [noTable]
      split at ok
      · cases ok
      · rename_i entry here
        exact translateBy_withRegisters (fun _ => by rw [withRegisters, noTable]) ok
    · cases ok

end Processor

/-- Machines that are the same but for the registers in `hidden` and the record
of delayed loads. -/
structure Alike (hidden : BitVec 32 → Prop) (s u : Simulation) : Prop where
  same : u = { s with toProcessor := s.withRegisters u.registers u.loaded }
  registers : ∀ r, ¬ hidden r → u.registers r = s.registers r

namespace Alike

variable {hidden : BitVec 32 → Prop} {s u s' : Simulation} {handler : Handler}
  {addr : BitVec 32} {size : Nat}

/-- From alike machines with the same registers, to machines that differ from
them in the same way. -/
theorem carry {m m' : Processor} {raised : List Raised} (alike : Alike hidden s u)
    (registers : m.registers = s.registers)
    (same : m' = m.withRegisters u.registers u.loaded) :
    Alike hidden ⟨m, raised⟩ ⟨m', raised⟩ := by
  subst same
  refine ⟨rfl, ?_⟩
  intro r visible
  rw [registers]
  exact alike.registers r visible

theorem set (alike : Alike hidden s u) (r v : BitVec 32) :
    Alike hidden (s.set r v) (u.set r v) := by
  have raised : u.raised = s.raised := by rw [alike.same]
  refine ⟨?_, ?_⟩
  · rw [alike.same]
    rfl
  · intro other visible
    simp only [Simulation.set, set_registers]
    rw [alike.registers other visible]

/-- An address that one machine translates, the other translates too. -/
theorem translate {writing : Bool} {physAddr : Nat} {m : Processor} (alike : Alike hidden s u)
    (ok : s.translate addr size writing = some (.ok (physAddr, m))) :
    u.translate addr size writing =
      some (.ok (physAddr, m.withRegisters u.registers u.loaded)) := by
  have kept : u.toProcessor = s.withRegisters u.registers u.loaded :=
    congrArg Simulation.toProcessor alike.same
  rw [kept]
  exact translate_withRegisters ok

/-- A read that succeeds on one machine gives the same on the other. -/
theorem readMem (alike : Alike hidden s u) (known : AccessSize size) {value : BitVec 32}
    (read : s.readMem handler addr size = .returns (some value) s') :
    ∃ u', u.readMem handler addr size = .returns (some value) u' ∧ Alike hidden s' u' ∧
      s'.registers = s.registers ∧ u'.registers = u.registers ∧ s'.raised = s.raised := by
  have raised : u.raised = s.raised := by rw [alike.same]
  unfold Simulation.readMem at read ⊢
  split at read
  · cases read
  · exact absurd read Simulation.raiseException_ne_some
  · rename_i physAddr m ok
    have intact := intact_of_translate ok
    rw [alike.translate ok]
    rcases known with rfl | rfl | rfl
    · cases read
      exact ⟨_, rfl, by rw [raised]; exact alike.carry intact.registers rfl,
        intact.registers, rfl, rfl⟩
    · cases read
      exact ⟨_, rfl, by rw [raised]; exact alike.carry intact.registers rfl,
        intact.registers, rfl, rfl⟩
    · cases read
      exact ⟨_, rfl, by rw [raised]; exact alike.carry intact.registers rfl,
        intact.registers, rfl, rfl⟩

theorem writeMem (alike : Alike hidden s u) (known : AccessSize size) {value : BitVec 32}
    (wrote : s.writeMem handler addr size value = .returns (some ()) s') :
    ∃ u', u.writeMem handler addr size value = .returns (some ()) u' ∧ Alike hidden s' u' ∧
      s'.registers = s.registers ∧ u'.registers = u.registers ∧ s'.raised = s.raised := by
  have raised : u.raised = s.raised := by rw [alike.same]
  unfold Simulation.writeMem at wrote ⊢
  split at wrote
  · cases wrote
  · exact absurd wrote Simulation.raiseException_ne_some
  · rename_i physAddr m ok
    have intact := intact_of_translate ok
    rw [alike.translate ok]
    rcases known with rfl | rfl | rfl
    · cases wrote
      exact ⟨_, rfl, by rw [raised]; exact alike.carry intact.registers rfl,
        intact.registers, rfl, rfl⟩
    · cases wrote
      exact ⟨_, rfl, by rw [raised]; exact alike.carry intact.registers rfl,
        intact.registers, rfl, rfl⟩
    · cases wrote
      exact ⟨_, rfl, by rw [raised]; exact alike.carry intact.registers rfl,
        intact.registers, rfl, rfl⟩

end Alike

/-! ### The `switch` on machines that are alike -/

/-- Where the `switch` is left with a `break` on one machine, so it is on the
other, and the machines stay alike. -/
def BreaksAlike (hidden : BitVec 32 → Prop) (e e' : Ending Flow) : Prop :=
  ∀ (pcAfter nextLoadReg nextLoadValue : BitVec 32) (s' : Simulation),
    e = .returns (.breaks pcAfter nextLoadReg nextLoadValue) s' →
      ∃ u', e' = .returns (.breaks pcAfter nextLoadReg nextLoadValue) u' ∧ Alike hidden s' u'

namespace BreaksAlike

variable {hidden : BitVec 32 → Prop} {s u : Simulation} {handler : Handler}
  {pcAfter addr tmp : BitVec 32} {size : Nat} {e' : Ending Flow}

theorem returns (alike : Alike hidden s u) (nextLoadReg nextLoadValue : BitVec 32) :
    BreaksAlike hidden (.returns (.breaks pcAfter nextLoadReg nextLoadValue) s)
      (.returns (.breaks pcAfter nextLoadReg nextLoadValue) u) := by
  intro _ _ _ s' ended
  cases ended
  exact ⟨u, rfl, alike⟩

theorem assign (alike : Alike hidden s u) (r v : BitVec 32) :
    BreaksAlike hidden (s.assign pcAfter r v) (u.assign pcAfter r v) :=
  returns (alike.set r v) 0 0

theorem setLoHi (alike : Alike hidden s u) (lo hi : BitVec 32) :
    BreaksAlike hidden (s.setLoHi pcAfter lo hi) (u.setLoHi pcAfter lo hi) :=
  assign (alike.set loReg lo) hiReg hi

/-- After an exception there is no `break`. -/
theorem raises (which : ExceptionType) (badVAddr : BitVec 32) :
    BreaksAlike hidden (s.raiseException handler which badVAddr .leaves) e' := by
  intro _ _ _ s' ended
  unfold Simulation.raiseException at ended
  split at ended
  · cases ended
  · cases ended

theorem stops (why : Stop) : BreaksAlike hidden (.stops why s) e' := by
  intro _ _ _ s' ended
  cases ended

/-- A successful read, and what follows. -/
theorem read (alike : Alike hidden s u) (known : AccessSize size)
    {next next' : BitVec 32 → Simulation → Ending Flow}
    (continues : ∀ value s' u', Alike hidden s' u' → s'.registers = s.registers →
      u'.registers = u.registers → BreaksAlike hidden (next value s') (next' value u')) :
    BreaksAlike hidden ((s.readMem handler addr size).orReturn next)
      ((u.readMem handler addr size).orReturn next') := by
  intro a b c s' ended
  unfold Ending.orReturn at ended ⊢
  cases read : s.readMem handler addr size with
  | stops why left =>
      rw [read] at ended
      cases ended
  | returns answer left =>
      rw [read] at ended
      cases answer with
      | none => cases ended
      | some value =>
          obtain ⟨left', read', alike', registers, registers', -⟩ := alike.readMem known read
          rw [read']
          exact continues value left left' alike' registers registers' a b c s' ended

theorem load (alike : Alike hidden s u) (known : AccessSize size) (rt : BitVec 32)
    {value value' : Simulation → BitVec 32 → BitVec 32}
    (same : ∀ s' u' : Simulation, s'.registers = s.registers → u'.registers = u.registers →
      value s' = value' u') :
    BreaksAlike hidden (s.load handler addr size pcAfter rt value)
      (u.load handler addr size pcAfter rt value') := by
  apply read alike known
  intro word s' u' alike' registers registers'
  rw [same s' u' registers registers']
  exact returns alike' _ _

theorem store (alike : Alike hidden s u) (known : AccessSize size) (value : BitVec 32) :
    BreaksAlike hidden (s.store handler addr size pcAfter value)
      (u.store handler addr size pcAfter value) := by
  intro a b c s' ended
  unfold Simulation.store Ending.orReturn at ended ⊢
  cases wrote : s.writeMem handler addr size value with
  | stops why left =>
      rw [wrote] at ended
      cases ended
  | returns answer left =>
      rw [wrote] at ended
      cases answer with
      | none => cases ended
      | some done =>
          obtain ⟨left', wrote', alike', -⟩ := alike.writeMem known wrote
          rw [wrote']
          exact returns alike' 0 0 a b c s' ended

theorem storePart (alike : Alike hidden s u)
    {value value' : Simulation → BitVec 32 → BitVec 32}
    (same : ∀ s' u' : Simulation, s'.registers = s.registers → u'.registers = u.registers →
      value s' = value' u') :
    BreaksAlike hidden (s.storePart handler tmp pcAfter value)
      (u.storePart handler tmp pcAfter value') := by
  have word : AccessSize 4 := Or.inr (Or.inr rfl)
  apply read alike word
  intro whole s' u' alike' registers registers'
  rw [same s' u' registers registers']
  exact store alike' word _

theorem assertWord {next next' : Ending Flow} (continues : BreaksAlike hidden next next') :
    BreaksAlike hidden (s.assertWord tmp next) (u.assertWord tmp next') := by
  unfold Simulation.assertWord
  split
  · exact continues
  · exact stops _

end BreaksAlike

namespace Simulation

variable {hidden : BitVec 32 → Prop} {handler : Handler} {instr : Instruction}
  {s u : Simulation}

/-- The `switch` sees of the registers only those that the instruction reads,
the program counter and, in the partial loads, the load that is pending. -/
theorem execute_alike (alike : Alike hidden s u)
    (nextPC : u.registers nextPCReg = s.registers nextPCReg)
    (reads : ∀ r ∈ instr.reads, ¬ hidden r)
    (held : instr.opCode = .lwl ∨ instr.opCode = .lwr →
      u.heldBy (gpr instr.rt) = s.heldBy (gpr instr.rt)) :
    BreaksAlike hidden (s.execute handler instr) (u.execute handler instr) := by
  have byte : AccessSize 1 := Or.inl rfl
  have short : AccessSize 2 := Or.inr (Or.inl rfl)
  have word : AccessSize 4 := Or.inr (Or.inr rfl)
  have seen (r : BitVec 32) (member : r ∈ instr.reads) : u.registers r = s.registers r :=
    alike.registers r (reads r member)
  unfold execute
  dsimp only
  rw [nextPC]
  unfold Instruction.reads at seen reads
  cases op : instr.opCode with
  | add | sub =>
      have rs := seen (gpr instr.rs) (by simp [op])
      have rt := seen (gpr instr.rt) (by simp [op])
      dsimp only
      rw [rs, rt]
      split
      · exact BreaksAlike.raises _ _
      · exact BreaksAlike.assign alike _ _
  | addi =>
      have rs := seen (gpr instr.rs) (by simp [op])
      dsimp only
      rw [rs]
      split
      · exact BreaksAlike.raises _ _
      · exact BreaksAlike.assign alike _ _
  | addu | and | nor | sllv | slt | sltu | srav | srlv | subu | xor =>
      have rs := seen (gpr instr.rs) (by simp [op])
      have rt := seen (gpr instr.rt) (by simp [op])
      dsimp only
      rw [rs, rt]
      exact BreaksAlike.assign alike _ _
  | addiu | andi | or | ori | slti | sltiu | xori | mthi | mtlo =>
      have rs := seen (gpr instr.rs) (by simp [op])
      dsimp only
      rw [rs]
      exact BreaksAlike.assign alike _ _
  | sll | sra | srl =>
      have rt := seen (gpr instr.rt) (by simp [op])
      dsimp only
      rw [rt]
      exact BreaksAlike.assign alike _ _
  | mfhi =>
      have hi := seen hiReg (by simp [op])
      dsimp only
      rw [hi]
      exact BreaksAlike.assign alike _ _
  | mflo =>
      have lo := seen loReg (by simp [op])
      dsimp only
      rw [lo]
      exact BreaksAlike.assign alike _ _
  | lui => exact BreaksAlike.assign alike _ _
  | mult | multu =>
      have rs := seen (gpr instr.rs) (by simp [op])
      have rt := seen (gpr instr.rt) (by simp [op])
      dsimp only
      rw [rs, rt]
      exact BreaksAlike.setLoHi alike _ _
  | div =>
      have rs := seen (gpr instr.rs) (by simp [op])
      have rt := seen (gpr instr.rt) (by simp [op])
      dsimp only
      rw [rs, rt]
      split
      · exact BreaksAlike.setLoHi alike _ _
      · split
        · exact BreaksAlike.stops _
        · exact BreaksAlike.setLoHi alike _ _
  | divu =>
      have rs := seen (gpr instr.rs) (by simp [op])
      have rt := seen (gpr instr.rt) (by simp [op])
      dsimp only
      rw [rs, rt]
      split
      · exact BreaksAlike.setLoHi alike _ _
      · exact BreaksAlike.setLoHi alike _ _
  | beq | bne =>
      have rs := seen (gpr instr.rs) (by simp [op])
      have rt := seen (gpr instr.rt) (by simp [op])
      dsimp only [branch]
      rw [rs, rt]
      exact BreaksAlike.returns alike _ _
  | bgez | bgtz | blez | bltz | jr =>
      have rs := seen (gpr instr.rs) (by simp [op])
      dsimp only [branch]
      rw [rs]
      exact BreaksAlike.returns alike _ _
  | bgezal | bltzal =>
      -- the link may be the register that is tested
      have linked := alike.set retAddrReg (s.registers nextPCReg + 4)
      have rs := linked.registers (gpr instr.rs) (reads _ (by simp [op]))
      dsimp only [branch]
      rw [rs]
      exact BreaksAlike.returns linked _ _
  | jalr =>
      have linked := alike.set (gpr instr.rd) (s.registers nextPCReg + 4)
      have rs := linked.registers (gpr instr.rs) (reads _ (by simp [op]))
      dsimp only
      rw [rs]
      exact BreaksAlike.returns linked _ _
  | jal => exact BreaksAlike.returns (alike.set _ _) _ _
  | j => exact BreaksAlike.returns alike _ _
  | lb | lbu =>
      have rs := seen (gpr instr.rs) (by simp [op])
      dsimp only
      rw [rs]
      exact BreaksAlike.load alike byte _ fun _ _ _ _ => rfl
  | lh | lhu =>
      have rs := seen (gpr instr.rs) (by simp [op])
      dsimp only
      rw [rs]
      split
      · exact BreaksAlike.raises _ _
      · exact BreaksAlike.load alike short _ fun _ _ _ _ => rfl
  | lw =>
      have rs := seen (gpr instr.rs) (by simp [op])
      dsimp only
      rw [rs]
      split
      · exact BreaksAlike.raises _ _
      · exact BreaksAlike.load alike word _ fun _ _ _ _ => rfl
  | lwl =>
      have rs := seen (gpr instr.rs) (by simp [op])
      have rt := held (by simp [op])
      dsimp only
      rw [rs]
      apply BreaksAlike.assertWord
      apply BreaksAlike.load alike word
      intro s' u' registers registers'
      funext value
      unfold heldBy at rt
      simp only [lwlValue, heldBy, registers, registers', rt]
  | lwr =>
      have rs := seen (gpr instr.rs) (by simp [op])
      have rt := held (by simp [op])
      dsimp only
      rw [rs]
      apply BreaksAlike.assertWord
      apply BreaksAlike.load alike word
      intro s' u' registers registers'
      funext value
      unfold heldBy at rt
      simp only [lwrValue, heldBy, registers, registers', rt]
  | sb =>
      have rs := seen (gpr instr.rs) (by simp [op])
      have rt := seen (gpr instr.rt) (by simp [op])
      dsimp only
      rw [rs, rt]
      exact BreaksAlike.store alike byte _
  | sh =>
      have rs := seen (gpr instr.rs) (by simp [op])
      have rt := seen (gpr instr.rt) (by simp [op])
      dsimp only
      rw [rs, rt]
      exact BreaksAlike.store alike short _
  | sw =>
      have rs := seen (gpr instr.rs) (by simp [op])
      have rt := seen (gpr instr.rt) (by simp [op])
      dsimp only
      rw [rs, rt]
      exact BreaksAlike.store alike word _
  | swl =>
      have rs := seen (gpr instr.rs) (by simp [op])
      have rt := seen (gpr instr.rt) (by simp [op])
      dsimp only
      rw [rs]
      apply BreaksAlike.assertWord
      apply BreaksAlike.storePart alike
      intro s' u' registers registers'
      funext value
      simp only [swlValue, registers, registers', rt]
  | swr =>
      have rs := seen (gpr instr.rs) (by simp [op])
      have rt := seen (gpr instr.rt) (by simp [op])
      dsimp only
      rw [rs]
      apply BreaksAlike.assertWord
      apply BreaksAlike.storePart alike
      intro s' u' registers registers'
      funext value
      simp only [swrValue, registers, registers', rt]
  | syscall | unimp | res => exact BreaksAlike.raises _ _
  | rfe | special | bcond => exact BreaksAlike.stops _

end Simulation

/-! ### What the `switch` assigns -/

/-- Where the `switch` is left with a `break`, only registers in `written` have
other values than in `s`. -/
def BreaksWithin (written : List (BitVec 32)) (s : Simulation) (e : Ending Flow) : Prop :=
  ∀ (pcAfter nextLoadReg nextLoadValue : BitVec 32) (s' : Simulation),
    e = .returns (.breaks pcAfter nextLoadReg nextLoadValue) s' →
      ∀ r, r ∉ written → s'.registers r = s.registers r

namespace BreaksWithin

variable {written : List (BitVec 32)} {s : Simulation} {handler : Handler}
  {pcAfter addr tmp : BitVec 32} {size : Nat}

theorem returns {left : Simulation} (nextLoadReg nextLoadValue : BitVec 32)
    (frame : ∀ r, r ∉ written → left.registers r = s.registers r) :
    BreaksWithin written s (.returns (.breaks pcAfter nextLoadReg nextLoadValue) left) := by
  intro _ _ _ s' ended
  cases ended
  exact frame

theorem set_of_not_mem {left : Simulation} {r v : BitVec 32} (mem : r ∈ written)
    (frame : ∀ r, r ∉ written → left.registers r = s.registers r) :
    ∀ other, other ∉ written → (left.set r v).registers other = s.registers other := by
  intro other outside
  have different : other ≠ r := by
    rintro rfl
    exact outside mem
  simp only [Simulation.set, set_registers]
  rw [if_neg different, frame other outside]

theorem assign {r : BitVec 32} (mem : r ∈ written) (v : BitVec 32) :
    BreaksWithin written s (s.assign pcAfter r v) :=
  returns 0 0 (set_of_not_mem mem fun _ _ => rfl)

theorem setLoHi (lo hi : BitVec 32) :
    BreaksWithin [loReg, hiReg] s (s.setLoHi pcAfter lo hi) :=
  returns 0 0 (set_of_not_mem (by simp) (set_of_not_mem (by simp) fun _ _ => rfl))

theorem raises {left : Simulation} (which : ExceptionType) (badVAddr : BitVec 32) :
    BreaksWithin written s (left.raiseException handler which badVAddr .leaves) := by
  intro _ _ _ s' ended
  unfold Simulation.raiseException at ended
  split at ended
  · cases ended
  · cases ended

theorem stops (why : Stop) (left : Simulation) : BreaksWithin written s (.stops why left) := by
  intro _ _ _ s' ended
  cases ended

/-- An access to memory, and what follows when it succeeds. -/
theorem orReturn {α : Type} {left : Simulation} {Frame : Processor → Processor → Prop}
    {e : Ending (Option α)} {next : α → Simulation → Ending Flow}
    (accessed : Accessed handler addr left Frame e)
    (continues : ∀ value m', Frame left.toProcessor m' →
      BreaksWithin written s (next value { left with toProcessor := m' })) :
    BreaksWithin written s (e.orReturn next) := by
  cases accessed with
  | succeeds value frame => exact continues value _ frame
  | raises fault =>
      unfold Ending.orReturn
      rw [Simulation.andThen_raiseException]
      · exact raises _ _
      · exact fun _ => rfl
  | aborts unmapped => exact stops _ _

theorem load (known : AccessSize size) (rt : BitVec 32)
    (value : Simulation → BitVec 32 → BitVec 32) :
    BreaksWithin written s (s.load handler addr size pcAfter rt value) := by
  apply orReturn (s.accessed_readMem handler addr known)
  intro word m' intact
  exact returns _ _ fun r _ => congrFun intact.registers r

theorem store {m : Processor} (registers : m.registers = s.registers)
    (known : AccessSize size) (value : BitVec 32) :
    BreaksWithin written s
      (Simulation.store handler addr size pcAfter value { s with toProcessor := m }) := by
  apply orReturn (Simulation.accessed_writeMem handler addr _ value known)
  intro _ m' kept
  refine returns _ _ fun r _ => ?_
  rw [← registers]
  exact congrFun kept.registers r

theorem storePart (value : Simulation → BitVec 32 → BitVec 32) :
    BreaksWithin written s (s.storePart handler tmp pcAfter value) := by
  have word : AccessSize 4 := Or.inr (Or.inr rfl)
  apply orReturn (s.accessed_readMem handler (tmp &&& ~~~3) word)
  intro whole m intact
  exact store intact.registers word _

theorem assertWord {next : Ending Flow} (continues : BreaksWithin written s next) :
    BreaksWithin written s (s.assertWord tmp next) := by
  unfold Simulation.assertWord
  split
  · exact continues
  · exact stops _ _

end BreaksWithin

namespace Simulation

/-- The `switch` assigns to no register but those that the instruction
writes. -/
theorem execute_frame (handler : Handler) (instr : Instruction) (s : Simulation) :
    BreaksWithin instr.writes s (s.execute handler instr) := by
  have byte : AccessSize 1 := Or.inl rfl
  have short : AccessSize 2 := Or.inr (Or.inl rfl)
  have word : AccessSize 4 := Or.inr (Or.inr rfl)
  unfold execute Instruction.writes
  dsimp only
  cases op : instr.opCode with
  | add | addi | sub =>
      dsimp only
      split
      · exact BreaksWithin.raises _ _
      · exact BreaksWithin.assign (by simp) _
  | addiu | addu | and | andi | lui | mfhi | mflo | nor | or | ori | sll | sllv | slt | slti
  | sltiu | sltu | sra | srav | srl | srlv | subu | xor | xori | mthi | mtlo =>
      exact BreaksWithin.assign (by simp) _
  | mult | multu => exact BreaksWithin.setLoHi _ _
  | div =>
      dsimp only
      split
      · exact BreaksWithin.setLoHi _ _
      · split
        · exact BreaksWithin.stops _ _
        · exact BreaksWithin.setLoHi _ _
  | divu =>
      dsimp only
      split
      · exact BreaksWithin.setLoHi _ _
      · exact BreaksWithin.setLoHi _ _
  | beq | bgez | bgtz | blez | bltz | bne | j | jr =>
      exact BreaksWithin.returns _ _ fun _ _ => rfl
  | bgezal | bltzal | jal | jalr =>
      exact BreaksWithin.returns _ _
        (BreaksWithin.set_of_not_mem (by simp) fun _ _ => rfl)
  | lb | lbu => exact BreaksWithin.load byte _ _
  | lh | lhu =>
      dsimp only
      split
      · exact BreaksWithin.raises _ _
      · exact BreaksWithin.load short _ _
  | lw =>
      dsimp only
      split
      · exact BreaksWithin.raises _ _
      · exact BreaksWithin.load word _ _
  | lwl | lwr => exact BreaksWithin.assertWord (BreaksWithin.load word _ _)
  | sb => exact BreaksWithin.store rfl byte _
  | sh => exact BreaksWithin.store rfl short _
  | sw => exact BreaksWithin.store rfl word _
  | swl | swr => exact BreaksWithin.assertWord (BreaksWithin.storePart _)
  | syscall | unimp | res => exact BreaksWithin.raises _ _
  | rfe | special | bcond => exact BreaksWithin.stops _ _

end Simulation

/-! ### One instruction -/

/-- `OneInstruction` completes without an exception and leaves `m'`. -/
def Processor.Completes (handler : Handler) (m m' : Processor) : Prop :=
  Simulation.oneInstruction handler ⟨m, []⟩ = .returns () ⟨m', []⟩

/-- The machines are the same but for the record of delayed loads. -/
def Processor.Same (m u : Processor) : Prop :=
  u = m.withRegisters m.registers u.loaded

theorem Processor.Same.refl (m : Processor) : m.Same m :=
  rfl

theorem Processor.Same.registers_eq {m u : Processor} (same : m.Same u) :
    u.registers = m.registers := by
  have equal : u = m.withRegisters m.registers u.loaded := same
  rw [equal]
  rfl

theorem Processor.delayedLoad_loadReg (m : Processor) (nextReg nextValue : BitVec 32) :
    (m.delayedLoad nextReg nextValue).registers loadReg = nextReg := by
  rw [delayedLoad_registers, if_neg (by decide), if_neg (by decide), if_pos rfl]

theorem Processor.delayedLoad_loadValueReg (m : Processor) (nextReg nextValue : BitVec 32) :
    (m.delayedLoad nextReg nextValue).registers loadValueReg = nextValue := by
  rw [delayedLoad_registers, if_neg (by decide), if_pos rfl]

theorem Instruction.writes_low (instr : Instruction) : ∀ r ∈ instr.writes, r.toNat < 34 := by
  have low (n : BitVec 5) : (gpr n).toNat < 34 := by
    have small := generalPurpose_iff.mp (generalPurpose_gpr n)
    omega
  unfold writes
  split <;> simp [low, retAddrReg, loReg, hiReg]

theorem Instruction.reads_low (instr : Instruction) : ∀ r ∈ instr.reads, r.toNat < 34 := by
  have low (n : BitVec 5) : (gpr n).toNat < 34 := by
    have small := generalPurpose_iff.mp (generalPurpose_gpr n)
    omega
  unfold reads
  dsimp only
  split <;> simp [low, loReg, hiReg]

section

variable {hidden : BitVec 32 → Prop} {handler : Handler} {m m' u : Processor} {raw : BitVec 32}

/-- An instruction that completes has been fetched and has left the `switch` with
a `break`. -/
theorem Processor.Completes.breaks (completes : m.Completes handler m')
    (fetched : m.fetch = some raw) :
    ∃ (s₀ s₁ : Simulation) (pcAfter nextLoadReg nextLoadValue : BitVec 32),
      Simulation.readMem handler (m.registers pcReg) 4 ⟨m, []⟩ = .returns (some raw) s₀ ∧
        s₀.execute handler (Instruction.decode raw) =
          .returns (.breaks pcAfter nextLoadReg nextLoadValue) s₁ ∧
        ⟨m', []⟩ = s₁.advance pcAfter nextLoadReg nextLoadValue ∧
        GeneralPurpose nextLoadReg := by
  unfold Processor.Completes Simulation.oneInstruction at completes
  rcases Simulation.readMem_pc handler ⟨m, []⟩ with
    ⟨word, left, fetched', -, read⟩ | other | other
  · obtain rfl : word = raw := Option.some.inj (fetched'.symm.trans fetched)
    rw [read] at completes
    have executed := Simulation.executed_execute handler (Instruction.decode word) ⟨left, []⟩
    change Simulation.perform handler (Instruction.decode word) ⟨left, []⟩ = _ at completes
    unfold Simulation.perform at completes
    generalize ended : Simulation.execute handler (Instruction.decode word) ⟨left, []⟩ = e
      at executed completes
    cases executed with
    | breaks nextLoadValue computes target =>
        exact ⟨_, _, _, _, _, read, ended, (Ending.returns.inj completes).2.symm, target⟩
    | raises which badVAddr intact =>
        -- the call of the handler is on record
        unfold Simulation.raiseException at completes
        split at completes
        · cases completes
        · have recorded := congrArg Simulation.raised (Ending.returns.inj completes).2
          cases recorded
    | fails failure quiet cause => cases completes
  · rw [other.1] at fetched
    cases fetched
  · rw [other.1] at fetched
    cases fetched

/-- A machine that is like one on which an instruction completes performs it
too. -/
theorem Alike.completes (alike : Alike hidden ⟨m, []⟩ ⟨u, []⟩)
    (pc : u.registers pcReg = m.registers pcReg)
    (nextPC : u.registers nextPCReg = m.registers nextPCReg)
    (reads : ∀ r ∈ (Instruction.decode raw).reads, ¬ hidden r)
    (held : (Instruction.decode raw).opCode = .lwl ∨ (Instruction.decode raw).opCode = .lwr →
      Simulation.heldBy (gpr (Instruction.decode raw).rt) ⟨u, []⟩ =
        Simulation.heldBy (gpr (Instruction.decode raw).rt) ⟨m, []⟩)
    (completes : m.Completes handler m') (fetched : m.fetch = some raw) :
    ∃ (s₁ u₁ : Simulation) (pcAfter nextLoadReg nextLoadValue : BitVec 32),
      ⟨m', []⟩ = s₁.advance pcAfter nextLoadReg nextLoadValue ∧
        Simulation.oneInstruction handler ⟨u, []⟩ =
          .returns () (u₁.advance pcAfter nextLoadReg nextLoadValue) ∧
        Alike hidden s₁ u₁ ∧
        ∀ r, r ∉ (Instruction.decode raw).writes →
          s₁.registers r = m.registers r ∧ u₁.registers r = u.registers r := by
  obtain ⟨s₀, s₁, pcAfter, nextLoadReg, nextLoadValue, read, breaks, advanced, -⟩ :=
    completes.breaks fetched
  have word : AccessSize 4 := Or.inr (Or.inr rfl)
  obtain ⟨u₀, read', alike₀, registers, registers', -⟩ := alike.readMem word read
  dsimp only at registers registers'
  have sameNext : u₀.registers nextPCReg = s₀.registers nextPCReg := by
    rw [registers, registers', nextPC]
  have sameHeld : (Instruction.decode raw).opCode = .lwl ∨
      (Instruction.decode raw).opCode = .lwr →
        u₀.heldBy (gpr (Instruction.decode raw).rt) =
          s₀.heldBy (gpr (Instruction.decode raw).rt) := by
    intro part
    have before := held part
    unfold Simulation.heldBy at before ⊢
    rw [registers, registers']
    exact before
  obtain ⟨u₁, breaks', alike₁⟩ :=
    Simulation.execute_alike alike₀ sameNext reads sameHeld _ _ _ _ breaks
  refine ⟨s₁, u₁, pcAfter, nextLoadReg, nextLoadValue, advanced, ?_, alike₁, ?_⟩
  · unfold Simulation.oneInstruction
    rw [show (⟨u, []⟩ : Simulation).registers pcReg = m.registers pcReg from pc, read']
    change Simulation.perform handler (Instruction.decode raw) u₀ = _
    unfold Simulation.perform
    rw [breaks']
    rfl
  · intro r unwritten
    rw [Simulation.execute_frame handler _ s₀ _ _ _ _ breaks r unwritten,
      Simulation.execute_frame handler _ u₀ _ _ _ _ breaks' r unwritten, registers, registers']
    exact ⟨rfl, rfl⟩

theorem advance_registers (s : Simulation) (pcAfter nextLoadReg nextLoadValue r : BitVec 32) :
    (s.advance pcAfter nextLoadReg nextLoadValue).registers r =
      let after := (s.delayedLoad nextLoadReg nextLoadValue).registers
      if r = nextPCReg then pcAfter
      else if r = pcReg then after nextPCReg
      else if r = prevPCReg then after pcReg
      else after r := by
  simp only [Simulation.advance, Simulation.set, set_registers]
  rfl

/-- Alike machines that show the same registers after the delayed load are the
same after the instruction. -/
theorem Alike.advance {s₁ u₁ : Simulation} {nextLoadReg nextLoadValue : BitVec 32}
    (alike : Alike hidden s₁ u₁)
    (registers : (u₁.delayedLoad nextLoadReg nextLoadValue).registers =
      (s₁.delayedLoad nextLoadReg nextLoadValue).registers) (pcAfter : BitVec 32) :
    ∃ loaded, u₁.advance pcAfter nextLoadReg nextLoadValue =
      { s₁.advance pcAfter nextLoadReg nextLoadValue with
        toProcessor := (s₁.advance pcAfter nextLoadReg nextLoadValue).withRegisters
          (s₁.advance pcAfter nextLoadReg nextLoadValue).registers loaded } := by
  have after : (u₁.advance pcAfter nextLoadReg nextLoadValue).registers =
      (s₁.advance pcAfter nextLoadReg nextLoadValue).registers := by
    funext r
    rw [advance_registers, advance_registers, registers]
  have shape : u₁.advance pcAfter nextLoadReg nextLoadValue =
      { s₁.advance pcAfter nextLoadReg nextLoadValue with
        toProcessor := (s₁.advance pcAfter nextLoadReg nextLoadValue).withRegisters
          (u₁.advance pcAfter nextLoadReg nextLoadValue).registers
          (u₁.advance pcAfter nextLoadReg nextLoadValue).loaded } := by
    rw [alike.same]
    rfl
  rw [after] at shape
  exact ⟨_, shape⟩

/-- The registers that an interrupt before the instruction changes. -/
def Processor.Pending (m : Processor) (r : BitVec 32) : Prop :=
  r = loadReg ∨ r = loadValueReg ∨ (r = m.registers loadReg ∧ r ≠ 0)

theorem Processor.Same.alike (same : (m.delayedLoad 0 0).Same u) (zero : m.registers 0 = 0) :
    Alike m.Pending ⟨m, []⟩ ⟨u, []⟩ ∧ u.registers = (m.delayedLoad 0 0).registers := by
  have registers : u.registers = (m.delayedLoad 0 0).registers :=
    same.registers_eq
  refine ⟨⟨?_, ?_⟩, registers⟩
  · dsimp only
    rw [registers]
    exact congrArg (fun p : Processor => (⟨p, []⟩ : Simulation)) same
  · intro r visible
    dsimp only
    rw [registers, delayedLoad_registers]
    by_cases isZero : r = 0
    · rw [if_pos isZero, isZero, zero]
    · rw [if_neg isZero, if_neg (fun is => visible (.inr (.inl is))),
        if_neg (fun is => visible (.inl is)),
        if_neg (fun is => visible (.inr (.inr ⟨is, isZero⟩)))]

/-- An independent instruction looks at none of these registers. -/
theorem reads_visible (independent : (Instruction.decode raw).Independent (m.registers loadReg)) :
    ∀ r ∈ (Instruction.decode raw).reads, ¬ m.Pending r := by
  rintro r member (isLoad | isLoadValue | ⟨isTarget, nonzero⟩)
  · have low := Instruction.reads_low _ r member
    rw [isLoad] at low
    exact absurd low (by decide)
  · have low := Instruction.reads_low _ r member
    rw [isLoadValue] at low
    exact absurd low (by decide)
  · rcases independent with ⟨none, -⟩ | ⟨-, unread, -⟩
    · exact nonzero (isTarget.trans none)
    · rw [isTarget] at member
      exact unread member

/-- The partial loads see the same register. -/
theorem heldBy_same (zero : m.registers 0 = 0)
    (registers : u.registers = (m.delayedLoad 0 0).registers)
    (independent : (Instruction.decode raw).Independent (m.registers loadReg))
    (part : (Instruction.decode raw).opCode = .lwl ∨ (Instruction.decode raw).opCode = .lwr) :
    Simulation.heldBy (gpr (Instruction.decode raw).rt) ⟨u, []⟩ =
      Simulation.heldBy (gpr (Instruction.decode raw).rt) ⟨m, []⟩ := by
  have general := generalPurpose_gpr (Instruction.decode raw).rt
  have notLoadValue : gpr (Instruction.decode raw).rt ≠ loadValueReg := by
    rintro is
    exact general.ne (by decide) is.symm
  have notLoad : gpr (Instruction.decode raw).rt ≠ loadReg := by
    rintro is
    exact general.ne (by decide) is.symm
  have other : m.registers loadReg ≠ gpr (Instruction.decode raw).rt := by
    rcases independent with ⟨none, notPart⟩ | ⟨-, unread, -⟩
    · intro is
      exact notPart ⟨part, is.symm.trans none⟩
    · intro is
      apply unread
      rw [is]
      unfold Instruction.reads
      rcases part with op | op
      · simp [op]
      · simp [op]
  unfold Simulation.heldBy
  dsimp only
  rw [if_neg other, registers, delayedLoad_loadReg, delayedLoad_loadValueReg]
  by_cases isZero : gpr (Instruction.decode raw).rt = 0
  · rw [if_pos isZero.symm, isZero, zero]
  · rw [if_neg (fun is => isZero is.symm), delayedLoad_registers, if_neg isZero,
      if_neg notLoadValue, if_neg notLoad, if_neg (fun is => other is.symm)]

/-- An instruction that does not use the target of the pending load ends the
same when an interrupt has applied that load before. -/
theorem completes_interrupted (zero : m.registers 0 = 0)
    (pending : GeneralPurpose (m.registers loadReg)) (fetched : m.fetch = some raw)
    (independent : (Instruction.decode raw).Independent (m.registers loadReg))
    (completes : m.Completes handler m') (same : (m.delayedLoad 0 0).Same u) :
    ∃ u', u.Completes handler u' ∧ m'.Same u' := by
  obtain ⟨alike, registers⟩ := same.alike zero
  have counter (named : BitVec 32) (high : 32 ≤ named.toNat) (notLoad : named ≠ loadReg)
      (notLoadValue : named ≠ loadValueReg) (nonzero : named ≠ 0) :
      u.registers named = m.registers named := by
    apply alike.registers
    rintro (isLoad | isLoadValue | ⟨isTarget, -⟩)
    · exact notLoad isLoad
    · exact notLoadValue isLoadValue
    · exact pending.ne high isTarget
  obtain ⟨s₁, u₁, pcAfter, nextLoadReg, nextLoadValue, advanced, performed, alike₁, frame⟩ :=
    alike.completes (counter pcReg (by decide) (by decide) (by decide) (by decide))
      (counter nextPCReg (by decide) (by decide) (by decide) (by decide))
      (reads_visible independent) (heldBy_same zero registers independent) completes fetched
  have unwritten (named : BitVec 32) (high : 34 ≤ named.toNat) :
      named ∉ (Instruction.decode raw).writes := by
    intro member
    have low := Instruction.writes_low _ named member
    omega
  have load := frame loadReg (unwritten _ (by decide))
  have loadValue := frame loadValueReg (unwritten _ (by decide))
  rw [registers, delayedLoad_loadReg] at load
  rw [registers, delayedLoad_loadValueReg] at loadValue
  -- what one machine still loads the other has loaded
  have after : (u₁.delayedLoad nextLoadReg nextLoadValue).registers =
      (s₁.delayedLoad nextLoadReg nextLoadValue).registers := by
    funext r
    simp only [Simulation.delayedLoad, delayedLoad_registers]
    by_cases isZero : r = 0
    · rw [if_pos isZero, if_pos isZero]
    · rw [if_neg isZero, if_neg isZero]
      by_cases isLoadValue : r = loadValueReg
      · rw [if_pos isLoadValue, if_pos isLoadValue]
      · rw [if_neg isLoadValue, if_neg isLoadValue]
        by_cases isLoad : r = loadReg
        · rw [if_pos isLoad, if_pos isLoad]
        · rw [if_neg isLoad, if_neg isLoad, load.1, load.2, if_neg isZero]
          by_cases isTarget : r = m.registers loadReg
          · have spared : r ∉ (Instruction.decode raw).writes := by
              rcases independent with ⟨none, -⟩ | ⟨-, -, spared⟩
              · exact absurd (isTarget.trans none) isZero
              · rw [isTarget]
                exact spared
            rw [if_pos isTarget, loadValue.1, (frame r spared).2, registers,
              delayedLoad_registers, if_neg isZero, if_neg isLoadValue, if_neg isLoad,
              if_pos isTarget]
          · rw [if_neg isTarget]
            apply alike₁.registers
            rintro (is | is | ⟨is, -⟩)
            · exact isLoad is
            · exact isLoadValue is
            · exact isTarget is
  obtain ⟨loaded, ended⟩ := alike₁.advance after pcAfter
  rw [ended, ← advanced] at performed
  exact ⟨_, performed, rfl⟩

/-- The record of delayed loads is not looked at. -/
theorem completes_same (fetched : m.fetch = some raw) (completes : m.Completes handler m')
    (same : m.Same u) : ∃ u', u.Completes handler u' ∧ m'.Same u' := by
  have registers := same.registers_eq
  have alike : Alike (fun _ => False) ⟨m, []⟩ ⟨u, []⟩ := by
    refine ⟨?_, fun r _ => congrFun registers r⟩
    dsimp only
    rw [registers]
    exact congrArg (fun p : Processor => (⟨p, []⟩ : Simulation)) same
  obtain ⟨s₁, u₁, pcAfter, nextLoadReg, nextLoadValue, advanced, performed, alike₁, frame⟩ :=
    alike.completes (congrFun registers _) (congrFun registers _) (fun _ _ => not_false)
      (fun _ => by simp only [Simulation.heldBy, registers]) completes fetched
  have after : (u₁.delayedLoad nextLoadReg nextLoadValue).registers =
      (s₁.delayedLoad nextLoadReg nextLoadValue).registers := by
    have equal : u₁.registers = s₁.registers :=
      funext fun r => alike₁.registers r not_false
    funext r
    simp only [Simulation.delayedLoad, delayedLoad_registers, equal]
  obtain ⟨loaded, ended⟩ := alike₁.advance after pcAfter
  rw [ended, ← advanced] at performed
  exact ⟨_, performed, rfl⟩

/-- Register 0 and the delayed load are in order again after an instruction. -/
theorem Processor.Completes.after (completes : m.Completes handler m')
    (fetched : m.fetch = some raw) :
    m'.registers 0 = 0 ∧ GeneralPurpose (m'.registers loadReg) := by
  obtain ⟨s₀, s₁, pcAfter, nextLoadReg, nextLoadValue, -, -, advanced, target⟩ :=
    completes.breaks fetched
  have registers : m'.registers =
      (s₁.advance pcAfter nextLoadReg nextLoadValue).registers :=
    congrArg (fun s : Simulation => s.registers) advanced
  constructor
  · rw [registers, advance_registers]
    rfl
  · have load : m'.registers loadReg = nextLoadReg := by
      rw [registers, advance_registers]
      exact delayedLoad_loadReg s₁.toProcessor nextLoadReg nextLoadValue
    rw [load]
    exact target

/-! ### Runs with and without interrupts -/

/-- The machine `u` is where `m` is, or an interrupt has applied the pending
load in it. -/
def Processor.Ahead (m u : Processor) : Prop :=
  m.Same u ∨ (m.delayedLoad 0 0).Same u

theorem delayedLoad_twice (m : Processor) :
    ((m.delayedLoad 0 0).delayedLoad 0 0).registers = (m.delayedLoad 0 0).registers := by
  funext r
  rw [delayedLoad_registers, delayedLoad_loadReg, delayedLoad_loadValueReg,
    delayedLoad_registers]
  by_cases isZero : r = 0
  · rw [if_pos isZero, if_pos isZero]
  · rw [if_neg isZero, if_neg isZero, if_neg isZero]
    by_cases isLoadValue : r = loadValueReg
    · rw [if_pos isLoadValue, if_pos isLoadValue]
    · rw [if_neg isLoadValue, if_neg isLoadValue]
      by_cases isLoad : r = loadReg
      · rw [if_pos isLoad, if_pos isLoad]
      · rw [if_neg isLoad, if_neg isLoad]

theorem Processor.Same.exists (same : m.Same u) :
    ∃ loaded, u = m.withRegisters m.registers loaded :=
  ⟨_, same⟩

/-- One interrupt more. -/
theorem Processor.Ahead.interrupt (ahead : m.Ahead u) : m.Ahead (u.delayedLoad 0 0) := by
  right
  rcases ahead with same | same
  · obtain ⟨loaded, rfl⟩ := same.exists
    rfl
  · obtain ⟨loaded, rfl⟩ := same.exists
    have twice := delayedLoad_twice m
    unfold Processor.Same
    conv_rhs => rw [← twice]
    rfl

theorem Processor.Ahead.tick (ahead : m.Ahead u) (time : Int) :
    Processor.Ahead { m with totalTicks := time } { u with totalTicks := time } := by
  rcases ahead with same | same
  · left
    obtain ⟨loaded, rfl⟩ := same.exists
    rfl
  · right
    obtain ⟨loaded, rfl⟩ := same.exists
    rfl

end

def UserAction.isInterrupt : UserAction → Bool
  | .interrupt => true
  | _ => false

/-- The actions without the interrupts. -/
def straight (acts : List UserAction) : List UserAction :=
  acts.filter fun action => !action.isInterrupt

/-- The program respects the delay slot: the next instruction completes and is
independent of the target of the pending load. -/
def Processor.Respects (m : Processor) : UserAction → Prop
  | .instruction service =>
      ∃ raw m', m.fetch = some raw ∧
        (Instruction.decode raw).Independent (m.registers loadReg) ∧
          m.Completes (exceptionHandler service) m'
  | _ => True

section

variable {m m' u : Processor} {service : Service}

theorem step_of_completes (completes : m.Completes (exceptionHandler service) m') :
    userMachine.step m (.instruction service) = some m' := by
  have performed : Simulation.oneInstruction (exceptionHandler service) ⟨m, []⟩ =
      .returns () ⟨m', []⟩ := completes
  simp only [userMachine, performed]

/-- One instruction, wherever an interrupt may have come before it. -/
theorem step_ahead (zero : m.registers 0 = 0) (pending : GeneralPurpose (m.registers loadReg))
    (ahead : m.Ahead u) (respects : m.Respects (.instruction service))
    (step : userMachine.step m (.instruction service) = some m') :
    (∃ u', userMachine.step u (.instruction service) = some u' ∧ m'.Same u') ∧
      m'.registers 0 = 0 ∧ GeneralPurpose (m'.registers loadReg) := by
  obtain ⟨raw, left, fetched, independent, completes⟩ := respects
  obtain rfl : left = m' := Option.some.inj ((step_of_completes completes).symm.trans step)
  refine ⟨?_, completes.after fetched⟩
  rcases ahead with same | same
  · obtain ⟨u', completes', same'⟩ := completes_same fetched completes same
    exact ⟨u', step_of_completes completes', same'⟩
  · obtain ⟨u', completes', same'⟩ :=
      completes_interrupted zero pending fetched independent completes same
    exact ⟨u', step_of_completes completes', same'⟩

/-- Runs that end with an instruction. -/
theorem exec_ahead (acts : List UserAction) (zero : m.registers 0 = 0)
    (pending : GeneralPurpose (m.registers loadReg)) (ahead : m.Ahead u)
    (run : userMachine.exec m (straight (acts ++ [.instruction service])) = some m')
    (respects : userMachine.Steps Processor.Respects m
      (straight (acts ++ [.instruction service]))) :
    ∃ u', userMachine.exec u (acts ++ [.instruction service]) = some u' ∧ m'.Same u' := by
  induction acts generalizing m u with
  | nil =>
      obtain ⟨next, step, stop⟩ := userMachine.exec_cons_eq_some.mp run
      cases stop
      obtain ⟨⟨u', step', same⟩, -⟩ := step_ahead zero pending ahead respects.1 step
      exact ⟨u', userMachine.exec_cons_eq_some.mpr ⟨u', step', rfl⟩, same⟩
  | cons action acts inductionHypothesis =>
      cases action with
      | interrupt =>
          obtain ⟨u', run', same⟩ :=
            inductionHypothesis zero pending ahead.interrupt run respects
          exact ⟨u', userMachine.exec_cons_eq_some.mpr ⟨_, rfl, run'⟩, same⟩
      | tick =>
          obtain ⟨next, step, rest⟩ := userMachine.exec_cons_eq_some.mp run
          cases step
          have time : u.totalTicks = m.totalTicks := by
            rcases ahead with same | same
            · obtain ⟨loaded, rfl⟩ := same.exists
              rfl
            · obtain ⟨loaded, rfl⟩ := same.exists
              rfl
          obtain ⟨u', run', same⟩ :=
            inductionHypothesis (m := { m with totalTicks := m.totalTicks + userTick }) zero
              pending (ahead.tick (m.totalTicks + userTick)) rest (respects.2 _ rfl)
          refine ⟨u', userMachine.exec_cons_eq_some.mpr ⟨_, rfl, ?_⟩, same⟩
          rw [time]
          exact run'
      | instruction earlier =>
          obtain ⟨next, step, rest⟩ := userMachine.exec_cons_eq_some.mp run
          obtain ⟨⟨v, step', same⟩, zero', pending'⟩ :=
            step_ahead zero pending ahead respects.1 step
          obtain ⟨u', run', same'⟩ :=
            inductionHypothesis zero' pending' (.inl same) rest (respects.2 next step)
          exact ⟨u', userMachine.exec_cons_eq_some.mpr ⟨v, step', run'⟩, same'⟩

/-- An instruction that completes and does not use the target of the pending
load leaves the same machine when `DelayedLoad(0, 0)` has been applied before
it; so a run of a program that respects the delay slot leaves the same machine
after its last instruction wherever interrupts come in between. -/
theorem interrupts_invisible (zero : m.registers 0 = 0)
    (pending : GeneralPurpose (m.registers loadReg)) :
    (∀ handler raw m', m.fetch = some raw →
        (Instruction.decode raw).Independent (m.registers loadReg) →
          m.Completes handler m' →
            ∃ u', (m.delayedLoad 0 0).Completes handler u' ∧
              u'.registers = m'.registers ∧ u'.mainMemory = m'.mainMemory ∧ m'.Same u') ∧
      ∀ (acts : List UserAction) (service : Service) (m' : Processor),
        userMachine.exec m (straight (acts ++ [.instruction service])) = some m' →
          userMachine.Steps Processor.Respects m (straight (acts ++ [.instruction service])) →
            ∃ u', userMachine.exec m (acts ++ [.instruction service]) = some u' ∧
              u'.registers = m'.registers ∧ u'.mainMemory = m'.mainMemory ∧ m'.Same u' := by
  have memory {m' u' : Processor} (same : m'.Same u') : u'.mainMemory = m'.mainMemory := by
    obtain ⟨loaded, rfl⟩ := same.exists
    rfl
  constructor
  · intro handler raw m' fetched independent completes
    obtain ⟨u', completes', same⟩ :=
      completes_interrupted zero pending fetched independent completes
        (Processor.Same.refl _)
    exact ⟨u', completes', same.registers_eq, memory same, same⟩
  · intro acts service m' run respects
    obtain ⟨u', run', same⟩ :=
      exec_ahead acts zero pending (.inl (Processor.Same.refl m)) run respects
    exact ⟨u', run', same.registers_eq, memory same, same⟩

/-- `addu $3, $1, $2` while the value 7 is on its way to register 5. -/
def independentSum : Processor :=
  onePage 0x00221821 fun r =>
    if r = loadReg then 5 else if r = loadValueReg then 7 else if r = nextPCReg then 4 else 0

theorem interrupts_invisible_independentSum :
    ∃ m' u' : Processor,
      userMachine.exec independentSum [.instruction noService, .instruction noService] =
          some m' ∧
        userMachine.exec independentSum
            [.interrupt, .instruction noService, .interrupt, .instruction noService] =
          some u' ∧
        u'.registers = m'.registers ∧ u'.mainMemory = m'.mainMemory := by
  obtain ⟨m₁, first⟩ : ∃ m₁, independentSum.Completes (exceptionHandler noService) m₁ :=
    ⟨_, rfl⟩
  have fetched : independentSum.fetch = some 0x00221821 := rfl
  have next : m₁.fetch = some 0 ∧ m₁.registers loadReg = 0 ∧
      ∃ m', m₁.Completes (exceptionHandler noService) m' := by
    have same := congrArg Ending.final first
    cases same
    exact ⟨rfl, rfl, _, rfl⟩
  obtain ⟨fetched', idle, m', second⟩ := next
  have respects : userMachine.Steps Processor.Respects independentSum
      (straight [.interrupt, .instruction noService, .interrupt, .instruction noService]) := by
    refine ⟨⟨_, m₁, fetched, by decide, first⟩, ?_⟩
    intro left step
    obtain rfl : m₁ = left := Option.some.inj ((step_of_completes first).symm.trans step)
    refine ⟨⟨_, m', fetched', ?_, second⟩, fun _ _ => trivial⟩
    rw [idle]
    decide
  have run : userMachine.exec independentSum
      (straight [.interrupt, .instruction noService, .interrupt, .instruction noService]) =
        some m' :=
    userMachine.exec_cons_eq_some.mpr ⟨m₁, step_of_completes first,
      userMachine.exec_cons_eq_some.mpr ⟨m', step_of_completes second, rfl⟩⟩
  obtain ⟨u', run', registers, memory, -⟩ :=
    (interrupts_invisible (m := independentSum) rfl (by decide)).2
      [.interrupt, .instruction noService, .interrupt] noService m' run respects
  exact ⟨m', u', run, run', registers, memory⟩

end

end Nachos
