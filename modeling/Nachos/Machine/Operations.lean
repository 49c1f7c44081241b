/-
Module: Nachos.Machine.Operations
Purpose: What the arithmetic, bitwise, comparison and shift instructions of
  mipssim.cc leave in the general registers, from the bits of the instruction
  word to the machine after OneInstruction.  OP_OR combines its first operand
  with itself, and the right shifts with zero fill are made on a signed
  temporary.
Trusted boundary: none
Main exports: Processor.Leaves, Arithmetic, overflow_exact, Logical,
  logical_correct_iff, Shift, shift_correct_iff
-/
import Nachos.Machine.DelaySlots
import Nachos.Machine.Encodings
import Nachos.Machine.Products

namespace Nachos

/-! ### An instruction that assigns one register -/

/-- The general registers of `m'` are those of `m` with `v` assigned to `dest`
and the pending delayed load done after it; register 0 takes no value. -/
def Processor.Leaves (m m' : Processor) (dest : BitVec 5) (v : BitVec 32) : Prop :=
  ∀ r, GeneralPurpose r →
    m'.registers r =
      if r = 0 then 0
      else if r = m.registers loadReg then m.registers loadValueReg
      else if r = gpr dest then v
      else m.registers r

section

variable {handler : Handler} {m m' m'' : Processor} {raw : BitVec 32}

/-- The registers after an assignment and the steps that follow the `switch`. -/
theorem advance_set_registers {s : Simulation} {dest : BitVec 5} {pcAfter v r : BitVec 32}
    (general : GeneralPurpose r) :
    ((s.set (gpr dest) v).advance pcAfter 0 0).registers r =
      if r = 0 then 0
      else if r = s.registers loadReg then s.registers loadValueReg
      else if r = gpr dest then v
      else s.registers r := by
  have assigned (i : BitVec 32) :
      (s.set (gpr dest) v).registers i = if i = gpr dest then v else s.registers i :=
    Processor.set_registers ..
  have load : (s.set (gpr dest) v).registers loadReg = s.registers loadReg :=
    (assigned _).trans (if_neg ((generalPurpose_gpr dest).ne (by decide)))
  have loadValue : (s.set (gpr dest) v).registers loadValueReg = s.registers loadValueReg :=
    (assigned _).trans (if_neg ((generalPurpose_gpr dest).ne (by decide)))
  have notNextPC : r ≠ nextPCReg := (general.ne (by decide)).symm
  have notPC : r ≠ pcReg := (general.ne (by decide)).symm
  have notPrevPC : r ≠ prevPCReg := (general.ne (by decide)).symm
  have notLoad : r ≠ loadReg := (general.ne (by decide)).symm
  have notLoadValue : r ≠ loadValueReg := (general.ne (by decide)).symm
  rw [advance_registers]
  dsimp only
  rw [if_neg notNextPC, if_neg notPC, if_neg notPrevPC]
  refine (Processor.delayedLoad_registers ..).trans ?_
  rw [if_neg notLoadValue, if_neg notLoad]
  rw [load, loadValue, assigned]

/-- What `OneInstruction` does after the fetch. -/
theorem oneInstruction_fetched (handler : Handler) (fetched : m.fetch = some raw) :
    ∃ m₀, m₀.registers = m.registers ∧
      Simulation.oneInstruction handler ⟨m, []⟩ =
        Simulation.perform handler (Instruction.decode raw) ⟨m₀, []⟩ := by
  unfold Simulation.oneInstruction
  rcases Simulation.readMem_pc handler ⟨m, []⟩ with
    ⟨word, m₀, fetched', intact, read⟩ | ⟨failed, -⟩ | ⟨failed, -⟩
  · obtain rfl : word = raw := Option.some.inj (fetched'.symm.trans fetched)
    refine ⟨m₀, intact.registers, ?_⟩
    rw [read]
    rfl
  · cases failed.symm.trans fetched
  · cases failed.symm.trans fetched

/-- An instruction whose case in the `switch` is an assignment. -/
theorem completes_of_assign (handler : Handler) {dest : BitVec 5} {pcAfter v : BitVec 32}
    (fetched : m.fetch = some raw)
    (executes : ∀ s : Simulation, s.registers = m.registers →
      s.execute handler (Instruction.decode raw) = s.assign pcAfter (gpr dest) v) :
    ∃ m', m.Completes handler m' ∧ m.Leaves m' dest v := by
  obtain ⟨m₀, registers, one⟩ := oneInstruction_fetched handler fetched
  have performed :
      Simulation.perform handler (Instruction.decode raw) ⟨m₀, []⟩ =
        .returns () ((Simulation.set (gpr dest) v ⟨m₀, []⟩).advance pcAfter 0 0) := by
    unfold Simulation.perform
    rw [executes ⟨m₀, []⟩ registers]
    rfl
  refine ⟨_, one.trans performed, ?_⟩
  · intro r general
    refine (advance_set_registers (s := ⟨m₀, []⟩) general).trans ?_
    rw [show (⟨m₀, []⟩ : Simulation).registers = m.registers from registers]

/-- An instruction whose case in the `switch` raises an exception. -/
theorem raises_of_execute (handler : Handler) {which : ExceptionType}
    (fetched : m.fetch = some raw)
    (executes : ∀ s : Simulation, s.registers = m.registers →
      s.execute handler (Instruction.decode raw) = s.raiseException handler which 0 .leaves) :
    ∃ m₀, m₀.registers = m.registers ∧
      Simulation.oneInstruction handler ⟨m, []⟩ =
        Simulation.raiseException handler which 0 () ⟨m₀, []⟩ := by
  obtain ⟨m₀, registers, one⟩ := oneInstruction_fetched handler fetched
  refine ⟨m₀, registers, one.trans ?_⟩
  unfold Simulation.perform
  rw [executes ⟨m₀, []⟩ registers]
  exact Simulation.andThen_raiseException handler which 0 _ fun _ => rfl

theorem Processor.Completes.unique (completes : m.Completes handler m')
    (completes' : m.Completes handler m'') : m' = m'' := by
  have same := congrArg Ending.final (completes.symm.trans completes')
  exact congrArg Simulation.toProcessor same

/-- What holds after an instruction, where one knows how it completes. -/
theorem exists_completes_iff {P : Processor → Prop} (completes : m.Completes handler m') :
    (∃ m'', m.Completes handler m'' ∧ P m'') ↔ P m' := by
  constructor
  · rintro ⟨m'', completes', holds⟩
    rwa [completes.unique completes']
  · intro holds
    exact ⟨m', completes, holds⟩

end

/-! ### Addition and subtraction -/

/-- A word can hold the integer. -/
def Fits (n : Int) : Prop :=
  -2 ^ 31 ≤ n ∧ n ≤ 2 ^ 31 - 1

instance (n : Int) : Decidable (Fits n) :=
  inferInstanceAs (Decidable (_ ∧ _))

theorem toInt_ofInt_of_fits {n : Int} (fits : Fits n) : (BitVec.ofInt 32 n).toInt = n :=
  BitVec.toInt_ofInt_eq_self (by decide) fits.1 (Int.lt_of_le_sub_one fits.2)

theorem fits_toInt (x : BitVec 32) : Fits x.toInt :=
  ⟨BitVec.le_toInt x, Int.le_sub_one_of_lt BitVec.toInt_lt⟩

/-- The sign bits of two words differ. -/
theorem signed_xor (x y : BitVec 32) :
    signed (x ^^^ y) ↔ ¬ (x.toInt < 0 ↔ y.toInt < 0) := by
  have sign (z : BitVec 32) : z.msb = decide (signed z) := by
    rw [BitVec.msb_eq_toInt]
    exact decide_eq_decide.mpr (signed_iff_neg z).symm
  have both := sign (x ^^^ y)
  rw [BitVec.msb_xor, sign x, sign y] at both
  rw [← signed_iff_neg, ← signed_iff_neg]
  by_cases negativeX : signed x
  · by_cases negativeY : signed y
    · simpa [negativeX, negativeY] using both
    · simpa [negativeX, negativeY] using both
  · by_cases negativeY : signed y
    · simpa [negativeX, negativeY] using both
    · simpa [negativeX, negativeY] using both

/-- The sign of a word that holds a sum or a difference of two words. -/
theorem wrapped_neg_iff {n : Int} (low : -2 ^ 32 ≤ n) (high : n < 2 ^ 32) :
    (BitVec.ofInt 32 n).toInt < 0 ↔ (n < 0 ∧ -2 ^ 31 ≤ n) ∨ 2 ^ 31 ≤ n := by
  rw [BitVec.toInt_ofInt, Int.bmod_def]
  push_cast
  omega

theorem add_eq_ofInt (x y : BitVec 32) : x + y = BitVec.ofInt 32 (x.toInt + y.toInt) := by
  apply BitVec.eq_of_toInt_eq
  rw [BitVec.toInt_add, BitVec.toInt_ofInt]

theorem sub_eq_ofInt (x y : BitVec 32) : x - y = BitVec.ofInt 32 (x.toInt - y.toInt) := by
  apply BitVec.eq_of_toInt_eq
  rw [BitVec.toInt_sub, BitVec.toInt_ofInt]

/-- The test of `OP_ADDI`, which compares the sum with the second operand. -/
theorem addi_overflows_iff (x y : BitVec 32) :
    (¬ signed (x ^^^ y) ∧ signed (y ^^^ (x + y))) ↔ ¬ Fits (x.toInt + y.toInt) := by
  obtain ⟨lowX, highX⟩ := fits_toInt x
  obtain ⟨lowY, highY⟩ := fits_toInt y
  have sign := wrapped_neg_iff (n := x.toInt + y.toInt) (by omega) (by omega)
  rw [signed_xor, signed_xor, add_eq_ofInt]
  unfold Fits
  omega

/-- The test of `OP_ADD`. -/
theorem add_overflows_iff (x y : BitVec 32) :
    (¬ signed (x ^^^ y) ∧ signed (x ^^^ (x + y))) ↔ ¬ Fits (x.toInt + y.toInt) := by
  rw [← addi_overflows_iff, signed_xor, signed_xor, signed_xor]
  exact and_congr_right fun same => by rw [not_not.mp same]

/-- The test of `OP_SUB`. -/
theorem sub_overflows_iff (x y : BitVec 32) :
    (signed (x ^^^ y) ∧ signed (x ^^^ (x - y))) ↔ ¬ Fits (x.toInt - y.toInt) := by
  obtain ⟨lowX, highX⟩ := fits_toInt x
  obtain ⟨lowY, highY⟩ := fits_toInt y
  have sign := wrapped_neg_iff (n := x.toInt - y.toInt) (by omega) (by omega)
  rw [signed_xor, signed_xor, sub_eq_ofInt]
  unfold Fits
  omega

/-- The instructions that add or subtract. -/
inductive Arithmetic where
  | add
  | addi
  | addiu
  | addu
  | sub
  | subu
deriving DecidableEq, Repr

namespace Arithmetic

def opCode : Arithmetic → OpCode
  | add => .add
  | addi => .addi
  | addiu => .addiu
  | addu => .addu
  | sub => .sub
  | subu => .subu

def number : Arithmetic → Number
  | add => .special 0x20
  | addi => .major 0x08
  | addiu => .major 0x09
  | addu => .special 0x21
  | sub => .special 0x22
  | subu => .special 0x23

/-- The instructions that must detect an overflow. -/
def Traps (op : Arithmetic) : Prop :=
  op = add ∨ op = addi ∨ op = sub

instance (op : Arithmetic) : Decidable op.Traps :=
  inferInstanceAs (Decidable (_ ∨ _))

/-- The sum or the difference of the operands as integers. -/
def exact (raw : BitVec 32) (registers : BitVec 32 → BitVec 32) : Arithmetic → Int
  | add | addu =>
      (registers (gpr (rsField raw))).toInt + (registers (gpr (rtField raw))).toInt
  | addi | addiu => (registers (gpr (rsField raw))).toInt + (immField raw).toInt
  | sub | subu =>
      (registers (gpr (rsField raw))).toInt - (registers (gpr (rtField raw))).toInt

/-- The instruction must be stopped by an overflow. -/
def Overflows (op : Arithmetic) (raw : BitVec 32) (registers : BitVec 32 → BitVec 32) : Prop :=
  op.Traps ∧ ¬ Fits (op.exact raw registers)

instance (op : Arithmetic) (raw : BitVec 32) (registers : BitVec 32 → BitVec 32) :
    Decidable (op.Overflows raw registers) :=
  inferInstanceAs (Decidable (_ ∧ ¬ _))

theorem means (op : Arithmetic) : op.number.Means op.opCode := by
  cases op with
  | add | addu | sub | subu => rfl
  | addi | addiu => exact ⟨rfl, by decide, by decide⟩

/-- The `switch`, for an instruction that adds or subtracts. -/
theorem execute_eq (handler : Handler) {op : Arithmetic} {raw : BitVec 32}
    (marked : op.number.In raw) (s : Simulation) :
    s.execute handler (Instruction.decode raw) =
      if op.Overflows raw s.registers then
        s.raiseException handler .overflowException 0 .leaves
      else
        s.assign (s.registers nextPCReg + 4) (gpr (op.number.dest raw))
          (BitVec.ofInt 32 (op.exact raw s.registers)) := by
  have immediate : (immField raw).toInt = ((immField raw).signExtend 32).toInt :=
    (BitVec.toInt_signExtend_of_le (by decide)).symm
  have test {cond : Prop} (detects : cond ↔ ¬ Fits (op.exact raw s.registers)) (traps : op.Traps) :
      cond ↔ op.Overflows raw s.registers :=
    detects.trans (and_iff_right traps).symm
  rw [Number.decode_eq marked op.means]
  cases op with
  | add =>
      refine if_congr (test (add_overflows_iff _ _) (by decide)) rfl ?_
      unfold exact
      rw [← add_eq_ofInt]
      rfl
  | addi =>
      unfold exact at test
      rw [immediate] at test
      refine if_congr (test (addi_overflows_iff _ _) (by decide)) rfl ?_
      unfold exact
      rw [immediate, ← add_eq_ofInt]
      rfl
  | addiu =>
      unfold exact
      rw [immediate, ← add_eq_ofInt]
      rfl
  | addu =>
      unfold exact
      rw [← add_eq_ofInt]
      rfl
  | sub =>
      refine if_congr (test (sub_overflows_iff _ _) (by decide)) rfl ?_
      unfold exact
      rw [← sub_eq_ofInt]
      rfl
  | subu =>
      unfold exact
      rw [← sub_eq_ofInt]
      rfl

end Arithmetic

/-- `OneInstruction` raises the exception. -/
def Processor.Raises (handler : Handler) (which : ExceptionType) (m : Processor) : Prop :=
  ∃ call ∈ (Simulation.oneInstruction handler ⟨m, []⟩).final.raised, call.which = which

theorem Processor.Completes.not_raises {handler : Handler} {m m' : Processor}
    (completes : m.Completes handler m') (which : ExceptionType) : ¬ m.Raises handler which := by
  unfold Processor.Raises
  rw [show Simulation.oneInstruction handler ⟨m, []⟩ = _ from completes]
  rintro ⟨call, raised, -⟩
  cases raised

/-- `ADD`, `ADDI` and `SUB` raise an exception exactly if a word cannot hold the
result, and then do nothing but that: the handler finds every general register
but the target of the pending load as it was.  Otherwise, and for the other
three always, the instruction completes and the destination holds the result. -/
theorem overflow_exact (handler : Handler) (op : Arithmetic) (raw : BitVec 32) (m : Processor)
    (fetched : m.fetch = some raw) (marked : op.number.In raw) :
    (m.Raises handler .overflowException ↔ op.Traps ∧ ¬ Fits (op.exact raw m.registers)) ∧
      (m.Raises handler .overflowException →
        ∃ m₀, m₀.registers = m.registers ∧
          Simulation.oneInstruction handler ⟨m, []⟩ =
            Simulation.raiseException handler .overflowException 0 () ⟨m₀, []⟩ ∧
          ∀ r, GeneralPurpose r → r ≠ 0 → r ≠ m.registers loadReg →
            (m₀.trapped 0).registers r = m.registers r) ∧
      (¬ m.Raises handler .overflowException →
        ∃ m', m.Completes handler m' ∧
          (gpr (op.number.dest raw) ≠ 0 → gpr (op.number.dest raw) ≠ m.registers loadReg →
            m'.registers (gpr (op.number.dest raw)) =
                BitVec.ofInt 32 (op.exact raw m.registers) ∧
              (op.Traps → (m'.registers (gpr (op.number.dest raw))).toInt =
                op.exact raw m.registers))) := by
  by_cases overflows : op.Overflows raw m.registers
  · obtain ⟨m₀, registers, raises⟩ := raises_of_execute handler fetched
      fun s same => by rw [op.execute_eq handler marked, same, if_pos overflows]
    have raised : m.Raises handler .overflowException := by
      unfold Processor.Raises
      rw [raises, final_raiseException]
      exact ⟨_, List.mem_cons_self, rfl⟩
    refine ⟨iff_of_true raised overflows, fun _ => ⟨m₀, registers, raises, ?_⟩,
      fun not => absurd raised not⟩
    intro r general notZero notPending
    rw [trapped_registers, registers, if_neg notZero,
      if_neg (general.ne (by decide)).symm, if_neg (general.ne (by decide)).symm,
      if_neg notPending, if_neg (general.ne (by decide)).symm]
  · obtain ⟨m', completes, leaves⟩ := completes_of_assign handler fetched
      fun s same => by rw [op.execute_eq handler marked, same, if_neg overflows]
    have quiet := completes.not_raises .overflowException
    refine ⟨iff_of_false quiet overflows, fun raised => absurd raised quiet, fun _ =>
      ⟨m', completes, fun notZero notPending => ?_⟩⟩
    have held : m'.registers (gpr (op.number.dest raw)) =
        BitVec.ofInt 32 (op.exact raw m.registers) := by
      rw [leaves _ (generalPurpose_gpr _), if_neg notZero, if_neg notPending, if_pos rfl]
    refine ⟨held, fun traps => ?_⟩
    rw [held]
    exact toInt_ofInt_of_fits (not_not.mp fun unfit => overflows ⟨traps, unfit⟩)

/-- `add $3, $1, $2` with the greatest integer and 1. -/
def overflowingSum : Processor :=
  onePage 0x00221820 fun r =>
    if r = 1 then 0x7fffffff else if r = 2 then 1 else if r = nextPCReg then 4 else 0

theorem overflow_exact_overflowingSum :
    overflowingSum.Raises (fun _ m => some m) .overflowException :=
  (overflow_exact (fun _ m => some m) .add 0x00221820 overflowingSum rfl (by decide)).1.mpr
    (by decide)

/-! ### Bitwise operations and comparisons -/

/-- The instructions that combine the bits of two operands or compare them. -/
inductive Logical where
  | and
  | or
  | xor
  | nor
  | andi
  | ori
  | xori
  | slt
  | sltu
  | slti
  | sltiu
deriving DecidableEq, Repr

namespace Logical

def opCode : Logical → OpCode
  | and => .and
  | or => .or
  | xor => .xor
  | nor => .nor
  | andi => .andi
  | ori => .ori
  | xori => .xori
  | slt => .slt
  | sltu => .sltu
  | slti => .slti
  | sltiu => .sltiu

def number : Logical → Number
  | and => .special 0x24
  | or => .special 0x25
  | xor => .special 0x26
  | nor => .special 0x27
  | andi => .major 0x0c
  | ori => .major 0x0d
  | xori => .major 0x0e
  | slt => .special 0x2a
  | sltu => .special 0x2b
  | slti => .major 0x0a
  | sltiu => .major 0x0b

/-- What the instruction must compute from its operands. -/
def result (raw : BitVec 32) (registers : BitVec 32 → BitVec 32) (op : Logical) : BitVec 32 :=
  let rs := registers (gpr (rsField raw))
  let rt := registers (gpr (rtField raw))
  let imm := immField raw
  match op with
  | and => rs &&& rt
  | or => rs ||| rt
  | xor => rs ^^^ rt
  | nor => ~~~(rs ||| rt)
  | andi => rs &&& imm.setWidth 32
  | ori => rs ||| imm.setWidth 32
  | xori => rs ^^^ imm.setWidth 32
  | slt => if rs.toInt < rt.toInt then 1 else 0
  | sltu => if rs.toNat < rt.toNat then 1 else 0
  | slti => if rs.toInt < imm.toInt then 1 else 0
  | sltiu => if rs.toNat < (imm.signExtend 32).toNat then 1 else 0

/-- What the simulator computes: `OP_OR` reads its first operand twice. -/
def computed (raw : BitVec 32) (registers : BitVec 32 → BitVec 32) (op : Logical) : BitVec 32 :=
  if op = or then registers (gpr (rsField raw)) else op.result raw registers

theorem means (op : Logical) : op.number.Means op.opCode := by
  cases op with
  | and | or | xor | nor | slt | sltu => rfl
  | andi | ori | xori | slti | sltiu => exact ⟨rfl, by decide, by decide⟩

/-- The `switch`, for an instruction that combines or compares its operands. -/
theorem execute_eq (handler : Handler) {op : Logical} {raw : BitVec 32}
    (marked : op.number.In raw) (s : Simulation) :
    s.execute handler (Instruction.decode raw) =
      s.assign (s.registers nextPCReg + 4) (gpr (op.number.dest raw))
        (op.computed raw s.registers) := by
  have signed : ((immField raw).signExtend 32).toInt = (immField raw).toInt :=
    BitVec.toInt_signExtend_of_le (by decide)
  have unsigned := signExtend_and (immField raw)
  rw [Number.decode_eq marked op.means]
  cases op with
  | and | xor | nor | slt | sltu | sltiu => rfl
  | or => exact congrArg (s.assign _ _) BitVec.or_self
  | andi =>
      exact congrArg (fun imm => s.assign _ _ (s.registers (gpr (rsField raw)) &&& imm)) unsigned
  | ori =>
      exact congrArg (fun imm => s.assign _ _ (s.registers (gpr (rsField raw)) ||| imm)) unsigned
  | xori =>
      exact congrArg (fun imm => s.assign _ _ (s.registers (gpr (rsField raw)) ^^^ imm)) unsigned
  | slti =>
      exact congrArg
        (fun imm : Int =>
          s.assign _ _ (if (s.registers (gpr (rsField raw))).toInt < imm then 1 else 0)) signed

theorem completes (handler : Handler) {op : Logical} {raw : BitVec 32} {m : Processor}
    (fetched : m.fetch = some raw) (marked : op.number.In raw) :
    ∃ m', m.Completes handler m' ∧
      m.Leaves m' (op.number.dest raw) (op.computed raw m.registers) :=
  completes_of_assign handler fetched fun s same => by rw [op.execute_eq handler marked, same]

end Logical

/-- After the instruction the destination holds the result, unless it is
register 0 or the target of the pending load, and no general register but these
has changed. -/
def Logical.Correct (op : Logical) (raw : BitVec 32) (m m' : Processor) : Prop :=
  (gpr (op.number.dest raw) ≠ 0 → gpr (op.number.dest raw) ≠ m.registers loadReg →
      m'.registers (gpr (op.number.dest raw)) = op.result raw m.registers) ∧
    ∀ r, GeneralPurpose r → r ≠ gpr (op.number.dest raw) → r ≠ m.registers loadReg →
      m'.registers r = m.registers r

/-- The operands of `OR` for which its first one is the result. -/
def Logical.Covered (op : Logical) (raw : BitVec 32) (m : Processor) : Prop :=
  op = .or → gpr (rdField raw) = 0 ∨ gpr (rdField raw) = m.registers loadReg ∨
    m.registers (gpr (rsField raw)) ||| m.registers (gpr (rtField raw)) =
      m.registers (gpr (rsField raw))

/-- The result that `Logical.Correct` asks for, given what is computed. -/
theorem Logical.result_eq_iff (op : Logical) (raw : BitVec 32) (m : Processor) :
    (gpr (op.number.dest raw) ≠ 0 → gpr (op.number.dest raw) ≠ m.registers loadReg →
        op.computed raw m.registers = op.result raw m.registers) ↔
      op.Covered raw m := by
  unfold Covered computed
  by_cases isOr : op = or
  · subst isOr
    have destination : Logical.or.number.dest raw = rdField raw := rfl
    have result : Logical.or.result raw m.registers =
      m.registers (gpr (rsField raw)) ||| m.registers (gpr (rtField raw)) := rfl
    rw [destination, result, if_pos rfl]
    constructor
    · intro equal _
      rw [or_iff_not_imp_left, or_iff_not_imp_left]
      exact fun notZero notPending => (equal notZero notPending).symm
    · intro covered notZero notPending
      exact (((covered rfl).resolve_left notZero).resolve_left notPending).symm
  · rw [if_neg isOr]
    exact iff_of_true (fun _ _ => rfl) (fun same => absurd same isOr)

/-- Register 0 of a machine after an instruction. -/
theorem Processor.Leaves.others_iff {m m' : Processor} {dest : BitVec 5} {v : BitVec 32}
    (leaves : m.Leaves m' dest v) :
    (∀ r, GeneralPurpose r → r ≠ gpr dest → r ≠ m.registers loadReg →
        m'.registers r = m.registers r) ↔
      (gpr dest ≠ 0 → m.registers loadReg ≠ 0 → m.registers 0 = 0) := by
  constructor
  · intro unchanged notDest notPending
    rw [← unchanged 0 generalPurpose_zero notDest.symm notPending.symm,
      leaves 0 generalPurpose_zero, if_pos rfl]
  · intro zero r general notDest notPending
    rw [leaves r general, if_neg notPending, if_neg notDest]
    split
    · rename_i isZero
      subst isZero
      exact (zero notDest.symm notPending.symm).symm
    · rfl

/-- Each of these instructions completes and is correct, but for `OR` with an
operand that has a bit which the other has not; what it does to register 0 is
seen only where that register did not hold 0. -/
theorem logical_correct_iff (handler : Handler) (op : Logical) (raw : BitVec 32) (m : Processor)
    (fetched : m.fetch = some raw) (marked : op.number.In raw) :
    (∃ m', m.Completes handler m' ∧ op.Correct raw m m') ↔
      op.Covered raw m ∧
        (gpr (op.number.dest raw) ≠ 0 → m.registers loadReg ≠ 0 → m.registers 0 = 0) := by
  obtain ⟨m', completes, leaves⟩ := op.completes handler fetched marked
  rw [exists_completes_iff completes, ← op.result_eq_iff, ← leaves.others_iff]
  refine and_congr_left' (forall_congr' fun notZero => forall_congr' fun notPending => ?_)
  rw [leaves _ (generalPurpose_gpr _), if_neg notZero, if_neg notPending, if_pos rfl]

/-- `or $3, $1, $2` with 0 and 1. -/
def unionOfOne : Processor :=
  onePage 0x00221825 fun r => if r = 2 then 1 else if r = nextPCReg then 4 else 0

/-- The result is 0. -/
theorem or_ignores_rt :
    unionOfOne.fetch = some 0x00221825 ∧ Logical.or.number.In 0x00221825 ∧
      ¬ ∃ m', unionOfOne.Completes (fun _ m => some m) m' ∧
        Logical.or.Correct 0x00221825 unionOfOne m' := by
  have fetched : unionOfOne.fetch = some 0x00221825 := rfl
  have marked : Logical.or.number.In 0x00221825 := by decide
  refine ⟨fetched, marked, ?_⟩
  rintro ⟨m', completes, held, -⟩
  obtain ⟨m'', completes', leaves⟩ := Logical.or.completes (fun _ m => some m) fetched marked
  rw [completes.unique completes', leaves _ (generalPurpose_gpr _)] at held
  exact absurd (held (by decide) (by decide)) (by decide)

/-- `ori $3, $1, 5` in the same machine. -/
def unionOfImmediate : Processor :=
  onePage 0x34230005 fun r => if r = 2 then 1 else if r = nextPCReg then 4 else 0

theorem logical_correct_unionOfImmediate :
    ∃ m', unionOfImmediate.Completes (fun _ m => some m) m' ∧
      Logical.ori.Correct 0x34230005 unionOfImmediate m' :=
  (logical_correct_iff (fun _ m => some m) .ori 0x34230005 unionOfImmediate rfl (by decide)).mpr
    ⟨fun isOr => absurd isOr (by decide), fun _ _ => rfl⟩

/-! ### Shifts -/

/-- The instructions that shift. -/
inductive Shift where
  | sll
  | srl
  | sra
  | sllv
  | srlv
  | srav
deriving DecidableEq, Repr

namespace Shift

def opCode : Shift → OpCode
  | sll => .sll
  | srl => .srl
  | sra => .sra
  | sllv => .sllv
  | srlv => .srlv
  | srav => .srav

def number : Shift → Number
  | sll => .special 0x00
  | srl => .special 0x02
  | sra => .special 0x03
  | sllv => .special 0x04
  | srlv => .special 0x06
  | srav => .special 0x07

/-- The amount of the shift, in the instruction or in a register. -/
def amount (raw : BitVec 32) (registers : BitVec 32 → BitVec 32) : Shift → Nat
  | sll | srl | sra => (shamtField raw).toNat
  | sllv | srlv | srav => (registers (gpr (rsField raw))).toNat % 32

/-- A right shift that fills with zeros. -/
def Logically (op : Shift) : Prop :=
  op = srl ∨ op = srlv

instance (op : Shift) : Decidable op.Logically :=
  inferInstanceAs (Decidable (_ ∨ _))

/-- What the instruction must compute. -/
def result (raw : BitVec 32) (registers : BitVec 32 → BitVec 32) (op : Shift) : BitVec 32 :=
  let rt := registers (gpr (rtField raw))
  match op with
  | sll | sllv => rt <<< op.amount raw registers
  | srl | srlv => rt >>> op.amount raw registers
  | sra | srav => rt.sshiftRight (op.amount raw registers)

/-- What the simulator computes: every right shift is made on the `int` in
`tmp`. -/
def computed (raw : BitVec 32) (registers : BitVec 32 → BitVec 32) (op : Shift) : BitVec 32 :=
  if op.Logically then (registers (gpr (rtField raw))).sshiftRight (op.amount raw registers)
  else op.result raw registers

theorem means (op : Shift) : op.number.Means op.opCode := by
  cases op <;> rfl

/-- The `switch`, for an instruction that shifts. -/
theorem execute_eq (handler : Handler) {op : Shift} {raw : BitVec 32}
    (marked : op.number.In raw) (s : Simulation) :
    s.execute handler (Instruction.decode raw) =
      s.assign (s.registers nextPCReg + 4) (gpr (op.number.dest raw))
        (op.computed raw s.registers) := by
  have inWord : ((shamtField raw).setWidth 32).toNat = (shamtField raw).toNat := by
    rw [BitVec.toNat_setWidth]
    exact Nat.mod_eq_of_lt (Nat.lt_trans (shamtField raw).isLt (by decide))
  have inRegister : (s.registers (gpr (rsField raw)) &&& 0x1f).toNat =
      (s.registers (gpr (rsField raw))).toNat % 32 := by
    rw [BitVec.toNat_and]
    exact Nat.and_two_pow_sub_one_eq_mod _ 5
  let rt := s.registers (gpr (rtField raw))
  rw [Number.decode_eq marked op.means]
  cases op with
  | sll => exact congrArg (fun n : Nat => s.assign _ _ (rt <<< n)) inWord
  | sllv => exact congrArg (fun n : Nat => s.assign _ _ (rt <<< n)) inRegister
  | srl | sra => exact congrArg (fun n => s.assign _ _ (rt.sshiftRight n)) inWord
  | srlv | srav => exact congrArg (fun n => s.assign _ _ (rt.sshiftRight n)) inRegister

theorem completes (handler : Handler) {op : Shift} {raw : BitVec 32} {m : Processor}
    (fetched : m.fetch = some raw) (marked : op.number.In raw) :
    ∃ m', m.Completes handler m' ∧
      m.Leaves m' (op.number.dest raw) (op.computed raw m.registers) :=
  completes_of_assign handler fetched fun s same => by rw [op.execute_eq handler marked, same]

end Shift

/-- The two right shifts agree exactly where no sign is brought in. -/
theorem sshiftRight_eq_ushiftRight_iff (x : BitVec 32) (n : Nat) :
    x.sshiftRight n = x >>> n ↔ n = 0 ∨ 0 ≤ x.toInt := by
  have sign : x.msb = decide (x.toInt < 0) := BitVec.msb_eq_toInt
  constructor
  · intro same
    have filled := congrArg BitVec.msb same
    rw [BitVec.msb_sshiftRight, BitVec.msb_ushiftRight, sign] at filled
    by_cases negative : x.toInt < 0
    · left
      simpa [negative] using filled
    · right
      omega
  · rintro (rfl | positive)
    · rw [BitVec.sshiftRight_zero, BitVec.ushiftRight_zero]
    · apply BitVec.sshiftRight_eq_of_msb_false
      rw [sign]
      exact decide_eq_false (by omega)

/-- Where the simulator computes what it must. -/
theorem Shift.result_eq_iff (op : Shift) (raw : BitVec 32)
    (registers : BitVec 32 → BitVec 32) :
    op.computed raw registers = op.result raw registers ↔
      (op.Logically →
        op.amount raw registers = 0 ∨ 0 ≤ (registers (gpr (rtField raw))).toInt) := by
  unfold computed
  split
  · rename_i logically
    have zeros : op.result raw registers =
        registers (gpr (rtField raw)) >>> op.amount raw registers := by
      rcases logically with rfl | rfl
      · rfl
      · rfl
    rw [zeros, sshiftRight_eq_ushiftRight_iff]
    exact ⟨fun agree _ => agree, fun agree => agree logically⟩
  · rename_i arithmetically
    exact iff_of_true rfl fun logically => absurd logically arithmetically

/-- After the instruction the destination holds the result, unless it is
register 0 or the target of the pending load. -/
def Shift.Correct (op : Shift) (raw : BitVec 32) (m m' : Processor) : Prop :=
  gpr (op.number.dest raw) ≠ 0 → gpr (op.number.dest raw) ≠ m.registers loadReg →
    m'.registers (gpr (op.number.dest raw)) = op.result raw m.registers

/-- Each of these instructions completes, and is correct except for a right
shift with zero fill of a negative integer. -/
theorem shift_correct_iff (handler : Handler) (op : Shift) (raw : BitVec 32) (m : Processor)
    (fetched : m.fetch = some raw) (marked : op.number.In raw) :
    (∃ m', m.Completes handler m' ∧ op.Correct raw m m') ↔
      (op.Logically →
        gpr (rdField raw) = 0 ∨ gpr (rdField raw) = m.registers loadReg ∨
          op.amount raw m.registers = 0 ∨ 0 ≤ (m.registers (gpr (rtField raw))).toInt) := by
  obtain ⟨m', completes, leaves⟩ := op.completes handler fetched marked
  have destination : op.number.dest raw = rdField raw := by
    cases op <;> rfl
  have correct : op.Correct raw m m' ↔
      (gpr (rdField raw) ≠ 0 → gpr (rdField raw) ≠ m.registers loadReg →
        op.computed raw m.registers = op.result raw m.registers) := by
    unfold Shift.Correct
    rw [destination]
    refine forall_congr' fun notZero => forall_congr' fun notPending => ?_
    rw [leaves _ (generalPurpose_gpr _), destination, if_neg notZero, if_neg notPending,
      if_pos rfl]
  rw [exists_completes_iff completes, correct, op.result_eq_iff]
  constructor
  · intro agree logically
    rw [or_iff_not_imp_left, or_iff_not_imp_left]
    exact fun notZero notPending => agree notZero notPending logically
  · intro covered notZero notPending logically
    exact ((covered logically).resolve_left notZero).resolve_left notPending

/-- `srl $3, $2, 1` with -2. -/
def halfOfNegative : Processor :=
  onePage 0x00021842 fun r => if r = 2 then -2 else if r = nextPCReg then 4 else 0

/-- The result is -1. -/
theorem srl_fills_with_sign :
    halfOfNegative.fetch = some 0x00021842 ∧ Shift.srl.number.In 0x00021842 ∧
      ¬ ∃ m', halfOfNegative.Completes (fun _ m => some m) m' ∧
        Shift.srl.Correct 0x00021842 halfOfNegative m' := by
  have fetched : halfOfNegative.fetch = some 0x00021842 := rfl
  have marked : Shift.srl.number.In 0x00021842 := by decide
  refine ⟨fetched, marked, ?_⟩
  rintro ⟨m', completes, held⟩
  obtain ⟨m'', completes', leaves⟩ := Shift.srl.completes (fun _ m => some m) fetched marked
  have notZero : gpr (Shift.srl.number.dest 0x00021842) ≠ 0 := by decide
  have notPending :
      gpr (Shift.srl.number.dest 0x00021842) ≠ halfOfNegative.registers loadReg := by decide
  have wrong := held notZero notPending
  rw [completes.unique completes', leaves _ (generalPurpose_gpr _), if_neg notZero,
    if_neg notPending, if_pos rfl] at wrong
  exact absurd wrong (by decide)

/-- `srl $3, $2, 1` with 2. -/
def halfOfPositive : Processor :=
  onePage 0x00021842 fun r => if r = 2 then 2 else if r = nextPCReg then 4 else 0

theorem shift_correct_halfOfPositive :
    ∃ m', halfOfPositive.Completes (fun _ m => some m) m' ∧
      Shift.srl.Correct 0x00021842 halfOfPositive m' :=
  (shift_correct_iff (fun _ m => some m) .srl 0x00021842 halfOfPositive rfl (by decide)).mpr
    (fun _ => Or.inr (Or.inr (Or.inr (by decide))))

end Nachos
