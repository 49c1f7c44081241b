/-
Module: Nachos.Machine.Instructions
Purpose: The decoder and the interpreter of MIPS instructions of mipssim.cc,
  with the tables of mipssim.h.
Trusted boundary: an `int` of the host has 32 bits in two's complement and
  wraps around, except that a quotient which does not fit is trapped.  The
  output of the debugging flags is left out.
Main exports: OpCode, Format, opTable, specialTable, Instruction,
  Instruction.decode, mult, Flow, Simulation.execute,
  Simulation.oneInstruction
-/
import Nachos.Machine.Translation

namespace Nachos

/-! ### Decoding -/

/-- The values of `opCode`, with the two that stand for further decoding. -/
inductive OpCode where
  | add | addi | addiu | addu | and | andi | beq | bgez | bgezal | bgtz | blez
  | bltz | bltzal | bne | div | divu | j | jal | jalr | jr | lb | lbu | lh | lhu
  | lui | lw | lwl | lwr | mfhi | mflo | mthi | mtlo | mult | multu | nor | or
  | ori | rfe | sb | sh | sll | sllv | slt | slti | sltiu | sltu | sra | srav
  | srl | srlv | sub | subu | sw | swl | swr | xor | xori | syscall | unimp | res
  | special | bcond
deriving DecidableEq, Repr

/-- The formats of instructions. -/
inductive Format where
  | ifmt
  | jfmt
  | rfmt
deriving DecidableEq, Repr

/-- `opTable`. -/
def opTable : List (OpCode × Format) :=
  [(.special, .rfmt), (.bcond, .ifmt), (.j, .jfmt), (.jal, .jfmt),
    (.beq, .ifmt), (.bne, .ifmt), (.blez, .ifmt), (.bgtz, .ifmt),
    (.addi, .ifmt), (.addiu, .ifmt), (.slti, .ifmt), (.sltiu, .ifmt),
    (.andi, .ifmt), (.ori, .ifmt), (.xori, .ifmt), (.lui, .ifmt),
    (.unimp, .ifmt), (.unimp, .ifmt), (.unimp, .ifmt), (.unimp, .ifmt),
    (.res, .ifmt), (.res, .ifmt), (.res, .ifmt), (.res, .ifmt),
    (.res, .ifmt), (.res, .ifmt), (.res, .ifmt), (.res, .ifmt),
    (.res, .ifmt), (.res, .ifmt), (.res, .ifmt), (.res, .ifmt),
    (.lb, .ifmt), (.lh, .ifmt), (.lwl, .ifmt), (.lw, .ifmt),
    (.lbu, .ifmt), (.lhu, .ifmt), (.lwr, .ifmt), (.res, .ifmt),
    (.sb, .ifmt), (.sh, .ifmt), (.swl, .ifmt), (.sw, .ifmt),
    (.res, .ifmt), (.res, .ifmt), (.swr, .ifmt), (.res, .ifmt),
    (.unimp, .ifmt), (.unimp, .ifmt), (.unimp, .ifmt), (.unimp, .ifmt),
    (.res, .ifmt), (.res, .ifmt), (.res, .ifmt), (.res, .ifmt),
    (.unimp, .ifmt), (.unimp, .ifmt), (.unimp, .ifmt), (.unimp, .ifmt),
    (.res, .ifmt), (.res, .ifmt), (.res, .ifmt), (.res, .ifmt)]

/-- `specialTable`. -/
def specialTable : List OpCode :=
  [.sll, .res, .srl, .sra, .sllv, .res, .srlv, .srav,
    .jr, .jalr, .res, .res, .syscall, .unimp, .res, .res,
    .mfhi, .mthi, .mflo, .mtlo, .res, .res, .res, .res,
    .mult, .multu, .div, .divu, .res, .res, .res, .res,
    .add, .addu, .sub, .subu, .and, .or, .xor, .nor,
    .res, .res, .slt, .sltu, .res, .res, .res, .res,
    .res, .res, .res, .res, .res, .res, .res, .res,
    .res, .res, .res, .res, .res, .res, .res, .res]

/-- `class Instruction` after `Decode`; the numbers of registers have five
bits. -/
structure Instruction where
  opCode : OpCode
  rs : BitVec 5
  rt : BitVec 5
  rd : BitVec 5
  extra : BitVec 32
deriving DecidableEq, Repr

namespace Instruction

/-- The `extra` field, for each format. -/
def immediate (value : BitVec 32) : Format → BitVec 32
  | .ifmt =>
      let extra := value &&& 0xffff
      if extra &&& 0x8000 ≠ 0 then extra ||| 0xffff0000 else extra
  | .rfmt => (value >>> 6) &&& 0x1f
  | .jfmt => value &&& 0x3ffffff

/-- The operation of an instruction whose major opcode is `BCOND`. -/
def branchOp (value : BitVec 32) : OpCode :=
  let i := value &&& 0x1f0000
  if i = 0 then .bltz
  else if i = 0x10000 then .bgez
  else if i = 0x100000 then .bltzal
  else if i = 0x110000 then .bgezal
  else .unimp

/-- `Instruction::Decode`.  Both tables have 64 entries, so that the defaults
are not used. -/
def decode (value : BitVec 32) : Instruction :=
  let op := opTable.getD ((value >>> 26) &&& 0x3f).toNat (.res, .ifmt)
  { opCode :=
      if op.1 = .special then specialTable.getD (value &&& 0x3f).toNat .res
      else if op.1 = .bcond then branchOp value
      else op.1
    rs := (value >>> 21).setWidth 5
    rt := (value >>> 16).setWidth 5
    rd := (value >>> 11).setWidth 5
    extra := immediate value op.2 }

end Instruction

/-! ### Multiplication -/

/-- The loop of `Mult` with `i` rounds to go: the high and the low word. -/
def multLoop : Nat → BitVec 32 → BitVec 32 → BitVec 32 → BitVec 32 → BitVec 32 →
    BitVec 32 × BitVec 32
  | 0, _, _, _, lo, hi => (hi, lo)
  | i + 1, a, bLo, bHi, lo, hi =>
      let bHi' := if bLo &&& 0x80000000 ≠ 0 then bHi <<< 1 ||| 1 else bHi <<< 1
      if a &&& 1 ≠ 0 then
        let lo' := lo + bLo
        let hi' := (if lo' < bLo then hi + 1 else hi) + bHi
        if a &&& 0xfffffffe = 0 then (hi', lo')
        else multLoop i (a.sshiftRight 1) (bLo <<< 1) bHi' lo' hi'
      else multLoop i (a.sshiftRight 1) (bLo <<< 1) bHi' lo hi

/-- `Mult`: the words that it leaves at `hiPtr` and `loPtr`. -/
def mult (a b : BitVec 32) (signedArith : Bool) : BitVec 32 × BitVec 32 :=
  if a = 0 ∨ b = 0 then (0, 0)
  else
    let negative := signedArith && (decide (a.toInt < 0) ^^ decide (b.toInt < 0))
    let a' := if signedArith ∧ a.toInt < 0 then -a else a
    let b' := if signedArith ∧ b.toInt < 0 then -b else b
    let product := multLoop 32 a' b' 0 0 0
    if negative then
      let lo := ~~~product.2 + 1
      (if lo = 0 then ~~~product.1 + 1 else ~~~product.1, lo)
    else product

/-! ### Execution -/

/-- How the `switch` of `OneInstruction` is left: with a `break`, the next
program counter and the delayed load being set, or with a `return` from
`OneInstruction`. -/
inductive Flow where
  | breaks (pcAfter nextLoadReg nextLoadValue : BitVec 32)
  | leaves

/-- `if (!e) return;` before what `next` does with the value. -/
def Ending.orReturn {α : Type} (e : Ending (Option α))
    (next : α → Simulation → Ending Flow) : Ending Flow :=
  e.andThen fun
    | none, s => .returns .leaves s
    | some value, s => next value s

/-- `SIGN_BIT` is set. -/
def signed (x : BitVec 32) : Prop :=
  x &&& 0x80000000 ≠ 0

instance (x : BitVec 32) : Decidable (signed x) :=
  inferInstanceAs (Decidable (_ ≠ _))

/-- `IndexToAddr`. -/
def indexToAddr (x : BitVec 32) : BitVec 32 :=
  x <<< 2

/-- The index in `registers` of a general purpose register. -/
def gpr (r : BitVec 5) : BitVec 32 :=
  r.setWidth 32

namespace Simulation

/-- `registers[r] = v; break;` with the program counter at `pcAfter`. -/
def assign (pcAfter r v : BitVec 32) (s : Simulation) : Ending Flow :=
  .returns (.breaks pcAfter 0 0) (s.set r v)

/-- `if (taken) pcAfter = target; break;` -/
def branch (taken : Prop) [Decidable taken] (pcAfter target : BitVec 32) (s : Simulation) :
    Ending Flow :=
  .returns (.breaks (if taken then target else pcAfter) 0 0) s

/-- Leave a quotient in `LoReg` and a remainder in `HiReg`. -/
def setLoHi (pcAfter lo hi : BitVec 32) (s : Simulation) : Ending Flow :=
  (s.set loReg lo).assign pcAfter hiReg hi

/-- Read `size` bytes at `addr` and load what `value` makes of them into `rt`
after the next instruction. -/
def load (handler : Handler) (addr : BitVec 32) (size : Nat) (pcAfter rt : BitVec 32)
    (value : Simulation → BitVec 32 → BitVec 32) (s : Simulation) : Ending Flow :=
  (s.readMem handler addr size).orReturn fun read s' =>
    .returns (.breaks pcAfter rt (value s' read)) s'

/-- Write `size` bytes at `addr`. -/
def store (handler : Handler) (addr : BitVec 32) (size : Nat) (pcAfter value : BitVec 32)
    (s : Simulation) : Ending Flow :=
  (s.writeMem handler addr size value).orReturn fun _ s' => .returns (.breaks pcAfter 0 0) s'

/-- What `rt` holds for `LWL` and `LWR`: a load of it may be on its way. -/
def heldBy (rt : BitVec 32) (s : Simulation) : BitVec 32 :=
  if s.registers loadReg = rt then s.registers loadValueReg else s.registers rt

/-- The value that `LWL` loads. -/
def lwlValue (tmp rt : BitVec 32) (s : Simulation) (value : BitVec 32) : BitVec 32 :=
  if tmp &&& 3 = 0 then value
  else if tmp &&& 3 = 1 then (s.heldBy rt &&& 0xff) ||| (value <<< 8)
  else if tmp &&& 3 = 2 then (s.heldBy rt &&& 0xffff) ||| (value <<< 16)
  else (s.heldBy rt &&& 0xffffff) ||| (value <<< 24)

/-- The value that `LWR` loads. -/
def lwrValue (tmp rt : BitVec 32) (s : Simulation) (value : BitVec 32) : BitVec 32 :=
  if tmp &&& 3 = 0 then
    (s.heldBy rt &&& 0xffffff00) ||| (value.sshiftRight 24 &&& 0xff)
  else if tmp &&& 3 = 1 then
    (s.heldBy rt &&& 0xffff0000) ||| (value.sshiftRight 16 &&& 0xffff)
  else if tmp &&& 3 = 2 then
    (s.heldBy rt &&& 0xff000000) ||| (value.sshiftRight 8 &&& 0xffffff)
  else value

/-- The value that `SWL` stores. -/
def swlValue (tmp rt : BitVec 32) (s : Simulation) (value : BitVec 32) : BitVec 32 :=
  if tmp &&& 3 = 0 then s.registers rt
  else if tmp &&& 3 = 1 then
    (value &&& 0xff000000) ||| ((s.registers rt).sshiftRight 8 &&& 0xffffff)
  else if tmp &&& 3 = 2 then
    (value &&& 0xffff0000) ||| ((s.registers rt).sshiftRight 16 &&& 0xffff)
  else (value &&& 0xffffff00) ||| ((s.registers rt).sshiftRight 24 &&& 0xff)

/-- The value that `SWR` stores. -/
def swrValue (tmp rt : BitVec 32) (s : Simulation) (value : BitVec 32) : BitVec 32 :=
  if tmp &&& 3 = 0 then (value &&& 0xffffff) ||| (s.registers rt <<< 24)
  else if tmp &&& 3 = 1 then (value &&& 0xffff) ||| (s.registers rt <<< 16)
  else if tmp &&& 3 = 2 then (value &&& 0xff) ||| (s.registers rt <<< 8)
  else s.registers rt

/-- `ASSERT((tmp & 0x3) == 0);` before `next`. -/
def assertWord (tmp : BitVec 32) (next : Ending Flow) (s : Simulation) : Ending Flow :=
  if tmp &&& 3 = 0 then next else .stops .aborted s

/-- `SWL` and `SWR` after the assertion. -/
def storePart (handler : Handler) (tmp pcAfter : BitVec 32)
    (value : Simulation → BitVec 32 → BitVec 32) (s : Simulation) : Ending Flow :=
  (s.readMem handler (tmp &&& ~~~3) 4).orReturn fun read s' =>
    s'.store handler (tmp &&& ~~~3) 4 pcAfter (value s' read)

/-- The `switch` of `Machine::OneInstruction`. -/
def execute (handler : Handler) (instr : Instruction) (s : Simulation) : Ending Flow :=
  let rs := gpr instr.rs
  let rt := gpr instr.rt
  let rd := gpr instr.rd
  let extra := instr.extra
  let reg := s.registers
  let nextPC := reg nextPCReg
  let pcAfter := nextPC + 4
  let target := nextPC + indexToAddr extra
  let tmp := reg rs + extra
  match instr.opCode with
  | .add =>
      let sum := reg rs + reg rt
      if ¬ signed (reg rs ^^^ reg rt) ∧ signed (reg rs ^^^ sum) then
        s.raiseException handler .overflowException 0 .leaves
      else s.assign pcAfter rd sum
  | .addi =>
      let sum := reg rs + extra
      if ¬ signed (reg rs ^^^ extra) ∧ signed (extra ^^^ sum) then
        s.raiseException handler .overflowException 0 .leaves
      else s.assign pcAfter rt sum
  | .addiu => s.assign pcAfter rt (reg rs + extra)
  | .addu => s.assign pcAfter rd (reg rs + reg rt)
  | .and => s.assign pcAfter rd (reg rs &&& reg rt)
  | .andi => s.assign pcAfter rt (reg rs &&& (extra &&& 0xffff))
  | .beq => s.branch (reg rs = reg rt) pcAfter target
  | .bgezal =>
      -- falls through to `OP_BGEZ`, which reads `rs` after the link is set
      let linked := s.set retAddrReg (nextPC + 4)
      linked.branch (¬ signed (linked.registers rs)) pcAfter target
  | .bgez => s.branch (¬ signed (reg rs)) pcAfter target
  | .bgtz => s.branch (0 < (reg rs).toInt) pcAfter target
  | .blez => s.branch ((reg rs).toInt ≤ 0) pcAfter target
  | .bltzal =>
      let linked := s.set retAddrReg (nextPC + 4)
      linked.branch (signed (linked.registers rs)) pcAfter target
  | .bltz => s.branch (signed (reg rs)) pcAfter target
  | .bne => s.branch (reg rs ≠ reg rt) pcAfter target
  | .div =>
      if reg rt = 0 then s.setLoHi pcAfter 0 0
      else if reg rs = BitVec.intMin 32 ∧ reg rt = -1 then .stops .trapped s
      else s.setLoHi pcAfter ((reg rs).sdiv (reg rt)) ((reg rs).srem (reg rt))
  | .divu =>
      if reg rt = 0 then s.setLoHi pcAfter 0 0
      else s.setLoHi pcAfter (reg rs / reg rt) (reg rs % reg rt)
  | .jal =>
      .returns (.breaks ((pcAfter &&& 0xf0000000) ||| indexToAddr extra) 0 0)
        (s.set retAddrReg (nextPC + 4))
  | .j => .returns (.breaks ((pcAfter &&& 0xf0000000) ||| indexToAddr extra) 0 0) s
  | .jalr =>
      let linked := s.set rd (nextPC + 4)
      .returns (.breaks (linked.registers rs) 0 0) linked
  | .jr => .returns (.breaks (reg rs) 0 0) s
  | .lb =>
      s.load handler tmp 1 pcAfter rt fun _ value =>
        if value &&& 0x80 ≠ 0 then value ||| 0xffffff00 else value &&& 0xff
  | .lbu => s.load handler tmp 1 pcAfter rt fun _ value => value &&& 0xff
  | .lh =>
      if tmp &&& 1 ≠ 0 then s.raiseException handler .addressErrorException tmp .leaves
      else
        s.load handler tmp 2 pcAfter rt fun _ value =>
          if value &&& 0x8000 ≠ 0 then value ||| 0xffff0000 else value &&& 0xffff
  | .lhu =>
      if tmp &&& 1 ≠ 0 then s.raiseException handler .addressErrorException tmp .leaves
      else s.load handler tmp 2 pcAfter rt fun _ value => value &&& 0xffff
  | .lui => s.assign pcAfter rt (extra <<< 16)
  | .lw =>
      if tmp &&& 3 ≠ 0 then s.raiseException handler .addressErrorException tmp .leaves
      else s.load handler tmp 4 pcAfter rt fun _ value => value
  | .lwl => s.assertWord tmp (s.load handler tmp 4 pcAfter rt (lwlValue tmp rt))
  | .lwr => s.assertWord tmp (s.load handler tmp 4 pcAfter rt (lwrValue tmp rt))
  | .mfhi => s.assign pcAfter rd (reg hiReg)
  | .mflo => s.assign pcAfter rd (reg loReg)
  | .mthi => s.assign pcAfter hiReg (reg rs)
  | .mtlo => s.assign pcAfter loReg (reg rs)
  | .mult =>
      let product := mult (reg rs) (reg rt) true
      s.setLoHi pcAfter product.2 product.1
  | .multu =>
      let product := mult (reg rs) (reg rt) false
      s.setLoHi pcAfter product.2 product.1
  | .nor => s.assign pcAfter rd (~~~(reg rs ||| reg rt))
  | .or => s.assign pcAfter rd (reg rs ||| reg rs)
  | .ori => s.assign pcAfter rt (reg rs ||| (extra &&& 0xffff))
  | .sb => s.store handler tmp 1 pcAfter (reg rt)
  | .sh => s.store handler tmp 2 pcAfter (reg rt)
  | .sll => s.assign pcAfter rd (reg rt <<< extra)
  | .sllv => s.assign pcAfter rd (reg rt <<< (reg rs &&& 0x1f))
  | .slt => s.assign pcAfter rd (if (reg rs).toInt < (reg rt).toInt then 1 else 0)
  | .slti => s.assign pcAfter rt (if (reg rs).toInt < extra.toInt then 1 else 0)
  | .sltiu => s.assign pcAfter rt (if reg rs < extra then 1 else 0)
  | .sltu => s.assign pcAfter rd (if reg rs < reg rt then 1 else 0)
  | .sra => s.assign pcAfter rd ((reg rt).sshiftRight' extra)
  | .srav => s.assign pcAfter rd ((reg rt).sshiftRight' (reg rs &&& 0x1f))
  | .srl => s.assign pcAfter rd ((reg rt).sshiftRight' extra)
  | .srlv => s.assign pcAfter rd ((reg rt).sshiftRight' (reg rs &&& 0x1f))
  | .sub =>
      let diff := reg rs - reg rt
      if signed (reg rs ^^^ reg rt) ∧ signed (reg rs ^^^ diff) then
        s.raiseException handler .overflowException 0 .leaves
      else s.assign pcAfter rd diff
  | .subu => s.assign pcAfter rd (reg rs - reg rt)
  | .sw => s.store handler tmp 4 pcAfter (reg rt)
  | .swl => s.assertWord tmp (s.storePart handler tmp pcAfter (swlValue tmp rt))
  | .swr => s.assertWord tmp (s.storePart handler tmp pcAfter (swrValue tmp rt))
  | .syscall => s.raiseException handler .syscallException 0 .leaves
  | .xor => s.assign pcAfter rd (reg rs ^^^ reg rt)
  | .xori => s.assign pcAfter rt (reg rs ^^^ (extra &&& 0xffff))
  | .res => s.raiseException handler .illegalInstrException 0 .leaves
  | .unimp => s.raiseException handler .illegalInstrException 0 .leaves
  | .rfe => .stops .aborted s
  | .special => .stops .aborted s
  | .bcond => .stops .aborted s

/-- `Machine::OneInstruction` after the `switch`. -/
def advance (pcAfter nextLoadReg nextLoadValue : BitVec 32) (s : Simulation) : Simulation :=
  let s := s.delayedLoad nextLoadReg nextLoadValue
  let s := s.set prevPCReg (s.registers pcReg)
  let s := s.set pcReg (s.registers nextPCReg)
  s.set nextPCReg pcAfter

/-- `Machine::OneInstruction` once the instruction is decoded. -/
def perform (handler : Handler) (instr : Instruction) (s : Simulation) : Ending Unit :=
  (s.execute handler instr).andThen fun
    | .leaves, s => .returns () s
    | .breaks pcAfter nextLoadReg nextLoadValue, s =>
        .returns () (s.advance pcAfter nextLoadReg nextLoadValue)

/-- `Machine::OneInstruction`. -/
def oneInstruction (handler : Handler) (s : Simulation) : Ending Unit :=
  (s.readMem handler (s.registers pcReg) 4).andThen fun
    | none, s => .returns () s
    | some raw, s => s.perform handler (Instruction.decode raw)

end Simulation

end Nachos
