/-
Module: Nachos.Machine.Encodings
Purpose: The fields of an instruction word and the numbers of the operations, by
  which the decoder of mipssim.cc is characterised.
Trusted boundary: none
Main exports: immediate_ifmt, Number, Number.In, Number.Means, Number.decode_eq
-/
import Nachos.Machine.Instructions

namespace Nachos

/-! ### Fields -/

section

variable (raw : BitVec 32)

/-- The major opcode. -/
def opField : BitVec 6 :=
  raw.extractLsb' 26 6

/-- The number of the first source register. -/
def rsField : BitVec 5 :=
  raw.extractLsb' 21 5

/-- The number of the second source register, or of the destination of an
instruction with an immediate. -/
def rtField : BitVec 5 :=
  raw.extractLsb' 16 5

/-- The number of the destination register. -/
def rdField : BitVec 5 :=
  raw.extractLsb' 11 5

/-- The amount of a shift. -/
def shamtField : BitVec 5 :=
  raw.extractLsb' 6 5

/-- The function code of an instruction whose major opcode is `SPECIAL`. -/
def functField : BitVec 6 :=
  raw.extractLsb' 0 6

/-- The immediate operand. -/
def immField : BitVec 16 :=
  raw.extractLsb' 0 16

end

/-- A shift and a mask take out a field. -/
theorem toNat_masked (raw : BitVec 32) (start len : Nat) (small : len ≤ 32) :
    (raw >>> start &&& BitVec.ofNat 32 (2 ^ len - 1)).toNat =
      (raw.extractLsb' start len).toNat := by
  have fits : 2 ^ len - 1 < 2 ^ 32 := by
    have := Nat.pow_le_pow_right (n := 2) (by omega) small
    have := Nat.two_pow_pos len
    omega
  rw [BitVec.toNat_and, BitVec.toNat_ofNat, Nat.mod_eq_of_lt fits,
    Nat.and_two_pow_sub_one_eq_mod, BitVec.toNat_ushiftRight, BitVec.extractLsb'_toNat]

theorem opField_toNat (raw : BitVec 32) : (raw >>> 26 &&& 0x3f).toNat = (opField raw).toNat :=
  toNat_masked raw 26 6 (by decide)

theorem functField_toNat (raw : BitVec 32) : (raw &&& 0x3f).toNat = (functField raw).toNat := by
  have masked := toNat_masked raw 0 6 (by decide)
  rwa [BitVec.ushiftRight_zero] at masked

/-- The low bits of a shifted word are a field. -/
theorem setWidth_ushiftRight (raw : BitVec 32) (start len : Nat) :
    (raw >>> start).setWidth len = raw.extractLsb' start len := by
  apply BitVec.eq_of_toNat_eq
  rw [BitVec.toNat_setWidth, BitVec.toNat_ushiftRight, BitVec.extractLsb'_toNat]

/-- The `extra` field of the register format is the amount of a shift. -/
theorem immediate_rfmt (raw : BitVec 32) :
    Instruction.immediate raw .rfmt = (shamtField raw).setWidth 32 := by
  apply BitVec.eq_of_toNat_eq
  rw [BitVec.toNat_setWidth]
  have small : (shamtField raw).toNat < 2 ^ 32 := Nat.lt_trans (shamtField raw).isLt (by decide)
  exact (toNat_masked raw 6 5 (by decide)).trans (Nat.mod_eq_of_lt small).symm

/-- The `extra` field of the immediate format is the immediate operand with its
sign. -/
theorem immediate_ifmt (raw : BitVec 32) :
    Instruction.immediate raw .ifmt = (immField raw).signExtend 32 := by
  have low : raw &&& 0xffff = (immField raw).setWidth 32 := by
    have masked := toNat_masked raw 0 16 (by decide)
    rw [BitVec.ushiftRight_zero] at masked
    have small : (immField raw).toNat < 2 ^ 32 := Nat.lt_trans (immField raw).isLt (by decide)
    apply BitVec.eq_of_toNat_eq
    rw [BitVec.toNat_setWidth]
    exact masked.trans (Nat.mod_eq_of_lt small).symm
  have sign : raw &&& 0xffff &&& 0x8000 ≠ 0 ↔ (immField raw).msb = true := by
    have mask : (0x8000 : BitVec 32) = BitVec.twoPow 32 15 := rfl
    rw [low, mask, BitVec.and_twoPow, BitVec.msb_eq_getLsbD_last, BitVec.getLsbD_setWidth]
    cases (immField raw).getLsbD 15 with
    | false => decide
    | true => decide
  have apart : raw &&& 0xffff &&& 0xffff0000 = 0 := by
    rw [BitVec.and_assoc]
    exact BitVec.and_zero
  apply BitVec.eq_of_toNat_eq
  unfold Instruction.immediate
  dsimp only
  rw [BitVec.toNat_signExtend, ← low]
  by_cases negative : (immField raw).msb = true
  · rw [if_pos (sign.mpr negative), if_pos negative,
      ← BitVec.add_eq_or_of_and_eq_zero _ _ apart, BitVec.toNat_add, low, BitVec.toNat_setWidth]
    have := (immField raw).isLt
    have : (0xffff0000 : BitVec 32).toNat = 2 ^ 32 - 2 ^ 16 := rfl
    omega
  · rw [if_neg (mt sign.mp negative), if_neg negative]
    rfl

/-- A mask takes the sign off an immediate operand again. -/
theorem signExtend_and (imm : BitVec 16) : imm.signExtend 32 &&& 0xffff = imm.setWidth 32 := by
  apply BitVec.eq_of_toNat_eq
  have masked : (imm.signExtend 32 &&& 0xffff).toNat = (imm.signExtend 32).toNat % 2 ^ 16 := by
    rw [BitVec.toNat_and]
    exact Nat.and_two_pow_sub_one_eq_mod _ 16
  rw [masked, BitVec.toNat_signExtend, BitVec.toNat_setWidth]
  have := imm.isLt
  split
  · omega
  · omega

/-! ### Numbers of operations -/

/-- How an operation is marked in an instruction word: by a function code, or by
a major opcode. -/
inductive Number where
  | special (funct : BitVec 6)
  | major (op : BitVec 6)
deriving DecidableEq, Repr

namespace Number

/-- The word is marked so. -/
def In (raw : BitVec 32) : Number → Prop
  | special funct => opField raw = 0 ∧ functField raw = funct
  | major op => opField raw = op

instance (raw : BitVec 32) : (number : Number) → Decidable (number.In raw)
  | special _ => inferInstanceAs (Decidable (_ ∧ _))
  | major _ => inferInstanceAs (Decidable (_ = _))

/-- The number stands for the operation: in the tables, with the register format
after a function code and the immediate format after a major opcode. -/
def Means (opCode : OpCode) : Number → Prop
  | special funct => specialTable.getD funct.toNat .res = opCode
  | major op =>
      opTable.getD op.toNat (.res, .ifmt) = (opCode, .ifmt) ∧ opCode ≠ .special ∧ opCode ≠ .bcond

/-- The number of the destination register. -/
def dest (raw : BitVec 32) : Number → BitVec 5
  | special _ => rdField raw
  | major _ => rtField raw

/-- What the decoder leaves in `extra`. -/
def extra (raw : BitVec 32) : Number → BitVec 32
  | special _ => (shamtField raw).setWidth 32
  | major _ => (immField raw).signExtend 32

/-- The decoder, for a word that is marked with a number. -/
theorem decode_eq {number : Number} {raw : BitVec 32} {opCode : OpCode} (marked : number.In raw)
    (means : number.Means opCode) :
    Instruction.decode raw =
      ⟨opCode, rsField raw, rtField raw, rdField raw, number.extra raw⟩ := by
  unfold Instruction.decode
  rw [opField_toNat, functField_toNat, setWidth_ushiftRight, setWidth_ushiftRight,
    setWidth_ushiftRight]
  cases number with
  | special funct =>
      obtain ⟨isSpecial, isFunct⟩ := marked
      have first : opTable.getD (0 : BitVec 6).toNat (.res, .ifmt) = (.special, .rfmt) := rfl
      have second : specialTable.getD funct.toNat .res = opCode := means
      rw [isSpecial, first, isFunct, second]
      dsimp only
      rw [immediate_rfmt]
      rfl
  | major op =>
      obtain ⟨first, notSpecial, notBranch⟩ := means
      have isOp : opField raw = op := marked
      rw [isOp, first]
      dsimp only
      rw [immediate_ifmt, if_neg notSpecial, if_neg notBranch]
      rfl

end Number

end Nachos
