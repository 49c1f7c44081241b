/-
Module: Nachos.Machine.Copying
Purpose: Which bytes of a user program can be translated, and `copyin` and
  `copyout` of exception.cc on ranges of them.  An access sets bits of an entry
  only, so that what can be translated stays so.
Trusted boundary: none
Main exports: Processor.Translatable, Processor.RangeTranslatable, SameMapping,
  Simulation.readMem_byte, Simulation.writeMem_byte, copyin_cases,
  copyout_cases
-/
import Nachos.Machine.UserPrograms

namespace Nachos

open Lib (Memory)

namespace Processor

/-- The byte at a virtual address can be read, or written. -/
def Translatable (m : Processor) (writing : Bool) (virtAddr : BitVec 32) : Prop :=
  ∃ result, m.translate virtAddr 1 writing = some (.ok result)

/-- Every one of `length` bytes can. -/
def RangeTranslatable (m : Processor) (writing : Bool) (vaddr : BitVec 32) (length : Int) : Prop :=
  ∀ k : Nat, k < length → m.Translatable writing (vaddr + BitVec.ofNat 32 k)

variable {m m' : Processor} {writing : Bool} {virtAddr : BitVec 32}

theorem not_misaligned_byte (virtAddr : BitVec 32) : ¬ misaligned virtAddr 1 := by
  simp [misaligned]

/-- A byte can be translated when its page is there. -/
theorem translatable_iff (noTLB : m.tlb = none) :
    m.Translatable writing virtAddr ↔
      ∃ table entry, m.pageTable = some table ∧ table[virtAddr.toNat / pageSize]? = some entry ∧
        entry.valid = true ∧ ¬ (entry.readOnly ∧ writing) ∧
        entry.physicalPage.toNat < numPhysPages := by
  unfold Translatable translate
  simp only [if_neg (not_misaligned_byte virtAddr), noTLB]
  cases m.pageTable with
  | none => simp
  | some table =>
      dsimp only
      cases here : table[virtAddr.toNat / pageSize]? with
      | none => simp [here]
      | some entry =>
          dsimp only
          by_cases valid : entry.valid = true
          · rw [if_pos valid]
            unfold translateBy
            by_cases readOnly : entry.readOnly ∧ writing
            · rw [if_pos readOnly]
              simp [here, readOnly]
            · rw [if_neg readOnly]
              by_cases frame : entry.physicalPage.toNat ≥ numPhysPages
              · rw [if_pos frame]
                simp [here]
                omega
              · rw [if_neg frame]
                simp only [pageSize, memorySize, numPhysPages] at *
                rw [if_pos (by omega)]
                exact iff_of_true ⟨_, rfl⟩ ⟨table, entry, rfl, here, valid, readOnly, by omega⟩
          · rw [if_neg valid]
            simp [here, valid]

/-- From `m` to `m'` the same bytes can be translated. -/
structure SameMapping (m m' : Processor) : Prop where
  noTLB : m'.tlb = none
  pages : ∀ writing virtAddr, m'.Translatable writing virtAddr ↔ m.Translatable writing virtAddr

theorem SameMapping.of_eq (noTLB : m.tlb = none) (tlb : m'.tlb = m.tlb)
    (pageTable : m'.pageTable = m.pageTable) : SameMapping m m' := by
  refine ⟨tlb.trans noTLB, ?_⟩
  intro writing virtAddr
  rw [translatable_iff (tlb.trans noTLB), translatable_iff noTLB, pageTable]

theorem SameMapping.trans {m'' : Processor} (first : SameMapping m m')
    (second : SameMapping m' m'') : SameMapping m m'' :=
  ⟨second.noTLB, fun writing virtAddr =>
    (second.pages writing virtAddr).trans (first.pages writing virtAddr)⟩

theorem SameMapping.range (same : SameMapping m m') {vaddr : BitVec 32} {length : Int} :
    m'.RangeTranslatable writing vaddr length ↔ m.RangeTranslatable writing vaddr length :=
  forall₂_congr fun _ _ => same.pages _ _

theorem interrupted_tables (n : Nat) (m : Processor) :
    (m.interrupted n).tlb = m.tlb ∧ (m.interrupted n).pageTable = m.pageTable := by
  induction n generalizing m with
  | zero => exact ⟨rfl, rfl⟩
  | succ n inductionHypothesis => exact inductionHypothesis (m.delayedLoad 0 0)

/-- Interrupts only finish delayed loads. -/
theorem sameMapping_interrupted (noTLB : m.tlb = none) (n : Nat) :
    SameMapping m (m.interrupted n) :=
  .of_eq noTLB (interrupted_tables n m).1 (interrupted_tables n m).2

/-- Putting an entry back with other bits does not change what can be
translated. -/
theorem sameMapping_set {table : List TranslationEntry} {entry : TranslationEntry} {vpn : Nat}
    (noTLB : m.tlb = none) (pages : m.pageTable = some table) (here : table[vpn]? = some entry)
    (use dirty : Bool) (noTLB' : m'.tlb = none)
    (pages' : m'.pageTable = some (table.set vpn { entry with use := use, dirty := dirty })) :
    SameMapping m m' := by
  refine ⟨noTLB', ?_⟩
  intro writing virtAddr
  rw [translatable_iff noTLB', translatable_iff noTLB, pages, pages']
  by_cases same : vpn = virtAddr.toNat / pageSize
  · obtain ⟨inside, rfl⟩ := List.getElem?_eq_some_iff.mp here
    simp [← same, inside]
  · simp [List.getElem?_set_ne same]

/-- A successful translation sets bits only. -/
theorem sameMapping_of_translate {physAddr : Nat} (noTLB : m.tlb = none)
    (ok : m.translate virtAddr 1 writing = some (.ok (physAddr, m'))) : SameMapping m m' := by
  unfold translate at ok
  rw [if_neg (not_misaligned_byte virtAddr)] at ok
  cases pages : m.pageTable with
  | none => simp [noTLB, pages] at ok
  | some table =>
      simp only [noTLB, pages] at ok
      split at ok
      · cases ok
      · rename_i entry here
        split at ok
        · unfold translateBy at ok
          split at ok
          · cases ok
          · split at ok
            · cases ok
            · dsimp only at ok
              split at ok
              · obtain ⟨rfl, rfl⟩ := Prod.mk.inj (Except.ok.inj (Option.some.inj ok))
                exact sameMapping_set noTLB pages here true (entry.dirty || writing) rfl rfl
              · cases ok
        · cases ok

end Processor

/-! ### The bytes that the kernel reads and writes -/

namespace Simulation

open Processor

variable {m : Processor}

/-- The translation of the address of a byte. -/
theorem translate_byte_cases (noTLB : m.tlb = none) (vaddr : BitVec 32) (writing : Bool) :
    (∃ physAddr m', m.translate vaddr 1 writing = some (.ok (physAddr, m')) ∧
        SameMapping m m') ∨
      (¬ m.Translatable writing vaddr ∧ (m.translate vaddr 1 writing = none ∨
        ∃ which, m.translate vaddr 1 writing = some (.error which))) := by
  cases translated : m.translate vaddr 1 writing with
  | none =>
      refine .inr ⟨?_, .inl rfl⟩
      rintro ⟨result, ok⟩
      rw [translated] at ok
      cases ok
  | some answer =>
      cases answer with
      | error which =>
          refine .inr ⟨?_, .inr ⟨which, rfl⟩⟩
          rintro ⟨result, ok⟩
          rw [translated] at ok
          cases ok
      | ok result => exact .inl ⟨result.1, result.2, rfl, sameMapping_of_translate noTLB translated⟩

theorem readMem_byte (noTLB : m.tlb = none) (vaddr : BitVec 32) :
    (m.Translatable false vaddr ∧ ∃ value s,
        readMem unexpected vaddr 1 ⟨m, []⟩ = .returns (some value) s ∧
          SameMapping m s.toProcessor) ∨
      (¬ m.Translatable false vaddr ∧ ∃ why s,
        readMem unexpected vaddr 1 ⟨m, []⟩ = .stops why s) := by
  unfold readMem
  dsimp only
  rcases translate_byte_cases noTLB vaddr false with
    ⟨physAddr, m', ok, same⟩ | ⟨fails, none | ⟨which, error⟩⟩
  · rw [ok]
    exact .inl ⟨⟨_, ok⟩, _, _, rfl, same.trans (.of_eq same.noTLB rfl rfl)⟩
  · rw [none]
    exact .inr ⟨fails, _, _, rfl⟩
  · rw [error]
    exact .inr ⟨fails, _, _, rfl⟩

theorem writeMem_byte (noTLB : m.tlb = none) (vaddr value : BitVec 32) :
    (m.Translatable true vaddr ∧ ∃ s,
        writeMem unexpected vaddr 1 value ⟨m, []⟩ = .returns (some ()) s ∧
          SameMapping m s.toProcessor) ∨
      (¬ m.Translatable true vaddr ∧ ∃ why s,
        writeMem unexpected vaddr 1 value ⟨m, []⟩ = .stops why s) := by
  unfold writeMem
  dsimp only
  rcases translate_byte_cases noTLB vaddr true with
    ⟨physAddr, m', ok, same⟩ | ⟨fails, none | ⟨which, error⟩⟩
  · rw [ok]
    exact .inl ⟨⟨_, ok⟩, _, rfl, same.trans (.of_eq same.noTLB rfl rfl)⟩
  · rw [none]
    exact .inr ⟨fails, _, _, rfl⟩
  · rw [error]
    exact .inr ⟨fails, _, _, rfl⟩

end Simulation

section

open Processor

variable {m : Processor} {writing : Bool} {vaddr : BitVec 32}

theorem address_succ (vaddr : BitVec 32) (k : Nat) :
    vaddr + BitVec.ofNat 32 (k + 1) = vaddr + 1 + BitVec.ofNat 32 k := by
  rw [Nat.add_comm, BitVec.ofNat_add, ← BitVec.add_assoc]
  rfl

theorem address_zero (vaddr : BitVec 32) : vaddr + BitVec.ofNat 32 0 = vaddr :=
  BitVec.add_zero vaddr

theorem rangeTranslatable_succ {n : Nat} :
    m.RangeTranslatable writing vaddr (n + 1 : Nat) ↔
      m.Translatable writing vaddr ∧ m.RangeTranslatable writing (vaddr + 1) n := by
  constructor
  · intro range
    constructor
    · have first := range 0 (by omega)
      rwa [address_zero] at first
    · intro k inside
      have here := range (k + 1) (by omega)
      rwa [address_succ] at here
  · rintro ⟨first, rest⟩ k inside
    cases k with
    | zero => rwa [address_zero]
    | succ k =>
        rw [address_succ]
        exact rest k (by omega)

theorem rangeTranslatable_toNat {length : Int} :
    m.RangeTranslatable writing vaddr length.toNat ↔ m.RangeTranslatable writing vaddr length := by
  constructor
  · exact fun range k inside => range k (by omega)
  · exact fun range k inside => range k (by omega)

/-- `copyin` gets every byte of a range, or the machine is halted. -/
theorem copyin_cases (noTLB : m.tlb = none) (n : Nat) (vaddr : BitVec 32) :
    (m.RangeTranslatable false vaddr n ∧ ∃ bytes m', copyin n vaddr m = some (bytes, m') ∧
        bytes.length = n ∧ SameMapping m m') ∨
      (¬ m.RangeTranslatable false vaddr n ∧ copyin n vaddr m = none) := by
  induction n generalizing vaddr m with
  | zero =>
      refine .inl ⟨fun k inside => ?_, [], m, rfl, rfl, .of_eq noTLB rfl rfl⟩
      omega
  | succ n inductionHypothesis =>
      rw [rangeTranslatable_succ]
      unfold copyin
      rcases Simulation.readMem_byte noTLB vaddr with
        ⟨first, value, s, read, same⟩ | ⟨fails, why, s, read⟩
      · rw [read]
        dsimp only
        rcases inductionHypothesis same.noTLB (vaddr + 1) with
          ⟨rest, bytes, m', copied, length, further⟩ | ⟨fails, copied⟩
        · refine .inl ⟨⟨first, same.range.mp rest⟩, Memory.byteOf value 0 :: bytes, m', ?_, ?_,
            same.trans further⟩
          · rw [copied]
            rfl
          · rw [List.length_cons, length]
        · refine .inr ⟨fun range => fails (same.range.mpr range.2), ?_⟩
          rw [copied]
          rfl
      · rw [read]
        exact .inr ⟨fun range => fails range.1, rfl⟩

/-- `copyout` puts every byte of a range, or the machine is halted. -/
theorem copyout_cases (noTLB : m.tlb = none) (buf : Memory) (n : Nat) (i : Int)
    (vaddr : BitVec 32) :
    (m.RangeTranslatable true vaddr n ∧ ∃ m', copyout buf n i vaddr m = some m' ∧
        SameMapping m m') ∨
      (¬ m.RangeTranslatable true vaddr n ∧ copyout buf n i vaddr m = none) := by
  induction n generalizing vaddr m i with
  | zero =>
      refine .inl ⟨fun k inside => ?_, m, rfl, .of_eq noTLB rfl rfl⟩
      omega
  | succ n inductionHypothesis =>
      rw [rangeTranslatable_succ]
      unfold copyout
      rcases Simulation.writeMem_byte noTLB vaddr
        ((buf i).toBitVec.signExtend 32) with ⟨first, s, wrote, same⟩ | ⟨fails, why, s, wrote⟩
      · rw [wrote]
        dsimp only
        rcases inductionHypothesis same.noTLB (i + 1) (vaddr + 1) with
          ⟨rest, m', copied, further⟩ | ⟨fails, copied⟩
        · exact .inl ⟨⟨first, same.range.mp rest⟩, m', copied, same.trans further⟩
        · exact .inr ⟨fun range => fails (same.range.mpr range.2), copied⟩
      · rw [wrote]
        exact .inr ⟨fun range => fails range.1, rfl⟩

end

end Nachos
