/-
Module: Nachos.Lib.Moves
Purpose: Straight-line code that moves words between registers and memory: its
  meaning, and what becomes of a table of registers that is stored at fixed
  distances from an address and loaded from such a place.  Nothing here mentions
  a particular program or processor.
Trusted boundary: none
Main exports: Cpu, Operand, Move, execute, execute_append, writes_at, saves,
  loads, execute_saves, saved_at, saved_outside, execute_loads, loaded_from,
  not_loaded
-/
import Mathlib.Algebra.Group.Defs
import Mathlib.Data.List.Nodup
import Mathlib.Logic.Function.Basic
import Mathlib.Tactic.Common

namespace Nachos.Lib.Moves

/-- The registers and the words of memory. -/
structure Cpu (R W : Type*) where
  regs : R → W
  mem : W → W

/-- Where a word is moved from or to. -/
inductive Operand (R W : Type*) where
  | reg (r : R)
  /-- the word at a distance from the address in a register -/
  | at (base : R) (distance : W)
  /-- the word at a fixed address -/
  | variable (address : W)
deriving DecidableEq, Repr

/-- An instruction that moves one word. -/
structure Move (R W : Type*) where
  source : Operand R W
  target : Operand R W
deriving DecidableEq, Repr

variable {R W : Type*} [Add W]

/-- The word that an operand names. -/
def Operand.get (cpu : Cpu R W) : Operand R W → W
  | .reg r => cpu.regs r
  | .at base distance => cpu.mem (cpu.regs base + distance)
  | .variable address => cpu.mem address

variable [DecidableEq R] [DecidableEq W]

/-- Store a word in an operand. -/
def Operand.set (word : W) (cpu : Cpu R W) : Operand R W → Cpu R W
  | .reg r => { cpu with regs := Function.update cpu.regs r word }
  | .at base distance =>
      { cpu with mem := Function.update cpu.mem (cpu.regs base + distance) word }
  | .variable address => { cpu with mem := Function.update cpu.mem address word }

def Move.perform (move : Move R W) (cpu : Cpu R W) : Cpu R W :=
  move.target.set (move.source.get cpu) cpu

/-- Instructions performed one after another. -/
def execute : List (Move R W) → Cpu R W → Cpu R W
  | [], cpu => cpu
  | move :: moves, cpu => execute moves (move.perform cpu)

theorem execute_append (first second : List (Move R W)) (cpu : Cpu R W) :
    execute (first ++ second) cpu = execute second (execute first cpu) := by
  induction first generalizing cpu with
  | nil => rfl
  | cons move first inductionHypothesis => exact inductionHypothesis (move.perform cpu)

/-! ### Storing words -/

/-- Memory after words were stored at addresses, one after another. -/
def writes : List (W × W) → (W → W) → W → W
  | [], mem => mem
  | write :: rest, mem => writes rest (Function.update mem write.1 write.2)

omit [Add W] in
theorem writes_outside {a : W} {list : List (W × W)} {mem : W → W}
    (outside : a ∉ list.map Prod.fst) : writes list mem a = mem a := by
  induction list generalizing mem with
  | nil => rfl
  | cons write rest inductionHypothesis =>
      simp only [List.map_cons, List.mem_cons, not_or] at outside
      rw [writes, inductionHypothesis outside.2]
      exact Function.update_of_ne outside.1 ..

omit [Add W] in
theorem writes_at {list : List (W × W)} {mem : W → W} (apart : (list.map Prod.fst).Nodup)
    {write : W × W} (member : write ∈ list) : writes list mem write.1 = write.2 := by
  induction list generalizing mem with
  | nil => cases member
  | cons first rest inductionHypothesis =>
      obtain ⟨distinct, apartRest⟩ := List.nodup_cons.mp apart
      rw [writes]
      rcases List.mem_cons.mp member with rfl | later
      · rw [writes_outside distinct, Function.update_self]
      · exact inductionHypothesis apartRest later

/-! ### Storing registers -/

/-- Store the registers of a table at their distances from the address in
`base`. -/
def saves (base : R) (table : List (R × W)) : List (Move R W) :=
  table.map fun entry => ⟨.reg entry.1, .at base entry.2⟩

/-- Memory after the registers of a table were stored. -/
def stored (regs : R → W) (address : W) (table : List (R × W)) : (W → W) → W → W :=
  writes (table.map fun entry => (address + entry.2, regs entry.1))

/-- Storing does not change a register. -/
theorem execute_saves (base : R) (table : List (R × W)) (cpu : Cpu R W) :
    execute (saves base table) cpu =
      { cpu with mem := stored cpu.regs (cpu.regs base) table cpu.mem } := by
  induction table generalizing cpu with
  | nil => rfl
  | cons entry table inductionHypothesis =>
      rw [saves, List.map_cons, execute, ← saves, inductionHypothesis]
      rfl

omit [DecidableEq R] in
theorem saved_outside {regs : R → W} {address a : W} {table : List (R × W)} {mem : W → W}
    (outside : ∀ entry ∈ table, a ≠ address + entry.2) :
    stored regs address table mem a = mem a := by
  refine writes_outside fun member => ?_
  obtain ⟨_, ⟨entry, listed, rfl⟩, same⟩ := by simpa only [List.mem_map] using member
  exact outside entry listed same.symm

omit [DecidableEq R] in
theorem saved_at [IsLeftCancelAdd W] {regs : R → W} {address : W} {table : List (R × W)}
    {mem : W → W} (apart : (table.map Prod.snd).Nodup) {entry : R × W}
    (member : entry ∈ table) :
    stored regs address table mem (address + entry.2) = regs entry.1 := by
  have addresses : ((table.map Prod.snd).map (address + ·)).Nodup :=
    apart.map (add_right_injective address)
  rw [List.map_map] at addresses
  have listed : (address + entry.2, regs entry.1) ∈
      table.map fun entry => (address + entry.2, regs entry.1) := List.mem_map_of_mem member
  refine writes_at ?_ listed
  rw [List.map_map]
  exact addresses

/-! ### Loading registers -/

/-- Load the registers of a table from their distances from the address in
`base`. -/
def loads (base : R) (table : List (R × W)) : List (Move R W) :=
  table.map fun entry => ⟨.at base entry.2, .reg entry.1⟩

/-- Registers after those of a table were loaded. -/
def loaded (mem : W → W) (address : W) : List (R × W) → (R → W) → R → W
  | [], regs => regs
  | entry :: table, regs =>
      loaded mem address table (Function.update regs entry.1 (mem (address + entry.2)))

/-- Loading does not change memory, nor the address, when its register is not in
the table. -/
theorem execute_loads {base : R} {table : List (R × W)} (kept : base ∉ table.map Prod.fst)
    (cpu : Cpu R W) :
    execute (loads base table) cpu =
      { cpu with regs := loaded cpu.mem (cpu.regs base) table cpu.regs } := by
  induction table generalizing cpu with
  | nil => rfl
  | cons entry table inductionHypothesis =>
      simp only [List.map_cons, List.mem_cons, not_or] at kept
      rw [loads, List.map_cons, execute, ← loads, inductionHypothesis kept.2]
      simp only [Move.perform, Operand.get, Operand.set, loaded,
        Function.update_of_ne kept.1]

omit [DecidableEq W] in
theorem not_loaded {mem : W → W} {address : W} {table : List (R × W)} {regs : R → W}
    {r : R} (outside : r ∉ table.map Prod.fst) :
    loaded mem address table regs r = regs r := by
  induction table generalizing regs with
  | nil => rfl
  | cons entry table inductionHypothesis =>
      simp only [List.map_cons, List.mem_cons, not_or] at outside
      rw [loaded, inductionHypothesis outside.2]
      exact Function.update_of_ne outside.1 ..

omit [DecidableEq W] in
theorem loaded_from {mem : W → W} {address : W} {table : List (R × W)} {regs : R → W}
    (apart : (table.map Prod.fst).Nodup) {entry : R × W} (member : entry ∈ table) :
    loaded mem address table regs entry.1 = mem (address + entry.2) := by
  induction table generalizing regs with
  | nil => cases member
  | cons first table inductionHypothesis =>
      obtain ⟨distinct, apartRest⟩ := List.nodup_cons.mp apart
      rw [loaded]
      rcases List.mem_cons.mp member with rfl | later
      · rw [not_loaded distinct, Function.update_self]
      · exact inductionHypothesis apartRest later

end Nachos.Lib.Moves
