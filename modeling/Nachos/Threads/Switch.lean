/-
Module: Nachos.Threads.Switch
Purpose: The context switch on the hosts whose SWITCH is given the two threads
  in registers (MIPS and SNAKE): SWITCH, ThreadRoot and Thread::StackAllocate,
  and what they make of any interleaving of threads.  A thread that called
  SWITCH goes on from its call; a forked thread starts in ThreadRoot.
Trusted boundary: memory is a map from the addresses of words, all of them
  aligned; code between two calls of SWITCH may do anything but write the
  saved state of other threads; the callee of a call in ThreadRoot keeps the
  callee-saved registers, as the calling convention says
Main exports: Routine, mips, snake, Routine.SWITCH, Routine.stackAllocate,
  Threads, Host, host, keeper, Calls, switch_returns, forked_thread_starts
-/
import Mathlib.Data.BitVec
import Mathlib.Data.Fintype.Defs
import Mathlib.Data.Fintype.Fin
import Nachos.Lib.Moves
import Nachos.Lib.Tasks

namespace Nachos.Switch

open Nachos.Lib
open Nachos.Lib.Moves

abbrev Word := BitVec 32

/-- What is said of the entries of a table is decided by looking at them. -/
local instance (priority := 2000) decidableInTable {R : Type*} {P : R × Word → Prop}
    [DecidablePred P] (table : List (R × Word)) : Decidable (∀ entry ∈ table, P entry) :=
  List.decidableBAll P table

/-! ### The routines of a host -/

/-- The part of switch.s and switch.h that is written for one host.  A register
that is saved stands with its distance from the beginning of the Thread object,
which is that of `stackTop` for the stack pointer and that of
`machineState[distance / 4 - 1]` for the others. -/
structure Routine (R : Type*) where
  /-- what SWITCH stores, in this order -/
  saved : List (R × Word)
  /-- what SWITCH loads, in this order -/
  restored : List (R × Word)
  oldThread : R
  newThread : R
  /-- the first argument of a call -/
  argument : R
  /-- the registers that ThreadRoot clears -/
  cleared : List R
  SP : R × Word
  PC : R × Word
  InitialPC : R × Word
  InitialArg : R × Word
  WhenDonePC : R × Word
  StartupPC : R × Word
  /-- `stackTop` and the place of the fencepost, in words from `stack` -/
  top : Word
  fencepost : Word
  sameTable : restored.Perm saved
  registersApart : (saved.map Prod.fst).Nodup
  distancesApart : (saved.map Prod.snd).Nodup
  newThreadKept : newThread ∉ restored.map Prod.fst
  initialised : [SP, PC, StartupPC, InitialPC, InitialArg, WhenDonePC].Nodup
  initialisedSaved : ∀ entry ∈ [SP, PC, StartupPC, InitialPC, InitialArg, WhenDonePC],
    entry ∈ saved
  argumentNotSaved : argument ∉ saved.map Prod.fst
  clearedUnused : ∀ entry ∈ [StartupPC, InitialPC, InitialArg, WhenDonePC],
    entry.1 ∉ cleared

/-- `#ifdef HOST_MIPS`: $4, $5 are a0, a1; $16..$23 are s0..s7; $29 is sp; $30 is
fp; $31 is ra. -/
def mips : Routine (Fin 32) where
  saved := [(29, 0), (16, 4), (17, 8), (18, 12), (19, 16), (20, 20), (21, 24), (22, 28),
    (23, 32), (30, 36), (31, 40)]
  restored := [(29, 0), (16, 4), (17, 8), (18, 12), (19, 16), (20, 20), (21, 24), (22, 28),
    (23, 32), (30, 36), (31, 40)]
  oldThread := 4
  newThread := 5
  argument := 4
  cleared := [30]
  SP := (29, 0)
  PC := (31, 40)
  InitialPC := (16, 4)
  InitialArg := (17, 8)
  WhenDonePC := (18, 12)
  StartupPC := (19, 16)
  top := 4096 - 4
  fencepost := 0
  sameTable := .refl _
  registersApart := by decide
  distancesApart := by decide
  newThreadKept := by decide
  initialised := by decide
  initialisedSaved := by decide
  argumentNotSaved := by decide
  clearedUnused := by decide

/-- `#ifdef HOST_SNAKE`: r3..r18 are S0..S15; r2 is rp; r26 is arg0; r25 is arg1;
r30 is sp.  S15 is loaded in the delay slot of the jump through rp. -/
def snake : Routine (Fin 32) where
  saved := [(30, 0), (3, 4), (4, 8), (5, 12), (6, 16), (7, 20), (8, 24), (9, 28), (10, 32),
    (11, 36), (12, 40), (13, 44), (14, 48), (15, 52), (16, 56), (17, 60), (18, 64), (2, 68)]
  restored := [(30, 0), (3, 4), (4, 8), (5, 12), (6, 16), (7, 20), (8, 24), (9, 28), (10, 32),
    (11, 36), (12, 40), (13, 44), (14, 48), (15, 52), (16, 56), (17, 60), (2, 68), (18, 64)]
  oldThread := 26
  newThread := 25
  argument := 26
  cleared := []
  SP := (30, 0)
  PC := (2, 68)
  InitialPC := (3, 4)
  InitialArg := (4, 8)
  WhenDonePC := (5, 12)
  StartupPC := (6, 16)
  top := 16
  fencepost := 4096 - 1
  sameTable := by decide
  registersApart := by decide
  distancesApart := by decide
  newThreadKept := by decide
  initialised := by decide
  initialisedSaved := by decide
  argumentNotSaved := by decide
  clearedUnused := by decide

/-- The addresses of the functions that a new thread calls. -/
structure Symbols where
  ThreadRoot : Word
  InterruptEnable : Word
  ThreadFinish : Word

namespace Routine

variable {R : Type*} (routine : Routine R)

/-- The registers that StackAllocate gives a value. -/
abbrev initial : List (R × Word) :=
  [routine.SP, routine.PC, routine.StartupPC, routine.InitialPC, routine.InitialArg,
    routine.WhenDonePC]

/-- The instructions of SWITCH before its jump, which is through the register of
`PC`. -/
def SWITCH : List (Move R Word) :=
  saves routine.oldThread routine.saved ++ loads routine.newThread routine.restored

/-- What `Thread::StackAllocate` stores, in this order, for the Thread object at
`thread` and the stack at `stack`. -/
def stackState (symbols : Symbols) (thread stack func arg : Word) : List (Word × Word) :=
  [(thread + routine.SP.2, stack + 4 * routine.top),
    (stack + 4 * routine.fencepost, 0xdeadbeef),
    (thread + routine.PC.2, symbols.ThreadRoot),
    (thread + routine.StartupPC.2, symbols.InterruptEnable),
    (thread + routine.InitialPC.2, func),
    (thread + routine.InitialArg.2, arg),
    (thread + routine.WhenDonePC.2, symbols.ThreadFinish)]

/-- `Thread::StackAllocate`. -/
def stackAllocate (symbols : Symbols) (thread stack func arg : Word) :
    (Word → Word) → Word → Word :=
  writes (routine.stackState symbols thread stack func arg)

end Routine

/-- Where the Thread objects are that exist throughout a run: their saved states
do not overlap. -/
structure Threads {R : Type*} (routine : Routine R) (T : Type*) where
  address : T → Word
  apart : ∀ t t', t ≠ t' → ∀ entry ∈ routine.saved, ∀ entry' ∈ routine.saved,
    address t + entry.2 ≠ address t' + entry'.2

/-! ### ThreadRoot -/

inductive RootStep (R : Type*) where
  | clear (r : R)
  | move (source target : R)
  | call (r : R)
deriving DecidableEq, Repr

/-- The instructions of ThreadRoot, its delay slots filled. -/
def Routine.ThreadRoot {R : Type*} (routine : Routine R) : List (RootStep R) :=
  routine.cleared.map .clear ++
    [.call routine.StartupPC.1, .move routine.InitialArg.1 routine.argument,
      .call routine.InitialPC.1, .call routine.WhenDonePC.1]

/-- The calls that code makes, each with its first argument.  A call need not return;
when it does, the registers are as before it that SWITCH saves, but for that of `PC`. -/
inductive Calls {R : Type*} [DecidableEq R] (routine : Routine R) :
    List (RootStep R) → (R → Word) → List (Word × Word) → Prop where
  | finish (regs : R → Word) : Calls routine [] regs []
  | clear {r : R} {rest : List (RootStep R)} {regs : R → Word} {calls : List (Word × Word)}
      (later : Calls routine rest (Function.update regs r 0) calls) :
      Calls routine (.clear r :: rest) regs calls
  | move {source target : R} {rest : List (RootStep R)} {regs : R → Word}
      {calls : List (Word × Word)}
      (later : Calls routine rest (Function.update regs target (regs source)) calls) :
      Calls routine (.move source target :: rest) regs calls
  | away {r : R} {rest : List (RootStep R)} {regs : R → Word} :
      Calls routine (.call r :: rest) regs [(regs r, regs routine.argument)]
  | back {r : R} {rest : List (RootStep R)} {regs after : R → Word}
      {calls : List (Word × Word)}
      (kept : ∀ entry ∈ routine.saved, entry ≠ routine.PC → after entry.1 = regs entry.1)
      (later : Calls routine rest after calls) :
      Calls routine (.call r :: rest) regs ((regs r, regs routine.argument) :: calls)

/-! ### Threads on a host -/

variable {R T : Type*} [DecidableEq R] [DecidableEq T] [Fintype T]

structure Host (R T : Type*) where
  currentThread : T
  cpu : Cpu R Word

inductive HostAction (R T : Type*) where
  /-- the current thread executes, up to its next call of SWITCH -/
  | run (cpu : Cpu R Word)
  /-- the current thread calls `StackAllocate` of another -/
  | fork (t : T) (stack func arg : Word)
  /-- the current thread calls `SWITCH(currentThread, nextThread)` -/
  | switch (nextThread : T)

variable (routine : Routine R) (symbols : Symbols) (threads : Threads routine T)

/-- The threads of a host as a machine.  Code of a thread leaves the saved states
of the others alone, and so does a stack that AllocBoundedArray gives. -/
def host : Machine (Host R T) (HostAction R T) where
  step s
    | .run cpu =>
        if ∀ t, t ≠ s.currentThread → ∀ entry ∈ routine.saved,
            cpu.mem (threads.address t + entry.2) = s.cpu.mem (threads.address t + entry.2) then
          some { s with cpu }
        else none
    | .fork t stack func arg =>
        if t ≠ s.currentThread ∧ ∀ t', ∀ entry ∈ routine.saved,
            threads.address t' + entry.2 ≠ stack + 4 * routine.fencepost then
          some { s with cpu.mem :=
            routine.stackAllocate symbols (threads.address t) stack func arg s.cpu.mem }
        else none
    | .switch nextThread =>
        if s.cpu.regs routine.oldThread = threads.address s.currentThread ∧
            s.cpu.regs routine.newThread = threads.address nextThread then
          some ⟨nextThread, execute routine.SWITCH s.cpu⟩
        else none

/-! ### What SWITCH and StackAllocate do -/

section

variable {routine symbols threads}

omit [DecidableEq T] [Fintype T]

/-- SWITCH stores the registers in the old thread. -/
theorem switch_mem (cpu : Cpu R Word) :
    (execute routine.SWITCH cpu).mem =
      stored cpu.regs (cpu.regs routine.oldThread) routine.saved cpu.mem := by
  rw [Routine.SWITCH, execute_append, execute_saves, execute_loads routine.newThreadKept]

/-- SWITCH loads the registers from the new thread, after it stored them. -/
theorem switch_regs (cpu : Cpu R Word) {entry : R × Word} (member : entry ∈ routine.saved) :
    (execute routine.SWITCH cpu).regs entry.1 =
      stored cpu.regs (cpu.regs routine.oldThread) routine.saved cpu.mem
        (cpu.regs routine.newThread + entry.2) := by
  have apart : (routine.restored.map Prod.fst).Nodup :=
    (routine.sameTable.map Prod.fst).nodup_iff.mpr routine.registersApart
  rw [Routine.SWITCH, execute_append, execute_saves, execute_loads routine.newThreadKept]
  exact loaded_from apart (routine.sameTable.mem_iff.mpr member)

omit [DecidableEq R]

theorem stored_own (regs : R → Word) (mem : Word → Word) (address : Word) {entry : R × Word}
    (member : entry ∈ routine.saved) :
    stored regs address routine.saved mem (address + entry.2) = regs entry.1 :=
  saved_at routine.distancesApart member

theorem stored_other (regs : R → Word) (mem : Word → Word) {t t' : T} (other : t' ≠ t)
    {entry : R × Word} (member : entry ∈ routine.saved) :
    stored regs (threads.address t) routine.saved mem (threads.address t' + entry.2) =
      mem (threads.address t' + entry.2) :=
  saved_outside fun entry' member' => threads.apart t' t other entry member entry' member'

/-- What ThreadRoot needs to find in the registers. -/
structure Starts (routine : Routine R) (symbols : Symbols) (stack func arg : Word)
    (context : R → Word) : Prop where
  SP : context routine.SP.1 = stack + 4 * routine.top
  PC : context routine.PC.1 = symbols.ThreadRoot
  StartupPC : context routine.StartupPC.1 = symbols.InterruptEnable
  InitialPC : context routine.InitialPC.1 = func
  InitialArg : context routine.InitialArg.1 = arg
  WhenDonePC : context routine.WhenDonePC.1 = symbols.ThreadFinish

theorem Starts.of_saved {stack func arg : Word} {context regs : R → Word}
    (starts : Starts routine symbols stack func arg context)
    (same : ∀ entry ∈ routine.saved, regs entry.1 = context entry.1) :
    Starts routine symbols stack func arg regs := by
  constructor
  · exact (same _ (routine.initialisedSaved _ (by simp))).trans starts.SP
  · exact (same _ (routine.initialisedSaved _ (by simp))).trans starts.PC
  · exact (same _ (routine.initialisedSaved _ (by simp))).trans starts.StartupPC
  · exact (same _ (routine.initialisedSaved _ (by simp))).trans starts.InitialPC
  · exact (same _ (routine.initialisedSaved _ (by simp))).trans starts.InitialArg
  · exact (same _ (routine.initialisedSaved _ (by simp))).trans starts.WhenDonePC

/-- StackAllocate leaves the words alone that are neither in the saved state of its
thread nor the fencepost. -/
theorem stackAllocate_outside {thread stack func arg a : Word} {mem : Word → Word}
    (outside : ∀ entry ∈ routine.saved, a ≠ thread + entry.2)
    (fencepost : a ≠ stack + 4 * routine.fencepost) :
    routine.stackAllocate symbols thread stack func arg mem a = mem a := by
  refine writes_outside fun member => ?_
  rcases List.mem_cons.mp ((List.Perm.swap ..).mem_iff.mp member) with rfl | initial
  · exact fencepost rfl
  · obtain ⟨entry, listed, rfl⟩ :=
      (List.mem_map (f := fun entry => thread + entry.2) (l := routine.initial)).mp initial
    exact outside entry (routine.initialisedSaved entry listed) rfl

/-- The words that StackAllocate stores are at different addresses. -/
theorem stackState_apart {thread stack func arg : Word}
    (fencepost : ∀ entry ∈ routine.saved, thread + entry.2 ≠ stack + 4 * routine.fencepost) :
    ((routine.stackState symbols thread stack func arg).map Prod.fst).Nodup := by
  have distinct := routine.initialised.map_on (f := fun entry => thread + entry.2)
    fun entry member entry' member' same =>
      List.inj_on_of_nodup_map routine.distancesApart (routine.initialisedSaved entry member)
        (routine.initialisedSaved entry' member') (add_left_cancel same)
  have free := fun entry member => fencepost entry (routine.initialisedSaved entry member)
  refine (List.Perm.swap ..).nodup_iff.mp (List.nodup_cons.mpr ⟨?_, distinct⟩)
  intro member
  obtain ⟨entry, listed, same⟩ :=
    (List.mem_map (f := fun entry => thread + entry.2) (l := routine.initial)).mp member
  exact free entry listed same

/-- StackAllocate writes a state in which ThreadRoot can start. -/
theorem stackAllocate_starts {thread stack func arg : Word} {mem : Word → Word}
    {context : R → Word}
    (fencepost : ∀ entry ∈ routine.saved, thread + entry.2 ≠ stack + 4 * routine.fencepost)
    (holds : ∀ entry ∈ routine.saved,
      routine.stackAllocate symbols thread stack func arg mem (thread + entry.2) =
        context entry.1) :
    Starts routine symbols stack func arg context := by
  have written : ∀ entry ∈ routine.initial, ∀ word,
      (thread + entry.2, word) ∈ routine.stackState symbols thread stack func arg →
        context entry.1 = word := fun entry listed word member =>
    (holds entry (routine.initialisedSaved entry listed)).symm.trans
      (writes_at (stackState_apart fencepost) member)
  constructor <;>
    exact written _ (by simp) _ (by simp [Routine.stackState])

end

/-! ### The calls of ThreadRoot -/

section

variable {routine symbols}

omit [DecidableEq T] [Fintype T]

/-- Clearing registers makes no call and leaves the others alone. -/
theorem calls_clear {cleared : List R} {rest : List (RootStep R)} {regs : R → Word}
    {calls : List (Word × Word)}
    (made : Calls routine (cleared.map .clear ++ rest) regs calls) :
    ∃ after, (∀ r ∉ cleared, after r = regs r) ∧ Calls routine rest after calls := by
  induction cleared generalizing regs with
  | nil => exact ⟨regs, fun _ _ => rfl, made⟩
  | cons r cleared inductionHypothesis =>
      cases made with
      | clear later =>
          obtain ⟨after, same, made⟩ := inductionHypothesis later
          refine ⟨after, fun other outside => ?_, made⟩
          simp only [List.mem_cons, not_or] at outside
          exact (same other outside.2).trans (Function.update_of_ne outside.1 ..)

theorem calls_call {r : R} {rest : List (RootStep R)} {regs : R → Word}
    {calls : List (Word × Word)} (made : Calls routine (.call r :: rest) regs calls) :
    ∃ later, calls = (regs r, regs routine.argument) :: later ∧
      (later = [] ∨ ∃ after : R → Word,
        (∀ entry ∈ routine.saved, entry ≠ routine.PC → after entry.1 = regs entry.1) ∧
          Calls routine rest after later) := by
  cases made with
  | away => exact ⟨[], rfl, .inl rfl⟩
  | back kept later => exact ⟨_, rfl, .inr ⟨_, kept, later⟩⟩

/-- From a state in which it can start, ThreadRoot calls InterruptEnable, then the
forked function with its argument, then ThreadFinish, as far as its calls return. -/
theorem calls_of_starts {stack func arg : Word} {regs : R → Word}
    (starts : Starts routine symbols stack func arg regs) {calls : List (Word × Word)}
    (made : Calls routine routine.ThreadRoot regs calls) :
    ∃ first last, calls ≠ [] ∧ calls <+:
      [(symbols.InterruptEnable, first), (func, arg), (symbols.ThreadFinish, last)] := by
  have unused := routine.clearedUnused
  have saved := routine.initialisedSaved
  have different := routine.initialised
  have notArgument : ∀ entry ∈ routine.saved, entry.1 ≠ routine.argument :=
    fun entry member same => routine.argumentNotSaved (same ▸ List.mem_map_of_mem member)
  simp only [List.forall_mem_cons, List.not_mem_nil, false_implies, implies_true, and_true]
    at unused saved
  simp only [List.nodup_cons, List.mem_cons, List.not_mem_nil, or_false, not_or] at different
  obtain ⟨-, ⟨notStartup, notInitial, notArg, notWhenDone⟩, -⟩ := different
  -- the registers that the calls need pass the clearing and the first call
  obtain ⟨cleared, same, startupCalls⟩ := calls_clear made
  have startup : cleared routine.StartupPC.1 = symbols.InterruptEnable :=
    (same _ unused.1).trans starts.StartupPC
  obtain ⟨_, rfl, rfl | ⟨after, kept, moveCalls⟩⟩ := calls_call startupCalls
  · rw [startup]
    exact ⟨cleared routine.argument, 0, by simp, _, rfl⟩
  have initial : after routine.InitialPC.1 = func :=
    (kept _ saved.2.2.2.1 (Ne.symm notInitial)).trans
      ((same _ unused.2.1).trans starts.InitialPC)
  have argument : after routine.InitialArg.1 = arg :=
    (kept _ saved.2.2.2.2.1 (Ne.symm notArg)).trans
      ((same _ unused.2.2.1).trans starts.InitialArg)
  have whenDone : after routine.WhenDonePC.1 = symbols.ThreadFinish :=
    (kept _ saved.2.2.2.2.2 (Ne.symm notWhenDone)).trans
      ((same _ unused.2.2.2).trans starts.WhenDonePC)
  cases moveCalls with
  | move initialCalls =>
      -- the move of the argument changes no register that SWITCH saves
      have moved : ∀ entry ∈ routine.saved, Function.update after routine.argument
          (after routine.InitialArg.1) entry.1 = after entry.1 := fun entry member =>
        Function.update_of_ne (notArgument entry member) ..
      have called := (moved _ saved.2.2.2.1).trans initial
      have passed : Function.update after routine.argument (after routine.InitialArg.1)
          routine.argument = arg := (Function.update_self ..).trans argument
      obtain ⟨_, rfl, rfl | ⟨last, keptLast, finishCalls⟩⟩ := calls_call initialCalls
      · rw [startup, called, passed]
        exact ⟨cleared routine.argument, 0, by simp, _, rfl⟩
      have finish : last routine.WhenDonePC.1 = symbols.ThreadFinish :=
        (keptLast _ saved.2.2.2.2.2 (Ne.symm notWhenDone)).trans
          ((moved _ saved.2.2.2.2.2).trans whenDone)
      obtain ⟨_, rfl, rfl | ⟨_, -, noCalls⟩⟩ := calls_call finishCalls
      · rw [startup, called, passed, finish]
        exact ⟨cleared routine.argument, last routine.argument, by simp, _, rfl⟩
      · cases noCalls
        rw [startup, called, passed, finish]
        exact ⟨cleared routine.argument, last routine.argument, by simp, _, rfl⟩

end

/-! ### The contexts of threads -/

/-- What the actions of a host are for the contexts of its threads. -/
def Means (routine : Routine R) (symbols : Symbols) :
    HostAction R T → TaskAction T (R → Word) → Prop
  | .run _, .compute _ => True
  | .fork t stack func arg, .create other context =>
      other = t ∧ Starts routine symbols stack func arg context
  | .switch nextThread, .switch next => next = nextThread
  | _, _ => False

/-- A host keeps for each thread the registers that SWITCH saves. -/
def keeper : Keeper T (R → Word) (Host R T) (HostAction R T) where
  machine := host routine symbols threads
  current := Host.currentThread
  Live s context := ∀ entry ∈ routine.saved, s.cpu.regs entry.1 = context entry.1
  Saved s t context := ∀ entry ∈ routine.saved,
    s.cpu.mem (threads.address t + entry.2) = context entry.1
  Means := Means routine symbols
  keeps := by
    intro s s' action context contexts moved live saved
    cases action with
    | run cpu =>
        simp only [host, Option.ite_none_right_eq_some, Option.some.injEq] at moved
        obtain ⟨frame, rfl⟩ := moved
        exact ⟨.compute cpu.regs, trivial, rfl, fun entry _ => rfl,
          fun t other entry member => (frame t other entry member).trans
            (saved t other entry member)⟩
    | fork t stack func arg =>
        simp only [host, Option.ite_none_right_eq_some, Option.some.injEq] at moved
        obtain ⟨⟨other, free⟩, rfl⟩ := moved
        let mem := routine.stackAllocate symbols (threads.address t) stack func arg s.cpu.mem
        have created : ∀ entry ∈ routine.saved, mem (threads.address t + entry.2) =
            loaded mem (threads.address t) routine.saved s.cpu.regs entry.1 :=
          fun entry member => (loaded_from routine.registersApart member).symm
        refine ⟨.create t _, ⟨rfl, stackAllocate_starts (free t) created⟩, other, rfl, live,
          created, fun t' _ apart entry member => ?_⟩
        have outside := fun entry' member' =>
          threads.apart t' t apart entry member entry' member'
        exact (stackAllocate_outside outside (free t' entry member)).trans
          (saved t' ‹_› entry member)
    | switch nextThread =>
        simp only [host, Option.ite_none_right_eq_some, Option.some.injEq] at moved
        obtain ⟨⟨old, new⟩, rfl⟩ := moved
        refine ⟨.switch nextThread, rfl, rfl, fun entry member => ?_,
          fun away entry member => ?_, fun t other away entry member => ?_⟩
        · rw [switch_regs _ member, old, new]
          by_cases same : nextThread = s.currentThread
          · rw [if_pos same, same, stored_own _ _ _ member]
            exact live entry member
          · rw [if_neg same, stored_other _ _ same member]
            exact saved nextThread same entry member
        · rw [switch_mem, old, stored_own _ _ _ member]
          exact live entry member
        · rw [switch_mem, old, stored_other _ _ other member]
          exact saved t other entry member

/-- Every state holds some contexts. -/
theorem keeper_holds (s : Host R T) :
    ∃ contexts : T → R → Word, contexts s.currentThread = s.cpu.regs ∧
      (keeper routine symbols threads).Holds s ⟨s.currentThread, contexts⟩ := by
  let contexts t := if t = s.currentThread then s.cpu.regs
    else loaded s.cpu.mem (threads.address t) routine.saved s.cpu.regs
  have own : contexts s.currentThread = s.cpu.regs := if_pos rfl
  refine ⟨contexts, own, rfl, fun entry _ => congrFun own.symm entry.1,
    fun t other entry member => ?_⟩
  have away : contexts t = loaded s.cpu.mem (threads.address t) routine.saved s.cpu.regs :=
    if_neg other
  exact (loaded_from routine.registersApart member).symm.trans (congrFun away entry.1).symm

variable {routine symbols threads}

/-- The action neither gives the CPU to the thread nor forks it. -/
def HostAction.Spares (t : T) : HostAction R T → Prop
  | .run _ => True
  | .fork other _ _ _ => other ≠ t
  | .switch nextThread => nextThread ≠ t

omit [DecidableEq R] [DecidableEq T] [Fintype T] in
theorem HostAction.Spares.means {t : T} {action : HostAction R T}
    (spares : action.Spares t) {what : TaskAction T (R → Word)}
    (means : Means routine symbols action what) : what.Spares t := by
  cases action <;> cases what <;> first | exact means.elim | skip
  · trivial
  · exact means.1 ▸ spares
  · exact means ▸ spares

/-- A thread that called SWITCH goes on, when a thread switches to it, as if its call
had just returned: its stack pointer, its callee-saved registers and the address the
call returns to are those of the call, whatever the other threads did meanwhile. -/
theorem switch_returns {s s' : Host R T} {nextThread : T} {actions : List (HostAction R T)}
    (other : nextThread ≠ s.currentThread)
    (spares : ∀ action ∈ actions, action.Spares s.currentThread)
    (run : (host routine symbols threads).exec s
      (.switch nextThread :: (actions ++ [.switch s.currentThread])) = some s') :
    s'.currentThread = s.currentThread ∧
      ∀ entry ∈ routine.saved, s'.cpu.regs entry.1 = s.cpu.regs entry.1 := by
  obtain ⟨contexts, own, holds⟩ :=
    keeper_holds routine symbols threads s
  obtain ⟨left, switched, rest⟩ := (Machine.exec_cons_eq_some _).mp run
  obtain ⟨before, meanwhile, back⟩ := (Machine.exec_snoc_eq_some _).mp rest
  obtain ⟨what, after, means, moved, held⟩ := Keeper.step holds switched
  cases what <;> first | exact means.elim | skip
  cases means
  simp only [tasks, Option.some.injEq] at moved
  subst moved
  obtain ⟨again, live⟩ := Keeper.resumed held other
    (fun action member _ => (spares action member).means) meanwhile
    (fun what means => by cases what <;> first | exact means.elim | rw [means]) back
  exact ⟨again, own ▸ live⟩

/-- Two Thread objects on a MIPS host. -/
def twoThreads : Threads mips Bool where
  address t := if t then 0x2000 else 0x1000
  apart := by decide

/-- The registers at a call of SWITCH from one thread to the other, the rest of them
holding a word. -/
def calling (word oldThread newThread : Word) : Fin 32 → Word := fun r =>
  if r = mips.oldThread then oldThread else if r = mips.newThread then newThread else word

/-- The one thread switches to the other, which overwrites every register and then
switches back. -/
theorem switch_returns_two_threads :
    ∃ s' : Host (Fin 32) Bool,
      (host mips ⟨4, 8, 12⟩ twoThreads).exec ⟨false, calling 7 0x1000 0x2000, fun _ => 0⟩
        (.switch true :: ([.run ⟨calling 9 0x2000 0x1000,
          (execute mips.SWITCH ⟨calling 7 0x1000 0x2000, fun _ => 0⟩).mem⟩] ++
            [.switch false])) = some s' ∧
      s'.currentThread = false ∧
      ∀ entry ∈ mips.saved, s'.cpu.regs entry.1 = calling 7 0x1000 0x2000 entry.1 :=
  ⟨_, (Option.some_get (by decide)).symm,
    switch_returns (by decide) (by simp [HostAction.Spares])
      (Option.some_get (by decide)).symm⟩

/-- A forked thread starts, when a thread first switches to it, in ThreadRoot and on its
own stack; there it calls InterruptEnable, then the forked function with its
argument, then ThreadFinish. -/
theorem forked_thread_starts {s s' : Host R T} {t : T} {stack func arg : Word}
    {actions : List (HostAction R T)} (spares : ∀ action ∈ actions, action.Spares t)
    (run : (host routine symbols threads).exec s
      (.fork t stack func arg :: (actions ++ [.switch t])) = some s') :
    s'.currentThread = t ∧ s'.cpu.regs routine.PC.1 = symbols.ThreadRoot ∧
      s'.cpu.regs routine.SP.1 = stack + 4 * routine.top ∧
      ∀ calls, Calls routine routine.ThreadRoot s'.cpu.regs calls → ∃ first last,
        calls ≠ [] ∧ calls <+:
          [(symbols.InterruptEnable, first), (func, arg), (symbols.ThreadFinish, last)] := by
  obtain ⟨contexts, -, holds⟩ :=
    keeper_holds routine symbols threads s
  obtain ⟨forked, created, rest⟩ := (Machine.exec_cons_eq_some _).mp run
  obtain ⟨before, meanwhile, back⟩ := (Machine.exec_snoc_eq_some _).mp rest
  obtain ⟨what, after, means, moved, held⟩ := Keeper.step holds created
  cases what <;> first | exact means.elim | skip
  obtain ⟨rfl, starts⟩ := means
  simp only [tasks, Option.ite_none_left_eq_some, Option.some.injEq] at moved
  obtain ⟨other, rfl⟩ := moved
  obtain ⟨now, live⟩ := Keeper.resumed held (Ne.symm other)
    (fun action member _ => (spares action member).means) meanwhile
    (fun what means => by cases what <;> first | exact means.elim | rw [means]) back
  simp only [Function.update_self] at live
  have ready := starts.of_saved live
  exact ⟨now, ready.PC, ready.SP, fun calls made => calls_of_starts ready made⟩

/-- The one thread forks the other and switches to it. -/
theorem forked_thread_starts_two_threads :
    ∃ s' : Host (Fin 32) Bool,
      (host mips ⟨4, 8, 12⟩ twoThreads).exec ⟨false, calling 7 0x1000 0x2000, fun _ => 0⟩
        (.fork true 0x8000 16 5 :: ([] ++ [.switch true])) = some s' ∧
      s'.currentThread = true ∧ s'.cpu.regs mips.PC.1 = 4 ∧
      s'.cpu.regs mips.SP.1 = 0x8000 + 4 * mips.top ∧
      ∀ calls, Calls mips mips.ThreadRoot s'.cpu.regs calls → ∃ first last,
        calls ≠ [] ∧ calls <+: [(8, first), (16, 5), (12, last)] :=
  ⟨_, (Option.some_get (by decide)).symm,
    forked_thread_starts (by simp) (Option.some_get (by decide)).symm⟩

end Nachos.Switch
