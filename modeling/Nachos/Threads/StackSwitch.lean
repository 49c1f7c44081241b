/-
Module: Nachos.Threads.StackSwitch
Purpose: The context switch on the host whose SWITCH is given the two threads on
  the stack and returns through it (i386): SWITCH, ThreadRoot and
  Thread::StackAllocate, and what they make of any interleaving of threads.
Trusted boundary: memory is a map from the addresses of words, all of them
  aligned; code between two calls of SWITCH may do anything but write the
  saved state or the stack of other threads; the callee of a call in ThreadRoot
  keeps the callee-saved registers and the words of the stack that are not its
  parameters, as the calling convention says
Main exports: Reg, offset, SWITCH, stackAllocate, Layout, Host, host, keeper,
  Calls, stack_switch_returns, stack_forked_thread_starts
-/
import Mathlib.Data.BitVec
import Mathlib.Data.Fintype.Defs
import Nachos.Lib.Moves
import Nachos.Lib.Tasks

namespace Nachos.StackSwitch

open Nachos.Lib
open Nachos.Lib.Moves

abbrev Word := BitVec 32

/-- What is said of the words of a list is decided by looking at them. -/
local instance (priority := 2000) decidableOnList {P : Word → Prop} [DecidablePred P]
    (words : List Word) : Decidable (∀ a ∈ words, P a) :=
  List.decidableBAll P words

inductive Reg where
  | eax | ebx | ecx | edx | esi | edi | ebp | esp
deriving DecidableEq, Repr

/-! ### The routines -/

/-- The offsets of the registers from the beginning of the Thread object. -/
def offset : Reg → Word
  | .esp => 0
  | .eax => 4
  | .ebx => 8
  | .ecx => 12
  | .edx => 16
  | .ebp => 20
  | .esi => 24
  | .edi => 28

/-- `_PC` -/
def offsetPC : Word := 32

/-- The words of a Thread object that SWITCH uses. -/
def fields : List Word := [0, 4, 8, 12, 16, 20, 24, 28, 32]

/-- The registers that SWITCH moves directly, in its order. -/
def table : List (Reg × Word) :=
  [(.ebx, 8), (.ecx, 12), (.edx, 16), (.esi, 24), (.edi, 28), (.ebp, 20), (.esp, 0)]

/-- The instructions of SWITCH up to the load of `t2`. -/
def saveThread (eaxSave : Word) : List (Move Reg Word) :=
  [⟨.reg .eax, .variable eaxSave⟩, ⟨.at .esp 4, .reg .eax⟩] ++
    (saves .eax table ++
      [⟨.variable eaxSave, .reg .ebx⟩, ⟨.reg .ebx, .at .eax (offset .eax)⟩,
        ⟨.at .esp 0, .reg .ebx⟩, ⟨.reg .ebx, .at .eax offsetPC⟩])

/-- The instructions of SWITCH from the load of `t2` up to `ret`. -/
def restoreThread (eaxSave : Word) : List (Move Reg Word) :=
  [⟨.at .esp 8, .reg .eax⟩, ⟨.at .eax (offset .eax), .reg .ebx⟩,
    ⟨.reg .ebx, .variable eaxSave⟩] ++
    (loads .eax table ++
      [⟨.at .eax offsetPC, .reg .eax⟩, ⟨.reg .eax, .at .esp 4⟩, ⟨.variable eaxSave, .reg .eax⟩])

/-- The instructions of SWITCH before `ret`, which returns to the address on top of
the stack. -/
def SWITCH (eaxSave : Word) : List (Move Reg Word) :=
  saveThread eaxSave ++ restoreThread eaxSave

/-- The addresses of the functions that a new thread calls. -/
structure Symbols where
  ThreadRoot : Word
  InterruptEnable : Word
  ThreadFinish : Word

/-- The stack pointer of a new thread: `stack + StackSize - 4`, less the word pushed
on it. -/
def stackTop (stack : Word) : Word := stack + 4 * (4096 - 4) - 4

/-- What `Thread::StackAllocate` stores, for the Thread object at `thread` and the
stack at `stack`. -/
def stackState (symbols : Symbols) (thread stack func arg : Word) : List (Word × Word) :=
  [(thread + offset .esp, stackTop stack),
    (stackTop stack, symbols.ThreadRoot),
    (stack, 0xdeadbeef),
    (thread + offsetPC, symbols.ThreadRoot),
    (thread + offset .ecx, symbols.InterruptEnable),
    (thread + offset .esi, func),
    (thread + offset .edx, arg),
    (thread + offset .edi, symbols.ThreadFinish)]

/-- `Thread::StackAllocate`. -/
def stackAllocate (symbols : Symbols) (thread stack func arg : Word) :
    (Word → Word) → Word → Word :=
  writes (stackState symbols thread stack func arg)

/-! ### ThreadRoot -/

inductive RootStep where
  | push (r : Reg)
  | move (source target : Reg)
  /-- a call, of a function that has parameters or of one that has none -/
  | call (r : Reg) (parameters : Bool)
deriving DecidableEq, Repr

/-- The instructions of ThreadRoot that are reached: InitialArg is edx, StartupPC ecx,
InitialPC esi and WhenDonePC edi. -/
def ThreadRoot : List RootStep :=
  [.push .ebp, .move .esp .ebp, .push .edx, .call .ecx false, .call .esi true, .call .edi false]

/-- The registers that a callee keeps. -/
def calleeSaved : List Reg := [.ebx, .esi, .edi, .ebp, .esp]

def push (word : Word) (cpu : Cpu Reg Word) : Cpu Reg Word :=
  let esp := cpu.regs .esp - 4
  ⟨Function.update cpu.regs .esp esp, Function.update cpu.mem esp word⟩

/-- The calls that code makes, each with its first argument, which is on top of the
stack.  A call need not return; when it does, the callee-saved registers are as before
it, and so is the top of the stack, unless it is a parameter of the callee. -/
inductive Calls : List RootStep → Cpu Reg Word → List (Word × Word) → Prop where
  | finish (cpu : Cpu Reg Word) : Calls [] cpu []
  | push {r : Reg} {rest : List RootStep} {cpu : Cpu Reg Word} {calls : List (Word × Word)}
      (later : Calls rest (StackSwitch.push (cpu.regs r) cpu) calls) :
      Calls (.push r :: rest) cpu calls
  | move {source target : Reg} {rest : List RootStep} {cpu : Cpu Reg Word}
      {calls : List (Word × Word)}
      (later : Calls rest ⟨Function.update cpu.regs target (cpu.regs source), cpu.mem⟩ calls) :
      Calls (.move source target :: rest) cpu calls
  | away {r : Reg} {parameters : Bool} {rest : List RootStep} {cpu : Cpu Reg Word} :
      Calls (.call r parameters :: rest) cpu [(cpu.regs r, cpu.mem (cpu.regs .esp))]
  | back {r : Reg} {parameters : Bool} {rest : List RootStep} {cpu after : Cpu Reg Word}
      {calls : List (Word × Word)} (kept : ∀ r ∈ calleeSaved, after.regs r = cpu.regs r)
      (top : parameters = false → after.mem (cpu.regs .esp) = cpu.mem (cpu.regs .esp))
      (later : Calls rest after calls) :
      Calls (.call r parameters :: rest) cpu ((cpu.regs r, cpu.mem (cpu.regs .esp)) :: calls)

/-! ### What SWITCH does -/

/-- No word of the Thread object. -/
abbrev Off (thread a : Word) : Prop := ∀ d ∈ fields, a ≠ thread + d

theorem offset_mem (r : Reg) : offset r ∈ fields := by
  cases r <;> decide

theorem offset_ne_PC (r : Reg) : offset r ≠ offsetPC := by
  cases r <;> decide

/-- SWITCH moves every register but eax by its table. -/
theorem offset_table {r : Reg} (other : r ≠ .eax) :
    (r, offset r) ∈ table ∧ offset r ≠ offset .eax := by
  cases r <;> first | exact absurd rfl other | decide

/-- The first half stores every register in the thread that is the first argument, and
changes nothing else but `eax_save`. -/
theorem saveThread_spec {eaxSave thread : Word} {cpu : Cpu Reg Word}
    (argument : cpu.mem (cpu.regs .esp + 4) = thread)
    (saveStack : eaxSave ≠ cpu.regs .esp + 4) (saveOff : Off thread eaxSave) :
    let after := execute (saveThread eaxSave) cpu
    after.regs .esp = cpu.regs .esp ∧
      (∀ r, after.mem (thread + offset r) = cpu.regs r) ∧
      ∀ a, Off thread a → a ≠ eaxSave → after.mem a = cpu.mem a := by
  let mem := Function.update cpu.mem eaxSave (cpu.regs .eax)
  have argument' : mem (cpu.regs .esp + 4) = thread := by
    rw [← argument]
    exact Function.update_of_ne saveStack.symm ..
  let regs := Function.update cpu.regs .eax thread
  let mem' := stored regs thread table mem
  have saved : ∀ a, Off thread a → mem' a = mem a := fun a off =>
    saved_outside fun entry member => off entry.2 (by
      revert entry
      decide)
  have own : ∀ entry ∈ table, mem' (thread + entry.2) = regs entry.1 := fun entry member =>
    saved_at (by decide) member
  have eax : regs .eax = thread := Function.update_self ..
  have others : ∀ r, r ≠ .eax → regs r = cpu.regs r := fun r other =>
    Function.update_of_ne other ..
  have start : execute [⟨.reg .eax, .variable eaxSave⟩, ⟨.at .esp 4, .reg .eax⟩] cpu =
      ⟨regs, mem⟩ := by
    change Cpu.mk (Function.update cpu.regs .eax (mem (cpu.regs .esp + 4))) mem = _
    rw [argument']
  have stores : execute (saves .eax table) ⟨regs, mem⟩ = ⟨regs, mem'⟩ := by
    rw [execute_saves]
    change Cpu.mk regs (stored regs (regs .eax) table mem) = _
    rw [eax]
  have saveEax : mem' eaxSave = cpu.regs .eax :=
    (saved eaxSave saveOff).trans (Function.update_self ..)
  have rest : ∀ a, a ≠ eaxSave → mem a = cpu.mem a := fun a other =>
    Function.update_of_ne other ..
  clear_value mem' mem regs
  have finish : execute (saveThread eaxSave) cpu = execute [⟨.variable eaxSave, .reg .ebx⟩,
      ⟨.reg .ebx, .at .eax (offset .eax)⟩, ⟨.at .esp 0, .reg .ebx⟩,
      ⟨.reg .ebx, .at .eax offsetPC⟩] ⟨regs, mem'⟩ := by
    rw [saveThread, execute_append, execute_append, start, stores]
  simp only [finish, execute, Move.perform, Operand.get, Operand.set,
    Function.update_of_ne, Function.update_self, ne_eq, reduceCtorEq, not_false_eq_true, eax,
    saveEax, others]
  refine ⟨trivial, fun r => ?_, fun a off other => ?_⟩
  · rw [Function.update_of_ne fun same => offset_ne_PC r (add_left_cancel same)]
    by_cases this : r = .eax
    · rw [this]
      exact Function.update_self ..
    · obtain ⟨member, apart⟩ := offset_table this
      rw [Function.update_of_ne fun same => apart (add_left_cancel same), own _ member,
        others r this]
  · rw [Function.update_of_ne (off offsetPC (by decide)),
      Function.update_of_ne (off _ (offset_mem .eax)), saved a off, rest a other]

/-- The second half loads every register from the thread that is the second argument,
and changes nothing but `eax_save` and the word below which the stack pointer comes to
lie. -/
theorem restoreThread_spec {eaxSave thread : Word} {cpu : Cpu Reg Word}
    (argument : cpu.mem (cpu.regs .esp + 8) = thread) (saveOff : Off thread eaxSave)
    (stackOff : eaxSave ≠ cpu.mem (thread + offset .esp) + 4) :
    let after := execute (restoreThread eaxSave) cpu
    (∀ r, after.regs r = cpu.mem (thread + offset r)) ∧
      ∀ a, a ≠ eaxSave → a ≠ cpu.mem (thread + offset .esp) + 4 → after.mem a = cpu.mem a := by
  let word := cpu.mem (thread + offset .eax)
  let mem := Function.update cpu.mem eaxSave word
  let regs := Function.update (Function.update cpu.regs .eax thread) .ebx word
  let regs' := loaded mem thread table regs
  have same : ∀ a, a ≠ eaxSave → mem a = cpu.mem a := fun a other =>
    Function.update_of_ne other ..
  have own : ∀ r, r ≠ .eax → regs' r = cpu.mem (thread + offset r) := fun r other =>
    (loaded_from (by decide) (offset_table other).1).trans
      (same _ (saveOff _ (offset_mem r)).symm)
  have eax : regs' .eax = thread := (not_loaded (by decide)).trans rfl
  have start : execute [⟨.at .esp 8, .reg .eax⟩, ⟨.at .eax (offset .eax), .reg .ebx⟩,
      ⟨.reg .ebx, .variable eaxSave⟩] cpu = ⟨regs, mem⟩ := by
    simp only [execute, Move.perform, Operand.get, Operand.set, Function.update_self, argument,
      regs, mem, word]
  have fetch : execute (loads .eax table) ⟨regs, mem⟩ = ⟨regs', mem⟩ :=
    execute_loads (by decide) _
  have esp : regs' .esp = cpu.mem (thread + offset .esp) := own .esp (by decide)
  have saveEax : mem eaxSave = word := Function.update_self ..
  clear_value regs' mem
  have finish : execute (restoreThread eaxSave) cpu = execute [⟨.at .eax offsetPC, .reg .eax⟩,
      ⟨.reg .eax, .at .esp 4⟩, ⟨.variable eaxSave, .reg .eax⟩] ⟨regs', mem⟩ := by
    rw [restoreThread, execute_append, execute_append, start, fetch]
  simp only [finish, execute, Move.perform, Operand.get, Operand.set,
    Function.update_of_ne, Function.update_self, ne_eq, reduceCtorEq, not_false_eq_true, eax,
    esp, stackOff, saveEax]
  refine ⟨fun r => ?_, fun a other off => ?_⟩
  · by_cases this : r = .eax
    · rw [this]
      exact Function.update_self ..
    · rw [Function.update_of_ne this, Function.update_of_ne this]
      exact own r this
  · rw [Function.update_of_ne off]
    exact same a other

/-! ### Threads on the host -/

/-- Where the Thread objects, the stacks of the threads and `eax_save` are: they do not
overlap. -/
structure Layout (T : Type*) where
  address : T → Word
  stack : T → List Word
  eaxSave : Word
  apart : ∀ t t', t ≠ t' → ∀ d ∈ fields, Off (address t') (address t + d)
  stacksApart : ∀ t t', t ≠ t' → ∀ a ∈ stack t, a ∉ stack t'
  stackOff : ∀ t t', ∀ a ∈ stack t, Off (address t') a
  saveOff : ∀ t, Off (address t) eaxSave ∧ eaxSave ∉ stack t

variable {T : Type*} [DecidableEq T] [Fintype T] (symbols : Symbols) (layout : Layout T)

structure Host (T : Type*) where
  currentThread : T
  cpu : Cpu Reg Word

inductive HostAction (T : Type*) where
  /-- the current thread executes, up to its next call of SWITCH -/
  | run (cpu : Cpu Reg Word)
  /-- the current thread calls `StackAllocate` of another -/
  | fork (t : T) (stack func arg : Word)
  /-- the current thread calls `SWITCH(currentThread, nextThread)` -/
  | switch (nextThread : T)

/-- The threads of the host as a machine.  Code of a thread leaves the saved states and
the stacks of the others alone, and calls SWITCH for a thread that was forked or called
SWITCH before, so that its saved stack pointer is on its stack. -/
def host : Machine (Host T) (HostAction T) where
  step s
    | .run cpu =>
        if ∀ t, t ≠ s.currentThread →
            (∀ d ∈ fields, cpu.mem (layout.address t + d) = s.cpu.mem (layout.address t + d)) ∧
            ∀ a ∈ layout.stack t, cpu.mem a = s.cpu.mem a then
          some { s with cpu }
        else none
    | .fork t stack func arg =>
        if t ≠ s.currentThread ∧
            ∀ a ∈ [stack, stackTop stack], a ∈ layout.stack t then
          some { s with cpu.mem :=
            stackAllocate symbols (layout.address t) stack func arg s.cpu.mem }
        else none
    | .switch nextThread =>
        let esp := s.cpu.regs .esp
        if (∀ a ∈ [esp, esp + 4, esp + 8], a ∈ layout.stack s.currentThread) ∧
            s.cpu.mem (esp + 4) = layout.address s.currentThread ∧
            s.cpu.mem (esp + 8) = layout.address nextThread ∧
            (nextThread ≠ s.currentThread →
              s.cpu.mem (layout.address nextThread + offset .esp) + 4 ∈
                layout.stack nextThread) then
          some ⟨nextThread, execute (SWITCH layout.eaxSave) s.cpu⟩
        else none

/-! ### The contexts of threads -/

/-- What ThreadRoot needs to find in the registers and on the stack. -/
structure Starts (symbols : Symbols) (stack func arg : Word) (context : Cpu Reg Word) : Prop where
  esp : context.regs .esp = stackTop stack
  root : context.mem (stackTop stack) = symbols.ThreadRoot
  StartupPC : context.regs .ecx = symbols.InterruptEnable
  InitialPC : context.regs .esi = func
  InitialArg : context.regs .edx = arg
  WhenDonePC : context.regs .edi = symbols.ThreadFinish

/-- What the actions of the host are for the contexts of its threads. -/
def Means (symbols : Symbols) : HostAction T → TaskAction T (Cpu Reg Word) → Prop
  | .run _, .compute _ => True
  | .fork t stack func arg, .create other context =>
      other = t ∧ Starts symbols stack func arg context
  | .switch nextThread, .switch next => next = nextThread
  | _, _ => False

/-- The words of a stack are those of a context, but for the first argument of the call
of SWITCH, which SWITCH overwrites. -/
def StackKept (stack : List Word) (mem : Word → Word) (context : Cpu Reg Word) : Prop :=
  ∀ a ∈ stack, a ≠ context.regs .esp + 4 → mem a = context.mem a

/-- The context of a thread is saved: its registers in the Thread object, and its
stack. -/
structure SavedIn (layout : Layout T) (mem : Word → Word) (t : T) (context : Cpu Reg Word) :
    Prop where
  regs : ∀ r, mem (layout.address t + offset r) = context.regs r
  stack : StackKept (layout.stack t) mem context

variable {symbols layout}

section

omit [DecidableEq T] [Fintype T]

theorem SavedIn.of_same {mem mem' : Word → Word} {t : T} {context : Cpu Reg Word}
    (saved : SavedIn layout mem t context)
    (fieldsSame : ∀ d ∈ fields, mem' (layout.address t + d) = mem (layout.address t + d))
    (stackSame : ∀ a ∈ layout.stack t, mem' a = mem a) : SavedIn layout mem' t context :=
  ⟨fun r => (fieldsSame _ (offset_mem r)).trans (saved.regs r),
    fun a member off => (stackSame a member).trans (saved.stack a member off)⟩

/-- The first half of SWITCH saves the context of the current thread. -/
theorem saveThread_saves {t : T} {cpu context : Cpu Reg Word}
    (frame : ∀ a ∈ [cpu.regs .esp, cpu.regs .esp + 4, cpu.regs .esp + 8], a ∈ layout.stack t)
    (old : cpu.mem (cpu.regs .esp + 4) = layout.address t)
    (regs : cpu.regs = context.regs) (stack : StackKept (layout.stack t) cpu.mem context) :
    let after := execute (saveThread layout.eaxSave) cpu
    after.regs .esp = cpu.regs .esp ∧
      after.mem (cpu.regs .esp + 8) = cpu.mem (cpu.regs .esp + 8) ∧
      SavedIn layout after.mem t context ∧
      ∀ t' c, t' ≠ t → SavedIn layout cpu.mem t' c → SavedIn layout after.mem t' c := by
  have onStack : ∀ t', ∀ a ∈ layout.stack t', a ≠ layout.eaxSave := fun t' a member same =>
    (layout.saveOff t').2 (same ▸ member)
  simp only [List.forall_mem_cons, List.not_mem_nil, false_implies, implies_true, and_true]
    at frame
  obtain ⟨-, first, second⟩ := frame
  obtain ⟨esp, own, rest⟩ :=
    saveThread_spec old (onStack t _ first).symm (layout.saveOff t).1
  have kept : ∀ t', ∀ a ∈ layout.stack t',
      (execute (saveThread layout.eaxSave) cpu).mem a = cpu.mem a := fun t' a member =>
    rest a (layout.stackOff t' t a member) (onStack t' a member)
  refine ⟨esp, kept t _ second, ⟨fun r => (own r).trans (congrFun regs r),
    fun a member off => (kept t a member).trans (stack a member off)⟩,
    fun t' c other saved => saved.of_same (fun d member => ?_) (kept t')⟩
  exact rest _ (layout.apart t' t other d member)
    fun same => (layout.saveOff t').1 d member same.symm

/-- The second half of SWITCH loads the context of the next thread. -/
theorem restoreThread_loads {next : T} {cpu context : Cpu Reg Word}
    (new : cpu.mem (cpu.regs .esp + 8) = layout.address next)
    (saved : SavedIn layout cpu.mem next context)
    (onStack : context.regs .esp + 4 ∈ layout.stack next) :
    let after := execute (restoreThread layout.eaxSave) cpu
    after.regs = context.regs ∧ StackKept (layout.stack next) after.mem context ∧
      ∀ t c, t ≠ next → SavedIn layout cpu.mem t c → SavedIn layout after.mem t c := by
  have notSave : ∀ t, ∀ a ∈ layout.stack t, a ≠ layout.eaxSave := fun t a member same =>
    (layout.saveOff t).2 (same ▸ member)
  have esp : cpu.mem (layout.address next + offset .esp) = context.regs .esp := saved.regs .esp
  obtain ⟨own, rest⟩ := restoreThread_spec new (layout.saveOff next).1
    (esp ▸ (notSave next _ onStack).symm)
  rw [esp] at rest
  refine ⟨funext fun r => (own r).trans (saved.regs r), fun a member off =>
    (rest a (notSave next a member) off).trans (saved.stack a member off),
    fun t c other kept => kept.of_same (fun d member => ?_) fun a member => ?_⟩
  · exact rest _ (fun same => (layout.saveOff t).1 d member same.symm)
      fun same => layout.stackOff next t _ onStack d member same.symm
  · exact rest a (notSave t a member)
      fun same => layout.stacksApart t next other a member (same ▸ onStack)

/-- The fields that StackAllocate stores in. -/
def initialFields : List Word :=
  [offset .esp, offsetPC, offset .ecx, offset .esi, offset .edx, offset .edi]

theorem initialFields_fields : ∀ d ∈ initialFields, d ∈ fields := by
  simp [initialFields, fields, offset, offsetPC]

/-- The addresses that StackAllocate stores at, those on the stack first. -/
theorem stackState_addresses (symbols : Symbols) (thread stack func arg : Word) :
    ((stackState symbols thread stack func arg).map Prod.fst).Perm
      (stackTop stack :: stack :: initialFields.map (thread + ·)) := by
  refine (List.Perm.swap ..).trans (.cons _ ?_)
  exact List.Perm.swap ..

/-- They are different. -/
theorem stackState_apart {thread stack func arg : Word} (off : Off thread stack)
    (topOff : Off thread (stackTop stack)) :
    ((stackState symbols thread stack func arg).map Prod.fst).Nodup := by
  have distinct : (initialFields.map (thread + ·)).Nodup :=
    (by decide : initialFields.Nodup).map (add_right_injective thread)
  have outside : ∀ a, Off thread a → a ∉ initialFields.map (thread + ·) := by
    intro a off member
    obtain ⟨d, listed, rfl⟩ := List.mem_map.mp member
    exact off d (initialFields_fields d listed) rfl
  have apart : stackTop stack ≠ stack := by
    simp [stackTop, add_sub_assoc]
  refine (stackState_addresses ..).nodup_iff.mpr (List.nodup_cons.mpr ⟨?_,
    List.nodup_cons.mpr ⟨outside _ off, distinct⟩⟩)
  simp only [List.mem_cons, not_or]
  exact ⟨apart, outside _ topOff⟩

/-- StackAllocate changes only the Thread object and the stack. -/
theorem stackAllocate_outside {t : T} {stack func arg a : Word} {mem : Word → Word}
    (own : ∀ a ∈ [stack, stackTop stack], a ∈ layout.stack t)
    (off : Off (layout.address t) a) (offStack : a ∉ layout.stack t) :
    stackAllocate symbols (layout.address t) stack func arg mem a = mem a := by
  refine writes_outside fun member => ?_
  have listed := (stackState_addresses ..).mem_iff.mp member
  simp only [List.mem_cons, List.mem_map] at listed
  obtain rfl | rfl | ⟨d, field, rfl⟩ := listed
  · exact offStack (own _ (by simp))
  · exact offStack (own _ (by simp))
  · exact off d (initialFields_fields d field) rfl

/-- StackAllocate leaves what is saved of the other threads. -/
theorem stackAllocate_saved {t t' : T} {stack func arg : Word} {mem : Word → Word}
    {context : Cpu Reg Word} (other : t' ≠ t)
    (own : ∀ a ∈ [stack, stackTop stack], a ∈ layout.stack t)
    (saved : SavedIn layout mem t' context) :
    SavedIn layout (stackAllocate symbols (layout.address t) stack func arg mem) t' context :=
  saved.of_same
    (fun d member => stackAllocate_outside own (layout.apart t' t other d member)
      fun onStack => layout.stackOff t t' _ onStack d member rfl)
    fun a member => stackAllocate_outside own (layout.stackOff t' t a member)
      (layout.stacksApart t' t other a member)

/-- StackAllocate writes a context in which ThreadRoot can start. -/
theorem stackAllocate_starts (symbols : Symbols) {t : T} (stack func arg : Word)
    (mem : Word → Word)
    (own : ∀ a ∈ [stack, stackTop stack], a ∈ layout.stack t) :
    ∃ context, Starts symbols stack func arg context ∧
      SavedIn layout (stackAllocate symbols (layout.address t) stack func arg mem) t
        context := by
  simp only [List.forall_mem_cons, List.not_mem_nil, false_implies, implies_true, and_true]
    at own
  let mem' := stackAllocate symbols (layout.address t) stack func arg mem
  have written : ∀ write ∈ stackState symbols (layout.address t) stack func arg,
      mem' write.1 = write.2 := fun write member =>
    writes_at (stackState_apart (layout.stackOff t t _ own.1) (layout.stackOff t t _ own.2))
      member
  simp only [stackState, List.forall_mem_cons, List.not_mem_nil, false_implies, implies_true,
    and_true] at written
  obtain ⟨esp, root, -, -, startup, func', arg', whenDone⟩ := written
  change ∃ context, _ ∧ SavedIn layout mem' t context
  clear_value mem'
  refine ⟨⟨fun r => mem' (layout.address t + offset r), mem'⟩,
    ⟨esp, root, startup, func', arg', whenDone⟩, fun r => rfl, fun a _ _ => rfl⟩

end

/-! ### The calls of ThreadRoot -/

theorem calls_call {r : Reg} {parameters : Bool} {rest : List RootStep} {cpu : Cpu Reg Word}
    {calls : List (Word × Word)} (made : Calls (.call r parameters :: rest) cpu calls) :
    ∃ later, calls = (cpu.regs r, cpu.mem (cpu.regs .esp)) :: later ∧
      (later = [] ∨ ∃ after, (∀ r ∈ calleeSaved, after.regs r = cpu.regs r) ∧
        (parameters = false → after.mem (cpu.regs .esp) = cpu.mem (cpu.regs .esp)) ∧
          Calls rest after later) := by
  cases made with
  | away => exact ⟨[], rfl, .inl rfl⟩
  | back kept top later => exact ⟨_, rfl, .inr ⟨_, kept, top, later⟩⟩

/-- The start of ThreadRoot makes no call, leaves the argument on top of the stack, and
leaves the registers that name the functions. -/
theorem calls_pushed {cpu : Cpu Reg Word} {calls : List (Word × Word)}
    (made : Calls ThreadRoot cpu calls) :
    ∃ after : Cpu Reg Word, after.mem (after.regs .esp) = cpu.regs .edx ∧
      (∀ r ∈ [Reg.ecx, .esi, .edi], after.regs r = cpu.regs r) ∧
      Calls [.call .ecx false, .call .esi true, .call .edi false] after calls := by
  cases made with
  | push later =>
      cases later with
      | move later =>
          cases later with
          | push later =>
              refine ⟨_, ?_, ?_, later⟩
              · simp [push]
              · simp [push]

/-- From a context in which it can start, ThreadRoot calls InterruptEnable, then the
forked function with its argument, then ThreadFinish, as far as its calls return. -/
theorem calls_of_starts {stack func arg : Word} {context cpu : Cpu Reg Word}
    (starts : Starts symbols stack func arg context)
    (same : ∀ r, r ≠ .esp → cpu.regs r = context.regs r) {calls : List (Word × Word)}
    (made : Calls ThreadRoot cpu calls) :
    ∃ last, calls ≠ [] ∧ calls <+:
      [(symbols.InterruptEnable, arg), (func, arg), (symbols.ThreadFinish, last)] := by
  obtain ⟨pushed, top, registers, startupCalls⟩ := calls_pushed made
  have argument : pushed.mem (pushed.regs .esp) = arg :=
    top.trans ((same .edx (by decide)).trans starts.InitialArg)
  have startup : pushed.regs .ecx = symbols.InterruptEnable :=
    (registers _ (by simp)).trans ((same .ecx (by decide)).trans starts.StartupPC)
  obtain ⟨_, rfl, rfl | ⟨after, kept, topKept, initialCalls⟩⟩ := calls_call startupCalls
  · rw [startup, argument]
    exact ⟨0, by simp, _, rfl⟩
  have initial : after.regs .esi = func :=
    (kept _ (by decide)).trans
      ((registers _ (by simp)).trans ((same .esi (by decide)).trans starts.InitialPC))
  -- InterruptEnable has no parameters, so that the argument is still there
  have passed : after.mem (after.regs .esp) = arg := by
    rw [kept .esp (by decide), topKept rfl]
    exact argument
  obtain ⟨_, rfl, rfl | ⟨last, keptLast, -, finishCalls⟩⟩ := calls_call initialCalls
  · rw [startup, argument, initial, passed]
    exact ⟨0, by simp, _, rfl⟩
  have finish : last.regs .edi = symbols.ThreadFinish :=
    (keptLast _ (by decide)).trans ((kept _ (by decide)).trans
      ((registers _ (by simp)).trans ((same .edi (by decide)).trans starts.WhenDonePC)))
  obtain ⟨_, rfl, rfl | ⟨_, -, -, noCalls⟩⟩ := calls_call finishCalls
  · rw [startup, argument, initial, passed, finish]
    exact ⟨_, by simp, _, rfl⟩
  · cases noCalls
    rw [startup, argument, initial, passed, finish]
    exact ⟨_, by simp, _, rfl⟩

/-! ### Switching between threads -/

/-- The host keeps for each thread its registers and its stack. -/
def keeper (symbols : Symbols) (layout : Layout T) :
    Keeper T (Cpu Reg Word) (Host T) (HostAction T) where
  machine := host symbols layout
  current := Host.currentThread
  Live s context := s.cpu.regs = context.regs ∧
    StackKept (layout.stack s.currentThread) s.cpu.mem context
  Saved s t context := SavedIn layout s.cpu.mem t context
  Means := Means symbols
  keeps := by
    intro s s' action context contexts moved live saved
    cases action with
    | run cpu =>
        simp only [host, Option.ite_none_right_eq_some, Option.some.injEq] at moved
        obtain ⟨frame, rfl⟩ := moved
        exact ⟨.compute cpu, trivial, rfl, ⟨rfl, fun _ _ _ => rfl⟩, fun t other =>
          (saved t other).of_same (frame t other).1 (frame t other).2⟩
    | fork t stack func arg =>
        simp only [host, Option.ite_none_right_eq_some, Option.some.injEq] at moved
        obtain ⟨⟨other, own⟩, rfl⟩ := moved
        obtain ⟨created, starts, savedIn⟩ :=
          stackAllocate_starts symbols stack func arg s.cpu.mem own
        refine ⟨.create t created, ⟨rfl, starts⟩, other, rfl,
          ⟨live.1, fun a member off => ?_⟩, savedIn,
          fun t' away apart => stackAllocate_saved apart own (saved t' away)⟩
        exact (stackAllocate_outside own (layout.stackOff _ t a member)
          (layout.stacksApart _ t (Ne.symm other) a member)).trans (live.2 a member off)
    | switch nextThread =>
        simp only [host, Option.ite_none_right_eq_some, Option.some.injEq] at moved
        obtain ⟨⟨frame, old, new, onStack⟩, rfl⟩ := moved
        obtain ⟨esp, second, own, others⟩ := saveThread_saves frame old live.1 live.2
        have argument := second.trans new
        rw [← esp] at argument
        rw [SWITCH, execute_append]
        by_cases self : nextThread = s.currentThread
        · subst self
          obtain ⟨regs, stack, rest⟩ := restoreThread_loads argument own
            (live.1 ▸ frame _ (by simp))
          refine ⟨.switch _, rfl, rfl, ?_, fun away => absurd rfl away, fun t _ other =>
            rest t _ other (others t _ other (saved t other))⟩
          rw [if_pos rfl]
          exact ⟨regs, stack⟩
        · obtain ⟨regs, stack, rest⟩ :=
            restoreThread_loads argument (others _ _ self (saved _ self))
              ((saved _ self).regs .esp ▸ onStack self)
          refine ⟨.switch nextThread, rfl, rfl, ?_, fun away => rest _ _ away own,
            fun t other away => rest t _ away (others t _ other (saved t other))⟩
          rw [if_neg self]
          exact ⟨regs, stack⟩

/-- Every state holds some contexts. -/
theorem keeper_holds (symbols : Symbols) (layout : Layout T) (s : Host T) :
    ∃ contexts : T → Cpu Reg Word, contexts s.currentThread = s.cpu ∧
      (keeper symbols layout).Holds s ⟨s.currentThread, contexts⟩ := by
  let contexts t := if t = s.currentThread then s.cpu
    else ⟨fun r => s.cpu.mem (layout.address t + offset r), s.cpu.mem⟩
  have own : contexts s.currentThread = s.cpu := if_pos rfl
  refine ⟨contexts, own, rfl, ?_, fun t other => ?_⟩
  · change s.cpu.regs = (contexts s.currentThread).regs ∧
      StackKept _ s.cpu.mem (contexts s.currentThread)
    rw [own]
    exact ⟨rfl, fun _ _ _ => rfl⟩
  · change SavedIn layout s.cpu.mem t (contexts t)
    have away : contexts t = ⟨fun r => s.cpu.mem (layout.address t + offset r), s.cpu.mem⟩ :=
      if_neg other
    rw [away]
    exact ⟨fun _ => rfl, fun _ _ _ => rfl⟩

/-- The action neither gives the CPU to the thread nor forks it. -/
def HostAction.Spares (t : T) : HostAction T → Prop
  | .run _ => True
  | .fork other _ _ _ => other ≠ t
  | .switch nextThread => nextThread ≠ t

omit [DecidableEq T] [Fintype T] in
theorem HostAction.Spares.means {t : T} {action : HostAction T} (spares : action.Spares t)
    {what : TaskAction T (Cpu Reg Word)} (means : Means symbols action what) :
    what.Spares t := by
  cases action <;> cases what <;> first | exact means.elim | skip
  · trivial
  · exact means.1 ▸ spares
  · exact means ▸ spares

/-- A thread that called SWITCH goes on, when a thread switches to it, as if its call
had just returned: all registers are those of the call, the address that `ret` takes
from the stack is that of the call, and the rest of its stack is as it left it but for
the first argument of the call, whatever the other threads did meanwhile. -/
theorem stack_switch_returns {s s' : Host T} {nextThread : T} {actions : List (HostAction T)}
    (other : nextThread ≠ s.currentThread)
    (spares : ∀ action ∈ actions, action.Spares s.currentThread)
    (run : (host symbols layout).exec s
      (.switch nextThread :: (actions ++ [.switch s.currentThread])) = some s') :
    s'.currentThread = s.currentThread ∧ s'.cpu.regs = s.cpu.regs ∧
      s'.cpu.mem (s'.cpu.regs .esp) = s.cpu.mem (s.cpu.regs .esp) ∧
      ∀ a ∈ layout.stack s.currentThread, a ≠ s.cpu.regs .esp + 4 →
        s'.cpu.mem a = s.cpu.mem a := by
  obtain ⟨contexts, own, holds⟩ := keeper_holds symbols layout s
  obtain ⟨left, switched, rest⟩ := (Machine.exec_cons_eq_some _).mp run
  obtain ⟨before, meanwhile, back⟩ := (Machine.exec_snoc_eq_some _).mp rest
  have top : s.cpu.regs .esp ∈ layout.stack s.currentThread := by
    simp only [host, Option.ite_none_right_eq_some] at switched
    exact switched.1.1 _ (by simp)
  obtain ⟨what, after, means, moved, held⟩ := Keeper.step holds switched
  cases what <;> first | exact means.elim | skip
  cases means
  simp only [tasks, Option.some.injEq] at moved
  subst moved
  obtain ⟨again, regs, stack⟩ := Keeper.resumed held other
    (fun action member _ => (spares action member).means) meanwhile
    (fun what means => by cases what <;> first | exact means.elim | rw [means]) back
  change s'.currentThread = s.currentThread at again
  simp only [own, again] at regs stack
  refine ⟨again, regs, ?_, stack⟩
  rw [regs]
  exact stack _ top (by simp)

/-- Two threads with stacks of some words. -/
def twoThreads : Layout Bool where
  address t := if t then 0x2000 else 0x1000
  stack t := if t then [0x8000, stackTop 0x8000, stackTop 0x8000 + 4, stackTop 0x8000 + 8]
    else [0x5000, 0x5004, 0x5008]
  eaxSave := 0x3000
  apart := by decide
  stacksApart := by decide
  stackOff := by decide
  saveOff := by decide

/-- A call of SWITCH from one thread to the other: its frame is on top of the stack. -/
def calling (word esp oldThread newThread : Word) (mem : Word → Word) : Cpu Reg Word :=
  ⟨fun r => if r = .esp then esp else word,
    writes [(esp, word), (esp + 4, oldThread), (esp + 8, newThread)] mem⟩

/-- The one thread switches to the other, which overwrites every register and then
switches back. -/
theorem stack_switch_returns_two_threads :
    ∃ s' : Host Bool,
      (host ⟨4, 8, 12⟩ twoThreads).exec
        ⟨false, calling 7 0x5000 0x1000 0x2000 fun _ => stackTop 0x8000⟩
        (.switch true :: ([.run (calling 9 (stackTop 0x8000) 0x2000 0x1000
          (execute (SWITCH 0x3000)
            (calling 7 0x5000 0x1000 0x2000 fun _ => stackTop 0x8000)).mem)] ++
            [.switch false])) = some s' ∧
      s'.currentThread = false ∧
      s'.cpu.regs = (calling 7 0x5000 0x1000 0x2000 fun _ => stackTop 0x8000).regs ∧
      s'.cpu.mem (s'.cpu.regs .esp) = 7 ∧
      ∀ a ∈ twoThreads.stack false, a ≠ 0x5000 + 4 →
        s'.cpu.mem a = (calling 7 0x5000 0x1000 0x2000 fun _ => stackTop 0x8000).mem a :=
  ⟨_, (Option.some_get (by decide)).symm,
    stack_switch_returns (by decide) (by simp [HostAction.Spares])
      (Option.some_get (by decide)).symm⟩

/-- A forked thread starts, when a thread first switches to it, in ThreadRoot and on its
own stack; there it calls InterruptEnable, then the forked function with its
argument, then ThreadFinish. -/
theorem stack_forked_thread_starts {s s' : Host T} {t : T} {stack func arg : Word}
    {actions : List (HostAction T)} (spares : ∀ action ∈ actions, action.Spares t)
    (run : (host symbols layout).exec s
      (.fork t stack func arg :: (actions ++ [.switch t])) = some s') :
    s'.currentThread = t ∧ s'.cpu.regs .esp = stackTop stack ∧
      s'.cpu.mem (s'.cpu.regs .esp) = symbols.ThreadRoot ∧
      ∀ calls, Calls ThreadRoot
          ⟨Function.update s'.cpu.regs .esp (s'.cpu.regs .esp + 4), s'.cpu.mem⟩ calls →
        ∃ last, calls ≠ [] ∧ calls <+:
          [(symbols.InterruptEnable, arg), (func, arg), (symbols.ThreadFinish, last)] := by
  obtain ⟨contexts, -, holds⟩ := keeper_holds symbols layout s
  obtain ⟨forked, created, rest⟩ := (Machine.exec_cons_eq_some _).mp run
  obtain ⟨before, meanwhile, back⟩ := (Machine.exec_snoc_eq_some _).mp rest
  have own : stackTop stack ∈ layout.stack t := by
    simp only [host, Option.ite_none_right_eq_some] at created
    exact created.1.2 _ (by simp)
  obtain ⟨what, after, means, moved, held⟩ := Keeper.step holds created
  cases what <;> first | exact means.elim | skip
  obtain ⟨rfl, starts⟩ := means
  simp only [tasks, Option.ite_none_left_eq_some, Option.some.injEq] at moved
  obtain ⟨other, rfl⟩ := moved
  obtain ⟨now, regs, kept⟩ := Keeper.resumed held (Ne.symm other)
    (fun action member _ => (spares action member).means) meanwhile
    (fun what means => by cases what <;> first | exact means.elim | rw [means]) back
  change s'.currentThread = _ at now
  simp only [Function.update_self, now] at regs kept
  have esp : s'.cpu.regs .esp = stackTop stack := regs ▸ starts.esp
  refine ⟨now, esp, ?_, fun calls made => calls_of_starts starts (fun r away => ?_) made⟩
  · rw [esp]
    exact (kept _ own (by rw [starts.esp]; simp)).trans starts.root
  · exact (Function.update_of_ne away ..).trans (congrFun regs r)

/-- The one thread forks the other and switches to it. -/
theorem stack_forked_thread_starts_two_threads :
    ∃ s' : Host Bool,
      (host ⟨4, 8, 12⟩ twoThreads).exec ⟨false, calling 7 0x5000 0x1000 0x2000 fun _ => 0⟩
        (.fork true 0x8000 16 5 :: ([] ++ [.switch true])) = some s' ∧
      s'.currentThread = true ∧ s'.cpu.regs .esp = stackTop 0x8000 ∧
      s'.cpu.mem (s'.cpu.regs .esp) = 4 ∧
      ∀ calls, Calls ThreadRoot
          ⟨Function.update s'.cpu.regs .esp (s'.cpu.regs .esp + 4), s'.cpu.mem⟩ calls →
        ∃ last, calls ≠ [] ∧ calls <+: [(8, 5), (16, 5), (12, last)] :=
  ⟨_, (Option.some_get (by decide)).symm,
    stack_forked_thread_starts (by simp) (Option.some_get (by decide)).symm⟩

end Nachos.StackSwitch
