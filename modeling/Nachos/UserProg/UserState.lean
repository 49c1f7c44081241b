/-
Module: Nachos.UserProg.UserState
Purpose: What a context switch does with user programs: Thread::SaveUserState and
  RestoreUserState of thread.cc, AddrSpace::RestoreState, and Scheduler::Run,
  which calls them only for threads that have an address space.  A program finds
  its registers and its page table again, whatever other programs and threads of
  the kernel have done.
Trusted boundary: SWITCH returns, in the thread that it switches to, from that
  thread's own call of it, or it starts a new thread in ThreadRoot
  (Nachos.Threads.Switch)
Main exports: UserThread, UserHost, UserHostAction, UserHost.switchTo, userHost,
  userKeeper, user_state_returns
-/
import Mathlib.Data.BitVec
import Mathlib.Data.Fintype.Defs
import Mathlib.Data.Fintype.Fin
import Nachos.Lib.Tasks
import Nachos.UserProg.AddrSpace

namespace Nachos

open Lib

variable {T P : Type} [DecidableEq T] [DecidableEq P]

/-! ### Data model -/

/-- What a Thread object holds for a user program; `space` is the address of an
AddrSpace object, or NULL. -/
structure UserThread (P : Type) where
  userRegisters : BitVec 32 → BitVec 32
  space : Option P

/-- The machine, the threads and the address spaces, by their addresses. -/
structure UserHost (T P : Type) where
  currentThread : T
  threads : T → UserThread P
  /-- the threads that have called SWITCH in `Scheduler::Run` -/
  inRun : T → Bool
  spaces : P → AddrSpace
  /-- the machine, with the entries of the page table that it uses -/
  machine : Processor
  /-- the address space to which that page table belongs -/
  pageTable : Option P

/-- What can happen next. -/
inductive UserHostAction (T P : Type) where
  /-- the current thread computes, in user mode or in the kernel; the machine after
  that -/
  | run (machine : Processor)
  /-- the end of `StartProcess`, for a new address space at `p` -/
  | startProcess (p : P) (space : AddrSpace)
  /-- `Thread::Fork` of a new Thread object, `heap` being what its array held -/
  | fork (t : T) (heap : BitVec 32 → BitVec 32)
  /-- `Scheduler::Run` -/
  | switch (nextThread : T)

namespace UserThread

/-- `Thread::SaveUserState`. -/
def saveUserState (m : Processor) (thread : UserThread P) : UserThread P :=
  { thread with
    userRegisters := fun i =>
      if i.toNat < numTotalRegs then m.registers i else thread.userRegisters i }

/-- `Thread::RestoreUserState`. -/
def restoreUserState (thread : UserThread P) (m : Processor) : Processor :=
  { m with
    registers := fun i =>
      if i.toNat < numTotalRegs then thread.userRegisters i else m.registers i }

/-- A new Thread object. -/
def construct (heap : BitVec 32 → BitVec 32) : UserThread P where
  userRegisters := heap
  space := none

end UserThread

namespace UserHost

/-- The machine has changed; the entries that it uses are those of the object. -/
def setMachine (machine : Processor) (s : UserHost T P) : UserHost T P :=
  match s.pageTable, machine.pageTable with
  | some p, some entries =>
      { s with
        machine := machine
        spaces := Function.update s.spaces p { s.spaces p with pageTable := entries } }
  | _, _ => { s with machine := machine }

/-- `currentThread->space = space; space->InitRegisters(); space->RestoreState();` -/
def startProcess (p : P) (space : AddrSpace) (s : UserHost T P) : UserHost T P :=
  { s with
    threads := Function.update s.threads s.currentThread
      { s.threads s.currentThread with space := some p }
    spaces := Function.update s.spaces p space
    machine := space.restoreState (space.initRegisters s.machine)
    pageTable := some p }

/-- What `Scheduler::Run` does before SWITCH. -/
def leave (s : UserHost T P) : UserHost T P :=
  let thread := s.threads s.currentThread
  { s with
    threads :=
      if thread.space.isSome then
        Function.update s.threads s.currentThread (thread.saveUserState s.machine)
      else s.threads
    inRun := Function.update s.inRun s.currentThread true }

/-- What `Scheduler::Run` does after SWITCH. -/
def back (s : UserHost T P) : UserHost T P :=
  match (s.threads s.currentThread).space with
  | none => s
  | some p =>
      { s with
        machine := (s.spaces p).restoreState
          ((s.threads s.currentThread).restoreUserState s.machine)
        pageTable := some p }

/-- `Scheduler::Run`: the thread that goes on returns from its own call of SWITCH,
and a new one starts in ThreadRoot. -/
def switchTo (nextThread : T) (s : UserHost T P) : UserHost T P :=
  let s := { s.leave with currentThread := nextThread }
  if s.inRun nextThread then s.back else s

/-- One step.  While there is a page table the machine goes on using it. -/
def step (s : UserHost T P) : UserHostAction T P → Option (UserHost T P)
  | .run machine =>
      if machine.pageTable.isSome = s.machine.pageTable.isSome then some (s.setMachine machine)
      else none
  | .startProcess p space => some (s.startProcess p space)
  | .fork t heap =>
      if t = s.currentThread then none
      else
        some { s with
          threads := Function.update s.threads t (.construct heap)
          inRun := Function.update s.inRun t false }
  | .switch nextThread => some (s.switchTo nextThread)

/-- The main thread of a kernel without user programs; `Machine::Machine` makes no
page table. -/
def boot (main : T) (machine : Processor) (spaces : P → AddrSpace)
    (heap : T → BitVec 32 → BitVec 32) : UserHost T P where
  currentThread := main
  threads t := .construct (heap t)
  inRun _ := false
  spaces := spaces
  machine := { machine with pageTable := none }
  pageTable := none

end UserHost

/-- User programs and threads of the kernel as a machine. -/
def userHost (T P : Type) [DecidableEq T] [DecidableEq P] :
    Machine (UserHost T P) (UserHostAction T P) where
  step := UserHost.step

/-! ### The contexts of user programs -/

/-- The registers of a program, and its address space. -/
structure UserContext (P : Type) where
  registers : Fin numTotalRegs → BitVec 32
  space : P

/-- The first registers of an array. -/
def userRegs (registers : BitVec 32 → BitVec 32) : Fin numTotalRegs → BitVec 32 :=
  fun i => registers (BitVec.ofNat 32 i)

theorem userRegs_congr {registers registers' : BitVec 32 → BitVec 32}
    (same : ∀ i : BitVec 32, i.toNat < numTotalRegs → registers i = registers' i) :
    userRegs registers = userRegs registers' := by
  funext i
  apply same
  rw [BitVec.toNat_ofNat]
  omega

namespace UserHost

/-- The context of the current thread is in the machine; a thread of the kernel has
none. -/
def Live (s : UserHost T P) : Option (UserContext P) → Prop
  | none => (s.threads s.currentThread).space = none
  | some context =>
      (s.threads s.currentThread).space = some context.space ∧
        userRegs s.machine.registers = context.registers ∧
        s.pageTable = some context.space ∧
        s.machine.pageTable = some (s.spaces context.space).pageTable

/-- The context of another thread is in its Thread object. -/
def Saved (s : UserHost T P) (t : T) : Option (UserContext P) → Prop
  | none => (s.threads t).space = none
  | some context =>
      (s.threads t).space = some context.space ∧
        userRegs (s.threads t).userRegisters = context.registers ∧ s.inRun t = true

variable {s : UserHost T P} {t nextThread : T} {context : Option (UserContext P)}

omit [DecidableEq T] [DecidableEq P] in
theorem Saved.congr {s' : UserHost T P} (saved : s.Saved t context)
    (threads : s'.threads t = s.threads t) (inRun : s.inRun t = true → s'.inRun t = true) :
    s'.Saved t context := by
  cases context with
  | none => exact (congrArg UserThread.space threads).trans saved
  | some context =>
      obtain ⟨space, registers, run⟩ := saved
      exact ⟨(congrArg UserThread.space threads).trans space,
        (congrArg (fun thread => userRegs thread.userRegisters) threads).trans registers,
        inRun run⟩

section

omit [DecidableEq P]

/-- The thread that leaves the CPU. -/
theorem saved_leave (live : s.Live context) : s.leave.Saved s.currentThread context := by
  cases context with
  | none =>
      have space : (s.threads s.currentThread).space = none := live
      simp [Saved, leave, space]
  | some context =>
      obtain ⟨space, registers, -⟩ := live
      refine ⟨?_, ?_, ?_⟩
      · simp [leave, space, UserThread.saveUserState]
      · rw [← registers]
        apply userRegs_congr
        intro i inside
        simp [leave, space, UserThread.saveUserState, inside]
      · simp [leave]

theorem saved_leave_other (other : t ≠ s.currentThread) (saved : s.Saved t context) :
    s.leave.Saved t context := by
  apply saved.congr
  · simp only [leave]
    split
    · rw [Function.update_of_ne other]
    · rfl
  · intro run
    simp [leave, Function.update_of_ne other, run]

/-- The thread that is given the CPU. -/
theorem live_switchTo (saved : s.leave.Saved nextThread context) :
    (s.switchTo nextThread).Live context := by
  cases context with
  | none =>
      have space : (s.leave.threads nextThread).space = none := saved
      unfold switchTo
      dsimp only
      split
      · simp [back, space, Live]
      · exact space
  | some context =>
      obtain ⟨space, registers, run⟩ := saved
      simp only [switchTo, run, ↓reduceIte, back, space]
      refine ⟨space, ?_, rfl, rfl⟩
      rw [← registers]
      apply userRegs_congr
      intro i inside
      simp [AddrSpace.restoreState, UserThread.restoreUserState, inside]

theorem switchTo_threads (nextThread : T) (s : UserHost T P) :
    (s.switchTo nextThread).threads = s.leave.threads ∧
      (s.switchTo nextThread).inRun = s.leave.inRun ∧
      (s.switchTo nextThread).currentThread = nextThread := by
  unfold switchTo back
  dsimp only
  split
  · split
    · exact ⟨rfl, rfl, rfl⟩
    · exact ⟨rfl, rfl, rfl⟩
  · exact ⟨rfl, rfl, rfl⟩

end

section

omit [DecidableEq T]

/-- The current thread computes. -/
theorem live_setMachine {machine : Processor} (live : s.Live context)
    (uses : machine.pageTable.isSome = s.machine.pageTable.isSome) :
    ∃ after : Option (UserContext P), (s.setMachine machine).Live after := by
  cases context with
  | none =>
      refine ⟨none, ?_⟩
      unfold setMachine
      split
      · exact live
      · exact live
  | some context =>
      obtain ⟨space, -, table, entries⟩ := live
      rw [entries, Option.isSome_some] at uses
      obtain ⟨found, here⟩ := Option.isSome_iff_exists.mp uses
      refine ⟨some ⟨userRegs machine.registers, context.space⟩, ?_⟩
      simp only [setMachine, table, here]
      refine ⟨space, rfl, rfl, ?_⟩
      simp [here]

theorem setMachine_threads (machine : Processor) (s : UserHost T P) :
    (s.setMachine machine).threads = s.threads ∧ (s.setMachine machine).inRun = s.inRun ∧
      (s.setMachine machine).currentThread = s.currentThread := by
  unfold setMachine
  split
  · exact ⟨rfl, rfl, rfl⟩
  · exact ⟨rfl, rfl, rfl⟩

end

end UserHost

/-- What an action is for the contexts. -/
def UserHostAction.Means :
    UserHostAction T P → TaskAction T (Option (UserContext P)) → Prop
  | .run _, .compute _ | .startProcess _ _, .compute _ => True
  | .fork t _, .create other context => other = t ∧ context = none
  | .switch nextThread, .switch next => next = nextThread
  | _, _ => False

open UserHost in
/-- Thread objects and the machine keep the contexts of user programs. -/
def userKeeper (T P : Type) [DecidableEq T] [DecidableEq P] :
    Keeper T (Option (UserContext P)) (UserHost T P) (UserHostAction T P) where
  machine := userHost T P
  current := UserHost.currentThread
  Live := UserHost.Live
  Saved := UserHost.Saved
  Means := UserHostAction.Means
  keeps := by
    intro s s' action context contexts moved live saved
    cases action with
    | run machine =>
        simp only [userHost, UserHost.step, Option.ite_none_right_eq_some,
          Option.some.injEq] at moved
        obtain ⟨uses, rfl⟩ := moved
        obtain ⟨after, live⟩ := live_setMachine live uses
        obtain ⟨threads, inRun, current⟩ := setMachine_threads machine s
        exact ⟨.compute after, trivial, current, live, fun t other =>
          (saved t other).congr (congrFun threads t) fun run => (congrFun inRun t).trans run⟩
    | startProcess p space =>
        simp only [userHost, UserHost.step, Option.some.injEq] at moved
        subst moved
        refine ⟨.compute (some ⟨userRegs (space.initRegisters s.machine).registers, p⟩), trivial,
          rfl, ⟨?_, rfl, rfl, ?_⟩, fun t other => ?_⟩
        · simp [startProcess]
        · simp [startProcess, AddrSpace.restoreState]
        · exact (saved t other).congr (by simp [startProcess, Function.update_of_ne other])
            fun run => run
    | fork t heap =>
        simp only [userHost, UserHost.step, Option.ite_none_left_eq_some,
          Option.some.injEq] at moved
        obtain ⟨other, rfl⟩ := moved
        refine ⟨.create t none, ⟨rfl, rfl⟩, other, rfl, ?_, ?_, fun t' away apart => ?_⟩
        · cases context with
          | none => simpa [UserHost.Live, Function.update_of_ne (Ne.symm other)] using live
          | some context =>
              simpa [UserHost.Live, Function.update_of_ne (Ne.symm other)] using live
        · simp [UserHost.Saved, UserThread.construct]
        · exact (saved t' away).congr (by simp [Function.update_of_ne apart])
            fun run => by simp [Function.update_of_ne apart, run]
    | switch nextThread =>
        simp only [userHost, UserHost.step, Option.some.injEq] at moved
        subst moved
        obtain ⟨threads, inRun, current⟩ := switchTo_threads nextThread s
        have stays {t : T} {context : Option (UserContext P)} (saved : s.leave.Saved t context) :
            (s.switchTo nextThread).Saved t context :=
          saved.congr (congrFun threads t) fun run => (congrFun inRun t).trans run
        refine ⟨.switch nextThread, rfl, current, ?_, fun _ => stays (saved_leave live),
          fun t other _ => stays (saved_leave_other other (saved t other))⟩
        by_cases same : nextThread = s.currentThread
        · rw [if_pos same]
          exact live_switchTo (same ▸ saved_leave live)
        · rw [if_neg same]
          exact live_switchTo (saved_leave_other same (saved nextThread same))

/-- The action neither gives the CPU to the thread nor makes a new thread of it. -/
def UserHostAction.Spares (t : T) : UserHostAction T P → Prop
  | .fork other _ => other ≠ t
  | .switch nextThread => nextThread ≠ t
  | .run _ | .startProcess _ _ => True

omit [DecidableEq T] [DecidableEq P] in
theorem UserHostAction.Spares.means {t : T} {action : UserHostAction T P}
    (spares : action.Spares t) {what : TaskAction T (Option (UserContext P))}
    (means : action.Means what) : what.Spares t := by
  cases action with
  | run machine =>
      cases what with
      | compute c => trivial
      | create other c => exact means.elim
      | switch next => exact means.elim
  | startProcess p space =>
      cases what with
      | compute c => trivial
      | create other c => exact means.elim
      | switch next => exact means.elim
  | fork other heap =>
      cases what with
      | compute c => exact means.elim
      | create new c => exact means.1 ▸ spares
      | switch next => exact means.elim
  | switch nextThread =>
      cases what with
      | compute c => exact means.elim
      | create other c => exact means.elim
      | switch next => exact means ▸ spares

theorem boot_holds (main : T) (machine : Processor) (spaces : P → AddrSpace)
    (heap : T → BitVec 32 → BitVec 32) :
    (userKeeper T P).Holds (UserHost.boot main machine spaces heap) ⟨main, fun _ => none⟩ where
  current := rfl
  live := rfl
  saved _ _ := rfl

omit [DecidableEq T] [DecidableEq P] in
theorem means_switch {nextThread : T} {what : TaskAction T (Option (UserContext P))}
    (means : (UserHostAction.switch nextThread : UserHostAction T P).Means what) :
    what = .switch nextThread := by
  cases what with
  | compute c => exact means.elim
  | create other c => exact means.elim
  | switch next => exact congrArg _ means

/-- A user program that is switched out finds, when its thread is given the CPU
again, its registers as they were, and its page table in the machine, whatever other
programs, new processes and threads of the kernel have done. -/
theorem user_state_returns {main nextThread : T} {machine : Processor}
    {spaces : P → AddrSpace} {heap : T → BitVec 32 → BitVec 32}
    {before actions : List (UserHostAction T P)} {s s' : UserHost T P} {p : P}
    (started : (userHost T P).exec (.boot main machine spaces heap) before = some s)
    (program : (s.threads s.currentThread).space = some p)
    (other : nextThread ≠ s.currentThread)
    (spares : ∀ action ∈ actions, action.Spares s.currentThread)
    (run : (userHost T P).exec s
      (.switch nextThread :: (actions ++ [.switch s.currentThread])) = some s') :
    s'.currentThread = s.currentThread ∧
      (∀ i : Fin numTotalRegs, userRegs s'.machine.registers i = userRegs s.machine.registers i) ∧
      s'.pageTable = some p ∧ s'.machine.pageTable = some (s'.spaces p).pageTable := by
  obtain ⟨-, tasks₁, -, -, holds⟩ :=
    Keeper.exec (boot_holds main machine spaces heap) started
  obtain ⟨left, switched, rest⟩ := (Machine.exec_cons_eq_some _).mp run
  obtain ⟨meanwhile, between, back⟩ := (Machine.exec_snoc_eq_some _).mp rest
  -- the context that is live before the switch
  have current : s.currentThread = tasks₁.current := holds.current
  have live : s.Live (tasks₁.context tasks₁.current) := holds.live
  obtain ⟨what, after, means, moved, held⟩ := Keeper.step holds switched
  obtain rfl := means_switch means
  simp only [tasks, Option.some.injEq] at moved
  subst moved
  obtain ⟨again, resumed⟩ := Keeper.resumed held other
    (fun action member what => (spares action member).means) between
    (fun what => means_switch) back
  rw [current] at resumed
  refine ⟨again, ?_⟩
  cases context : tasks₁.context tasks₁.current with
  | none =>
      rw [context] at live
      exact absurd (live.symm.trans program) (by simp)
  | some c =>
      rw [context] at live resumed
      obtain ⟨space, registers, -, -⟩ := live
      obtain ⟨-, registers', table, entries⟩ := resumed
      obtain rfl : c.space = p := Option.some.inj (space.symm.trans program)
      exact ⟨fun i => congrFun (registers'.trans registers.symm) i, table, entries⟩

/-- A process of one page. -/
def smallSpace : AddrSpace where
  fileTable := ⟨⟨0, fun _ => 0⟩, fun _ => none, 0⟩
  pageTable := AddrSpace.identityTable 1
  numPages := 1

/-- The main thread starts a process and forks a thread, which starts another process
and computes. -/
theorem user_state_returns_two_processes :
    ∃ s s' : UserHost Bool Bool,
      (userHost Bool Bool).exec (.boot false (onePage 0 fun _ => 0) (fun _ => smallSpace)
        fun _ _ => 5) [.startProcess true smallSpace, .fork true fun _ => 6] = some s ∧
      (userHost Bool Bool).exec s
        (.switch true :: ([.startProcess false smallSpace,
          .run (smallSpace.restoreState (onePage 0 fun _ => 7))] ++ [.switch s.currentThread])) =
            some s' ∧
      s'.currentThread = s.currentThread ∧
      (∀ i : Fin numTotalRegs,
        userRegs s'.machine.registers i = userRegs s.machine.registers i) ∧
      s'.pageTable = some true ∧ s'.machine.pageTable = some (s'.spaces true).pageTable :=
  ⟨_, _, (Option.some_get (by decide)).symm, (Option.some_get (by decide)).symm,
    user_state_returns (Option.some_get (by decide)).symm (by rfl) (by decide)
      (by simp [UserHostAction.Spares]) (Option.some_get (by decide)).symm⟩

end Nachos
