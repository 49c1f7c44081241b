/-
Module: Nachos.Threads.Kernel
Purpose: The Nachos thread system: scheduler.cc, thread.cc, synch.cc and the
  parts of interrupt.cc that decide where a context switch can happen.  The
  control state of every thread that is off the CPU is kept as data (a stack
  of frames with the saved `oldLevel`s), so that a whole system is one state
  and every routine is a function on it.
Trusted boundary: SWITCH resumes a thread where it left off, and starts a new
  one at ThreadRoot.
Main exports: Kernel, Frame, Phase, Op, Action, Kernel.acquire,
  Kernel.release, Kernel.wait, Kernel.signal, Kernel.broadcast, Kernel.p,
  Kernel.v, Kernel.run, Kernel.boot, kernelMachine
-/
import Mathlib.Logic.Function.Basic
import Mathlib.Tactic.Simps.Basic
import Nachos.Lib.Transition

namespace Nachos

/-! ### Data model -/

/-- `enum IntStatus` of interrupt.h. -/
inductive IntStatus where
  | intOff
  | intOn
deriving DecidableEq, Repr

/-- `enum ThreadStatus` of thread.h. -/
inductive ThreadStatus where
  | justCreated
  | running
  | ready
  | blocked
deriving DecidableEq, Repr

structure Semaphore (T : Type) where
  value : Int
  queue : List T
deriving Repr

structure Lock (T : Type) where
  acquired : Bool
  owner : Option T
  queue : List T
deriving Repr

structure Condition (T L : Type) where
  waitQueue : List T
  waitingLock : Option L
deriving Repr

/-- `Semaphore::Semaphore`. -/
def Semaphore.construct {T : Type} (initialValue : Int) : Semaphore T :=
  { value := initialValue, queue := [] }

/-- `Lock::Lock`.  The constructor does not store `owner`: the field keeps
whatever the memory held before. -/
def Lock.construct {T : Type} (memory : Lock T) : Lock T :=
  { memory with acquired := false, queue := [] }

/-- `Condition::Condition`.  Likewise `waitingLock` is not stored. -/
def Condition.construct {T L : Type} (memory : Condition T L) :
    Condition T L :=
  { memory with waitQueue := [] }

/-- The wait queues of the synchronisation objects. -/
inductive WaitQueue (S L C : Type) where
  | semaphore (s : S)
  | lock (l : L)
  | condition (c : C)
deriving DecidableEq, Repr

/-- An activation of a kernel routine that its thread has not finished, with
the saved `oldLevel`.  A thread that is off the CPU continues in the topmost
frame of its stack when SWITCH gives it the CPU back. -/
inductive Frame (S L C : Type) where
  /-- the first frame of a forked thread: `ThreadRoot` -/
  | threadRoot
  /-- in `Semaphore::P`, in the `Sleep` of the while loop -/
  | inP (s : S) (oldLevel : IntStatus)
  /-- in `Lock::Acquire`, in the `Sleep` of the `else if (acquired)` branch -/
  | inAcquire (l : L) (oldLevel : IntStatus)
  /-- in `Condition::Wait`, in its `Sleep` -/
  | inWait (c : C) (l : L) (oldLevel : IntStatus)
  /-- in `Condition::Wait`, in its final `conditionLock->Acquire` -/
  | inReacquire (c : C) (l : L) (oldLevel : IntStatus)
  /-- in `Thread::Yield`, in its `scheduler->Run` -/
  | inYield (oldLevel : IntStatus)
  /-- in `Thread::Finish`, in its `Sleep`, which never returns -/
  | inFinish
deriving DecidableEq, Repr

/-- The queue on which a thread sleeping in this frame has put itself. -/
def Frame.queue {S L C : Type} : Frame S L C → Option (WaitQueue S L C)
  | .inP s _ => some (.semaphore s)
  | .inAcquire l _ => some (.lock l)
  | .inWait c _ _ => some (.condition c)
  | _ => none

/-- What the CPU is doing on behalf of the current thread. -/
inductive Phase where
  /-- executing the code of the thread -/
  | running
  /-- in `Interrupt::OneTick`: handlers run, and a time slice may follow -/
  | oneTick
  /-- at the head of the while loop in `Thread::Sleep` -/
  | sleeping
  /-- in `Interrupt::Idle`, called from that loop -/
  | idle
deriving DecidableEq, Repr

/-- What the routines have done, for stating properties of whole runs.  No
routine reads it. -/
inductive Event (T S L C : Type) where
  | readied (t : T)
  | dispatched (t : T)
  | pDone (s : S)
  | vDone (s : S)
  /-- `t` returns from `Acquire`, on its own or inside `Wait` -/
  | entered (l : L) (t : T)
  /-- `t` calls `Release`, on its own or inside `Wait` -/
  | left (l : L) (t : T)
  /-- a `Wait` of `t` under `l` is accepted -/
  | waited (c : C) (t : T) (l : L)
  | woken (c : C) (t : T)
  | deleted (t : T)
deriving DecidableEq, Repr

/-- The whole thread system. -/
structure Kernel (T S L C : Type) where
  currentThread : T
  readyList : List T
  status : T → ThreadStatus
  stack : T → List (Frame S L C)
  semaphores : S → Semaphore T
  locks : L → Lock T
  conditions : C → Condition T L
  level : IntStatus
  phase : Phase
  threadToBeDestroyed : Option T
  /-- newest event first -/
  log : List (Event T S L C)

namespace Kernel

variable {T S L C : Type}
variable [DecidableEq T] [DecidableEq S] [DecidableEq L] [DecidableEq C]

/-! ### Writing one component -/

@[simps] def note (e : Event T S L C) (k : Kernel T S L C) : Kernel T S L C :=
  { k with log := e :: k.log }

@[simps] def setStatus (t : T) (st : ThreadStatus) (k : Kernel T S L C) :
    Kernel T S L C :=
  { k with status := Function.update k.status t st }

@[simps] def setStack (t : T) (frames : List (Frame S L C)) (k : Kernel T S L C) :
    Kernel T S L C :=
  { k with stack := Function.update k.stack t frames }

@[simps] def setSemaphore (s : S) (semaphore : Semaphore T) (k : Kernel T S L C) :
    Kernel T S L C :=
  { k with semaphores := Function.update k.semaphores s semaphore }

@[simps] def setLock (l : L) (lock : Lock T) (k : Kernel T S L C) : Kernel T S L C :=
  { k with locks := Function.update k.locks l lock }

@[simps] def setCondition (c : C) (condition : Condition T L) (k : Kernel T S L C) :
    Kernel T S L C :=
  { k with conditions := Function.update k.conditions c condition }

/-- The contents of a wait queue. -/
def queue (k : Kernel T S L C) : WaitQueue S L C → List T
  | .semaphore s => (k.semaphores s).queue
  | .lock l => (k.locks l).queue
  | .condition c => (k.conditions c).waitQueue

/-- `queue->Append`, `queue->Remove` on the queue of any object. -/
def setQueue (q : WaitQueue S L C) (threads : List T) (k : Kernel T S L C) :
    Kernel T S L C :=
  match q with
  | .semaphore s => k.setSemaphore s { k.semaphores s with queue := threads }
  | .lock l => k.setLock l { k.locks l with queue := threads }
  | .condition c =>
      k.setCondition c { k.conditions c with waitQueue := threads }

/-! ### interrupt.cc -/

/-- `Interrupt::OneTick` up to the point where handlers run: interrupts are
turned off again and the machine is left inside the routine. -/
@[simps] def oneTick (k : Kernel T S L C) : Kernel T S L C :=
  { k with level := .intOff, phase := .oneTick }

/-- `Interrupt::SetLevel`. -/
def setLevel (now : IntStatus) (k : Kernel T S L C) : Kernel T S L C :=
  if now = .intOn ∧ k.level = .intOff then
    oneTick { k with level := now }
  else
    { k with level := now }

/-! ### scheduler.cc and thread.cc -/

/-- `Scheduler::ReadyToRun`. -/
def readyToRun (t : T) (k : Kernel T S L C) : Kernel T S L C :=
  (({ k with readyList := k.readyList ++ [t] }).setStatus t .ready).note
    (.readied t)

/-- `Scheduler::FindNextToRun`.  The routine takes the first thread of the
ready list, which is `pick = 0`; other values of `pick` stand for a scheduler
that may run any ready thread. -/
def findNextToRun (pick : Nat) (k : Kernel T S L C) :
    Option (T × Kernel T S L C) :=
  match k.readyList[pick]? with
  | none => none
  | some t => some (t, { k with readyList := k.readyList.eraseIdx pick })

/-- The current thread enters a frame that will outlive this turn. -/
def push (frame : Frame S L C) (k : Kernel T S L C) : Kernel T S L C :=
  k.setStack k.currentThread (frame :: k.stack k.currentThread)

/-- `Thread::Sleep` up to the head of its while loop. -/
def sleep (k : Kernel T S L C) : Kernel T S L C :=
  { k.setStatus k.currentThread .blocked with phase := .sleeping }

/-- `queue->Append((void*)currentThread); currentThread->Sleep();` in the
given frame. -/
def park (q : WaitQueue S L C) (frame : Frame S L C) (k : Kernel T S L C) :
    Kernel T S L C :=
  sleep ((k.setQueue q (k.queue q ++ [k.currentThread])).push frame)

/-- `thread = queue->Remove(); if (thread != NULL) ReadyToRun(thread);` -/
def wakeFirst (q : WaitQueue S L C) (k : Kernel T S L C) : Kernel T S L C :=
  match k.queue q with
  | [] => k
  | t :: rest => readyToRun t (k.setQueue q rest)

/-! ### synch.cc -/

/-- `value--`, which completes a `P`. -/
def takeUnit (s : S) (k : Kernel T S L C) : Kernel T S L C :=
  (k.setSemaphore s
    { k.semaphores s with value := (k.semaphores s).value - 1 }).note (.pDone s)

/-- The while loop of `Semaphore::P` and what follows it. -/
def pLoop (s : S) (oldLevel : IntStatus) (k : Kernel T S L C) :
    Kernel T S L C :=
  if (k.semaphores s).value = 0 then
    k.park (.semaphore s) (.inP s oldLevel)
  else
    setLevel oldLevel (k.takeUnit s)

/-- `Semaphore::P`. -/
def p (s : S) (k : Kernel T S L C) : Kernel T S L C :=
  pLoop s k.level (setLevel .intOff k)

/-- The body of `Semaphore::V`, interrupts being off. -/
def vBody (s : S) (k : Kernel T S L C) : Kernel T S L C :=
  let woken := k.wakeFirst (.semaphore s)
  (woken.setSemaphore s
    { woken.semaphores s with value := (woken.semaphores s).value + 1 }).note
      (.vDone s)

/-- `Semaphore::V`. -/
def v (s : S) (k : Kernel T S L C) : Kernel T S L C :=
  setLevel k.level (vBody s (setLevel .intOff k))

/-- `Lock::isHeldByCurrentThread`. -/
def isHeldByCurrentThread (l : L) (k : Kernel T S L C) : Prop :=
  (k.locks l).owner = some k.currentThread

instance (l : L) (k : Kernel T S L C) : Decidable (k.isHeldByCurrentThread l) :=
  inferInstanceAs (Decidable ((k.locks l).owner = some k.currentThread))

/-- The current thread returns from `Acquire`. -/
def enter (l : L) (k : Kernel T S L C) : Kernel T S L C :=
  k.note (.entered l k.currentThread)

/-- `owner = currentThread; acquired = true;` -/
def takeLock (l : L) (k : Kernel T S L C) : Kernel T S L C :=
  k.setLock l
    { k.locks l with owner := some k.currentThread, acquired := true }

/-- The body of `Lock::Acquire`, interrupts being off. -/
def acquireBody (l : L) (oldLevel : IntStatus) (k : Kernel T S L C) :
    Kernel T S L C :=
  if k.isHeldByCurrentThread l then
    setLevel oldLevel (k.enter l)
  else if (k.locks l).acquired then
    k.park (.lock l) (.inAcquire l oldLevel)
  else
    setLevel oldLevel ((k.takeLock l).enter l)

/-- `Lock::Acquire`. -/
def acquire (l : L) (k : Kernel T S L C) : Kernel T S L C :=
  acquireBody l k.level (setLevel .intOff k)

/-- The ownership part of `Lock::Release`: only the owner frees the lock. -/
def clearOwner (l : L) (k : Kernel T S L C) : Kernel T S L C :=
  if k.isHeldByCurrentThread l then
    k.setLock l { k.locks l with acquired := false, owner := none }
  else
    k

/-- The body of `Lock::Release`, interrupts being off.  The wake-up does not
depend on the ownership test. -/
def releaseBody (l : L) (k : Kernel T S L C) : Kernel T S L C :=
  ((k.note (.left l k.currentThread)).clearOwner l).wakeFirst (.lock l)

/-- `Lock::Release`. -/
def release (l : L) (k : Kernel T S L C) : Kernel T S L C :=
  setLevel k.level (releaseBody l (setLevel .intOff k))

/-- `waitQueue->Append((void*)currentThread); currentThread->Sleep();` -/
def parkWaiter (c : C) (l : L) (oldLevel : IntStatus) (k : Kernel T S L C) :
    Kernel T S L C :=
  (k.note (.waited c k.currentThread l)).park (.condition c)
    (.inWait c l oldLevel)

/-- `Condition::Wait` once the lock has been accepted: release, append,
sleep. -/
def waitOn (c : C) (l : L) (oldLevel : IntStatus) (k : Kernel T S L C) :
    Kernel T S L C :=
  parkWaiter c l oldLevel (release l k)

/-- `waitingLock = conditionLock;` -/
def bindLock (c : C) (l : L) (k : Kernel T S L C) : Kernel T S L C :=
  k.setCondition c { k.conditions c with waitingLock := some l }

/-- The body of `Condition::Wait`, interrupts being off. -/
def waitBody (c : C) (conditionLock : Option L) (oldLevel : IntStatus)
    (k : Kernel T S L C) : Kernel T S L C :=
  match conditionLock with
  | none => setLevel oldLevel k
  | some l =>
      if (k.conditions c).waitingLock = some l then
        waitOn c l oldLevel k
      else if (k.conditions c).waitingLock = none then
        waitOn c l oldLevel (k.bindLock c l)
      else
        setLevel oldLevel k

/-- `Condition::Wait`. -/
def wait (c : C) (conditionLock : Option L) (k : Kernel T S L C) :
    Kernel T S L C :=
  waitBody c conditionLock k.level (setLevel .intOff k)

/-- `thread = waitQueue->Remove(); ReadyToRun(thread);` -/
def wakeWaiter (c : C) (k : Kernel T S L C) : Kernel T S L C :=
  match (k.conditions c).waitQueue with
  | [] => k
  | t :: _ => (k.wakeFirst (.condition c)).note (.woken c t)

/-- The body of `Condition::Signal`, interrupts being off. -/
def signalBody (c : C) (conditionLock : Option L) (k : Kernel T S L C) :
    Kernel T S L C :=
  if (k.conditions c).waitQueue = [] then
    k
  else if (k.conditions c).waitingLock ≠ conditionLock then
    k
  else
    k.wakeWaiter c

/-- `Condition::Signal`. -/
def signal (c : C) (conditionLock : Option L) (k : Kernel T S L C) :
    Kernel T S L C :=
  setLevel k.level (signalBody c conditionLock (setLevel .intOff k))

/-- The while loop of `Condition::Broadcast`; the list is the queue at the
head of the loop, one element of which goes in each round. -/
def broadcastLoop (c : C) : List T → Kernel T S L C → Kernel T S L C
  | [], k => k
  | _ :: rest, k => broadcastLoop c rest (k.wakeWaiter c)

/-- `Condition::Broadcast`.  The lock argument is not looked at. -/
def broadcast (c : C) (_conditionLock : Option L) (k : Kernel T S L C) :
    Kernel T S L C :=
  let off := setLevel .intOff k
  setLevel k.level (broadcastLoop c (off.conditions c).waitQueue off)

/-! ### Continuing a thread -/

/-- Continue the current thread in a frame it has just come back to, the
interrupts being off. -/
def returnInto (frame : Frame S L C) (k : Kernel T S L C) : Kernel T S L C :=
  match frame with
  | .threadRoot => setLevel .intOn k
  | .inP s oldLevel => pLoop s oldLevel k
  -- nothing but the return is left after the `Sleep` of `Acquire`
  | .inAcquire l oldLevel => setLevel oldLevel (k.enter l)
  | .inWait c l oldLevel =>
      let inner := acquire l (k.push (.inReacquire c l oldLevel))
      if inner.phase = .running then
        setLevel oldLevel
          (inner.setStack inner.currentThread (k.stack k.currentThread))
      else
        inner
  | .inReacquire _ _ oldLevel => setLevel oldLevel k
  | .inYield oldLevel => setLevel oldLevel k
  | .inFinish => k

/-- Return through the given frames, the topmost first, until the stack is
used up or the thread stops in one of them. -/
def resume : List (Frame S L C) → Kernel T S L C → Kernel T S L C
  | [], k => k
  | frame :: rest, k =>
      let k' := returnInto frame (k.setStack k.currentThread rest)
      if k'.phase = .running then resume rest k' else k'

/-- `delete threadToBeDestroyed` in `Scheduler::Run`. -/
def deleteCarcass (k : Kernel T S L C) : Kernel T S L C :=
  match k.threadToBeDestroyed with
  | none => k
  | some t => ({ k with threadToBeDestroyed := none }).note (.deleted t)

/-- `Scheduler::Run` up to and including SWITCH. -/
def switch (nextThread : T) (k : Kernel T S L C) : Kernel T S L C :=
  (({ k with currentThread := nextThread, phase := .running }).setStatus
    nextThread .running).note (.dispatched nextThread)

/-- `Scheduler::Run`.  After SWITCH a new thread starts in `ThreadRoot`, and
only an old one gets to the rest of `Run`. -/
def run (nextThread : T) (k : Kernel T S L C) : Kernel T S L C :=
  match k.stack nextThread with
  | [.threadRoot] => resume [.threadRoot] (k.switch nextThread)
  | frames => resume frames (k.switch nextThread).deleteCarcass

/-- The body of `Thread::Yield`, interrupts being off. -/
def yieldBody (pick : Nat) (oldLevel : IntStatus) (k : Kernel T S L C) :
    Kernel T S L C :=
  match k.findNextToRun pick with
  | none => setLevel oldLevel k
  | some (next, k') =>
      run next ((readyToRun k'.currentThread k').push (.inYield oldLevel))

/-- `Thread::Yield`. -/
def yield (pick : Nat) (k : Kernel T S L C) : Kernel T S L C :=
  yieldBody pick k.level (setLevel .intOff k)

/-- The body of `Thread::Finish`, interrupts being off. -/
def finishBody (k : Kernel T S L C) : Kernel T S L C :=
  sleep (({ k with threadToBeDestroyed := some k.currentThread }).push
    .inFinish)

/-- `Thread::Finish`. -/
def finish (k : Kernel T S L C) : Kernel T S L C :=
  finishBody (setLevel .intOff k)

/-- `Thread::Fork` on a thread object `t`. -/
def fork (t : T) (k : Kernel T S L C) : Kernel T S L C :=
  let allocated := k.setStack t [.threadRoot]
  setLevel k.level (readyToRun t (setLevel .intOff allocated))

end Kernel

/-! ### Steps of the whole system -/

/-- The calls a thread can make. -/
inductive Op (T S L C : Type) where
  | p (s : S)
  | v (s : S)
  | acquire (l : L)
  | release (l : L)
  | wait (c : C) (conditionLock : Option L)
  | signal (c : C) (conditionLock : Option L)
  | broadcast (c : C) (conditionLock : Option L)
  | fork (t : T)
  | yield (pick : Nat)
  | finish
deriving DecidableEq, Repr

/-- What can happen next in the system. -/
inductive Action (T S L C : Type) where
  /-- the running thread calls a routine -/
  | call (op : Op T S L C)
  /-- an interrupt handler calls `V` -/
  | handlerV (s : S)
  /-- an interrupt handler calls `P` -/
  | handlerP (s : S)
  /-- `OneTick` returns without a time slice -/
  | endTick
  /-- the timer has asked for a context switch: `OneTick` calls `Yield` -/
  | timeSlice (pick : Nat)
  /-- the loop of `Sleep` finds a ready thread and runs it -/
  | dispatch (pick : Nat)
  /-- the loop of `Sleep` finds none and calls `Idle` -/
  | idle
  /-- `Idle` returns to the loop -/
  | endIdle
deriving DecidableEq, Repr

/-- Which ready threads may be chosen: the first one only, as the list of
scheduler.cc does, or any of them. -/
inductive Discipline where
  | fifo
  | anyReady
deriving DecidableEq, Repr

def Discipline.allows : Discipline → Nat → Bool
  | .fifo, pick => pick == 0
  | .anyReady, _ => true

variable {T S L C : Type}
variable [DecidableEq T] [DecidableEq S] [DecidableEq L] [DecidableEq C]

namespace Kernel

/-- Execute a call of the running thread. -/
def perform (op : Op T S L C) (k : Kernel T S L C) : Kernel T S L C :=
  match op with
  | .p s => k.p s
  | .v s => k.v s
  | .acquire l => k.acquire l
  | .release l => k.release l
  | .wait c conditionLock => k.wait c conditionLock
  | .signal c conditionLock => k.signal c conditionLock
  | .broadcast c conditionLock => k.broadcast c conditionLock
  | .fork t => k.fork t
  | .yield pick => k.yield pick
  | .finish => k.finish

/-- A thread object is forked at most once. -/
def Callable (d : Discipline) (op : Op T S L C) (k : Kernel T S L C) : Prop :=
  match op with
  | .fork t => k.status t = .justCreated
  | .yield pick => d.allows pick = true
  | _ => True

instance (d : Discipline) (op : Op T S L C) (k : Kernel T S L C) :
    Decidable (k.Callable d op) :=
  match op with
  | .fork t => inferInstanceAs (Decidable (k.status t = .justCreated))
  | .yield pick => inferInstanceAs (Decidable (d.allows pick = true))
  | .p _ | .v _ | .acquire _ | .release _ | .wait _ _ | .signal _ _
  | .broadcast _ _ | .finish => inferInstanceAs (Decidable True)

/-- One step.  Handlers run in `OneTick` and in `Idle`; a handler must not
sleep, so it may call `P` only while the value is not zero. -/
def step (d : Discipline) (k : Kernel T S L C) :
    Action T S L C → Option (Kernel T S L C)
  | .call op =>
      if k.phase = .running ∧ k.Callable d op then some (k.perform op)
      else none
  | .handlerV s =>
      if k.phase = .oneTick ∨ k.phase = .idle then some (k.v s) else none
  | .handlerP s =>
      if (k.phase = .oneTick ∨ k.phase = .idle) ∧
          (k.semaphores s).value ≠ 0 then some (k.p s)
      else none
  | .endTick =>
      if k.phase = .oneTick then
        some (resume (k.stack k.currentThread)
          { k with level := .intOn, phase := .running })
      else none
  | .timeSlice pick =>
      if k.phase = .oneTick ∧ d.allows pick = true then
        some (({ k with level := .intOn, phase := .running }).yield pick)
      else none
  | .dispatch pick =>
      if k.phase = .sleeping ∧ d.allows pick = true then
        (k.findNextToRun pick).map fun (next, k') => run next k'
      else none
  | .idle =>
      if k.phase = .sleeping ∧ k.readyList = [] then
        some { k with phase := .idle }
      else none
  | .endIdle =>
      if k.phase = .idle then some { k with phase := .sleeping } else none

/-- The system when `main` starts: one running thread, every object freshly
constructed in memory with the given contents. -/
def boot (main : T) (initialValue : S → Int) (lockMemory : L → Lock T)
    (conditionMemory : C → Condition T L) : Kernel T S L C where
  currentThread := main
  readyList := []
  status := Function.update (fun _ => .justCreated) main .running
  stack := fun _ => []
  semaphores := fun s => .construct (initialValue s)
  locks := fun l => (lockMemory l).construct
  conditions := fun c => (conditionMemory c).construct
  level := .intOn
  phase := .running
  threadToBeDestroyed := none
  log := []

end Kernel

/-- The thread system as a machine. -/
def kernelMachine (d : Discipline) :
    Lib.Machine (Kernel T S L C) (Action T S L C) where
  step := Kernel.step d

end Nachos
