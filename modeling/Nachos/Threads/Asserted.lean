/-
Module: Nachos.Threads.Asserted
Purpose: The thread system with the interrupt level under watch.  The routines
  are those of the kernel with their ASSERTs on the level, and besides them
  three things the code does not test: `Scheduler::Run` is called with
  interrupts off, a handler leaves them off, and a routine called by another
  one returns with the level it was called at.  Where a test fails there is no
  result.  Threads may also set the level on their own, so that every routine
  can be called at either level.
Trusted boundary: none
Main exports: Asserted.step, LevelAction, Levelled, levelMachine,
  assertedMachine
-/
import Nachos.Threads.Kernel

namespace Nachos

variable {T S L C : Type}
variable [DecidableEq T] [DecidableEq S] [DecidableEq L] [DecidableEq C]

/-- The level that the routine of a frame has saved to restore. -/
def Frame.oldLevel : Frame S L C → Option IntStatus
  | .threadRoot | .inFinish => none
  | .inP _ oldLevel | .inAcquire _ oldLevel | .inYield oldLevel => some oldLevel
  | .inWait _ _ oldLevel | .inReacquire _ _ oldLevel => some oldLevel

namespace Asserted

/-- `ASSERT`, the result being what the program goes on with. -/
def assert {α : Type} (condition : Prop) [Decidable condition] (result : α) :
    Option α :=
  if condition then some result else none

/-! ### The routines with their assertions -/

/-- `Interrupt::SetLevel`, called by a handler or by a thread. -/
def setLevel (inHandler : Bool) (now : IntStatus) (k : Kernel T S L C) :
    Option (Kernel T S L C) :=
  assert (now = .intOff ∨ inHandler = false) (k.setLevel now)

/-- `Thread::Sleep`. -/
def sleep (k : Kernel T S L C) : Option (Kernel T S L C) :=
  assert (k.level = .intOff) k.sleep

/-- A routine called at `callLevel` by another one comes back to it. -/
def returned (callLevel : IntStatus) (k : Kernel T S L C) :
    Option (Kernel T S L C) :=
  assert (k.level = callLevel) k

def park (q : WaitQueue S L C) (frame : Frame S L C) (k : Kernel T S L C) :
    Option (Kernel T S L C) :=
  sleep ((k.setQueue q (k.queue q ++ [k.currentThread])).push frame)

def pLoop (inHandler : Bool) (s : S) (oldLevel : IntStatus)
    (k : Kernel T S L C) : Option (Kernel T S L C) :=
  if (k.semaphores s).value = 0 then
    park (.semaphore s) (.inP s oldLevel) k
  else
    setLevel inHandler oldLevel (k.takeUnit s)

/-- `Semaphore::P`. -/
def p (inHandler : Bool) (s : S) (k : Kernel T S L C) :
    Option (Kernel T S L C) := do
  let off ← setLevel inHandler .intOff k
  pLoop inHandler s k.level off

/-- The routines that work with interrupts off and then restore the level. -/
def restoring (inHandler : Bool) (body : Kernel T S L C → Kernel T S L C)
    (k : Kernel T S L C) : Option (Kernel T S L C) := do
  let off ← setLevel inHandler .intOff k
  setLevel inHandler k.level (body off)

/-- `Semaphore::V`. -/
def v (inHandler : Bool) (s : S) (k : Kernel T S L C) :
    Option (Kernel T S L C) :=
  restoring inHandler (Kernel.vBody s) k

def acquireBody (l : L) (oldLevel : IntStatus) (k : Kernel T S L C) :
    Option (Kernel T S L C) :=
  if k.isHeldByCurrentThread l then
    setLevel false oldLevel (k.enter l)
  else if (k.locks l).acquired then
    park (.lock l) (.inAcquire l oldLevel) k
  else
    setLevel false oldLevel ((k.takeLock l).enter l)

/-- `Lock::Acquire`. -/
def acquire (l : L) (k : Kernel T S L C) : Option (Kernel T S L C) := do
  let off ← setLevel false .intOff k
  acquireBody l k.level off

/-- `Lock::Release`. -/
def release (l : L) (k : Kernel T S L C) : Option (Kernel T S L C) :=
  restoring false (Kernel.releaseBody l) k

/-- `Condition::Wait` once the lock has been accepted; its call of `Release`
has to come back at the level of the call. -/
def waitOn (c : C) (l : L) (oldLevel : IntStatus) (k : Kernel T S L C) :
    Option (Kernel T S L C) := do
  let inner ← release l k
  let back ← returned k.level inner
  park (.condition c) (.inWait c l oldLevel)
    (back.note (.waited c back.currentThread l))

def waitBody (c : C) (conditionLock : Option L) (oldLevel : IntStatus)
    (k : Kernel T S L C) : Option (Kernel T S L C) :=
  match conditionLock with
  | none => setLevel false oldLevel k
  | some l =>
      if (k.conditions c).waitingLock = some l then
        waitOn c l oldLevel k
      else if (k.conditions c).waitingLock = none then
        waitOn c l oldLevel (k.bindLock c l)
      else
        setLevel false oldLevel k

/-- `Condition::Wait`. -/
def wait (c : C) (conditionLock : Option L) (k : Kernel T S L C) :
    Option (Kernel T S L C) := do
  let off ← setLevel false .intOff k
  waitBody c conditionLock k.level off

/-- `Condition::Signal`. -/
def signal (c : C) (conditionLock : Option L) (k : Kernel T S L C) :
    Option (Kernel T S L C) :=
  restoring false (Kernel.signalBody c conditionLock) k

/-- `Condition::Broadcast`. -/
def broadcast (c : C) (_conditionLock : Option L) (k : Kernel T S L C) :
    Option (Kernel T S L C) :=
  restoring false
    (fun off => Kernel.broadcastLoop c (off.conditions c).waitQueue off) k

/-- Continue in a frame; the `Acquire` at the end of `Wait` has to come back at
the level of the call. -/
def returnInto (frame : Frame S L C) (k : Kernel T S L C) :
    Option (Kernel T S L C) :=
  match frame with
  | .threadRoot => setLevel false .intOn k
  | .inP s oldLevel => pLoop false s oldLevel k
  | .inAcquire l oldLevel => setLevel false oldLevel (k.enter l)
  | .inWait c l oldLevel => do
      let inner ← acquire l (k.push (.inReacquire c l oldLevel))
      if inner.phase = .running then
        let back ← returned k.level inner
        setLevel false oldLevel
          (back.setStack back.currentThread (k.stack k.currentThread))
      else
        some inner
  | .inReacquire _ _ oldLevel => setLevel false oldLevel k
  | .inYield oldLevel => setLevel false oldLevel k
  | .inFinish => some k

/-- Return through the frames; each routine has to come back at the level it
has saved. -/
def resume : List (Frame S L C) → Kernel T S L C → Option (Kernel T S L C)
  | [], k => some k
  | frame :: rest, k => do
      let k' ← returnInto frame (k.setStack k.currentThread rest)
      if k'.phase = .running then
        let back ← returned (frame.oldLevel.getD k'.level) k'
        resume rest back
      else
        some k'

/-- `Scheduler::Run`, to be called with interrupts off. -/
def run (nextThread : T) (k : Kernel T S L C) : Option (Kernel T S L C) := do
  let off ← assert (k.level = .intOff) k
  match off.stack nextThread with
  | [.threadRoot] => resume [.threadRoot] (off.switch nextThread)
  | frames => resume frames (off.switch nextThread).deleteCarcass

def yieldBody (pick : Nat) (oldLevel : IntStatus) (k : Kernel T S L C) :
    Option (Kernel T S L C) :=
  match k.findNextToRun pick with
  | none => setLevel false oldLevel k
  | some (next, k') =>
      run next ((Kernel.readyToRun k'.currentThread k').push (.inYield oldLevel))

/-- `Thread::Yield`. -/
def yield (pick : Nat) (k : Kernel T S L C) : Option (Kernel T S L C) := do
  let off ← setLevel false .intOff k
  yieldBody pick k.level off

/-- `Thread::Finish`. -/
def finish (k : Kernel T S L C) : Option (Kernel T S L C) := do
  let off ← setLevel false .intOff k
  sleep (({ off with threadToBeDestroyed := some off.currentThread }).push
    .inFinish)

/-- `Thread::Fork`. -/
def fork (t : T) (k : Kernel T S L C) : Option (Kernel T S L C) :=
  restoring false (Kernel.readyToRun t) (k.setStack t [.threadRoot])

/-! ### Steps of the whole system -/

def perform (op : Op T S L C) (k : Kernel T S L C) : Option (Kernel T S L C) :=
  match op with
  | .p s => p false s k
  | .v s => v false s k
  | .acquire l => acquire l k
  | .release l => release l k
  | .wait c conditionLock => wait c conditionLock k
  | .signal c conditionLock => signal c conditionLock k
  | .broadcast c conditionLock => broadcast c conditionLock k
  | .fork t => fork t k
  | .yield pick => yield pick k
  | .finish => finish k

/-- `CheckIfDue` calls a handler: interrupts are off before and after it. -/
def handle (handler : Kernel T S L C → Option (Kernel T S L C))
    (k : Kernel T S L C) : Option (Kernel T S L C) := do
  let due ← assert (k.level = .intOff) k
  let handled ← handler due
  assert (handled.level = .intOff) handled

/-- One step, as in the kernel.  `OneTick` and `Idle` end after a call of
`CheckIfDue`, which asserts that interrupts are off. -/
def step (d : Discipline) (k : Kernel T S L C) :
    Action T S L C → Option (Kernel T S L C)
  | .call op =>
      if k.phase = .running ∧ k.Callable d op then perform op k else none
  | .handlerV s =>
      if k.phase = .oneTick ∨ k.phase = .idle then handle (v true s) k else none
  | .handlerP s =>
      if (k.phase = .oneTick ∨ k.phase = .idle) ∧
          (k.semaphores s).value ≠ 0 then handle (p true s) k
      else none
  | .endTick =>
      if k.phase = .oneTick then do
        let due ← assert (k.level = .intOff) k
        resume (due.stack due.currentThread)
          { due with level := .intOn, phase := .running }
      else none
  | .timeSlice pick =>
      if k.phase = .oneTick ∧ d.allows pick = true then do
        let due ← assert (k.level = .intOff) k
        yield pick { due with level := .intOn, phase := .running }
      else none
  | .dispatch pick =>
      if k.phase = .sleeping ∧ d.allows pick = true then
        (k.findNextToRun pick).bind fun (next, k') => run next k'
      else none
  | .idle =>
      if k.phase = .sleeping ∧ k.readyList = [] then
        assert (k.level = .intOff) { k with phase := .idle }
      else none
  | .endIdle =>
      if k.phase = .idle then
        assert (k.level = .intOff) { k with phase := .sleeping }
      else none

end Asserted

/-- What can happen in a system whose threads also set the level. -/
inductive LevelAction (T S L C : Type) where
  | act (action : Action T S L C)
  /-- the code of the running thread calls `SetLevel` -/
  | setLevel (now : IntStatus)
  /-- a user instruction is executed, with interrupts on, and `OneTick` called -/
  | userTick
deriving DecidableEq, Repr

/-- A system with the level that the code of each thread has asked for.
Nothing but a `SetLevel` of the thread itself changes that. -/
structure Levelled (T S L C : Type) where
  kernel : Kernel T S L C
  ownLevel : T → IntStatus

namespace Levelled

/-- The system when `main` starts, and every thread as it will start. -/
def boot (main : T) (initialValue : S → Int) (lockMemory : L → Lock T)
    (conditionMemory : C → Condition T L) : Levelled T S L C where
  kernel := .boot main initialValue lockMemory conditionMemory
  ownLevel := fun _ => .intOn

/-- One step, given how the kernel performs its actions and `SetLevel`. -/
def stepWith (act : Kernel T S L C → Action T S L C → Option (Kernel T S L C))
    (set : IntStatus → Kernel T S L C → Option (Kernel T S L C))
    (s : Levelled T S L C) : LevelAction T S L C → Option (Levelled T S L C)
  | .act action => (act s.kernel action).map fun k => { s with kernel := k }
  | .setLevel now =>
      if s.kernel.phase = .running then
        (set now s.kernel).map fun k =>
          { kernel := k
            ownLevel := Function.update s.ownLevel s.kernel.currentThread now }
      else none
  | .userTick =>
      if s.kernel.phase = .running ∧ s.kernel.level = .intOn then
        some { s with kernel := s.kernel.oneTick }
      else none

end Levelled

/-- The thread system, its threads setting the level at will. -/
def levelMachine (d : Discipline) :
    Lib.Machine (Levelled T S L C) (LevelAction T S L C) where
  step := Levelled.stepWith (Kernel.step d) fun now k => some (k.setLevel now)

/-- The same with every test of the level made. -/
def assertedMachine (d : Discipline) :
    Lib.Machine (Levelled T S L C) (LevelAction T S L C) where
  step := Levelled.stepWith (Asserted.step d) (Asserted.setLevel false)

end Nachos
