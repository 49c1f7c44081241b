/-
Module: Nachos.Threads.Turn
Purpose: What one step of the thread system can do.  A step that gives the
  CPU to a thread, or lets the running thread call a routine, is a turn: from
  a base state with interrupts off the thread works until it turns them on
  again or sleeps.  `step_effect` lists every turn with its exact result, so
  that later invariants are case analyses and never unfold a routine.
Trusted boundary: none
Main exports: Kernel.Shaped, Cause, Turn, Base, Effect, step_effect
-/
import Nachos.Threads.Kernel

namespace Nachos

variable {T S L C : Type}
variable [DecidableEq T] [DecidableEq S] [DecidableEq L] [DecidableEq C]

namespace Kernel

/-! ### Fields under the small updates -/

section

omit [DecidableEq T] [DecidableEq S] [DecidableEq L] [DecidableEq C]

/-- The queues are those of the semaphores, the locks and the conditions. -/
theorem queue_congr {k k' : Kernel T S L C} (semaphores : k'.semaphores = k.semaphores)
    (locks : k'.locks = k.locks) (conditions : k'.conditions = k.conditions) :
    k'.queue = k.queue := by
  funext q
  cases q with
  | semaphore s => exact congrArg Semaphore.queue (congrFun semaphores s)
  | lock l => exact congrArg Lock.queue (congrFun locks l)
  | condition c => exact congrArg Condition.waitQueue (congrFun conditions c)

@[simp] theorem queue_note (e : Event T S L C) (k : Kernel T S L C) :
    (k.note e).queue = k.queue :=
  queue_congr rfl rfl rfl

end

section

omit [DecidableEq S] [DecidableEq L] [DecidableEq C]

@[simp] theorem queue_setStatus (t : T) (st : ThreadStatus)
    (k : Kernel T S L C) : (k.setStatus t st).queue = k.queue :=
  queue_congr rfl rfl rfl

@[simp] theorem queue_setStack (t : T)
    (frames : List (Frame S L C)) (k : Kernel T S L C) :
    (k.setStack t frames).queue = k.queue :=
  queue_congr rfl rfl rfl

end

omit [DecidableEq T] [DecidableEq S] [DecidableEq L] [DecidableEq C] in
@[simp] theorem queue_oneTick (k : Kernel T S L C) :
    k.oneTick.queue = k.queue :=
  queue_congr rfl rfl rfl

section SetQueue

variable (q : WaitQueue S L C) (threads : List T) (k : Kernel T S L C)

omit [DecidableEq T]

theorem queue_setQueue (q' : WaitQueue S L C) :
    (k.setQueue q threads).queue q' =
      if q' = q then threads else k.queue q' := by
  cases q <;> cases q' <;>
    simp only [setQueue, queue, setSemaphore_semaphores, setLock_locks,
      setCondition_conditions, setSemaphore_locks, setSemaphore_conditions,
      setLock_semaphores, setLock_conditions, setCondition_semaphores,
      setCondition_locks, Function.update_apply, reduceCtorEq, if_false,
      WaitQueue.semaphore.injEq, WaitQueue.lock.injEq,
      WaitQueue.condition.injEq] <;>
    split <;> rfl

@[simp] theorem setQueue_currentThread :
    (k.setQueue q threads).currentThread = k.currentThread := by
  cases q <;> rfl

@[simp] theorem setQueue_readyList :
    (k.setQueue q threads).readyList = k.readyList := by
  cases q <;> rfl

@[simp] theorem setQueue_status : (k.setQueue q threads).status = k.status := by
  cases q <;> rfl

@[simp] theorem setQueue_stack : (k.setQueue q threads).stack = k.stack := by
  cases q <;> rfl

@[simp] theorem setQueue_level : (k.setQueue q threads).level = k.level := by
  cases q <;> rfl

@[simp] theorem setQueue_phase : (k.setQueue q threads).phase = k.phase := by
  cases q <;> rfl

@[simp] theorem setQueue_threadToBeDestroyed :
    (k.setQueue q threads).threadToBeDestroyed = k.threadToBeDestroyed := by
  cases q <;> rfl

@[simp] theorem setQueue_log : (k.setQueue q threads).log = k.log := by
  cases q <;> rfl

@[simp] theorem setQueue_value (s : S) :
    ((k.setQueue q threads).semaphores s).value = (k.semaphores s).value := by
  cases q <;> simp only [setQueue, setSemaphore_semaphores,
    setLock_semaphores, setCondition_semaphores, Function.update_apply]
  split <;> simp_all

@[simp] theorem setQueue_acquired (l : L) :
    ((k.setQueue q threads).locks l).acquired = (k.locks l).acquired := by
  cases q <;> simp only [setQueue, setSemaphore_locks, setLock_locks,
    setCondition_locks, Function.update_apply]
  split <;> simp_all

@[simp] theorem setQueue_owner (l : L) :
    ((k.setQueue q threads).locks l).owner = (k.locks l).owner := by
  cases q <;> simp only [setQueue, setSemaphore_locks, setLock_locks,
    setCondition_locks, Function.update_apply]
  split <;> simp_all

@[simp] theorem setQueue_waitingLock (c : C) :
    ((k.setQueue q threads).conditions c).waitingLock =
      (k.conditions c).waitingLock := by
  cases q <;> simp only [setQueue, setSemaphore_conditions,
    setLock_conditions, setCondition_conditions, Function.update_apply]
  split <;> simp_all

theorem setQueue_semaphores {q : WaitQueue S L C} {s : S}
    (other : q ≠ .semaphore s) :
    (k.setQueue q threads).semaphores s = k.semaphores s := by
  cases q with
  | semaphore s' =>
      have different : s ≠ s' := fun same => other (same ▸ rfl)
      simp [setQueue, different]
  | lock l => rfl
  | condition c => rfl

theorem setQueue_locks {q : WaitQueue S L C} {l : L} (other : q ≠ .lock l) :
    (k.setQueue q threads).locks l = k.locks l := by
  cases q with
  | semaphore s => rfl
  | lock l' =>
      have different : l ≠ l' := fun same => other (same ▸ rfl)
      simp [setQueue, different]
  | condition c => rfl

theorem setQueue_conditions {q : WaitQueue S L C} {c : C}
    (other : q ≠ .condition c) :
    (k.setQueue q threads).conditions c = k.conditions c := by
  cases q with
  | semaphore s => rfl
  | lock l => rfl
  | condition c' =>
      have different : c ≠ c' := fun same => other (same ▸ rfl)
      simp [setQueue, different]

end SetQueue

/-! ### Interrupt level -/

/-- `SetLevel(IntOff)`, which never ticks. -/
@[simps] def disable (k : Kernel T S L C) : Kernel T S L C :=
  { k with level := .intOff }

section

omit [DecidableEq T] [DecidableEq S] [DecidableEq L] [DecidableEq C]

@[simp] theorem queue_disable (k : Kernel T S L C) :
    k.disable.queue = k.queue :=
  queue_congr rfl rfl rfl

theorem setLevel_intOff (k : Kernel T S L C) :
    setLevel .intOff k = k.disable := by
  simp [setLevel, disable]

/-- Turning interrupts on from off is where other threads get a chance. -/
theorem setLevel_intOn {k : Kernel T S L C} (off : k.level = .intOff) :
    setLevel .intOn k = k.oneTick := by
  simp [setLevel, oneTick, off]

theorem disable_of_off {k : Kernel T S L C} (off : k.level = .intOff) :
    k.disable = k := by
  cases k
  cases off
  rfl

end

/-! ### Shapes of suspended stacks -/

/-- The stacks with which a thread can be waiting for the CPU or for a
wake-up.  Only the outermost routine was called with interrupts on. -/
inductive Suspended : List (Frame S L C) → Prop where
  | root : Suspended [.threadRoot]
  | p (s : S) : Suspended [.inP s .intOn]
  | acquire (l : L) : Suspended [.inAcquire l .intOn]
  | wait (c : C) (l : L) : Suspended [.inWait c l .intOn]
  | reacquire (c : C) (l : L) :
      Suspended [.inAcquire l .intOff, .inReacquire c l .intOn]
  | yield : Suspended [.inYield .intOn]

/-- The interrupt level and the stacks are as they are between two steps. -/
structure Shaped (k : Kernel T S L C) : Prop where
  level : k.level = if k.phase = .running then .intOn else .intOff
  current : k.phase = .running ∨ k.phase = .oneTick →
    k.stack k.currentThread = []
  ready : ∀ t ∈ k.readyList, Suspended (k.stack t)

/-- A state from which the current thread takes a turn. -/
structure Poised (k : Kernel T S L C) : Prop where
  level : k.level = .intOff
  phase : k.phase = .running
  stack : k.stack k.currentThread = []

/-- A `Wait` under `l` is accepted. -/
def Accepts (c : C) (l : L) (k : Kernel T S L C) : Prop :=
  (k.conditions c).waitingLock = some l ∨ (k.conditions c).waitingLock = none

instance (c : C) (l : L) (k : Kernel T S L C) : Decidable (k.Accepts c l) :=
  inferInstanceAs (Decidable (_ ∨ _))

end Kernel

open Kernel

/-- Why a thread takes a turn: it calls a routine, or it comes back to the
frames it was suspended with. -/
inductive Cause (T S L C : Type) where
  | call (op : Op T S L C)
  | back (frames : List (Frame S L C))

/-- `l->Acquire` is what the turn begins with. -/
inductive Cause.Acquires (l : L) : Cause T S L C → Prop where
  | call : Cause.Acquires l (.call (.acquire l))
  | back (c : C) : Cause.Acquires l (.back [.inWait c l .intOn])

/-- The thread comes back from its `Sleep` in `l->Acquire`. -/
inductive Cause.Returns (l : L) : Cause T S L C → Prop where
  | acquire : Cause.Returns l (.back [.inAcquire l .intOn])
  | reacquire (c : C) :
      Cause.Returns l (.back [.inAcquire l .intOff, .inReacquire c l .intOn])

/-- The test of the while loop in `P` is what the turn begins with. -/
inductive Cause.Tests (s : S) : Cause T S L C → Prop where
  | call : Cause.Tests s (.call (.p s))
  | back : Cause.Tests s (.back [.inP s .intOn])

/-- Everything the current thread of a poised state can do until it turns
interrupts on again or sleeps. -/
inductive Turn (k : Kernel T S L C) : Cause T S L C → Kernel T S L C → Prop where
  | root : Turn k (.back [.threadRoot]) k.oneTick
  | yielded : Turn k (.back [.inYield .intOn]) k.oneTick
  | alone (pick : Nat) (none : k.readyList[pick]? = none) :
      Turn k (.call (.yield pick)) k.oneTick
  | takeUnit {cause : Cause T S L C} (s : S) (tests : cause.Tests s)
      (value : (k.semaphores s).value ≠ 0) :
      Turn k cause (k.takeUnit s).oneTick
  | parkUnit {cause : Cause T S L C} (s : S) (tests : cause.Tests s)
      (value : (k.semaphores s).value = 0) :
      Turn k cause (k.park (.semaphore s) (.inP s .intOn))
  | v (s : S) : Turn k (.call (.v s)) (k.vBody s).oneTick
  | held {cause : Cause T S L C} (l : L) (acquires : cause.Acquires l)
      (held : k.isHeldByCurrentThread l) :
      Turn k cause (k.enter l).oneTick
  | takeLock {cause : Cause T S L C} (l : L) (acquires : cause.Acquires l)
      (foreign : ¬ k.isHeldByCurrentThread l)
      (free : (k.locks l).acquired = false) :
      Turn k cause ((k.takeLock l).enter l).oneTick
  | parkLock (l : L) (foreign : ¬ k.isHeldByCurrentThread l)
      (busy : (k.locks l).acquired = true) :
      Turn k (.call (.acquire l)) (k.park (.lock l) (.inAcquire l .intOn))
  | parkRelock (c : C) (l : L) (foreign : ¬ k.isHeldByCurrentThread l)
      (busy : (k.locks l).acquired = true) :
      Turn k (.back [.inWait c l .intOn])
        ((k.push (.inReacquire c l .intOn)).park (.lock l)
          (.inAcquire l .intOff))
  | returned {cause : Cause T S L C} (l : L) (returns : cause.Returns l) :
      Turn k cause (k.enter l).oneTick
  | release (l : L) : Turn k (.call (.release l)) (k.releaseBody l).oneTick
  | skipWait (c : C) (conditionLock : Option L)
      (rejected : ∀ l, conditionLock = some l → ¬ k.Accepts c l) :
      Turn k (.call (.wait c conditionLock)) k.oneTick
  | parkWait (c : C) (l : L) (accepted : k.Accepts c l) :
      Turn k (.call (.wait c (some l)))
        (((k.bindLock c l).releaseBody l).parkWaiter c l .intOn)
  | signal (c : C) (conditionLock : Option L) :
      Turn k (.call (.signal c conditionLock))
        (k.signalBody c conditionLock).oneTick
  | broadcast (c : C) (conditionLock : Option L) :
      Turn k (.call (.broadcast c conditionLock))
        (broadcastLoop c (k.conditions c).waitQueue k).oneTick
  | fork (t : T) (fresh : k.status t = .justCreated) :
      Turn k (.call (.fork t))
        (readyToRun t (k.setStack t [.threadRoot])).oneTick
  | finish : Turn k (.call .finish) k.finishBody

namespace Kernel

/-- The state in which the thread given the CPU begins its turn. -/
def turnBase (next : T) (k : Kernel T S L C) : Kernel T S L C :=
  (if k.stack next = [.threadRoot] then k.switch next
    else (k.switch next).deleteCarcass).setStack next []

/-- The state in which a yielding thread has put itself on the ready list,
`rest` being what `FindNextToRun` has left there. -/
def yieldBase (rest : List T) (k : Kernel T S L C) : Kernel T S L C :=
  (readyToRun k.currentThread { k with readyList := rest }).push
    (.inYield .intOn)

end Kernel

/-- The ways a turn can come about, with its cause and the state it begins
in. -/
inductive Base (d : Discipline) (k : Kernel T S L C) :
    Action T S L C → Cause T S L C → Kernel T S L C → Prop where
  | call (op : Op T S L C) (running : k.phase = .running)
      (callable : k.Callable d op) :
      Base d k (.call op) (.call op) k.disable
  /-- `Yield` in a time slice finds nobody else -/
  | alone (pick : Nat) (ticking : k.phase = .oneTick)
      (allowed : d.allows pick = true) :
      Base d k (.timeSlice pick) (.call (.yield pick))
        { k with phase := .running }
  | dispatch (pick : Nat) (next : T) (asleep : k.phase = .sleeping)
      (allowed : d.allows pick = true)
      (chosen : k.readyList[pick]? = some next) :
      Base d k (.dispatch pick) (.back (k.stack next))
        (turnBase next { k with readyList := k.readyList.eraseIdx pick })
  | yield (pick : Nat) (next : T) {action : Action T S L C}
      (yields : (action = .call (.yield pick) ∧ k.phase = .running) ∨
        (action = .timeSlice pick ∧ k.phase = .oneTick))
      (allowed : d.allows pick = true)
      (chosen : k.readyList[pick]? = some next) :
      Base d k action (.back (k.stack next))
        (turnBase next
          (k.disable.yieldBase (k.readyList.eraseIdx pick)))

/-- Everything a step can do. -/
inductive Effect (d : Discipline) (k : Kernel T S L C) :
    Action T S L C → Kernel T S L C → Prop where
  | turn {action : Action T S L C} {cause : Cause T S L C}
      {base k' : Kernel T S L C} (begins : Base d k action cause base)
      (poised : base.Poised) (turn : Turn base cause k') :
      Effect d k action k'
  | handlerV (s : S) (handling : k.phase = .oneTick ∨ k.phase = .idle) :
      Effect d k (.handlerV s) (k.vBody s)
  | handlerP (s : S) (handling : k.phase = .oneTick ∨ k.phase = .idle)
      (value : (k.semaphores s).value ≠ 0) :
      Effect d k (.handlerP s) (k.takeUnit s)
  | endTick (ticking : k.phase = .oneTick) :
      Effect d k .endTick { k with level := .intOn, phase := .running }
  | idle (asleep : k.phase = .sleeping) (nobody : k.readyList = []) :
      Effect d k .idle { k with phase := .idle }
  | endIdle (idle : k.phase = .idle) :
      Effect d k .endIdle { k with phase := .sleeping }

/-! ### Every step is one of these -/

namespace Kernel

private theorem resume_singleton (frame : Frame S L C) (k : Kernel T S L C) :
    resume [frame] k = returnInto frame (k.setStack k.currentThread []) := by
  simp [resume]

omit [DecidableEq S] [DecidableEq L] [DecidableEq C] in
/-- Leaving a frame that was just entered changes nothing. -/
theorem setStack_push (frame : Frame S L C) (k : Kernel T S L C) :
    (k.push frame).setStack k.currentThread (k.stack k.currentThread) = k := by
  simp [setStack, push]

theorem release_of_off {k : Kernel T S L C} (l : L) (off : k.level = .intOff) :
    (k.release l) = (k.releaseBody l).disable := by
  rw [release, off, setLevel_intOff, setLevel_intOff, disable_of_off off]

@[simp] theorem wakeFirst_level (q : WaitQueue S L C) (k : Kernel T S L C) :
    (k.wakeFirst q).level = k.level := by
  unfold wakeFirst
  split <;> simp [readyToRun]

@[simp] theorem wakeFirst_phase (q : WaitQueue S L C) (k : Kernel T S L C) :
    (k.wakeFirst q).phase = k.phase := by
  unfold wakeFirst
  split <;> simp [readyToRun]

@[simp] theorem wakeFirst_currentThread (q : WaitQueue S L C)
    (k : Kernel T S L C) :
    (k.wakeFirst q).currentThread = k.currentThread := by
  unfold wakeFirst
  split <;> simp [readyToRun]

@[simp] theorem wakeFirst_stack (q : WaitQueue S L C) (k : Kernel T S L C) :
    (k.wakeFirst q).stack = k.stack := by
  unfold wakeFirst
  split
  · rfl
  · funext t
    simp [readyToRun]

theorem wakeFirst_semaphores {q : WaitQueue S L C} {s : S}
    (k : Kernel T S L C) (other : q ≠ .semaphore s) :
    (k.wakeFirst q).semaphores s = k.semaphores s := by
  unfold wakeFirst
  split
  · rfl
  · exact setQueue_semaphores _ k other

theorem wakeFirst_locks {q : WaitQueue S L C} {l : L}
    (k : Kernel T S L C) (other : q ≠ .lock l) :
    (k.wakeFirst q).locks l = k.locks l := by
  unfold wakeFirst
  split
  · rfl
  · exact setQueue_locks _ k other

theorem wakeFirst_conditions {q : WaitQueue S L C} {c : C}
    (k : Kernel T S L C) (other : q ≠ .condition c) :
    (k.wakeFirst q).conditions c = k.conditions c := by
  unfold wakeFirst
  split
  · rfl
  · exact setQueue_conditions _ k other

/-- Waking adds nothing to the log but the `ReadyToRun`. -/
theorem wakeFirst_count {e : Event T S L C} (q : WaitQueue S L C)
    (k : Kernel T S L C) (silent : ∀ t, e ≠ .readied t) :
    (k.wakeFirst q).log.count e = k.log.count e := by
  unfold wakeFirst
  split
  · rfl
  · simp [readyToRun, (silent _).symm]

omit [DecidableEq S] [DecidableEq C] in
theorem clearOwner_eq_self {k : Kernel T S L C} {l : L}
    (foreign : ¬ k.isHeldByCurrentThread l) : k.clearOwner l = k := by
  simp [clearOwner, foreign]

@[simp] theorem releaseBody_level (l : L) (k : Kernel T S L C) :
    (k.releaseBody l).level = k.level := by
  unfold releaseBody clearOwner
  split <;> simp

@[simp] theorem releaseBody_phase (l : L) (k : Kernel T S L C) :
    (k.releaseBody l).phase = k.phase := by
  unfold releaseBody clearOwner
  split <;> simp

@[simp] theorem releaseBody_currentThread (l : L) (k : Kernel T S L C) :
    (k.releaseBody l).currentThread = k.currentThread := by
  unfold releaseBody clearOwner
  split <;> simp

@[simp] theorem releaseBody_stack (l : L) (k : Kernel T S L C) (t : T) :
    (k.releaseBody l).stack t = k.stack t := by
  unfold releaseBody clearOwner
  split <;> simp

/-- The release inside `Wait` happens with interrupts off and leaves them
off. -/
theorem waitOn_eq {k : Kernel T S L C} (c : C) (l : L) (oldLevel : IntStatus)
    (off : k.level = .intOff) :
    k.waitOn c l oldLevel = (k.releaseBody l).parkWaiter c l oldLevel := by
  rw [waitOn, release_of_off l off, disable_of_off]
  rw [releaseBody_level, off]

omit [DecidableEq T] [DecidableEq S] [DecidableEq L] in
theorem bindLock_eq_self {k : Kernel T S L C} {c : C} {l : L}
    (bound : (k.conditions c).waitingLock = some l) : k.bindLock c l = k := by
  simp [bindLock, setCondition, ← bound]

/-- The part of a turn that starts with the test in `P`. -/
private theorem pLoop_turn {k : Kernel T S L C} {cause : Cause T S L C} {s : S}
    (poised : k.Poised) (tests : cause.Tests s) :
    Turn k cause (k.pLoop s .intOn) := by
  unfold pLoop
  split
  · exact .parkUnit s tests ‹_›
  · rw [setLevel_intOn (k := k.takeUnit s) poised.level]
    exact .takeUnit s tests ‹_›

/-- The part of a turn that starts a call of `Acquire`. -/
private theorem acquireBody_turn {k : Kernel T S L C} {l : L}
    (poised : k.Poised) :
    Turn k (.call (.acquire l)) (k.acquireBody l .intOn) := by
  unfold acquireBody
  split
  · rw [setLevel_intOn (k := k.enter l) poised.level]
    exact .held l .call ‹_›
  · split
    · exact .parkLock l ‹_› ‹_›
    · rw [setLevel_intOn (k := (k.takeLock l).enter l) poised.level]
      exact .takeLock l .call ‹_› (by simpa using ‹¬ (k.locks l).acquired = true›)

/-- A thread woken from a condition takes the lock again, or queues for it. -/
private theorem returnInto_inWait_turn {k : Kernel T S L C} {c : C} {l : L}
    (poised : k.Poised) :
    Turn k (.back [.inWait c l .intOn])
      (returnInto (.inWait c l .intOn) k) := by
  have pushedOff : (k.push (.inReacquire c l .intOn)).level = .intOff :=
    poised.level
  have pushedRunning : (k.push (.inReacquire c l .intOn)).phase = .running :=
    poised.phase
  simp only [returnInto, acquire, pushedOff, setLevel_intOff,
    disable_of_off pushedOff, acquireBody]
  by_cases held : k.isHeldByCurrentThread l
  · have pushedHeld :
        (k.push (.inReacquire c l .intOn)).isHeldByCurrentThread l := held
    rw [if_pos pushedHeld, if_pos (by exact pushedRunning)]
    have restored :
        (((k.push (.inReacquire c l .intOn)).enter l).disable).setStack
          k.currentThread (k.stack k.currentThread) = (k.enter l).disable := by
      conv_rhs => rw [← setStack_push (.inReacquire c l .intOn) k]
      rfl
    change Turn k _ (setLevel .intOn
      ((((k.push (.inReacquire c l .intOn)).enter l).disable).setStack
        k.currentThread (k.stack k.currentThread)))
    rw [restored, setLevel_intOn rfl]
    exact .held l (.back c) held
  · have pushedForeign :
        ¬ (k.push (.inReacquire c l .intOn)).isHeldByCurrentThread l := held
    rw [if_neg pushedForeign]
    by_cases busy : (k.locks l).acquired = true
    · have pushedBusy :
          ((k.push (.inReacquire c l .intOn)).locks l).acquired = true := busy
      rw [if_pos pushedBusy, if_neg (by simp [park, sleep])]
      exact .parkRelock c l held busy
    · have pushedFree :
          ¬ ((k.push (.inReacquire c l .intOn)).locks l).acquired = true := busy
      rw [if_neg pushedFree, if_pos (by exact pushedRunning)]
      have restored :
          ((((k.push (.inReacquire c l .intOn)).takeLock l).enter l).disable).setStack
            k.currentThread (k.stack k.currentThread) =
              ((k.takeLock l).enter l).disable := by
        conv_rhs => rw [← setStack_push (.inReacquire c l .intOn) k]
        rfl
      change Turn k _ (setLevel .intOn
        (((((k.push (.inReacquire c l .intOn)).takeLock l).enter l).disable).setStack
          k.currentThread (k.stack k.currentThread)))
      rw [restored, setLevel_intOn rfl]
      exact .takeLock l (.back c) held (by simpa using busy)

/-- A thread suspended in `Acquire` inside `Wait` returns through both. -/
private theorem resume_reacquire {k : Kernel T S L C} {c : C} {l : L}
    (running : k.phase = .running) :
    resume [.inAcquire l .intOff, .inReacquire c l .intOn] k =
      ((k.setStack k.currentThread []).enter l).oneTick := by
  have emptied :
      (((k.setStack k.currentThread [.inReacquire c l .intOn]).enter l).disable).setStack
        k.currentThread [] = ((k.setStack k.currentThread []).enter l).disable := by
    simp [setStack, enter, note, disable]
  simp only [resume, returnInto, setLevel_intOff]
  rw [if_pos (by exact running)]
  change (if _ then setLevel .intOn
      ((((k.setStack k.currentThread [.inReacquire c l .intOn]).enter l).disable).setStack
        k.currentThread []) else _) = _
  rw [emptied, setLevel_intOn rfl]
  simp [oneTick, disable, enter, note, setStack]

theorem turnBase_level (next : T) (k : Kernel T S L C) :
    (k.turnBase next).level = k.level := by
  unfold turnBase deleteCarcass switch
  split
  · rfl
  · split <;> rfl

theorem turnBase_phase (next : T) (k : Kernel T S L C) :
    (k.turnBase next).phase = .running := by
  unfold turnBase deleteCarcass switch
  split
  · rfl
  · split <;> rfl

theorem turnBase_currentThread (next : T) (k : Kernel T S L C) :
    (k.turnBase next).currentThread = next := by
  unfold turnBase deleteCarcass switch
  split
  · rfl
  · split <;> rfl

theorem turnBase_poised {next : T} {k : Kernel T S L C}
    (off : k.level = .intOff) : (k.turnBase next).Poised where
  level := (turnBase_level next k).trans off
  phase := turnBase_phase next k
  stack := by
    rw [turnBase_currentThread]
    simp [turnBase]

omit [DecidableEq S] [DecidableEq L] [DecidableEq C] in
private theorem switch_deleteCarcass_currentThread (next : T)
    (k : Kernel T S L C) :
    (k.switch next).deleteCarcass.currentThread = next := by
  unfold deleteCarcass switch
  split <;> rfl

/-- `Scheduler::Run` gives a suspended thread one turn. -/
theorem run_turn {next : T} {k : Kernel T S L C} (off : k.level = .intOff)
    (suspended : Suspended (k.stack next)) :
    Turn (k.turnBase next) (.back (k.stack next)) (k.run next) := by
  have poised : (k.turnBase next).Poised := turnBase_poised off
  generalize frames_eq : k.stack next = frames at suspended
  have base_eq : frames ≠ [.threadRoot] →
      (k.switch next).deleteCarcass.setStack
        (k.switch next).deleteCarcass.currentThread [] = k.turnBase next := by
    intro other
    rw [switch_deleteCarcass_currentThread, turnBase, if_neg (frames_eq ▸ other)]
  cases suspended with
  | root =>
      have root_eq : (k.switch next).setStack (k.switch next).currentThread [] =
          k.turnBase next := by
        rw [turnBase, if_pos frames_eq]
        rfl
      simp only [run, frames_eq, resume_singleton, root_eq, returnInto]
      rw [setLevel_intOn poised.level]
      exact .root
  | p s =>
      simp only [run, frames_eq, resume_singleton]
      rw [base_eq (by simp)]
      exact pLoop_turn poised .back
  | acquire l =>
      simp only [run, frames_eq, resume_singleton]
      rw [base_eq (by simp)]
      change Turn _ _ (setLevel .intOn ((k.turnBase next).enter l))
      rw [setLevel_intOn (k := (k.turnBase next).enter l) poised.level]
      exact .returned l .acquire
  | wait c l =>
      simp only [run, frames_eq, resume_singleton]
      rw [base_eq (by simp)]
      exact returnInto_inWait_turn poised
  | reacquire c l =>
      have phase : (k.switch next).deleteCarcass.phase = .running := by
        unfold deleteCarcass switch
        split <;> rfl
      simp only [run, frames_eq]
      rw [resume_reacquire phase, base_eq (by simp)]
      exact .returned l (.reacquire c)
  | yield =>
      simp only [run, frames_eq, resume_singleton]
      rw [base_eq (by simp)]
      change Turn _ _ (setLevel .intOn (k.turnBase next))
      rw [setLevel_intOn poised.level]
      exact .yielded

@[simp] theorem vBody_level (s : S) (k : Kernel T S L C) :
    (k.vBody s).level = k.level := by
  simp [vBody]

@[simp] theorem wakeWaiter_level (c : C) (k : Kernel T S L C) :
    (k.wakeWaiter c).level = k.level := by
  unfold wakeWaiter
  split <;> simp

@[simp] theorem signalBody_level (c : C) (conditionLock : Option L)
    (k : Kernel T S L C) : (k.signalBody c conditionLock).level = k.level := by
  unfold signalBody
  split
  · rfl
  · split <;> simp

@[simp] theorem broadcastLoop_level (c : C) (threads : List T)
    (k : Kernel T S L C) : (broadcastLoop c threads k).level = k.level := by
  induction threads generalizing k with
  | nil => rfl
  | cons t threads inductionHypothesis =>
      rw [broadcastLoop, inductionHypothesis, wakeWaiter_level]

@[simp] theorem wakeWaiter_stack (c : C) (k : Kernel T S L C) :
    (k.wakeWaiter c).stack = k.stack := by
  unfold wakeWaiter
  split
  · rfl
  · exact wakeFirst_stack _ k

@[simp] theorem wakeWaiter_currentThread (c : C) (k : Kernel T S L C) :
    (k.wakeWaiter c).currentThread = k.currentThread := by
  unfold wakeWaiter
  split <;> simp

@[simp] theorem signalBody_stack (c : C) (conditionLock : Option L)
    (k : Kernel T S L C) : (k.signalBody c conditionLock).stack = k.stack := by
  unfold signalBody
  split
  · rfl
  · split <;> simp

@[simp] theorem signalBody_currentThread (c : C) (conditionLock : Option L)
    (k : Kernel T S L C) :
    (k.signalBody c conditionLock).currentThread = k.currentThread := by
  unfold signalBody
  split
  · rfl
  · split <;> simp

@[simp] theorem broadcastLoop_stack (c : C) (threads : List T)
    (k : Kernel T S L C) : (broadcastLoop c threads k).stack = k.stack := by
  induction threads generalizing k with
  | nil => rfl
  | cons t threads inductionHypothesis =>
      rw [broadcastLoop, inductionHypothesis, wakeWaiter_stack]

@[simp] theorem broadcastLoop_currentThread (c : C) (threads : List T)
    (k : Kernel T S L C) :
    (broadcastLoop c threads k).currentThread = k.currentThread := by
  induction threads generalizing k with
  | nil => rfl
  | cons t threads inductionHypothesis =>
      rw [broadcastLoop, inductionHypothesis, wakeWaiter_currentThread]

omit [DecidableEq T] [DecidableEq S] [DecidableEq L] [DecidableEq C] in
theorem Shaped.disable_poised {k : Kernel T S L C} (shaped : k.Shaped)
    (running : k.phase = .running) : k.disable.Poised where
  level := rfl
  phase := running
  stack := shaped.current (.inl running)

/-- A call is one turn of the calling thread, unless it is a `Yield` to
another thread. -/
private theorem perform_turn {d : Discipline} {k : Kernel T S L C}
    {op : Op T S L C} (shaped : k.Shaped) (running : k.phase = .running)
    (callable : k.Callable d op)
    (stays : ∀ pick, op = .yield pick → k.readyList[pick]? = none) :
    Turn k.disable (.call op) (k.perform op) := by
  have poised : k.disable.Poised := shaped.disable_poised running
  have on : k.level = .intOn := by rw [shaped.level, if_pos running]
  cases op with
  | p s =>
      simp only [perform, p, on, setLevel_intOff]
      exact pLoop_turn poised .call
  | v s =>
      simp only [perform, v, on, setLevel_intOff]
      rw [setLevel_intOn (by simp)]
      exact .v s
  | acquire l =>
      simp only [perform, acquire, on, setLevel_intOff]
      exact acquireBody_turn poised
  | release l =>
      simp only [perform, release, on, setLevel_intOff]
      rw [setLevel_intOn (by simp)]
      exact .release l
  | wait c conditionLock =>
      simp only [perform, wait, on, setLevel_intOff]
      cases conditionLock with
      | none =>
          rw [waitBody, setLevel_intOn poised.level]
          exact .skipWait c none (by simp)
      | some l =>
          simp only [waitBody]
          by_cases bound : (k.disable.conditions c).waitingLock = some l
          · rw [if_pos bound, waitOn_eq c l .intOn poised.level]
            have turn := Turn.parkWait (k := k.disable) c l (.inl bound)
            rwa [bindLock_eq_self bound] at turn
          · rw [if_neg bound]
            by_cases unbound : (k.disable.conditions c).waitingLock = none
            · rw [if_pos unbound]
              rw [waitOn_eq c l .intOn (k := k.disable.bindLock c l) poised.level]
              exact .parkWait c l (.inr unbound)
            · rw [if_neg unbound, setLevel_intOn poised.level]
              refine .skipWait c (some l) fun l' same accepted => ?_
              cases same
              exact accepted.elim bound unbound
  | signal c conditionLock =>
      simp only [perform, signal, on, setLevel_intOff]
      rw [setLevel_intOn (by simp)]
      exact .signal c conditionLock
  | broadcast c conditionLock =>
      simp only [perform, broadcast, on, setLevel_intOff]
      rw [setLevel_intOn (by simp)]
      exact .broadcast c conditionLock
  | fork t =>
      simp only [perform, fork, on, setLevel_intOff]
      rw [setLevel_intOn (by simp [readyToRun])]
      exact .fork t callable
  | yield pick =>
      have nobody : k.disable.readyList[pick]? = none := stays pick rfl
      simp only [perform, yield, on, setLevel_intOff, yieldBody, findNextToRun,
        nobody]
      rw [setLevel_intOn poised.level]
      exact .alone pick nobody
  | finish =>
      simp only [perform, finish, setLevel_intOff]
      exact .finish

/-- `Yield` to another thread, called with interrupts on. -/
private theorem yield_eq_run {k : Kernel T S L C} {pick : Nat} {next : T}
    (on : k.level = .intOn) (chosen : k.readyList[pick]? = some next) :
    k.yield pick =
      run next (k.disable.yieldBase (k.readyList.eraseIdx pick)) := by
  have disabled : k.disable.readyList[pick]? = some next := chosen
  simp only [yield, on, setLevel_intOff, yieldBody, findNextToRun, disabled]
  rfl

section

omit [DecidableEq S] [DecidableEq L] [DecidableEq C]

/-- The thread that a yielding thread gives way to is still suspended as it
was. -/
private theorem yieldBase_stack {k : Kernel T S L C} {next : T} (rest : List T)
    (other : next ≠ k.currentThread) :
    (k.yieldBase rest).stack next = k.stack next := by
  simp [yieldBase, push, readyToRun, other]

theorem Suspended.ne_nil {frames : List (Frame S L C)}
    (suspended : Suspended frames) : frames ≠ [] := by
  cases suspended <;> simp

end

omit [DecidableEq T] [DecidableEq S] [DecidableEq L] [DecidableEq C] in
/-- A ready thread is not the one that is executing. -/
theorem Shaped.next_ne_current {k : Kernel T S L C} {pick : Nat} {next : T}
    (shaped : k.Shaped) (awake : k.phase = .running ∨ k.phase = .oneTick)
    (chosen : k.readyList[pick]? = some next) : next ≠ k.currentThread := by
  rintro rfl
  have suspended := shaped.ready _ (List.mem_of_getElem? chosen)
  exact suspended.ne_nil (shaped.current awake)

/-- `Yield` to another thread is one turn of that thread. -/
private theorem yield_turn {k : Kernel T S L C} {pick : Nat} {next : T}
    (shaped : k.Shaped) (awake : k.phase = .running ∨ k.phase = .oneTick)
    (chosen : k.readyList[pick]? = some next) :
    Turn (turnBase next (k.disable.yieldBase (k.readyList.eraseIdx pick)))
      (.back (k.stack next))
      (({ k with level := .intOn, phase := .running }).yield pick) := by
  have other : next ≠ k.disable.currentThread :=
    shaped.next_ne_current awake chosen
  have same := yieldBase_stack (k.readyList.eraseIdx pick) other
  have suspended :
      Suspended ((k.disable.yieldBase (k.readyList.eraseIdx pick)).stack next) := by
    rw [same]
    exact shaped.ready _ (List.mem_of_getElem? chosen)
  rw [yield_eq_run (k := { k with level := .intOn, phase := .running }) rfl chosen]
  have turn := run_turn (k := k.disable.yieldBase (k.readyList.eraseIdx pick))
    rfl suspended
  rw [same] at turn
  exact turn

/-- Every step from a well-shaped state is one of the listed effects. -/
theorem step_effect {d : Discipline} {k k' : Kernel T S L C}
    {action : Action T S L C} (shaped : k.Shaped)
    (step : k.step d action = some k') : Effect d k action k' := by
  have level := shaped.level
  cases action with
  | call op =>
      simp only [Kernel.step] at step
      split at step
      · rename_i enabled
        obtain ⟨running, callable⟩ := enabled
        cases step
        by_cases stays : ∀ pick, op = .yield pick → k.readyList[pick]? = none
        · exact .turn (.call op running callable)
            (shaped.disable_poised running)
            (perform_turn shaped running callable stays)
        · push Not at stays
          obtain ⟨pick, rfl, found⟩ := stays
          obtain ⟨next, chosen⟩ := Option.ne_none_iff_exists'.mp found
          have turn := yield_turn shaped (.inl running) chosen
          have on : { k with level := .intOn, phase := .running } = k := by
            rw [if_pos running] at level
            cases k
            cases level
            cases running
            rfl
          rw [on] at turn
          exact .turn (.yield pick next (.inl ⟨rfl, running⟩) callable chosen)
            (turnBase_poised rfl) turn
      · cases step
  | handlerV s =>
      simp only [Kernel.step] at step
      split at step
      · rename_i handling
        cases step
        have off : k.level = .intOff := by
          rw [level, if_neg (by rcases handling with h | h <;> simp [h])]
        rw [v, off, setLevel_intOff, setLevel_intOff, disable_of_off off,
          disable_of_off (by rw [vBody_level, off])]
        exact .handlerV s handling
      · cases step
  | handlerP s =>
      simp only [Kernel.step] at step
      split at step
      · rename_i enabled
        obtain ⟨handling, value⟩ := enabled
        cases step
        have off : k.level = .intOff := by
          rw [level, if_neg (by rcases handling with h | h <;> simp [h])]
        rw [p, off, setLevel_intOff, disable_of_off off, pLoop, if_neg value,
          setLevel_intOff, disable_of_off (k := k.takeUnit s) off]
        exact .handlerP s handling value
      · cases step
  | endTick =>
      simp only [Kernel.step] at step
      split at step
      · rename_i ticking
        cases step
        rw [shaped.current (.inr ticking), resume]
        exact .endTick ticking
      · cases step
  | timeSlice pick =>
      simp only [Kernel.step] at step
      split at step
      · rename_i enabled
        obtain ⟨ticking, allowed⟩ := enabled
        cases step
        cases chosen : k.readyList[pick]? with
        | none =>
            have off : k.level = .intOff := by
              rw [level, if_neg (by simp [ticking])]
            have poised :
                ({ k with phase := .running } : Kernel T S L C).Poised :=
              ⟨off, rfl, shaped.current (.inr ticking)⟩
            have alone :
                ({ k with level := .intOn, phase := .running }).yield pick =
                  ({ k with phase := .running } : Kernel T S L C).oneTick := by
              simp only [yield, setLevel_intOff, disable, yieldBody,
                findNextToRun, chosen]
              rw [setLevel_intOn rfl]
              rfl
            rw [alone]
            exact .turn (.alone pick ticking allowed) poised (.alone pick chosen)
        | some next =>
            exact .turn (.yield pick next (.inr ⟨rfl, ticking⟩) allowed chosen)
              (turnBase_poised rfl) (yield_turn shaped (.inr ticking) chosen)
      · cases step
  | dispatch pick =>
      simp only [Kernel.step] at step
      split at step
      · rename_i enabled
        obtain ⟨asleep, allowed⟩ := enabled
        have off : k.level = .intOff := by
          rw [level, if_neg (by simp [asleep])]
        cases chosen : k.readyList[pick]? with
        | none => simp [findNextToRun, chosen] at step
        | some next =>
            simp only [findNextToRun, chosen, Option.map_some,
              Option.some.injEq] at step
            subst step
            have suspended := shaped.ready next (List.mem_of_getElem? chosen)
            exact .turn (.dispatch pick next asleep allowed chosen)
              (turnBase_poised off) (run_turn off suspended)
      · cases step
  | idle =>
      simp only [Kernel.step] at step
      split at step
      · rename_i enabled
        cases step
        exact .idle enabled.1 enabled.2
      · cases step
  | endIdle =>
      simp only [Kernel.step] at step
      split at step
      · rename_i idle
        cases step
        exact .endIdle idle
      · cases step

end Kernel

end Nachos
