/-
Module: Nachos.Threads.Holders
Purpose: Nobody sleeps on a lock that no thread will release.  A thread counts
  as within a lock from its return from `Acquire`, or from the moment a
  `Release` takes it off the queue, until it calls `Release`.  The recorded
  owner is always such a thread, and so is somebody whenever the queue is not
  empty, illegal releases and repeated acquires included.
Trusted boundary: none
Main exports: Kernel.Within, Kernel.Attended, Turn.lockQueue_cases,
  sleepers_are_attended
-/
import Nachos.Threads.Pending

namespace Nachos

variable {T S L C : Type}
variable [DecidableEq T] [DecidableEq S] [DecidableEq L] [DecidableEq C]

open Kernel

namespace Kernel

/-- `t` is past an `Acquire` of the lock and has not called `Release` since, or
a `Release` has taken it off the queue and it has still to return from
`Acquire`; and it is not on the queue. -/
def Within (l : L) (k : Kernel T S L C) (t : T) : Prop :=
  (k.Inside l t ∨ k.sleepsOn t = some (.lock l)) ∧ t ∉ (k.locks l).queue

instance (l : L) (k : Kernel T S L C) (t : T) : Decidable (k.Within l t) :=
  inferInstanceAs (Decidable (_ ∧ _))

end Kernel

/-- The turn calls `l->Release`, directly or in a `Wait` that accepts `l`. -/
def Cause.Leaves (l : L) (k : Kernel T S L C) (cause : Cause T S L C) : Prop :=
  cause = .call (.release l) ∨
    ∃ c, k.Accepts c l ∧ cause = .call (.wait c (some l))

/-! ### What a turn does to the queue of a lock -/

namespace Kernel

theorem wakeFirst_lockQueue (l : L) (k : Kernel T S L C) :
    ((k.wakeFirst (.lock l)).locks l).queue = (k.locks l).queue.tail := by
  have queue_eq : k.queue (.lock l) = (k.locks l).queue := rfl
  cases contents : (k.locks l).queue with
  | nil => rw [wakeFirst, queue_eq, contents, List.tail_nil, contents]
  | cons t rest =>
      rw [wakeFirst, queue_eq, contents]
      simp [readyToRun, setQueue]

theorem releaseBody_lockQueue (l : L) (k : Kernel T S L C) :
    ((k.releaseBody l).locks l).queue = (k.locks l).queue.tail := by
  rw [releaseBody, wakeFirst_lockQueue]
  unfold clearOwner
  split <;> simp

theorem releaseBody_locks_of_ne {l l' : L} (k : Kernel T S L C) (other : l ≠ l') :
    (k.releaseBody l').locks l = k.locks l := by
  rw [releaseBody, wakeFirst_locks _ (by simp [other.symm])]
  unfold clearOwner
  split <;> simp [other]

theorem wakeWaiter_locks (c : C) (k : Kernel T S L C) :
    (k.wakeWaiter c).locks = k.locks := by
  funext l
  unfold wakeWaiter
  split
  · rfl
  · exact wakeFirst_locks k (by simp)

theorem signalBody_locks (c : C) (conditionLock : Option L) (k : Kernel T S L C) :
    (k.signalBody c conditionLock).locks = k.locks := by
  rcases signalBody_cases c conditionLock k with same | ⟨t, rest, -, -, moved⟩
  · rw [same]
  · rw [moved, wakeWaiter_locks]

theorem broadcastLoop_locks (c : C) (threads : List T) (k : Kernel T S L C) :
    (broadcastLoop c threads k).locks = k.locks := by
  induction threads generalizing k with
  | nil => rfl
  | cons t threads inductionHypothesis =>
      rw [broadcastLoop, inductionHypothesis, wakeWaiter_locks]

theorem park_lockQueue (l : L) (q : WaitQueue S L C) (frame : Frame S L C)
    (k : Kernel T S L C) :
    ((k.park q frame).locks l).queue =
      if q = .lock l then (k.locks l).queue ++ [k.currentThread]
      else (k.locks l).queue := by
  have asQueue := park_queue q frame k (.lock l)
  by_cases same : q = .lock l
  · subst same
    simpa [queue] using asQueue
  · rw [if_neg (Ne.symm same)] at asQueue
    rw [if_neg same]
    exact asQueue

end Kernel

/-- A turn appends its thread to the queue of a lock that is taken and not its
own, or takes the first sleeper off when it calls `Release`, or leaves the
queue alone. -/
theorem Turn.lockQueue_cases {k k' : Kernel T S L C} {cause : Cause T S L C}
    (turn : Turn k cause k') (l : L) :
    (¬ cause.Leaves l k ∧ (k'.locks l).queue = (k.locks l).queue) ∨
    (¬ cause.Leaves l k ∧ ¬ k.isHeldByCurrentThread l ∧
      (k.locks l).acquired = true ∧
      (k'.locks l).queue = (k.locks l).queue ++ [k.currentThread]) ∨
    (cause.Leaves l k ∧ (k'.locks l).queue = (k.locks l).queue.tail) := by
  cases turn with
  | root => exact .inl ⟨by simp [Cause.Leaves], rfl⟩
  | yielded => exact .inl ⟨by simp [Cause.Leaves], rfl⟩
  | alone pick none => exact .inl ⟨by simp [Cause.Leaves], rfl⟩
  | takeUnit s tests value =>
      exact .inl ⟨by cases tests <;> simp [Cause.Leaves], rfl⟩
  | parkUnit s tests value =>
      refine .inl ⟨by cases tests <;> simp [Cause.Leaves], ?_⟩
      rw [park_lockQueue, if_neg (by simp)]
  | v s =>
      refine .inl ⟨by simp [Cause.Leaves], ?_⟩
      have same := wakeFirst_locks k (q := .semaphore s) (l := l) (by simp)
      simp [vBody, same]
  | held l' acquires held =>
      exact .inl ⟨by cases acquires <;> simp [Cause.Leaves], rfl⟩
  | takeLock l' acquires foreign free =>
      refine .inl ⟨by cases acquires <;> simp [Cause.Leaves], ?_⟩
      by_cases same : l = l'
      · subst same
        simp [Kernel.takeLock, enter]
      · simp [Kernel.takeLock, enter, same]
  | parkLock l' foreign busy =>
      by_cases same : l' = l
      · subst same
        refine .inr (.inl ⟨by simp [Cause.Leaves], foreign, busy, ?_⟩)
        rw [park_lockQueue, if_pos rfl]
      · refine .inl ⟨by simp [Cause.Leaves], ?_⟩
        rw [park_lockQueue, if_neg (by simp [same])]
  | parkRelock c l' foreign busy =>
      by_cases same : l' = l
      · subst same
        refine .inr (.inl ⟨by simp [Cause.Leaves], foreign, busy, ?_⟩)
        rw [park_lockQueue, if_pos rfl]
        rfl
      · refine .inl ⟨by simp [Cause.Leaves], ?_⟩
        rw [park_lockQueue, if_neg (by simp [same])]
        rfl
  | returned l' returns =>
      exact .inl ⟨by cases returns <;> simp [Cause.Leaves], rfl⟩
  | release l' =>
      by_cases same : l = l'
      · subst same
        exact .inr (.inr ⟨.inl rfl, releaseBody_lockQueue l k⟩)
      · refine .inl ⟨by simp [Cause.Leaves, Ne.symm same], ?_⟩
        rw [oneTick_locks, releaseBody_locks_of_ne k same]
  | skipWait c conditionLock rejected =>
      refine .inl ⟨?_, rfl⟩
      rintro (called | ⟨c', accepted, called⟩)
      · cases called
      · cases called
        exact rejected l rfl accepted
  | parkWait c l' accepted =>
      have parked : ((((k.bindLock c l').releaseBody l').parkWaiter c l'
          .intOn).locks l).queue =
          (((k.bindLock c l').releaseBody l').locks l).queue := by
        rw [parkWaiter, park_lockQueue, if_neg (by simp)]
        rfl
      by_cases same : l = l'
      · subst same
        refine .inr (.inr ⟨.inr ⟨c, accepted, rfl⟩, ?_⟩)
        rw [parked, releaseBody_lockQueue]
        rfl
      · refine .inl ⟨by simp [Cause.Leaves, Ne.symm same], ?_⟩
        rw [parked, releaseBody_locks_of_ne _ same]
        rfl
  | signal c conditionLock =>
      exact .inl ⟨by simp [Cause.Leaves], by rw [oneTick_locks, signalBody_locks]⟩
  | broadcast c conditionLock =>
      exact .inl ⟨by simp [Cause.Leaves],
        by rw [oneTick_locks, broadcastLoop_locks]⟩
  | fork t fresh => exact .inl ⟨by simp [Cause.Leaves], rfl⟩
  | finish => exact .inl ⟨by simp [Cause.Leaves], rfl⟩

/-- A thread inside stays inside unless it calls `Release`. -/
theorem Turn.inside_stays {k k' : Kernel T S L C} {cause : Cause T S L C}
    (turn : Turn k cause k') {l : L} {t : T} (inside : k.Inside l t) :
    k'.Inside l t ∨ (t = k.currentThread ∧ cause.Leaves l k) := by
  have left : Unlocked l (k.releaseBody l) k' → cause.Leaves l k →
      k'.Inside l t ∨ (t = k.currentThread ∧ cause.Leaves l k) := by
    intro same leaves
    obtain ⟨-, -, insides⟩ := releaseBody_lock l k
    by_cases current : k.currentThread = t
    · exact .inr ⟨current.symm, leaves⟩
    · left
      rw [Inside, same.inside, insides, if_neg current]
      exact inside
  have entered : ∀ {k'' : Kernel T S L C},
      k''.log = .entered l k.currentThread :: k.log → k''.Inside l t := by
    intro k'' log
    by_cases current : k.currentThread = t
    · simp [Inside, log, insideBy, current]
    · simpa [Inside, log, insideBy, current] using inside
  rcases turn.lock_cases l with same | ⟨-, -, rfl⟩ | ⟨-, -, -, rfl⟩ | ⟨-, rfl⟩ |
    ⟨called, same⟩ | ⟨c, accepted, called, same⟩
  · left
    rw [Inside, same.inside]
    exact inside
  · exact .inl (entered rfl)
  · exact .inl (entered rfl)
  · exact .inl (entered rfl)
  · exact left same (.inl called)
  · exact left same (.inr ⟨c, accepted, called⟩)

namespace Kernel

/-! ### The invariant -/

/-- The owner is past `Acquire`. -/
def OwnerInside (l : L) (k : Kernel T S L C) : Prop :=
  ∀ o, (k.locks l).owner = some o →
    k.Inside l o ∧ k.sleepsOn o ≠ some (.lock l)

/-- A lock that is taken has an owner and an empty lock none, the owner is
inside, and somebody will serve the queue. -/
structure Attended (l : L) (k : Kernel T S L C) : Prop where
  owned : k.Owned l
  owner : k.OwnerInside l
  queue : (k.locks l).queue ≠ [] → ∃ t, k.Within l t

omit [DecidableEq S] [DecidableEq C] in
theorem OwnerInside.within {l : L} {k : Kernel T S L C} {o : T} (wf : k.Placed)
    (inside : k.OwnerInside l) (owner : (k.locks l).owner = some o) :
    k.Within l o := by
  obtain ⟨entered, awake⟩ := inside o owner
  refine ⟨.inl entered, fun member => ?_⟩
  exact awake ((wf.queued (.lock l) o).mp member).2

theorem OwnerInside.base {d : Discipline} {l : L} {k base : Kernel T S L C}
    {action : Action T S L C} {cause : Cause T S L C} (inside : k.OwnerInside l)
    (begins : Base d k action cause base) : base.OwnerInside l := by
  intro o owner
  have same := unlocked_base begins l
  rw [same.owner] at owner
  obtain ⟨entered, awake⟩ := inside o owner
  refine ⟨?_, fun sleeps => awake (sleepsOn_base begins sleeps)⟩
  rw [Inside, same.inside]
  exact entered

theorem OwnerInside.turn {l : L} {k k' : Kernel T S L C} {cause : Cause T S L C}
    (inside : k.OwnerInside l) (poised : k.Poised) (turn : Turn k cause k') :
    k'.OwnerInside l := by
  intro o owner'
  -- an owner that the turn has not made was the owner before
  have kept : (k.locks l).owner = some o → ¬ (o = k.currentThread ∧ cause.Leaves l k) →
      k'.Inside l o ∧ k'.sleepsOn o ≠ some (.lock l) := by
    intro owner stays
    obtain ⟨entered, awake⟩ := inside o owner
    refine ⟨(turn.inside_stays entered).resolve_right stays, fun sleeps => ?_⟩
    rcases turn.sleepsOn_lock poised sleeps with ⟨-, slept⟩ | ⟨rfl, foreign, -⟩
    · exact awake slept
    · exact foreign owner
  have released : Unlocked l (k.releaseBody l) k' →
      k'.Inside l o ∧ k'.sleepsOn o ≠ some (.lock l) := by
    intro same
    obtain ⟨-, owners, -⟩ := releaseBody_lock l k
    rw [same.owner, owners] at owner'
    by_cases held : k.isHeldByCurrentThread l
    · rw [if_pos held] at owner'
      cases owner'
    · rw [if_neg held] at owner'
      refine kept owner' fun current => held ?_
      rw [isHeldByCurrentThread, owner', current.1]
  rcases turn.lock_cases l with same | ⟨acquires, -, rfl⟩ | ⟨acquires, -, -, rfl⟩ |
    ⟨returns, rfl⟩ | ⟨-, same⟩ | ⟨c, -, -, same⟩
  · by_cases leaves : o = k.currentThread ∧ cause.Leaves l k
    · -- the log is as it was, so the owner has not left
      have owner : (k.locks l).owner = some o := same.owner ▸ owner'
      obtain ⟨entered, awake⟩ := inside o owner
      refine ⟨by rw [Inside, same.inside]; exact entered, fun sleeps => ?_⟩
      rcases turn.sleepsOn_lock poised sleeps with ⟨-, slept⟩ | ⟨rfl, foreign, -⟩
      · exact awake slept
      · exact foreign owner
    · exact kept (same.owner ▸ owner') leaves
  · exact kept owner' fun both => by
      rcases both.2 with called | ⟨c, -, called⟩ <;> subst called <;> cases acquires
  · have current : o = k.currentThread := by
      simpa [Kernel.takeLock, enter, eq_comm] using owner'
    subst current
    refine ⟨by simp [Inside, Kernel.takeLock, enter, insideBy], ?_⟩
    simp [sleepsOn, Kernel.takeLock, enter, poised.stack]
  · exact kept owner' fun both => by
      rcases both.2 with called | ⟨c, -, called⟩ <;> subst called <;> cases returns
  · exact released same
  · exact released same

omit [DecidableEq T] [DecidableEq S] [DecidableEq L] [DecidableEq C] in
/-- A thread that sleeps on a lock is suspended in a call. -/
theorem WellFormed.pending_of_sleeper {k : Kernel T S L C} {l : L} {t : T}
    (wf : k.WellFormed) (blank : k.Blank)
    (sleeps : k.sleepsOn t = some (.lock l)) :
    Suspended (k.stack t) ∧
      ∃ op : Op T S L C, pendingCall (k.stack t) = some op := by
  have suspended : Suspended (k.stack t) := by
    cases status : k.status t with
    | justCreated => simp [sleepsOn, blank t status] at sleeps
    | running =>
        obtain rfl := wf.running t status
        rcases phase : k.phase with _ | _ | _ | _
        · simp [sleepsOn, (wf.awake (.inl phase)).2] at sleeps
        · simp [sleepsOn, (wf.awake (.inr phase)).2] at sleeps
        · simpa [status] using wf.asleep (.inl phase)
        · simpa [status] using wf.asleep (.inr phase)
    | ready => exact wf.suspended t status
    | blocked =>
        rcases wf.parked t status with ⟨suspended, -⟩ | finished
        · exact suspended
        · rw [Finished] at finished
          simp [sleepsOn, finished, Frame.queue] at sleeps
  refine ⟨suspended, ?_⟩
  have returns := suspended.returns sleeps
  generalize k.stack t = frames at returns
  cases returns with
  | acquire => exact ⟨_, rfl⟩
  | reacquire c => exact ⟨_, rfl⟩

/-- A sleeper of a lock sleeps on, or returns from `Acquire`. -/
theorem WellFormed.sleeper_of_step {d : Discipline} {k k' : Kernel T S L C}
    {action : Action T S L C} {l : L} {t : T} (wf : k.WellFormed)
    (blank : k.Blank) (step : k.step d action = some k')
    (sleeps : k.sleepsOn t = some (.lock l)) :
    k'.Inside l t ∨ k'.sleepsOn t = some (.lock l) := by
  obtain ⟨suspended, op, pending⟩ := wf.pending_of_sleeper blank sleeps
  rcases wf.stack_of_step blank step pending with same | ⟨base, -, rfl, -, turn⟩
  · right
    rw [sleepsOn, same]
    exact sleeps
  · left
    obtain rfl := turn_returns turn (suspended.returns sleeps)
    simp [Inside, enter, insideBy]

/-- A thread within a lock stays so until it calls `Release` or goes to sleep
on the lock. -/
theorem Within.turn {d : Discipline} {l : L} {k base k' : Kernel T S L C}
    {action : Action T S L C} {cause : Cause T S L C} {t : T} (wf : k.WellFormed)
    (blank : k.Blank) (begins : Base d k action cause base)
    (turn : Turn base cause k') (step : k.step d action = some k')
    (within : k.Within l t) (stays : ¬ (t = base.currentThread ∧ cause.Leaves l base))
    (unqueued : t ∉ (k'.locks l).queue) : k'.Within l t := by
  refine ⟨?_, unqueued⟩
  rcases within.1 with inside | sleeps
  · have insideBase : base.Inside l t := by
      rw [Inside, (unlocked_base begins l).inside]
      exact inside
    exact .inl ((turn.inside_stays insideBase).resolve_right stays)
  · exact wf.sleeper_of_step blank step sleeps

theorem locks_base {d : Discipline} {k base : Kernel T S L C}
    {action : Action T S L C} {cause : Cause T S L C}
    (begins : Base d k action cause base) : base.locks = k.locks := by
  cases begins with
  | call op running callable => rfl
  | alone pick ticking allowed => rfl
  | dispatch pick next asleep allowed chosen => rw [turnBase_locks]
  | yield pick next yields allowed chosen =>
      rw [turnBase_locks]
      rfl

/-- Whoever is queued after a turn, somebody is within the lock. -/
theorem Attended.queue_turn {d : Discipline} {l : L} {k base k' : Kernel T S L C}
    {action : Action T S L C} {cause : Cause T S L C} (attended : k.Attended l)
    (wf : k.WellFormed) (blank : k.Blank) (begins : Base d k action cause base)
    (turn : Turn base cause k') (step : k.step d action = some k')
    (queued : (k'.locks l).queue ≠ []) : ∃ t, k'.Within l t := by
  have locks := locks_base begins
  rcases turn.lockQueue_cases l with ⟨stays, same⟩ | ⟨stays, foreign, busy, longer⟩ |
    ⟨leaves, shorter⟩
  · rw [locks] at same
    obtain ⟨t, within⟩ := attended.queue (same ▸ queued)
    refine ⟨t, within.turn wf blank begins turn step (fun both => stays both.2) ?_⟩
    rw [same]
    exact within.2
  · -- the lock is taken, and its owner is not the thread that queues
    have owned := attended.owned
    rw [locks] at busy longer
    rw [Owned, busy] at owned
    obtain ⟨o, owner⟩ := Option.isSome_iff_exists.mp owned.symm
    have within := attended.owner.within wf.toPlaced owner
    have other : o ≠ base.currentThread := by
      rintro rfl
      rw [isHeldByCurrentThread, locks] at foreign
      exact foreign owner
    refine ⟨o, within.turn wf blank begins turn step (fun both => stays both.2) ?_⟩
    rw [longer, List.mem_append, List.mem_singleton]
    rintro (member | same)
    · exact within.2 member
    · exact other same
  · -- the first sleeper is off the queue
    rw [locks] at shorter
    cases contents : (k.locks l).queue with
    | nil =>
        rw [contents] at shorter
        exact absurd shorter queued
    | cons first rest =>
        have once : (first :: rest).Nodup := contents ▸ wf.queuedOnce (.lock l)
        have member : first ∈ k.queue (.lock l) := by
          rw [Kernel.queue, contents]
          exact List.mem_cons_self
        have sleeps := ((wf.queued (.lock l) first).mp member).2
        refine ⟨first, wf.sleeper_of_step blank step sleeps, ?_⟩
        rw [shorter, contents]
        exact (List.nodup_cons.mp once).1

omit [DecidableEq S] [DecidableEq C] in
/-- A step that leaves locks, stacks and the history of the lock alone. -/
theorem Attended.of_eq {l : L} {k k' : Kernel T S L C} (attended : k.Attended l)
    (locks : k'.locks l = k.locks l) (stack : k'.stack = k.stack)
    (inside : ∀ t, insideBy l t k'.log = insideBy l t k.log) : k'.Attended l where
  owned := by
    rw [Owned, locks]
    exact attended.owned
  owner o owner := by
    rw [Inside, inside, sleepsOn, stack]
    exact attended.owner o (locks ▸ owner)
  queue queued := by
    obtain ⟨t, within⟩ := attended.queue (locks ▸ queued)
    refine ⟨t, ?_⟩
    rw [Within, Inside, inside, sleepsOn, stack, locks]
    exact within

theorem Attended.step {d : Discipline} {l : L} {k k' : Kernel T S L C}
    {action : Action T S L C} (wf : k.WellFormed) (blank : k.Blank)
    (attended : k.Attended l) (step : k.step d action = some k') :
    k'.Attended l := by
  cases step_effect wf.shaped step with
  | turn begins poised turn =>
      exact ⟨attended.owned.step wf step, (attended.owner.base begins).turn poised turn,
        attended.queue_turn wf blank begins turn step⟩
  | handlerV s handling =>
      have woken := unlocked_wakeFirst l (.semaphore s) k
      apply attended.of_eq
      · have same := wakeFirst_locks k (q := .semaphore s) (l := l) (by simp)
        simpa [vBody] using same
      · exact wakeFirst_stack _ k
      · intro t
        simpa [vBody, insideBy] using woken.inside t
  | handlerP s handling value =>
      exact attended.of_eq rfl rfl fun t => by simp [takeUnit, insideBy]
  | endTick ticking => exact attended.of_eq rfl rfl fun _ => rfl
  | idle asleep nobody => exact attended.of_eq rfl rfl fun _ => rfl
  | endIdle idle => exact attended.of_eq rfl rfl fun _ => rfl

end Kernel

/-- For a lock that starts free, in every state of every run, whoever calls
`Acquire`, `Release` and `Wait`: the owner of a taken lock is within it, and
when threads are asleep on the lock then somebody is within it. -/
theorem sleepers_are_attended {d : Discipline} {main : T}
    {initialValue : S → Int} {lockMemory : L → Lock T}
    {conditionMemory : C → Condition T L} {actions : List (Action T S L C)}
    {k : Kernel T S L C} (l : L) (free : (lockMemory l).owner = none)
    (run : (kernelMachine d).exec
      (boot main initialValue lockMemory conditionMemory) actions = some k) :
    ((k.locks l).acquired = true →
      ∃ o, (k.locks l).owner = some o ∧ k.Within l o) ∧
    ((k.locks l).queue ≠ [] → ∃ t, k.Within l t) := by
  have booted := boot_wellFormed main initialValue lockMemory conditionMemory
  have start : (boot main initialValue lockMemory conditionMemory).Blank ∧
      (boot main initialValue lockMemory conditionMemory).Attended l := by
    refine ⟨boot_blank main initialValue lockMemory conditionMemory, ?_, ?_, ?_⟩
    · simp [Owned, boot, Lock.construct, free]
    · intro o owner
      simp [boot, Lock.construct, free] at owner
    · intro queued
      simp [boot, Lock.construct] at queued
  have attended : k.Blank ∧ k.Attended l :=
    invariant_exec (I := fun k => k.Blank ∧ k.Attended l)
      (fun _ _ _ wf both step =>
        ⟨both.1.step wf step, both.2.step wf both.1 step⟩) booted start run
  have wf := wellFormed_exec booted run
  refine ⟨fun acquired => ?_, attended.2.queue⟩
  have owned := attended.2.owned
  rw [Owned, acquired] at owned
  obtain ⟨o, owner⟩ := Option.isSome_iff_exists.mp owned.symm
  exact ⟨o, owner, attended.2.owner.within wf.toPlaced owner⟩

/-- While main has the lock, the third thread wakes the second one by an illegal
`Release` and calls `Acquire` itself. -/
def strangerQueues {T : Type} (second third : T) : List (Action T Empty Unit Empty) :=
  [.call (.fork second), .endTick, .call (.fork third), .endTick,
    .call (.acquire ()), .endTick, .call (.yield 0), .endTick,
    .call (.acquire ()), .dispatch 0, .endTick, .call (.release ()), .endTick,
    .call (.acquire ())]

theorem attended_after_illegal_release :
    ∃ k, (kernelMachine .fifo).exec
        (boot (0 : Fin 3) Empty.elim (fun _ => ⟨false, none, []⟩) Empty.elim)
        (strangerQueues 1 2) = some k ∧
      (k.locks ()).queue = [2] ∧ k.Within () 1 ∧ ∃ t, k.Within () t := by
  obtain ⟨k, run, queued, within⟩ : ∃ k, (kernelMachine .fifo).exec
      (boot (0 : Fin 3) Empty.elim (fun _ => ⟨false, none, []⟩) Empty.elim)
      (strangerQueues 1 2) = some k ∧ (k.locks ()).queue = [2] ∧ k.Within () 1 :=
    ⟨_, rfl, rfl, by decide⟩
  exact ⟨k, run, queued, within,
    (sleepers_are_attended () rfl run).2 (by simp [queued])⟩

end Nachos
