/-
Module: Nachos.Threads.Placement
Purpose: Every unfinished thread is in one place: it is the current thread,
  or it is once on the ready list, or it is once on one wait queue.  The
  invariant ties the place of a thread to its `status` and to the frame it
  sleeps in, and it is preserved by the parking and waking of a thread; each
  turn is made of these.
Trusted boundary: none
Main exports: Kernel.Placed, Kernel.WellFormed, wellFormed_exec,
  invariant_exec, Turn.stack_of_ne
-/
import Mathlib.Data.List.Count
import Mathlib.Data.List.Perm.Basic
import Nachos.Threads.Turn

namespace Nachos

variable {T S L C : Type}
variable [DecidableEq T] [DecidableEq S] [DecidableEq L] [DecidableEq C]

namespace Kernel

/-- The queue on which a blocked thread has put itself. -/
def sleepsOn (k : Kernel T S L C) (t : T) : Option (WaitQueue S L C) :=
  (k.stack t).head?.bind Frame.queue

/-- The thread has called `Finish`. -/
def Finished (k : Kernel T S L C) (t : T) : Prop :=
  k.stack t = [.inFinish]

/-- A blocked thread sleeps on a queue, or has finished. -/
def Parked (k : Kernel T S L C) (t : T) : Prop :=
  (Suspended (k.stack t) ∧ k.sleepsOn t ≠ none) ∨ k.Finished t

/-- The lists hold exactly the threads that their status puts there. -/
structure Placed (k : Kernel T S L C) : Prop where
  readyOnce : k.readyList.Nodup
  ready : ∀ t, t ∈ k.readyList ↔ k.status t = .ready
  queuedOnce : ∀ q, (k.queue q).Nodup
  queued : ∀ q t, t ∈ k.queue q ↔
    k.status t = .blocked ∧ k.sleepsOn t = some q
  running : ∀ t, k.status t = .running → t = k.currentThread
  suspended : ∀ t, k.status t = .ready → Suspended (k.stack t)
  parked : ∀ t, k.status t = .blocked → k.Parked t

/-- The state between two steps. -/
structure WellFormed (k : Kernel T S L C) : Prop extends Placed k where
  level : k.level = if k.phase = .running then .intOn else .intOff
  awake : k.phase = .running ∨ k.phase = .oneTick →
    k.status k.currentThread = .running ∧ k.stack k.currentThread = []
  asleep : k.phase = .sleeping ∨ k.phase = .idle →
    k.status k.currentThread = .ready ∨ k.status k.currentThread = .blocked

section

omit [DecidableEq T] [DecidableEq S] [DecidableEq L] [DecidableEq C]

/-- Only these five components matter for the place of a thread. -/
theorem Placed.of_eq {k k' : Kernel T S L C} (placed : k.Placed)
    (current : k'.currentThread = k.currentThread)
    (ready : k'.readyList = k.readyList) (status : k'.status = k.status)
    (stack : k'.stack = k.stack) (queue : k'.queue = k.queue) : k'.Placed where
  readyOnce := ready ▸ placed.readyOnce
  ready t := by rw [ready, status, placed.ready]
  queuedOnce q := by
    rw [queue]
    exact placed.queuedOnce q
  queued q t := by
    rw [queue, status, sleepsOn, stack]
    exact placed.queued q t
  running t h := by
    rw [current]
    exact placed.running t (status ▸ h)
  suspended t h := by
    rw [stack]
    exact placed.suspended t (status ▸ h)
  parked t h := by
    rw [Parked, Finished, sleepsOn, stack]
    exact placed.parked t (status ▸ h)

theorem WellFormed.shaped {k : Kernel T S L C} (wf : k.WellFormed) :
    k.Shaped where
  level := wf.level
  current awake := (wf.awake awake).2
  ready t member := wf.suspended t ((wf.ready t).mp member)

end

/-! ### The stack of the executing thread is free -/

omit [DecidableEq S] [DecidableEq L] [DecidableEq C] in
theorem Placed.setStack_running {k : Kernel T S L C} (placed : k.Placed)
    {t : T} (frames : List (Frame S L C))
    (free : k.status t = .running ∨ k.status t = .justCreated) :
    (k.setStack t frames).Placed := by
  have other : ∀ {t'}, k.status t' = .ready ∨ k.status t' = .blocked →
      t' ≠ t := by
    rintro t' listed rfl
    rcases free with free | free <;> simp [free] at listed
  refine ⟨placed.readyOnce, placed.ready, fun q => ?_, fun q t' => ?_,
    placed.running, fun t' h => ?_, fun t' h => ?_⟩
  · rw [queue_setStack]
    exact placed.queuedOnce q
  · rw [queue_setStack, placed.queued]
    refine and_congr_right fun h => ?_
    simp [sleepsOn, other (.inr h)]
  · simpa [other (.inl h)] using placed.suspended t' h
  · simpa [Parked, Finished, sleepsOn, other (.inr h)] using placed.parked t' h

/-! ### Parking and waking -/

theorem park_queue (q : WaitQueue S L C) (frame : Frame S L C)
    (k : Kernel T S L C) (q' : WaitQueue S L C) :
    (k.park q frame).queue q' =
      if q' = q then k.queue q ++ [k.currentThread] else k.queue q' := by
  have unfolded : (k.park q frame).queue =
      (k.setQueue q (k.queue q ++ [k.currentThread])).queue :=
    queue_congr rfl rfl rfl
  rw [unfolded, queue_setQueue]

@[simp] theorem park_status (q : WaitQueue S L C) (frame : Frame S L C)
    (k : Kernel T S L C) (t : T) :
    (k.park q frame).status t =
      if t = k.currentThread then .blocked else k.status t := by
  simp [park, sleep, push, Function.update_apply]

@[simp] theorem park_stack (q : WaitQueue S L C) (frame : Frame S L C)
    (k : Kernel T S L C) (t : T) :
    (k.park q frame).stack t =
      if t = k.currentThread then frame :: k.stack k.currentThread
      else k.stack t := by
  simp [park, sleep, push, Function.update_apply]

@[simp] theorem park_currentThread (q : WaitQueue S L C) (frame : Frame S L C)
    (k : Kernel T S L C) :
    (k.park q frame).currentThread = k.currentThread := by
  simp [park, sleep, push]

@[simp] theorem park_readyList (q : WaitQueue S L C) (frame : Frame S L C)
    (k : Kernel T S L C) : (k.park q frame).readyList = k.readyList := by
  simp [park, sleep, push]

@[simp] theorem park_phase (q : WaitQueue S L C) (frame : Frame S L C)
    (k : Kernel T S L C) : (k.park q frame).phase = .sleeping := rfl

@[simp] theorem park_level (q : WaitQueue S L C) (frame : Frame S L C)
    (k : Kernel T S L C) : (k.park q frame).level = k.level := by
  simp [park, sleep, push]

/-- The running thread queues itself and sleeps. -/
theorem Placed.park {k : Kernel T S L C} (placed : k.Placed)
    {q : WaitQueue S L C} {frame : Frame S L C}
    (running : k.status k.currentThread = .running)
    (sleeps : frame.queue = some q)
    (suspended : Suspended (frame :: k.stack k.currentThread)) :
    (k.park q frame).Placed := by
  have outside : ∀ q', k.currentThread ∉ k.queue q' := by
    intro q' member
    simp [((placed.queued q' _).mp member).1] at running
  refine ⟨by simpa using placed.readyOnce, fun t => ?_, fun q' => ?_,
    fun q' t => ?_, fun t h => ?_, fun t h => ?_, fun t h => ?_⟩
  · rw [park_readyList, placed.ready]
    by_cases same : t = k.currentThread
    · simp [same, running]
    · simp [same]
  · rw [park_queue]
    split
    · refine List.nodup_append.mpr ⟨placed.queuedOnce q, by simp, ?_⟩
      rintro t member t' last rfl
      rw [List.mem_singleton.mp last] at member
      exact outside q member
    · exact placed.queuedOnce q'
  · rw [park_queue]
    by_cases same : t = k.currentThread
    · subst same
      by_cases sameQueue : q' = q
      · simp [sameQueue, sleepsOn, sleeps]
      · simp [sameQueue, outside, sleepsOn, sleeps, Ne.symm sameQueue]
    · by_cases sameQueue : q' = q
      · subst sameQueue
        simp [same, placed.queued, sleepsOn]
      · simp [same, sameQueue, placed.queued, sleepsOn]
  · by_cases same : t = k.currentThread
    · simp [same]
    · simpa using placed.running t (by simpa [same] using h)
  · by_cases same : t = k.currentThread
    · simp [same] at h
    · simpa [same] using placed.suspended t (by simpa [same] using h)
  · by_cases same : t = k.currentThread
    · left
      simpa [same, sleepsOn, sleeps] using suspended
    · simpa [same, Parked, Finished, sleepsOn] using
        placed.parked t (by simpa [same] using h)

section

omit [DecidableEq S] [DecidableEq L] [DecidableEq C]

@[simp] theorem readyToRun_readyList (t : T) (k : Kernel T S L C) :
    (k.readyToRun t).readyList = k.readyList ++ [t] := rfl

@[simp] theorem readyToRun_status (t : T) (k : Kernel T S L C) (t' : T) :
    (k.readyToRun t).status t' = if t' = t then .ready else k.status t' := by
  simp [readyToRun, Function.update_apply]

@[simp] theorem readyToRun_stack (t : T) (k : Kernel T S L C) :
    (k.readyToRun t).stack = k.stack := rfl

@[simp] theorem readyToRun_currentThread (t : T) (k : Kernel T S L C) :
    (k.readyToRun t).currentThread = k.currentThread := rfl

@[simp] theorem readyToRun_queue (t : T) (k : Kernel T S L C) :
    (k.readyToRun t).queue = k.queue :=
  queue_congr rfl rfl rfl

/-- `ReadyToRun` on a thread that is in no list. -/
theorem Placed.readyToRun {k : Kernel T S L C} (placed : k.Placed) {t : T}
    (free : k.status t = .running ∨ k.status t = .justCreated)
    (suspended : Suspended (k.stack t)) : (k.readyToRun t).Placed := by
  have unlisted : t ∉ k.readyList := by
    rw [placed.ready]
    rcases free with free | free <;> simp [free]
  have notBlocked : k.status t ≠ .blocked := by
    rcases free with free | free <;> simp [free]
  refine ⟨?_, fun t' => ?_, fun q => ?_, fun q t' => ?_, fun t' h => ?_,
    fun t' h => ?_, fun t' h => ?_⟩
  · refine List.nodup_append.mpr ⟨placed.readyOnce, by simp, ?_⟩
    rintro t' member t'' last rfl
    exact unlisted (List.mem_singleton.mp last ▸ member)
  · by_cases same : t' = t
    · simp [same]
    · simp [same, placed.ready]
  · rw [readyToRun_queue]
    exact placed.queuedOnce q
  · rw [readyToRun_queue, placed.queued]
    by_cases same : t' = t
    · simp [same, notBlocked]
    · simp [same, sleepsOn]
  · by_cases same : t' = t
    · simp [same] at h
    · exact placed.running t' (by simpa [same] using h)
  · by_cases same : t' = t
    · subst same
      exact suspended
    · exact placed.suspended t' (by simpa [same] using h)
  · by_cases same : t' = t
    · simp [same] at h
    · exact placed.parked t' (by simpa [same] using h)

end

/-- Moving the first thread of a wait queue to the ready list. -/
theorem Placed.wakeFirst {k : Kernel T S L C} (placed : k.Placed)
    (q : WaitQueue S L C) : (k.wakeFirst q).Placed := by
  unfold Kernel.wakeFirst
  split
  · exact placed
  · rename_i t rest contents
    obtain ⟨blocked, sleeps⟩ := (placed.queued q t).mp (by simp [contents])
    have once : (t :: rest).Nodup := contents ▸ placed.queuedOnce q
    have suspended : Suspended (k.stack t) := by
      rcases placed.parked t blocked with ⟨suspended, -⟩ | finished
      · exact suspended
      · rw [Finished] at finished
        simp [sleepsOn, finished, Frame.queue] at sleeps
    have unlisted : t ∉ k.readyList := by
      rw [placed.ready]
      simp [blocked]
    refine ⟨?_, fun t' => ?_, fun q' => ?_, fun q' t' => ?_, fun t' h => ?_,
      fun t' h => ?_, fun t' h => ?_⟩
    · rw [readyToRun_readyList, setQueue_readyList]
      refine List.nodup_append.mpr ⟨placed.readyOnce, by simp, ?_⟩
      rintro t' member t'' last rfl
      exact unlisted (List.mem_singleton.mp last ▸ member)
    · by_cases same : t' = t
      · simp [same]
      · simp [same, placed.ready]
    · rw [readyToRun_queue, queue_setQueue]
      split
      · exact (List.nodup_cons.mp once).2
      · exact placed.queuedOnce q'
    · rw [readyToRun_queue, queue_setQueue]
      by_cases same : t' = t
      · subst same
        by_cases sameQueue : q' = q
        · simp [sameQueue, (List.nodup_cons.mp once).1]
        · simp [sameQueue, placed.queued, sleeps, Ne.symm sameQueue]
      · by_cases sameQueue : q' = q
        · subst sameQueue
          have old := placed.queued q' t'
          rw [contents] at old
          simpa [same, sleepsOn] using old
        · simp [same, sameQueue, placed.queued, sleepsOn]
    · by_cases same : t' = t
      · simp [same] at h
      · simpa using placed.running t' (by simpa [same] using h)
    · by_cases same : t' = t
      · subst same
        simpa using suspended
      · simpa using placed.suspended t' (by simpa [same] using h)
    · by_cases same : t' = t
      · simp [same] at h
      · simpa [Parked, Finished, sleepsOn] using
          placed.parked t' (by simpa [same] using h)

/-! ### Switching -/

@[simp] theorem turnBase_status (next : T) (k : Kernel T S L C) (t : T) :
    (k.turnBase next).status t =
      if t = next then .running else k.status t := by
  unfold turnBase deleteCarcass switch
  split
  · simp [Function.update_apply]
  · split <;> simp [Function.update_apply]

@[simp] theorem turnBase_stack (next : T) (k : Kernel T S L C) (t : T) :
    (k.turnBase next).stack t = if t = next then [] else k.stack t := by
  unfold turnBase deleteCarcass switch
  split
  · simp [Function.update_apply]
  · split <;> simp [Function.update_apply]

@[simp] theorem turnBase_readyList (next : T) (k : Kernel T S L C) :
    (k.turnBase next).readyList = k.readyList := by
  unfold turnBase deleteCarcass switch
  split
  · rfl
  · split <;> rfl

@[simp] theorem turnBase_queue (next : T) (k : Kernel T S L C) :
    (k.turnBase next).queue = k.queue := by
  funext q
  unfold turnBase deleteCarcass switch
  split
  · cases q <;> rfl
  · split <;> cases q <;> rfl

/-- A thread is taken off the ready list and given the CPU, nobody else
running. -/
theorem Placed.turnBase {k : Kernel T S L C} (placed : k.Placed) {next : T}
    {rest : List T} (off : ∀ t, k.status t ≠ .running)
    (chosen : k.readyList.Perm (next :: rest)) :
    (({ k with readyList := rest }).turnBase next).Placed := by
  have once := chosen.nodup_iff.mp placed.readyOnce
  have ready : k.status next = .ready :=
    (placed.ready next).mp (chosen.mem_iff.mpr (by simp))
  have queue_eq : ({ k with readyList := rest } : Kernel T S L C).queue =
      k.queue :=
    queue_congr rfl rfl rfl
  refine ⟨?_, fun t => ?_, fun q => ?_, fun q t => ?_, fun t h => ?_,
    fun t h => ?_, fun t h => ?_⟩
  · rw [turnBase_readyList]
    exact (List.nodup_cons.mp once).2
  · by_cases same : t = next
    · subst same
      simp [(List.nodup_cons.mp once).1]
    · have old := placed.ready t
      rw [chosen.mem_iff] at old
      simpa [same] using old
  · rw [turnBase_queue, queue_eq]
    exact placed.queuedOnce q
  · rw [turnBase_queue, queue_eq, placed.queued]
    by_cases same : t = next
    · simp [same, ready]
    · simp [same, sleepsOn]
  · by_cases same : t = next
    · rw [same, turnBase_currentThread]
    · exact absurd (by simpa [same] using h) (off t)
  · by_cases same : t = next
    · simp [same] at h
    · simpa [same] using placed.suspended t (by simpa [same] using h)
  · by_cases same : t = next
    · simp [same] at h
    · simpa [same, Parked, Finished, sleepsOn] using
        placed.parked t (by simpa [same] using h)

section

omit [DecidableEq T] [DecidableEq S] [DecidableEq L] [DecidableEq C]

/-- What `FindNextToRun` takes and what it leaves make up the list. -/
theorem readyList_perm {k : Kernel T S L C} {pick : Nat} {next : T}
    (chosen : k.readyList[pick]? = some next) :
    k.readyList.Perm (next :: k.readyList.eraseIdx pick) := by
  obtain ⟨bound, rfl⟩ := List.getElem?_eq_some_iff.mp chosen
  exact (List.getElem_cons_eraseIdx_perm bound).symm

theorem WellFormed.nobody_running {k : Kernel T S L C} (wf : k.WellFormed)
    (asleep : k.phase = .sleeping ∨ k.phase = .idle) (t : T) :
    k.status t ≠ .running := by
  intro running
  have current := wf.running t running
  subst current
  rcases wf.asleep asleep with h | h <;> simp [h] at running

end

omit [DecidableEq S] [DecidableEq L] [DecidableEq C] in
/-- The state of a yielding thread's kernel before the switch. -/
theorem WellFormed.yieldBase {k : Kernel T S L C} (wf : k.WellFormed)
    (awake : k.phase = .running ∨ k.phase = .oneTick) :
    (k.yieldBase k.readyList).Placed ∧
      ∀ t, (k.yieldBase k.readyList).status t ≠ .running := by
  obtain ⟨running, empty⟩ := wf.awake awake
  have pushed : (k.push (.inYield .intOn)).Placed :=
    wf.setStack_running _ (.inl running)
  have readied : (Kernel.readyToRun k.currentThread
      (k.push (.inYield .intOn))).Placed := by
    refine pushed.readyToRun (.inl running) ?_
    simpa [push, empty] using Suspended.yield
  refine ⟨readied, fun t => ?_⟩
  by_cases same : t = k.currentThread
  · simp [Kernel.yieldBase, push, same]
  · intro h
    exact same (wf.running t (by simpa [Kernel.yieldBase, push, same] using h))

/-- A turn begins with its thread running and everybody in place. -/
theorem WellFormed.base {d : Discipline} {k base : Kernel T S L C}
    {action : Action T S L C} {cause : Cause T S L C} (wf : k.WellFormed)
    (begins : Base d k action cause base) :
    base.Placed ∧ base.status base.currentThread = .running := by
  cases begins with
  | call op running callable =>
      exact ⟨wf.toPlaced.of_eq rfl rfl rfl rfl (by simp),
        (wf.awake (.inl running)).1⟩
  | alone pick ticking allowed =>
      refine ⟨wf.toPlaced.of_eq rfl rfl rfl rfl ?_, (wf.awake (.inr ticking)).1⟩
      exact queue_congr rfl rfl rfl
  | dispatch pick next asleep allowed chosen =>
      refine ⟨wf.toPlaced.turnBase (wf.nobody_running (.inl asleep))
        (readyList_perm chosen), ?_⟩
      simp [turnBase_currentThread]
  | yield pick next yields allowed chosen =>
      have awake : k.phase = .running ∨ k.phase = .oneTick :=
        yields.imp And.right And.right
      obtain ⟨placed, off⟩ := wf.yieldBase awake
      have perm : (k.yieldBase k.readyList).readyList.Perm
          (next :: (k.readyList.eraseIdx pick ++ [k.currentThread])) :=
        (readyList_perm chosen).append_right [k.currentThread]
      have turned := placed.turnBase off perm
      refine ⟨turned.of_eq ?_ ?_ ?_ ?_ ?_, by simp [turnBase_currentThread]⟩
      · rw [turnBase_currentThread, turnBase_currentThread]
      · simp [Kernel.yieldBase, push]
      · funext t
        simp [Kernel.yieldBase, push]
      · funext t
        simp only [turnBase_stack]
        rfl
      · funext q
        rw [turnBase_queue, turnBase_queue]
        cases q <;> rfl

/-! ### Turns keep everybody in place -/

/-- Everybody is in place and the current thread is executing. -/
structure Active (k : Kernel T S L C) : Prop extends Placed k where
  runs : k.status k.currentThread = .running
  empty : k.stack k.currentThread = []
  off : k.level = .intOff

section

omit [DecidableEq T] [DecidableEq S] [DecidableEq L] [DecidableEq C]

theorem Active.of_eq {k k' : Kernel T S L C} (active : k.Active)
    (current : k'.currentThread = k.currentThread)
    (ready : k'.readyList = k.readyList) (status : k'.status = k.status)
    (stack : k'.stack = k.stack) (queue : k'.queue = k.queue)
    (level : k'.level = k.level) : k'.Active where
  toPlaced := active.toPlaced.of_eq current ready status stack queue
  runs := by rw [current, status, active.runs]
  empty := by rw [current, stack, active.empty]
  off := by rw [level, active.off]

/-- The turn ends by turning interrupts on. -/
theorem Active.oneTick {k : Kernel T S L C} (active : k.Active) :
    k.oneTick.WellFormed where
  toPlaced := active.toPlaced.of_eq rfl rfl rfl rfl (by simp)
  level := rfl
  awake _ := ⟨active.runs, active.empty⟩
  asleep h := by simp at h

end

/-- The turn ends by sleeping on a queue. -/
theorem Active.park {k : Kernel T S L C} (active : k.Active)
    {q : WaitQueue S L C} {frame : Frame S L C}
    (sleeps : frame.queue = some q) (suspended : Suspended [frame]) :
    (k.park q frame).WellFormed where
  toPlaced := active.toPlaced.park active.runs sleeps (active.empty ▸ suspended)
  level := by simp [active.off]
  awake h := by simp at h
  asleep _ := .inr (by simp)

/-- Waking concerns blocked threads only. -/
theorem Placed.wakeFirst_status {k : Kernel T S L C} (placed : k.Placed)
    (q : WaitQueue S L C) {t : T} (awake : k.status t ≠ .blocked) :
    (k.wakeFirst q).status t = k.status t := by
  unfold Kernel.wakeFirst
  split
  · rfl
  · rename_i first rest contents
    have other : t ≠ first := by
      rintro rfl
      exact awake ((placed.queued q t).mp (by simp [contents])).1
    simp [other]

theorem Active.wakeFirst {k : Kernel T S L C} (active : k.Active)
    (q : WaitQueue S L C) : (k.wakeFirst q).Active where
  toPlaced := active.toPlaced.wakeFirst q
  runs := by
    rw [wakeFirst_currentThread, active.wakeFirst_status q (by simp [active.runs])]
    exact active.runs
  empty := by simpa using active.empty
  off := by simpa using active.off

omit [DecidableEq T] [DecidableEq L] [DecidableEq C] in
theorem queue_setSemaphore_value (s : S) (value : Int) (k : Kernel T S L C) :
    (k.setSemaphore s { k.semaphores s with value := value }).queue =
      k.queue := by
  funext q
  cases q with
  | semaphore s' =>
      simp only [queue, setSemaphore_semaphores, Function.update_apply]
      split <;> simp_all
  | lock l => rfl
  | condition c => rfl

omit [DecidableEq T] [DecidableEq S] [DecidableEq C] in
theorem queue_setLock_owner (l : L) (owner : Option T) (acquired : Bool)
    (k : Kernel T S L C) :
    (k.setLock l { k.locks l with owner := owner, acquired := acquired }).queue =
      k.queue := by
  funext q
  cases q with
  | semaphore s => rfl
  | lock l' =>
      simp only [queue, setLock_locks, Function.update_apply]
      split <;> simp_all
  | condition c => rfl

omit [DecidableEq T] [DecidableEq S] [DecidableEq L] in
theorem queue_bindLock (c : C) (l : L) (k : Kernel T S L C) :
    (k.bindLock c l).queue = k.queue := by
  funext q
  cases q with
  | semaphore s => rfl
  | lock l => rfl
  | condition c' =>
      simp only [queue, bindLock, setCondition_conditions, Function.update_apply]
      split <;> simp_all

omit [DecidableEq T] [DecidableEq L] [DecidableEq C] in
theorem Active.takeUnit {k : Kernel T S L C} (active : k.Active) (s : S) :
    (k.takeUnit s).Active := by
  refine active.of_eq rfl rfl rfl rfl ?_ rfl
  rw [Kernel.takeUnit, queue_note, queue_setSemaphore_value]

theorem Active.vBody {k : Kernel T S L C} (active : k.Active) (s : S) :
    (k.vBody s).Active := by
  refine (active.wakeFirst (.semaphore s)).of_eq rfl rfl rfl rfl ?_ rfl
  rw [Kernel.vBody, queue_note, queue_setSemaphore_value]

omit [DecidableEq T] [DecidableEq S] [DecidableEq L] [DecidableEq C] in
theorem Active.enter {k : Kernel T S L C} (active : k.Active) (l : L) :
    (k.enter l).Active :=
  active.of_eq rfl rfl rfl rfl (by simp [Kernel.enter]) rfl

omit [DecidableEq T] [DecidableEq S] [DecidableEq C] in
theorem Active.takeLock {k : Kernel T S L C} (active : k.Active) (l : L) :
    (k.takeLock l).Active := by
  refine active.of_eq rfl rfl rfl rfl ?_ rfl
  rw [Kernel.takeLock, queue_setLock_owner]

theorem Active.releaseBody {k : Kernel T S L C} (active : k.Active) (l : L) :
    (k.releaseBody l).Active := by
  have noted : (k.note (.left l k.currentThread)).Active :=
    active.of_eq rfl rfl rfl rfl (by simp) rfl
  refine Active.wakeFirst ?_ (.lock l)
  unfold clearOwner
  split
  · exact noted.of_eq rfl rfl rfl rfl (queue_setLock_owner l none false _) rfl
  · exact noted

theorem Active.wakeWaiter {k : Kernel T S L C} (active : k.Active) (c : C) :
    (k.wakeWaiter c).Active := by
  unfold Kernel.wakeWaiter
  split
  · exact active
  · exact (active.wakeFirst (.condition c)).of_eq rfl rfl rfl rfl (by simp) rfl

theorem Active.signalBody {k : Kernel T S L C} (active : k.Active) (c : C)
    (conditionLock : Option L) : (k.signalBody c conditionLock).Active := by
  unfold Kernel.signalBody
  split
  · exact active
  · split
    · exact active
    · exact active.wakeWaiter c

theorem Active.broadcastLoop (c : C) (threads : List T) {k : Kernel T S L C}
    (active : k.Active) : (broadcastLoop c threads k).Active := by
  induction threads generalizing k with
  | nil => exact active
  | cons t threads inductionHypothesis =>
      exact inductionHypothesis (active.wakeWaiter c)

omit [DecidableEq S] [DecidableEq L] [DecidableEq C] in
/-- A finishing thread leaves every list. -/
theorem Active.finishBody {k : Kernel T S L C} (active : k.Active) :
    k.finishBody.WellFormed := by
  have ready_eq : k.finishBody.readyList = k.readyList := rfl
  have queue_eq : k.finishBody.queue = k.queue :=
    queue_congr rfl rfl rfl
  have status_eq : ∀ t, k.finishBody.status t =
      if t = k.currentThread then .blocked else k.status t := by
    intro t
    simp [Kernel.finishBody, sleep, push, Function.update_apply]
  have stack_eq : ∀ t, k.finishBody.stack t =
      if t = k.currentThread then [.inFinish] else k.stack t := by
    intro t
    by_cases same : t = k.currentThread <;>
      simp [Kernel.finishBody, sleep, push, same, active.empty]
  refine ⟨⟨active.readyOnce, fun t => ?_, fun q => ?_, fun q t => ?_,
    fun t h => ?_, fun t h => ?_, fun t h => ?_⟩, active.off, fun h => ?_,
    fun _ => .inr (by simp [Kernel.finishBody, sleep])⟩
  · rw [ready_eq, status_eq]
    by_cases same : t = k.currentThread
    · simp [same, active.ready, active.runs]
    · simpa [same] using active.ready t
  · rw [queue_eq]
    exact active.queuedOnce q
  · rw [queue_eq, active.queued, status_eq, sleepsOn, sleepsOn, stack_eq]
    by_cases same : t = k.currentThread
    · simp [same, active.runs, Frame.queue]
    · simp [same]
  · rw [status_eq] at h
    by_cases same : t = k.currentThread
    · exact same
    · exact active.running t (by simpa [same] using h)
  · rw [status_eq] at h
    rw [stack_eq]
    by_cases same : t = k.currentThread
    · simp [same] at h
    · simpa [same] using active.suspended t (by simpa [same] using h)
  · rw [status_eq] at h
    rw [Parked, Finished, sleepsOn, stack_eq]
    by_cases same : t = k.currentThread
    · simp [same]
    · simpa [same, Parked, Finished, sleepsOn] using
        active.parked t (by simpa [same] using h)
  · simp [Kernel.finishBody, sleep] at h

/-- Every turn leaves every thread in one place. -/
theorem Active.turn {k k' : Kernel T S L C} {cause : Cause T S L C}
    (active : k.Active) (turn : Turn k cause k') : k'.WellFormed := by
  cases turn with
  | root => exact active.oneTick
  | yielded => exact active.oneTick
  | alone pick none => exact active.oneTick
  | takeUnit s tests value => exact (active.takeUnit s).oneTick
  | parkUnit s tests value => exact active.park rfl (.p s)
  | v s => exact (active.vBody s).oneTick
  | held l acquires held => exact (active.enter l).oneTick
  | takeLock l acquires foreign free =>
      exact ((active.takeLock l).enter l).oneTick
  | parkLock l foreign busy => exact active.park rfl (.acquire l)
  | parkRelock c l foreign busy =>
      have pushed : (k.push (.inReacquire c l .intOn)).Placed :=
        active.setStack_running _ (.inl active.runs)
      refine ⟨pushed.park active.runs rfl ?_, by simpa [push] using active.off,
        fun h => by simp at h, fun _ => .inr (by simp)⟩
      simpa [push, active.empty] using Suspended.reacquire c l
  | returned l returns => exact (active.enter l).oneTick
  | release l => exact (active.releaseBody l).oneTick
  | skipWait c conditionLock rejected => exact active.oneTick
  | parkWait c l accepted =>
      have bound : (k.bindLock c l).Active :=
        active.of_eq rfl rfl rfl rfl (queue_bindLock c l k) rfl
      have noted : (((k.bindLock c l).releaseBody l).note
          (.waited c ((k.bindLock c l).releaseBody l).currentThread l)).Active :=
        (bound.releaseBody l).of_eq rfl rfl rfl rfl (by simp) rfl
      exact noted.park rfl (.wait c l)
  | signal c conditionLock => exact (active.signalBody c conditionLock).oneTick
  | broadcast c conditionLock => exact (active.broadcastLoop c _).oneTick
  | fork t fresh =>
      have other : k.currentThread ≠ t := by
        rintro rfl
        simp [active.runs] at fresh
      have started : (k.setStack t [.threadRoot]).Placed :=
        active.setStack_running _ (.inr fresh)
      have readied : (readyToRun t (k.setStack t [.threadRoot])).Placed :=
        started.readyToRun (.inr fresh) (by simpa using Suspended.root)
      refine Active.oneTick ⟨readied, ?_, ?_, active.off⟩
      · simpa [other] using active.runs
      · simpa [other] using active.empty
  | finish => exact active.finishBody

/-- A handler may wake the very thread that idles. -/
theorem WellFormed.wakeFirst {k : Kernel T S L C} (wf : k.WellFormed)
    (q : WaitQueue S L C) : (k.wakeFirst q).WellFormed where
  toPlaced := wf.toPlaced.wakeFirst q
  level := by simpa using wf.level
  awake h := by
    obtain ⟨runs, empty⟩ := wf.awake (by simpa using h)
    rw [wakeFirst_currentThread, wf.wakeFirst_status q (by simp [runs])]
    exact ⟨runs, by simpa using empty⟩
  asleep h := by
    have before := wf.asleep (by simpa using h)
    rw [wakeFirst_currentThread]
    by_cases blocked : k.status k.currentThread = .blocked
    · unfold Kernel.wakeFirst
      split
      · exact before
      · by_cases same : k.currentThread = ‹T›
        · simp [same]
        · simp [same, blocked]
    · rw [wf.wakeFirst_status q blocked]
      exact before

omit [DecidableEq T] [DecidableEq S] [DecidableEq L] [DecidableEq C] in
theorem WellFormed.of_eq {k k' : Kernel T S L C} (wf : k.WellFormed)
    (current : k'.currentThread = k.currentThread)
    (ready : k'.readyList = k.readyList) (status : k'.status = k.status)
    (stack : k'.stack = k.stack) (queue : k'.queue = k.queue)
    (level : k'.level = k.level) (phase : k'.phase = k.phase) :
    k'.WellFormed where
  toPlaced := wf.toPlaced.of_eq current ready status stack queue
  level := by rw [level, phase, wf.level]
  awake h := by
    rw [current, status, stack]
    exact wf.awake (phase ▸ h)
  asleep h := by
    rw [current, status]
    exact wf.asleep (phase ▸ h)

/-- Every step leaves every thread in one place. -/
theorem WellFormed.step {d : Discipline} {k k' : Kernel T S L C}
    {action : Action T S L C} (wf : k.WellFormed)
    (step : k.step d action = some k') : k'.WellFormed := by
  cases step_effect wf.shaped step with
  | turn begins poised turn =>
      obtain ⟨placed, running⟩ := wf.base begins
      exact Active.turn ⟨placed, running, poised.stack, poised.level⟩ turn
  | handlerV s handling =>
      refine (wf.wakeFirst (.semaphore s)).of_eq rfl rfl rfl rfl ?_ rfl rfl
      rw [vBody, queue_note, queue_setSemaphore_value]
  | handlerP s handling value =>
      refine wf.of_eq rfl rfl rfl rfl ?_ rfl rfl
      rw [takeUnit, queue_note, queue_setSemaphore_value]
  | endTick ticking =>
      have placed :
          ({ k with level := .intOn, phase := .running } : Kernel T S L C).Placed :=
        wf.toPlaced.of_eq rfl rfl rfl rfl (queue_congr rfl rfl rfl)
      exact ⟨placed, rfl, fun _ => wf.awake (.inr ticking), fun h => by simp at h⟩
  | idle asleep nobody =>
      have placed : ({ k with phase := .idle } : Kernel T S L C).Placed :=
        wf.toPlaced.of_eq rfl rfl rfl rfl (queue_congr rfl rfl rfl)
      refine ⟨placed, ?_, fun h => by simp at h, fun _ => wf.asleep (.inl asleep)⟩
      simpa [asleep] using wf.level
  | endIdle idle =>
      have placed : ({ k with phase := .sleeping } : Kernel T S L C).Placed :=
        wf.toPlaced.of_eq rfl rfl rfl rfl (queue_congr rfl rfl rfl)
      refine ⟨placed, ?_, fun h => by simp at h, fun _ => wf.asleep (.inr idle)⟩
      simpa [idle] using wf.level

omit [DecidableEq S] [DecidableEq L] [DecidableEq C] in
theorem boot_wellFormed (main : T) (initialValue : S → Int)
    (lockMemory : L → Lock T) (conditionMemory : C → Condition T L) :
    (boot main initialValue lockMemory conditionMemory).WellFormed := by
  have empty : ∀ q, (boot main initialValue lockMemory conditionMemory).queue q =
      [] := by
    intro q
    cases q <;> rfl
  have others : ∀ t, (boot main initialValue lockMemory conditionMemory).status t =
      if t = main then .running else .justCreated := by
    intro t
    simp [boot, Function.update_apply]
  refine ⟨⟨List.nodup_nil, fun t => ?_, fun q => ?_, fun q t => ?_,
    fun t h => ?_, fun t h => ?_, fun t h => ?_⟩, rfl, fun _ => ?_, fun h => ?_⟩
  · rw [others]
    split <;> simp [boot]
  · rw [empty]
    exact List.nodup_nil
  · rw [empty, others]
    split <;> simp
  · rw [others] at h
    by_contra other
    rw [if_neg (by exact other)] at h
    cases h
  · rw [others] at h
    split at h <;> cases h
  · rw [others] at h
    split at h <;> cases h
  · exact ⟨by simp [boot], rfl⟩
  · simp [boot] at h

end Kernel

/-- Every invariant of steps between well-formed states holds at the end of
every run. -/
theorem invariant_exec {d : Discipline} {I : Kernel T S L C → Prop}
    (preserved : ∀ k action k', k.WellFormed → I k →
      k.step d action = some k' → I k')
    {k k' : Kernel T S L C} {actions : List (Action T S L C)}
    (wf : k.WellFormed) (start : I k)
    (run : (kernelMachine d).exec k actions = some k') : I k' := by
  have both : k'.WellFormed ∧ I k' :=
    Lib.Machine.invariant (I := fun k => k.WellFormed ∧ I k)
      (fun k action k' h step => ⟨h.1.step step, preserved k action k' h.1 h.2 step⟩)
      ⟨wf, start⟩ run
  exact both.2

/-- Every thread is in its place in every state of every run. -/
theorem wellFormed_exec {d : Discipline} {k k' : Kernel T S L C}
    {actions : List (Action T S L C)} (wf : k.WellFormed)
    (run : (kernelMachine d).exec k actions = some k') : k'.WellFormed :=
  Lib.Machine.invariant (fun _ _ _ wf step => wf.step step) wf run

/-! ### What a step leaves alone -/

open Kernel

/-- A turn belongs to one thread. -/
theorem Turn.currentThread_eq {k k' : Kernel T S L C} {cause : Cause T S L C}
    (turn : Turn k cause k') : k'.currentThread = k.currentThread := by
  cases turn with
  | broadcast c conditionLock =>
      rw [oneTick_currentThread, broadcastLoop_currentThread]
  | _ =>
      simp [Kernel.takeUnit, vBody, enter, Kernel.takeLock, push, finishBody,
        sleep, parkWaiter, bindLock]

/-- Nobody else's stack changes in a turn, except that of a thread it
forks. -/
theorem Turn.stack_of_ne {k k' : Kernel T S L C} {cause : Cause T S L C}
    (turn : Turn k cause k') {t : T} (other : t ≠ k.currentThread)
    (old : k.status t ≠ .justCreated) : k'.stack t = k.stack t := by
  cases turn with
  | fork t' fresh =>
      have different : t ≠ t' := by
        rintro rfl
        exact old fresh
      simp [different]
  | broadcast c conditionLock =>
      rw [oneTick_stack, broadcastLoop_stack]
  | _ =>
      simp [Kernel.takeUnit, vBody, enter, Kernel.takeLock, push, finishBody,
        sleep, parkWaiter, bindLock, other]

/-- Before a turn begins, only its thread and a yielding one are touched. -/
theorem Base.stack_of_ne {d : Discipline} {k base : Kernel T S L C}
    {action : Action T S L C} {cause : Cause T S L C}
    (begins : Base d k action cause base) {t : T}
    (other : t ≠ k.currentThread) (next : t ≠ base.currentThread) :
    base.stack t = k.stack t := by
  cases begins with
  | call op running callable => rfl
  | alone pick ticking allowed => rfl
  | dispatch pick next asleep allowed chosen =>
      rw [turnBase_currentThread] at next
      simp [next]
  | yield pick next yields allowed chosen =>
      rw [turnBase_currentThread] at next
      simp [next, yieldBase, push, other]

end Nachos
