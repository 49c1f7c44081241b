/-
Module: Nachos.Threads.Levels
Purpose: The interrupt level is balanced.  In every state of every run, the
  code of a thread finds the level it has asked for, whatever ran meanwhile,
  and interrupts are off everywhere else; so no test of the level fails.  The
  places of the threads are those of the placement invariant once the saved
  levels are forgotten, which `raise` does.
Trusted boundary: none
Main exports: SuspendedAt, Kernel.InBalance, levels_kept
-/
import Nachos.Threads.Asserted
import Nachos.Threads.Placement

namespace Nachos

variable {T S L C : Type}
variable [DecidableEq T] [DecidableEq S] [DecidableEq L] [DecidableEq C]

/-! ### Saved levels -/

/-- The frame of a routine that was called with interrupts on. -/
def Frame.raise : Frame S L C → Frame S L C
  | .threadRoot => .threadRoot
  | .inP s _ => .inP s .intOn
  | .inAcquire l _ => .inAcquire l .intOn
  | .inWait c l _ => .inWait c l .intOn
  | .inReacquire c l _ => .inReacquire c l .intOn
  | .inYield _ => .inYield .intOn
  | .inFinish => .inFinish

/-- The stack whose outermost routine was called with interrupts on. -/
def raiseOuter : List (Frame S L C) → List (Frame S L C)
  | [] => []
  | [frame] => [frame.raise]
  | frame :: rest => frame :: raiseOuter rest

/-- The stacks with which a thread can be off the CPU, its code having called
the outermost routine at the given level. -/
inductive SuspendedAt : IntStatus → List (Frame S L C) → Prop where
  | root : SuspendedAt .intOn [.threadRoot]
  | p (s : S) (own : IntStatus) : SuspendedAt own [.inP s own]
  | acquire (l : L) (own : IntStatus) : SuspendedAt own [.inAcquire l own]
  | wait (c : C) (l : L) (own : IntStatus) : SuspendedAt own [.inWait c l own]
  | reacquire (c : C) (l : L) (own : IntStatus) :
      SuspendedAt own [.inAcquire l .intOff, .inReacquire c l own]
  | yield (own : IntStatus) : SuspendedAt own [.inYield own]

omit [DecidableEq S] [DecidableEq L] [DecidableEq C] in
theorem SuspendedAt.raiseOuter {own : IntStatus} {frames : List (Frame S L C)}
    (suspended : SuspendedAt own frames) :
    Kernel.Suspended (Nachos.raiseOuter frames) := by
  cases suspended with
  | root => exact .root
  | p s => exact .p s
  | acquire l => exact .acquire l
  | wait c l => exact .wait c l
  | reacquire c l => exact .reacquire c l
  | yield => exact .yield

namespace Kernel

/-- The state as it would be if every thread had asked for interrupts on. -/
@[simps] def raise (k : Kernel T S L C) : Kernel T S L C :=
  { k with stack := fun t => raiseOuter (k.stack t) }

omit [DecidableEq T] [DecidableEq S] [DecidableEq L] [DecidableEq C] in
@[simp] theorem queue_raise (k : Kernel T S L C) : k.raise.queue = k.queue :=
  queue_congr rfl rfl rfl

/-- The thread is on the ready list or on a wait queue, and not finished. -/
def Waits (k : Kernel T S L C) (t : T) : Prop :=
  k.status t = .ready ∨ (k.status t = .blocked ∧ k.stack t ≠ [.inFinish])

/-- Everybody is in place and has saved the level of its own code. -/
structure Seated (own : T → IntStatus) (k : Kernel T S L C) : Prop where
  placed : k.raise.Placed
  saved : ∀ t, k.Waits t → SuspendedAt (own t) (k.stack t)
  fresh : ∀ t, k.status t = .justCreated → own t = .intOn

/-- The state between two steps. -/
structure InBalance (own : T → IntStatus) (k : Kernel T S L C) : Prop
    extends Seated own k where
  level : k.level = if k.phase = .running then own k.currentThread else .intOff
  ticking : k.phase = .oneTick → own k.currentThread = .intOn
  awake : k.phase = .running ∨ k.phase = .oneTick →
    k.status k.currentThread = .running ∧ k.stack k.currentThread = []
  asleep : k.phase = .sleeping ∨ k.phase = .idle →
    k.status k.currentThread = .ready ∨ k.status k.currentThread = .blocked

/-- A routine of the current thread is at work, interrupts being off. -/
structure Working (own : T → IntStatus) (k : Kernel T S L C) : Prop
    extends Seated own k where
  off : k.level = .intOff
  phase : k.phase = .running
  runs : k.status k.currentThread = .running
  empty : k.stack k.currentThread = []

variable {own : T → IntStatus}

section

omit [DecidableEq T] [DecidableEq S] [DecidableEq L] [DecidableEq C]

theorem Seated.of_eq {k k' : Kernel T S L C} (seated : k.Seated own)
    (current : k'.currentThread = k.currentThread)
    (ready : k'.readyList = k.readyList) (status : k'.status = k.status)
    (stack : k'.stack = k.stack) (queue : k'.queue = k.queue) :
    k'.Seated own where
  placed := by
    apply seated.placed.of_eq
    · exact current
    · exact ready
    · exact status
    · simp [raise, stack]
    · rw [queue_raise, queue_raise, queue]
  saved t waits := by
    rw [stack]
    apply seated.saved t
    rwa [Waits, status, stack] at waits
  fresh t new := seated.fresh t (status ▸ new)

theorem Working.of_eq {k k' : Kernel T S L C} (working : k.Working own)
    (current : k'.currentThread = k.currentThread)
    (ready : k'.readyList = k.readyList) (status : k'.status = k.status)
    (stack : k'.stack = k.stack) (queue : k'.queue = k.queue)
    (level : k'.level = k.level) (phase : k'.phase = k.phase) :
    k'.Working own where
  toSeated := working.toSeated.of_eq current ready status stack queue
  off := by rw [level, working.off]
  phase := by rw [phase, working.phase]
  runs := by rw [current, status, working.runs]
  empty := by rw [current, stack, working.empty]

end

/-! ### Waking -/

theorem raise_wakeFirst (q : WaitQueue S L C) (k : Kernel T S L C) :
    (k.wakeFirst q).raise = k.raise.wakeFirst q := by
  unfold wakeFirst
  rw [queue_raise]
  split
  · rfl
  · cases q <;> rfl

/-- Only blocked threads that are not finished get ready. -/
theorem waits_of_wakeFirst {k : Kernel T S L C} {q : WaitQueue S L C} {t : T}
    (placed : k.raise.Placed) (waits : (k.wakeFirst q).Waits t) : k.Waits t := by
  revert waits
  unfold wakeFirst
  split
  · exact id
  · rename_i first rest contents
    intro waits
    by_cases same : t = first
    · have queued : first ∈ k.raise.queue q := by simp [contents]
      obtain ⟨blocked, sleeps⟩ := (placed.queued q first).mp queued
      right
      subst same
      refine ⟨blocked, ?_⟩
      intro finished
      simp [sleepsOn, finished, raiseOuter, Frame.raise, Frame.queue] at sleeps
    · simpa [Waits, same] using waits

theorem Seated.wakeFirst {k : Kernel T S L C} (seated : k.Seated own)
    (q : WaitQueue S L C) : (k.wakeFirst q).Seated own where
  placed := by
    rw [raise_wakeFirst]
    exact seated.placed.wakeFirst q
  saved t waits := by
    rw [wakeFirst_stack]
    exact seated.saved t (waits_of_wakeFirst seated.placed waits)
  fresh t new := by
    apply seated.fresh t
    revert new
    unfold Kernel.wakeFirst
    split
    · exact id
    · by_cases same : t = ‹T›
      · simp [same]
      · simp [same]

theorem Seated.wakeFirst_status {k : Kernel T S L C} (seated : k.Seated own)
    (q : WaitQueue S L C) {t : T} (awake : k.status t ≠ .blocked) :
    (k.wakeFirst q).status t = k.status t := by
  have raised := seated.placed.wakeFirst_status q (t := t) awake
  rwa [← raise_wakeFirst] at raised

theorem Working.wakeFirst {k : Kernel T S L C} (working : k.Working own)
    (q : WaitQueue S L C) : (k.wakeFirst q).Working own where
  toSeated := working.toSeated.wakeFirst q
  off := by simpa using working.off
  phase := by simpa using working.phase
  runs := by
    rw [wakeFirst_currentThread,
      working.wakeFirst_status q (by simp [working.runs]), working.runs]
  empty := by simpa using working.empty

omit [DecidableEq T] [DecidableEq L] [DecidableEq C] in
theorem Working.takeUnit {k : Kernel T S L C} (working : k.Working own)
    (s : S) : (k.takeUnit s).Working own := by
  refine working.of_eq rfl rfl rfl rfl ?_ rfl rfl
  rw [Kernel.takeUnit, queue_note, queue_setSemaphore_value]

theorem Working.vBody {k : Kernel T S L C} (working : k.Working own) (s : S) :
    (k.vBody s).Working own := by
  refine (working.wakeFirst (.semaphore s)).of_eq rfl rfl rfl rfl ?_ rfl rfl
  rw [Kernel.vBody, queue_note, queue_setSemaphore_value]

omit [DecidableEq T] [DecidableEq S] [DecidableEq L] [DecidableEq C] in
theorem Working.note {k : Kernel T S L C} (working : k.Working own)
    (e : Event T S L C) : (k.note e).Working own :=
  working.of_eq rfl rfl rfl rfl (by simp) rfl rfl

omit [DecidableEq T] [DecidableEq S] [DecidableEq C] in
theorem Working.takeLock {k : Kernel T S L C} (working : k.Working own)
    (l : L) : (k.takeLock l).Working own := by
  refine working.of_eq rfl rfl rfl rfl ?_ rfl rfl
  rw [Kernel.takeLock, queue_setLock_owner]

omit [DecidableEq T] [DecidableEq S] [DecidableEq L] in
theorem Working.bindLock {k : Kernel T S L C} (working : k.Working own)
    (c : C) (l : L) : (k.bindLock c l).Working own :=
  working.of_eq rfl rfl rfl rfl (queue_bindLock c l k) rfl rfl

theorem Working.releaseBody {k : Kernel T S L C} (working : k.Working own)
    (l : L) : (k.releaseBody l).Working own := by
  have noted := working.note (.left l k.currentThread)
  apply Working.wakeFirst
  unfold clearOwner
  split
  · exact noted.of_eq rfl rfl rfl rfl (queue_setLock_owner l none false _) rfl rfl
  · exact noted

theorem Working.wakeWaiter {k : Kernel T S L C} (working : k.Working own)
    (c : C) : (k.wakeWaiter c).Working own := by
  unfold Kernel.wakeWaiter
  split
  · exact working
  · exact (working.wakeFirst (.condition c)).note _

theorem Working.signalBody {k : Kernel T S L C} (working : k.Working own)
    (c : C) (conditionLock : Option L) :
    (k.signalBody c conditionLock).Working own := by
  unfold Kernel.signalBody
  split
  · exact working
  · split
    · exact working
    · exact working.wakeWaiter c

theorem Working.broadcastLoop (c : C) (threads : List T) {k : Kernel T S L C}
    (working : k.Working own) : (broadcastLoop c threads k).Working own := by
  induction threads generalizing k with
  | nil => exact working
  | cons t threads inductionHypothesis =>
      exact inductionHypothesis (working.wakeWaiter c)

/-! ### Moving the executing thread -/

section

omit [DecidableEq S] [DecidableEq L] [DecidableEq C]

theorem Seated.setStack {k : Kernel T S L C} (seated : k.Seated own) {t : T}
    (frames : List (Frame S L C))
    (free : k.status t = .running ∨ k.status t = .justCreated) :
    (k.setStack t frames).Seated own where
  placed := by
    have raised := seated.placed.setStack_running (raiseOuter frames) free
    have stack_eq : (k.setStack t frames).raise.stack =
        (k.raise.setStack t (raiseOuter frames)).stack := by
      funext t'
      by_cases same : t' = t
      · simp [same]
      · simp [same]
    exact raised.of_eq rfl rfl rfl stack_eq (by simp)
  saved t' waits := by
    have other : t' ≠ t := by
      rintro rfl
      rcases free with free | free <;> simp [Waits, free] at waits
    simpa [other] using seated.saved t' (by simpa [Waits, other] using waits)
  fresh := seated.fresh

theorem Seated.readyToRun {k : Kernel T S L C} (seated : k.Seated own) {t : T}
    (free : k.status t = .running ∨ k.status t = .justCreated)
    (suspended : SuspendedAt (own t) (k.stack t)) :
    (k.readyToRun t).Seated own where
  placed := seated.placed.readyToRun (t := t) free suspended.raiseOuter
  saved t' waits := by
    by_cases same : t' = t
    · rw [same]
      exact suspended
    · exact seated.saved t' (by simpa [Waits, same] using waits)
  fresh t' new := by
    by_cases same : t' = t
    · simp [same] at new
    · exact seated.fresh t' (by simpa [same] using new)

/-- Only the level of the topmost frame can differ. -/
theorem raiseOuter_cons (frame : Frame S L C) (rest : List (Frame S L C)) :
    ∃ top : Frame S L C, top.queue = frame.queue ∧
      raiseOuter (frame :: rest) = top :: raiseOuter rest := by
  cases rest with
  | nil => exact ⟨frame.raise, by cases frame <;> rfl, rfl⟩
  | cons next rest => exact ⟨frame, rfl, rfl⟩

end

theorem Seated.park {k : Kernel T S L C} (seated : k.Seated own)
    {q : WaitQueue S L C} {frame : Frame S L C}
    (running : k.status k.currentThread = .running)
    (sleeps : frame.queue = some q)
    (suspended : SuspendedAt (own k.currentThread)
      (frame :: k.stack k.currentThread)) :
    (k.park q frame).Seated own where
  placed := by
    obtain ⟨top, queue, raised⟩ := raiseOuter_cons frame (k.stack k.currentThread)
    have parked : (k.raise.park q top).Placed := by
      apply seated.placed.park running (queue.trans sleeps)
      change Suspended (top :: raiseOuter (k.stack k.currentThread))
      rw [← raised]
      exact suspended.raiseOuter
    apply parked.of_eq
    · simp
    · simp
    · funext t
      simp
    · funext t
      by_cases same : t = k.currentThread
      · simp [same, raised]
      · simp [same]
    · funext q'
      rw [queue_raise, park_queue, park_queue, queue_raise]
      rfl
  saved t waits := by
    by_cases same : t = k.currentThread
    · simpa [same] using suspended
    · simpa [same] using seated.saved t (by simpa [Waits, same] using waits)
  fresh t new := by
    by_cases same : t = k.currentThread
    · simp [same] at new
    · exact seated.fresh t (by simpa [same] using new)

/-- A thread is taken off the ready list and given the CPU, nobody else
running. -/
theorem Seated.turnBase {k : Kernel T S L C} (seated : k.Seated own) {next : T}
    {rest : List T} (off : ∀ t, k.status t ≠ .running)
    (chosen : k.readyList.Perm (next :: rest)) :
    (({ k with readyList := rest }).turnBase next).Seated own where
  placed := by
    refine (seated.placed.turnBase off chosen).of_eq ?_ ?_ ?_ ?_ ?_
    · exact (turnBase_currentThread _ _).trans (turnBase_currentThread _ _).symm
    · rw [raise_readyList, turnBase_readyList, turnBase_readyList]
    · funext t
      simp
    · funext t
      by_cases same : t = next
      · simp [same, raiseOuter]
      · simp [same]
    · rw [queue_raise, turnBase_queue, turnBase_queue]
      exact queue_congr rfl rfl rfl
  saved t waits := by
    by_cases same : t = next
    · simp [Waits, same] at waits
    · simpa [same] using seated.saved t (by simpa [Waits, same] using waits)
  fresh t new := by
    by_cases same : t = next
    · simp [same] at new
    · exact seated.fresh t (by simpa [same] using new)

/-! ### How a routine ends -/

/-- Every test of the level passes, and the result is balanced. -/
def Ends (own : T → IntStatus) (checked : Option (Kernel T S L C))
    (plain : Kernel T S L C) : Prop :=
  checked = some plain ∧ plain.InBalance own

theorem asserted_park {k : Kernel T S L C} (q : WaitQueue S L C)
    (frame : Frame S L C) (off : k.level = .intOff) :
    Asserted.park q frame k = some (k.park q frame) := by
  simp [Asserted.park, Asserted.sleep, Asserted.assert, push, off, Kernel.park]

section

omit [DecidableEq T] [DecidableEq S] [DecidableEq L] [DecidableEq C]

@[simp] theorem asserted_setLevel (now : IntStatus) (k : Kernel T S L C) :
    Asserted.setLevel false now k = some (k.setLevel now) := by
  simp [Asserted.setLevel, Asserted.assert]

/-- The routine restores the level of its caller. -/
theorem Working.ends_setLevel {k : Kernel T S L C} (working : k.Working own)
    {oldLevel : IntStatus} (asked : own k.currentThread = oldLevel) :
    Ends own (Asserted.setLevel false oldLevel k) (k.setLevel oldLevel) := by
  refine ⟨asserted_setLevel oldLevel k, ?_⟩
  cases oldLevel with
  | intOff =>
      rw [setLevel_intOff, disable_of_off working.off]
      exact
        { toSeated := working.toSeated
          level := by rw [if_pos working.phase, asked, working.off]
          ticking := fun h => by simp [working.phase] at h
          awake := fun _ => ⟨working.runs, working.empty⟩
          asleep := fun h => by simp [working.phase] at h }
  | intOn =>
      rw [setLevel_intOn working.off]
      exact
        { toSeated := working.toSeated.of_eq rfl rfl rfl rfl (by simp)
          level := rfl
          ticking := fun _ => asked
          awake := fun _ => ⟨working.runs, working.empty⟩
          asleep := fun h => by simp at h }

end

/-- The routine sleeps, with interrupts off. -/
theorem Seated.ends_park {k : Kernel T S L C} (seated : k.Seated own)
    {q : WaitQueue S L C} {frame : Frame S L C} (off : k.level = .intOff)
    (running : k.status k.currentThread = .running)
    (sleeps : frame.queue = some q)
    (suspended : SuspendedAt (own k.currentThread)
      (frame :: k.stack k.currentThread)) :
    Ends own (Asserted.park q frame k) (k.park q frame) := by
  constructor
  · exact asserted_park q frame off
  · exact
      { toSeated := seated.park running sleeps suspended
        level := by simp [off]
        ticking := fun h => by simp at h
        awake := fun h => by simp at h
        asleep := fun _ => .inr (by simp) }

theorem Working.ends_park {k : Kernel T S L C} (working : k.Working own)
    {q : WaitQueue S L C} {frame : Frame S L C} (sleeps : frame.queue = some q)
    (suspended : SuspendedAt (own k.currentThread) [frame]) :
    Ends own (Asserted.park q frame k) (k.park q frame) := by
  apply working.toSeated.ends_park working.off working.runs sleeps
  rw [working.empty]
  exact suspended

theorem Working.ends_pLoop {k : Kernel T S L C} (working : k.Working own)
    (s : S) {oldLevel : IntStatus} (asked : own k.currentThread = oldLevel) :
    Ends own (Asserted.pLoop false s oldLevel k) (k.pLoop s oldLevel) := by
  unfold Asserted.pLoop pLoop
  split
  · apply working.ends_park rfl
    rw [asked]
    exact .p s oldLevel
  · exact (working.takeUnit s).ends_setLevel asked

theorem Working.ends_acquireBody {k : Kernel T S L C} (working : k.Working own)
    (l : L) {oldLevel : IntStatus} (asked : own k.currentThread = oldLevel) :
    Ends own (Asserted.acquireBody l oldLevel k) (k.acquireBody l oldLevel) := by
  unfold Asserted.acquireBody acquireBody
  split
  · exact (working.note _).ends_setLevel asked
  · split
    · apply working.ends_park rfl
      rw [asked]
      exact .acquire l oldLevel
    · exact ((working.takeLock l).note _).ends_setLevel asked

/-- `Release` called with interrupts off comes back with interrupts off. -/
theorem asserted_release_of_off {k : Kernel T S L C} (l : L)
    (off : k.level = .intOff) :
    Asserted.release l k = some (k.releaseBody l) := by
  have plain : (k.releaseBody l).disable = k.releaseBody l :=
    disable_of_off (by rw [releaseBody_level, off])
  simp [Asserted.release, Asserted.restoring, Asserted.setLevel, Asserted.assert,
    off, setLevel_intOff, disable_of_off off, plain]

theorem Working.ends_waitOn {k : Kernel T S L C} (working : k.Working own)
    (c : C) (l : L) {oldLevel : IntStatus}
    (asked : own k.currentThread = oldLevel) :
    Ends own (Asserted.waitOn c l oldLevel k) (k.waitOn c l oldLevel) := by
  have checked : Asserted.waitOn c l oldLevel k =
      Asserted.park (.condition c) (.inWait c l oldLevel)
        ((k.releaseBody l).note (.waited c (k.releaseBody l).currentThread l)) := by
    simp [Asserted.waitOn, asserted_release_of_off l working.off,
      Asserted.returned, Asserted.assert]
  rw [checked, waitOn_eq c l oldLevel working.off, parkWaiter]
  apply ((working.releaseBody l).note _).ends_park rfl
  rw [note_currentThread, releaseBody_currentThread, asked]
  exact .wait c l oldLevel

theorem Working.ends_waitBody {k : Kernel T S L C} (working : k.Working own)
    (c : C) (conditionLock : Option L) {oldLevel : IntStatus}
    (asked : own k.currentThread = oldLevel) :
    Ends own (Asserted.waitBody c conditionLock oldLevel k)
      (k.waitBody c conditionLock oldLevel) := by
  unfold Asserted.waitBody waitBody
  cases conditionLock with
  | none => exact working.ends_setLevel asked
  | some l =>
      dsimp only
      split
      · exact working.ends_waitOn c l asked
      · split
        · exact (working.bindLock c l).ends_waitOn c l asked
        · exact working.ends_setLevel asked

/-! ### Coming back to a frame -/

omit [DecidableEq T] [DecidableEq S] [DecidableEq L] [DecidableEq C] in
/-- A restored level is the level, unless a tick comes first. -/
theorem setLevel_level {k : Kernel T S L C} {now : IntStatus}
    (running : (k.setLevel now).phase = .running) :
    (k.setLevel now).level = now := by
  revert running
  unfold setLevel
  split
  · simp
  · simp

/-- `Acquire` called with interrupts off comes back with interrupts off, or
sleeps. -/
theorem acquire_of_off {k : Kernel T S L C} (l : L) (off : k.level = .intOff) :
    k.acquire l =
      if k.isHeldByCurrentThread l then k.enter l
      else if (k.locks l).acquired then k.park (.lock l) (.inAcquire l .intOff)
      else (k.takeLock l).enter l := by
  have entered : (k.enter l).disable = k.enter l := disable_of_off off
  have taken : ((k.takeLock l).enter l).disable = (k.takeLock l).enter l :=
    disable_of_off off
  rw [acquire, off, setLevel_intOff, disable_of_off off, acquireBody,
    setLevel_intOff, setLevel_intOff, entered, taken]

theorem asserted_acquire (l : L) (k : Kernel T S L C) :
    Asserted.acquire l k = some (k.acquire l) := by
  simp only [Asserted.acquire, acquire, asserted_setLevel, Option.bind_eq_bind,
    Option.bind_some, Asserted.acquireBody, acquireBody]
  split
  · rfl
  · split
    · exact asserted_park _ _ (by simp [setLevel_intOff])
    · rfl

/-- The end of `Wait`: the inner `Acquire` finds the lock its own or free, or
sleeps. -/
theorem Working.ends_inWait {k : Kernel T S L C} (working : k.Working own)
    (c : C) (l : L) {oldLevel : IntStatus}
    (asked : own k.currentThread = oldLevel) :
    Ends own (Asserted.returnInto (.inWait c l oldLevel) k)
      (returnInto (.inWait c l oldLevel) k) := by
  -- the inner `Acquire` works on the state with one more frame
  generalize pushed_eq : k.push (.inReacquire c l oldLevel) = pushed
  have off : pushed.level = .intOff := by rw [← pushed_eq]; exact working.off
  have running : pushed.phase = .running := by rw [← pushed_eq]; exact working.phase
  have inner := acquire_of_off l off
  have checked := asserted_acquire l pushed
  simp only [returnInto, Asserted.returnInto, pushed_eq, checked,
    Option.bind_eq_bind, Option.bind_some, inner]
  by_cases held : pushed.isHeldByCurrentThread l
  · have back : (pushed.enter l).setStack (pushed.enter l).currentThread
        (k.stack k.currentThread) = k.enter l := by
      rw [← pushed_eq]
      simp [setStack, push, enter, Kernel.note]
    have level : (pushed.enter l).level = k.level := off.trans working.off.symm
    have inRoutine : (pushed.enter l).phase = .running := running
    simp only [if_pos held, if_pos inRoutine, back, Asserted.returned,
      Asserted.assert, if_pos level, Option.bind_some]
    exact (working.note _).ends_setLevel asked
  · simp only [if_neg held]
    by_cases acquired : (pushed.locks l).acquired = true
    · have asleep : ¬ (pushed.park (.lock l) (.inAcquire l .intOff)).phase =
          .running := by simp
      simp only [if_pos acquired, if_neg asleep]
      rw [← asserted_park _ _ off, ← pushed_eq]
      apply (working.toSeated.setStack _ (.inl working.runs)).ends_park
      · exact working.off
      · exact working.runs
      · rfl
      · simpa [push, working.empty, asked] using SuspendedAt.reacquire c l oldLevel
    · have back : ((pushed.takeLock l).enter l).setStack
          ((pushed.takeLock l).enter l).currentThread (k.stack k.currentThread) =
            (k.takeLock l).enter l := by
        rw [← pushed_eq]
        simp [setStack, push, enter, Kernel.note, Kernel.takeLock, setLock]
      have level : ((pushed.takeLock l).enter l).level = k.level :=
        off.trans working.off.symm
      have inRoutine : ((pushed.takeLock l).enter l).phase = .running := running
      simp only [if_neg acquired, if_pos inRoutine, back, Asserted.returned,
        Asserted.assert, if_pos level, Option.bind_some]
      exact ((working.takeLock l).note _).ends_setLevel asked

/-- Coming back to the only frame. -/
theorem ends_resume_single {k : Kernel T S L C} {frame : Frame S L C}
    (ends : Ends own
      (Asserted.returnInto frame (k.setStack k.currentThread []))
      (returnInto frame (k.setStack k.currentThread [])))
    (restores : (returnInto frame (k.setStack k.currentThread [])).phase = .running →
      frame.oldLevel.getD
          (returnInto frame (k.setStack k.currentThread [])).level =
        (returnInto frame (k.setStack k.currentThread [])).level) :
    Ends own (Asserted.resume [frame] k) (resume [frame] k) := by
  obtain ⟨checked, balanced⟩ := ends
  have plain : resume [frame] k =
      returnInto frame (k.setStack k.currentThread []) := by
    simp [resume]
  rw [plain]
  refine ⟨?_, balanced⟩
  simp only [Asserted.resume, checked, Option.bind_eq_bind, Option.bind_some]
  split
  · rw [restores ‹_›, Asserted.returned, Asserted.assert, if_pos rfl]
    rfl
  · rfl

/-- `ends_resume_single`, where the routine just restores the level. -/
theorem ends_resume_setLevel {k working : Kernel T S L C} {frame : Frame S L C}
    {oldLevel : IntStatus} (saved : frame.oldLevel.getD oldLevel = oldLevel)
    (works : working.Working own) (asked : own working.currentThread = oldLevel)
    (checked : Asserted.returnInto frame (k.setStack k.currentThread []) =
      Asserted.setLevel false oldLevel working)
    (plain : returnInto frame (k.setStack k.currentThread []) =
      working.setLevel oldLevel) :
    Ends own (Asserted.resume [frame] k) (resume [frame] k) := by
  apply ends_resume_single
  · rw [checked, plain]
    exact works.ends_setLevel asked
  · rw [plain]
    intro running
    rw [setLevel_level running, saved]

/-- A thread suspended in the `Acquire` at the end of `Wait` returns through
both. -/
theorem Working.ends_reacquire {k : Kernel T S L C} {c : C} {l : L}
    {oldLevel : IntStatus} (working : (k.setStack k.currentThread []).Working own)
    (asked : own k.currentThread = oldLevel) :
    Ends own (Asserted.resume [.inAcquire l .intOff, .inReacquire c l oldLevel] k)
      (resume [.inAcquire l .intOff, .inReacquire c l oldLevel] k) := by
  -- the state in which the inner `Acquire` has returned
  let inner := ((k.setStack k.currentThread [.inReacquire c l oldLevel]).enter
    l).disable
  have running : inner.phase = .running := working.phase
  have outer : Ends own (Asserted.resume [.inReacquire c l oldLevel] inner)
      (resume [.inReacquire c l oldLevel] inner) := by
    have emptied : inner.setStack inner.currentThread [] =
        (k.setStack k.currentThread []).enter l := by
      have off : k.level = .intOff := working.off
      simp [inner, setStack, enter, Kernel.note, disable, off]
    apply ends_resume_setLevel (show _ = oldLevel from rfl) (working.note _) asked
    · rw [emptied]
      rfl
    · rw [emptied]
      rfl
  have plain : resume [.inAcquire l .intOff, .inReacquire c l oldLevel] k =
      resume [.inReacquire c l oldLevel] inner := by
    rw [resume]
    simp only [returnInto, setLevel_intOff]
    exact if_pos running
  have checked : Asserted.resume [.inAcquire l .intOff, .inReacquire c l oldLevel] k =
      Asserted.resume [.inReacquire c l oldLevel] inner := by
    rw [Asserted.resume]
    simp only [Asserted.returnInto, asserted_setLevel, setLevel_intOff,
      Option.bind_eq_bind, Option.bind_some]
    exact if_pos running
  rw [plain, checked]
  exact outer

/-- Every suspended thread can go on where it stopped. -/
theorem Working.ends_resume {k : Kernel T S L C} {frames : List (Frame S L C)}
    (working : (k.setStack k.currentThread []).Working own)
    (suspended : SuspendedAt (own k.currentThread) frames) :
    Ends own (Asserted.resume frames k) (resume frames k) := by
  generalize asked : own k.currentThread = oldLevel at suspended
  cases suspended with
  | root => exact ends_resume_setLevel rfl working asked rfl rfl
  | p s =>
      apply ends_resume_single (working.ends_pLoop s asked)
      simp only [returnInto, pLoop]
      split
      · intro running
        simp at running
      · intro running
        rw [setLevel_level running]
        rfl
  | acquire l =>
      exact ends_resume_setLevel rfl (working.note (.entered l _)) asked rfl rfl
  | wait c l =>
      apply ends_resume_single (working.ends_inWait c l asked)
      simp only [returnInto]
      split
      · intro running
        rw [setLevel_level running]
        rfl
      · intro running
        exact absurd running ‹_›
  | reacquire c l => exact working.ends_reacquire asked
  | yield => exact ends_resume_setLevel rfl working asked rfl rfl

theorem run_of_root {k : Kernel T S L C} {next : T} (off : k.level = .intOff)
    (root : k.stack next = [.threadRoot]) :
    Asserted.run next k = Asserted.resume [.threadRoot] (k.switch next) ∧
      run next k = resume [.threadRoot] (k.switch next) := by
  constructor
  · simp [Asserted.run, Asserted.assert, off, root]
  · simp [run, root]

theorem run_of_not_root {k : Kernel T S L C} {next : T} (off : k.level = .intOff)
    (old : k.stack next ≠ [.threadRoot]) :
    Asserted.run next k =
        Asserted.resume (k.stack next) (k.switch next).deleteCarcass ∧
      run next k = resume (k.stack next) (k.switch next).deleteCarcass := by
  constructor
  · simp only [Asserted.run, Asserted.assert, if_pos off, Option.bind_eq_bind,
      Option.bind_some]
  · unfold run
    split
    · contradiction
    · rfl

/-- `Scheduler::Run` on a thread of the ready list. -/
theorem Seated.ends_run {k : Kernel T S L C} {next : T} {rest : List T}
    (seated : k.Seated own) (nobody : ∀ t, k.status t ≠ .running)
    (chosen : k.readyList.Perm (next :: rest)) (off : k.level = .intOff) :
    Ends own (Asserted.run next { k with readyList := rest })
      (run next { k with readyList := rest }) := by
  have ready : k.status next = .ready :=
    (seated.placed.ready next).mp (chosen.mem_iff.mpr (by simp))
  have suspended : SuspendedAt (own next) (k.stack next) :=
    seated.saved next (.inl ready)
  have turned : (({ k with readyList := rest }).turnBase next).Seated own :=
    seated.turnBase nobody chosen
  have stack_eq : ({ k with readyList := rest } : Kernel T S L C).stack = k.stack :=
    rfl
  have level_eq : ({ k with readyList := rest } : Kernel T S L C).level = .intOff :=
    off
  generalize { k with readyList := rest } = taken at *
  have working : (taken.turnBase next).Working own :=
    { toSeated := turned
      off := (turnBase_level _ _).trans level_eq
      phase := turnBase_phase _ _
      runs := by simp [turnBase_currentThread]
      empty := by simp [turnBase_currentThread] }
  by_cases root : taken.stack next = [.threadRoot]
  · obtain ⟨checked, plain⟩ := run_of_root level_eq root
    rw [checked, plain, ← root]
    apply Working.ends_resume
    · rwa [Kernel.turnBase, if_pos root] at working
    · rw [stack_eq]
      exact suspended
  · have current : (taken.switch next).deleteCarcass.currentThread = next := by
      unfold deleteCarcass switch
      split <;> rfl
    obtain ⟨checked, plain⟩ := run_of_not_root level_eq root
    rw [checked, plain]
    apply Working.ends_resume
    · rw [current]
      rwa [Kernel.turnBase, if_neg root] at working
    · rw [current, stack_eq]
      exact suspended

/-! ### Calls -/

theorem Working.ends_yieldBody {k : Kernel T S L C} (working : k.Working own)
    (pick : Nat) {oldLevel : IntStatus}
    (asked : own k.currentThread = oldLevel) :
    Ends own (Asserted.yieldBody pick oldLevel k) (k.yieldBody pick oldLevel) := by
  unfold Asserted.yieldBody yieldBody findNextToRun
  cases chosen : k.readyList[pick]? with
  | none => exact working.ends_setLevel asked
  | some next =>
      -- the yielding thread is on the ready list before the switch
      have pushed : (k.push (.inYield oldLevel)).Seated own :=
        working.toSeated.setStack _ (.inl working.runs)
      have readied : (Kernel.readyToRun k.currentThread
          (k.push (.inYield oldLevel))).Seated own := by
        apply pushed.readyToRun (.inl working.runs)
        simpa [push, working.empty, asked] using SuspendedAt.yield oldLevel
      have nobody : ∀ t, (Kernel.readyToRun k.currentThread
          (k.push (.inYield oldLevel))).status t ≠ .running := by
        intro t
        by_cases same : t = k.currentThread
        · simp [same]
        · intro running
          apply same
          exact working.placed.running t (by simpa [push, same] using running)
      have perm : (Kernel.readyToRun k.currentThread
          (k.push (.inYield oldLevel))).readyList.Perm
            (next :: (k.readyList.eraseIdx pick ++ [k.currentThread])) :=
        (readyList_perm chosen).append_right [k.currentThread]
      exact readied.ends_run nobody perm working.off

omit [DecidableEq S] [DecidableEq L] [DecidableEq C] in
/-- A finishing thread leaves every list. -/
theorem Working.ends_finish {k : Kernel T S L C} (working : k.Working own) :
    k.finishBody.InBalance own where
  placed := by
    have active : k.raise.Active :=
      { toPlaced := working.placed
        runs := working.runs
        empty := by
          change raiseOuter (k.stack k.currentThread) = []
          rw [working.empty]
          rfl
        off := working.off }
    have stack_eq : k.finishBody.raise.stack = k.raise.finishBody.stack := by
      funext t
      by_cases same : t = k.currentThread
      · simp [finishBody, sleep, push, same, working.empty, raiseOuter, Frame.raise]
      · simp [finishBody, sleep, push, same]
    have queue_eq : k.finishBody.raise.queue = k.raise.finishBody.queue :=
      queue_congr rfl rfl rfl
    exact active.finishBody.toPlaced.of_eq rfl rfl rfl stack_eq queue_eq
  saved t waits := by
    by_cases same : t = k.currentThread
    · simp [Waits, finishBody, sleep, push, same, working.empty] at waits
    · have before : k.Waits t := by
        simpa [Waits, finishBody, sleep, push, same] using waits
      simpa [finishBody, sleep, push, same] using working.saved t before
  fresh t new := by
    by_cases same : t = k.currentThread
    · simp [finishBody, sleep, push, same] at new
    · exact working.fresh t (by simpa [finishBody, sleep, push, same] using new)
  level := working.off
  ticking h := by simp [finishBody, sleep] at h
  awake h := by simp [finishBody, sleep] at h
  asleep _ := .inr (by simp [finishBody, sleep])

section

omit [DecidableEq T] [DecidableEq S] [DecidableEq L] [DecidableEq C]

/-- The code of a thread calls a routine, which turns interrupts off. -/
theorem InBalance.disable {k : Kernel T S L C} (balanced : k.InBalance own)
    (awake : k.phase = .running ∨ k.phase = .oneTick) :
    ({ k.disable with phase := .running } : Kernel T S L C).Working own where
  toSeated := balanced.toSeated.of_eq rfl rfl rfl rfl (queue_congr rfl rfl rfl)
  off := rfl
  phase := rfl
  runs := (balanced.awake awake).1
  empty := (balanced.awake awake).2

theorem InBalance.disable_running {k : Kernel T S L C} (balanced : k.InBalance own)
    (running : k.phase = .running) : k.disable.Working own := by
  have working := balanced.disable (.inl running)
  have same : ({ k.disable with phase := .running } : Kernel T S L C) =
      k.disable := by
    rw [← running]
    rfl
  rwa [same] at working

theorem InBalance.asked {k : Kernel T S L C} (balanced : k.InBalance own)
    (running : k.phase = .running) : own k.currentThread = k.level := by
  rw [balanced.level, if_pos running]

theorem Working.ends_restoring {k : Kernel T S L C}
    {body : Kernel T S L C → Kernel T S L C}
    (works : (body k.disable).Working own)
    (asked : own (body k.disable).currentThread = k.level) :
    Ends own (Asserted.restoring false body k)
      (setLevel k.level (body (setLevel .intOff k))) := by
  simp only [Asserted.restoring, asserted_setLevel, Option.bind_eq_bind,
    Option.bind_some, setLevel_intOff]
  exact ⟨rfl, (works.ends_setLevel asked).2⟩

end

/-- Every call by the code of a thread passes every test, whatever the level
it is made at. -/
theorem InBalance.ends_perform {d : Discipline} {k : Kernel T S L C}
    {op : Op T S L C} (balanced : k.InBalance own) (running : k.phase = .running)
    (callable : k.Callable d op) :
    Ends own (Asserted.perform op k) (k.perform op) := by
  have working : k.disable.Working own := balanced.disable_running running
  have asked : own k.disable.currentThread = k.level := balanced.asked running
  cases op with
  | p s =>
      simp only [Asserted.perform, Asserted.p, perform, p, asserted_setLevel,
        Option.bind_eq_bind, Option.bind_some, setLevel_intOff]
      exact working.ends_pLoop s asked
  | v s => exact (working.vBody s).ends_restoring (by simpa [Kernel.vBody] using asked)
  | acquire l =>
      simp only [Asserted.perform, Asserted.acquire, perform, acquire,
        asserted_setLevel, Option.bind_eq_bind, Option.bind_some, setLevel_intOff]
      exact working.ends_acquireBody l asked
  | release l => exact (working.releaseBody l).ends_restoring (by simpa using asked)
  | wait c conditionLock =>
      simp only [Asserted.perform, Asserted.wait, perform, wait,
        asserted_setLevel, Option.bind_eq_bind, Option.bind_some, setLevel_intOff]
      exact working.ends_waitBody c conditionLock asked
  | signal c conditionLock =>
      exact (working.signalBody c conditionLock).ends_restoring (by simpa using asked)
  | broadcast c conditionLock =>
      apply Working.ends_restoring (working.broadcastLoop c _)
      simpa using asked
  | fork t =>
      have fresh : k.status t = .justCreated := callable
      have other : k.currentThread ≠ t := by
        rintro rfl
        simp [(balanced.awake (.inl running)).1] at fresh
      have started : (k.disable.setStack t [.threadRoot]).Seated own :=
        working.toSeated.setStack _ (.inr fresh)
      have works : (Kernel.readyToRun t (k.setStack t [.threadRoot]).disable).Working
          own :=
        { toSeated := by
            apply started.readyToRun (.inr fresh)
            rw [working.fresh t fresh]
            simpa using SuspendedAt.root
          off := rfl
          phase := running
          runs := by simpa [other] using working.runs
          empty := by simpa [other] using working.empty }
      exact works.ends_restoring asked
  | yield pick =>
      simp only [Asserted.perform, Asserted.yield, perform, yield,
        asserted_setLevel, Option.bind_eq_bind, Option.bind_some, setLevel_intOff]
      exact working.ends_yieldBody pick asked
  | finish =>
      simp only [perform, finish, setLevel_intOff]
      refine ⟨?_, working.ends_finish⟩
      simp [Asserted.perform, Asserted.finish, Asserted.sleep, Asserted.assert,
        setLevel_intOff, push, finishBody]

/-! ### Handlers -/

/-- A handler may wake the very thread that idles. -/
theorem InBalance.wakeFirst {k : Kernel T S L C} (balanced : k.InBalance own)
    (q : WaitQueue S L C) : (k.wakeFirst q).InBalance own where
  toSeated := balanced.toSeated.wakeFirst q
  level := by simpa using balanced.level
  ticking h := by
    rw [wakeFirst_currentThread]
    exact balanced.ticking (by simpa using h)
  awake h := by
    obtain ⟨runs, empty⟩ := balanced.awake (by simpa using h)
    rw [wakeFirst_currentThread, balanced.wakeFirst_status q (by simp [runs])]
    exact ⟨runs, by simpa using empty⟩
  asleep h := by
    have before := balanced.asleep (by simpa using h)
    rw [wakeFirst_currentThread]
    by_cases blocked : k.status k.currentThread = .blocked
    · unfold Kernel.wakeFirst
      split
      · exact before
      · by_cases same : k.currentThread = ‹T›
        · simp [same]
        · simp [same, blocked]
    · rw [balanced.wakeFirst_status q blocked]
      exact before

section

omit [DecidableEq T] [DecidableEq S] [DecidableEq L] [DecidableEq C]

theorem InBalance.of_eq {k k' : Kernel T S L C} (balanced : k.InBalance own)
    (current : k'.currentThread = k.currentThread)
    (ready : k'.readyList = k.readyList) (status : k'.status = k.status)
    (stack : k'.stack = k.stack) (queue : k'.queue = k.queue)
    (level : k'.level = k.level) (phase : k'.phase = k.phase) :
    k'.InBalance own where
  toSeated := balanced.toSeated.of_eq current ready status stack queue
  level := by rw [level, phase, current, balanced.level]
  ticking h := by
    rw [current]
    exact balanced.ticking (phase ▸ h)
  awake h := by
    rw [current, status, stack]
    exact balanced.awake (phase ▸ h)
  asleep h := by
    rw [current, status]
    exact balanced.asleep (phase ▸ h)

/-- Outside the code of threads interrupts are off. -/
theorem InBalance.off {k : Kernel T S L C} (balanced : k.InBalance own)
    (outside : k.phase ≠ .running) : k.level = .intOff := by
  rw [balanced.level, if_neg outside]

end

theorem InBalance.ends_handlerV {k : Kernel T S L C} (balanced : k.InBalance own)
    (s : S) (off : k.level = .intOff) :
    Ends own (Asserted.handle (Asserted.v true s) k) (k.v s) := by
  have body : (k.vBody s).disable = k.vBody s :=
    disable_of_off (by rw [vBody_level, off])
  have plain : k.v s = k.vBody s := by
    rw [v, off, setLevel_intOff, setLevel_intOff, disable_of_off off, body]
  rw [plain]
  constructor
  · simp [Asserted.handle, Asserted.assert, off, Asserted.v, Asserted.restoring,
      Asserted.setLevel, setLevel_intOff, disable_of_off off, body]
  · refine (balanced.wakeFirst (.semaphore s)).of_eq rfl rfl rfl rfl ?_ rfl rfl
    rw [Kernel.vBody, queue_note, queue_setSemaphore_value]

theorem InBalance.ends_handlerP {k : Kernel T S L C} (balanced : k.InBalance own)
    (s : S) (off : k.level = .intOff) (value : (k.semaphores s).value ≠ 0) :
    Ends own (Asserted.handle (Asserted.p true s) k) (k.p s) := by
  have body : (k.takeUnit s).disable = k.takeUnit s := disable_of_off off
  have level : (k.takeUnit s).level = .intOff := off
  have plain : k.p s = k.takeUnit s := by
    rw [p, off, setLevel_intOff, disable_of_off off, pLoop, if_neg value,
      setLevel_intOff, body]
  rw [plain]
  constructor
  · simp [Asserted.handle, Asserted.assert, off, Asserted.p, Asserted.pLoop,
      Asserted.setLevel, setLevel_intOff, disable_of_off off, body, value, level]
  · refine balanced.of_eq rfl rfl rfl rfl ?_ rfl rfl
    rw [Kernel.takeUnit, queue_note, queue_setSemaphore_value]

/-! ### Steps -/

omit [DecidableEq T] [DecidableEq S] [DecidableEq L] [DecidableEq C] in
/-- The loop of `Sleep` and `Idle` hand over to each other. -/
theorem InBalance.asleep_on {k : Kernel T S L C} (balanced : k.InBalance own)
    (asleep : k.phase = .sleeping ∨ k.phase = .idle) {phase : Phase}
    (still : phase = .sleeping ∨ phase = .idle) :
    ({ k with phase := phase } : Kernel T S L C).InBalance own := by
  have off : k.level = .intOff := balanced.off (by rcases asleep with h | h <;> simp [h])
  exact
    { toSeated := balanced.toSeated.of_eq rfl rfl rfl rfl (queue_congr rfl rfl rfl)
      level := by rcases still with rfl | rfl <;> exact off
      ticking := fun h => by rcases still with rfl | rfl <;> cases h
      awake := fun h => by rcases still with rfl | rfl <;> rcases h with h | h <;> cases h
      asleep := fun _ => balanced.asleep asleep }

/-- Every step from a balanced state passes every test. -/
theorem InBalance.ends_step {d : Discipline} {k k' : Kernel T S L C}
    {action : Action T S L C} (balanced : k.InBalance own)
    (step : k.step d action = some k') :
    Ends own (Asserted.step d k action) k' := by
  cases action with
  | call op =>
      simp only [Kernel.step, Asserted.step] at step ⊢
      split at step
      · rename_i enabled
        cases step
        rw [if_pos enabled]
        exact balanced.ends_perform enabled.1 enabled.2
      · cases step
  | handlerV s =>
      simp only [Kernel.step, Asserted.step] at step ⊢
      split at step
      · rename_i handling
        cases step
        rw [if_pos handling]
        apply balanced.ends_handlerV s (balanced.off _)
        rcases handling with h | h <;> simp [h]
      · cases step
  | handlerP s =>
      simp only [Kernel.step, Asserted.step] at step ⊢
      split at step
      · rename_i enabled
        cases step
        rw [if_pos enabled]
        apply balanced.ends_handlerP s (balanced.off _) enabled.2
        rcases enabled.1 with h | h <;> simp [h]
      · cases step
  | endTick =>
      simp only [Kernel.step, Asserted.step] at step ⊢
      split at step
      · rename_i ticking
        cases step
        have awake := balanced.awake (.inr ticking)
        have off := balanced.off (by simp [ticking])
        rw [if_pos ticking, awake.2]
        constructor
        · simp [Asserted.assert, off, awake.2, Asserted.resume, resume]
        · exact
            { toSeated := balanced.toSeated.of_eq rfl rfl rfl rfl (queue_congr rfl rfl rfl)
              level := (balanced.ticking ticking).symm
              ticking := fun h => by cases h
              awake := fun _ => awake
              asleep := fun h => by rcases h with h | h <;> cases h }
      · cases step
  | timeSlice pick =>
      simp only [Kernel.step, Asserted.step] at step ⊢
      split at step
      · rename_i enabled
        cases step
        have off := balanced.off (by simp [enabled.1])
        have working := balanced.disable (.inr enabled.1)
        rw [if_pos enabled, Asserted.assert, if_pos off]
        exact working.ends_yieldBody pick (balanced.ticking enabled.1)
      · cases step
  | dispatch pick =>
      simp only [Kernel.step, Asserted.step] at step ⊢
      split at step
      · rename_i enabled
        rw [if_pos enabled]
        have off := balanced.off (by simp [enabled.1])
        have nobody : ∀ t, k.status t ≠ .running := by
          intro t running
          have current := balanced.placed.running t running
          change t = k.currentThread at current
          rw [current] at running
          rcases balanced.asleep (.inl enabled.1) with h | h <;> simp [h] at running
        cases chosen : k.readyList[pick]? with
        | none => simp [findNextToRun, chosen] at step
        | some next =>
            simp only [findNextToRun, chosen, Option.map_some, Option.bind_some,
              Option.some.injEq] at step ⊢
            rw [← step]
            exact balanced.toSeated.ends_run nobody (readyList_perm chosen) off
      · cases step
  | idle =>
      simp only [Kernel.step, Asserted.step] at step ⊢
      split at step
      · rename_i enabled
        cases step
        have off := balanced.off (by simp [enabled.1])
        rw [if_pos enabled, Asserted.assert, if_pos off]
        exact ⟨rfl, balanced.asleep_on (.inl enabled.1) (.inr rfl)⟩
      · cases step
  | endIdle =>
      simp only [Kernel.step, Asserted.step] at step ⊢
      split at step
      · rename_i idle
        cases step
        have off := balanced.off (by simp [idle])
        rw [if_pos idle, Asserted.assert, if_pos off]
        exact ⟨rfl, balanced.asleep_on (.inr idle) (.inl rfl)⟩
      · cases step

section

omit [DecidableEq S] [DecidableEq L] [DecidableEq C]

/-- The code of a thread asks for another level. -/
theorem Seated.update {k : Kernel T S L C} (seated : k.Seated own) {t : T}
    (running : k.status t = .running) (now : IntStatus) :
    k.Seated (Function.update own t now) where
  placed := seated.placed
  saved t' waits := by
    have other : t' ≠ t := by
      rintro rfl
      simp [Waits, running] at waits
    simpa [other] using seated.saved t' waits
  fresh t' new := by
    have other : t' ≠ t := by
      rintro rfl
      simp [running] at new
    simpa [other] using seated.fresh t' new

theorem InBalance.setLevel {k : Kernel T S L C} (balanced : k.InBalance own)
    (running : k.phase = .running) (now : IntStatus) :
    (k.setLevel now).InBalance (Function.update own k.currentThread now) := by
  have runs := (balanced.awake (.inl running)).1
  have seated := balanced.toSeated.update runs now
  cases now with
  | intOff =>
      have working : k.disable.Working (Function.update own k.currentThread .intOff) :=
        { toSeated := seated.of_eq rfl rfl rfl rfl (by simp)
          off := rfl
          phase := running
          runs := runs
          empty := (balanced.awake (.inl running)).2 }
      have asked : Function.update own k.currentThread .intOff
          k.disable.currentThread = .intOff := by simp
      have ends := (working.ends_setLevel asked).2
      rwa [setLevel_intOff] at ends ⊢
  | intOn =>
      cases level : k.level with
      | intOff =>
          have working : k.Working (Function.update own k.currentThread .intOn) :=
            { toSeated := seated
              off := level
              phase := running
              runs := runs
              empty := (balanced.awake (.inl running)).2 }
          exact (working.ends_setLevel (by simp)).2
      | intOn =>
          have same : k.setLevel .intOn = k := by
            rw [Kernel.setLevel, if_neg (by simp [level]), ← level]
          rw [same]
          exact
            { toSeated := seated
              level := by simp [level, running]
              ticking := fun h => by simp [running] at h
              awake := balanced.awake
              asleep := balanced.asleep }

end

omit [DecidableEq T] [DecidableEq S] [DecidableEq L] [DecidableEq C] in
theorem InBalance.userTick {k : Kernel T S L C} (balanced : k.InBalance own)
    (running : k.phase = .running) (on : k.level = .intOn) :
    k.oneTick.InBalance own := by
  have working := balanced.disable_running running
  have ends := (working.ends_setLevel ((balanced.asked running).trans on)).2
  rwa [setLevel_intOn working.off] at ends

omit [DecidableEq S] [DecidableEq L] [DecidableEq C] in
theorem boot_inBalance (main : T) (initialValue : S → Int)
    (lockMemory : L → Lock T) (conditionMemory : C → Condition T L) :
    (boot main initialValue lockMemory conditionMemory).InBalance
      (fun _ => .intOn) := by
  have wf := boot_wellFormed main initialValue lockMemory conditionMemory
  exact
    { placed := wf.toPlaced
      saved := fun t waits => by
        rcases waits with ready | blocked
        · exact absurd (wf.suspended t ready).ne_nil (by simp [boot])
        · rcases wf.parked t blocked.1 with ⟨suspended, -⟩ | finished
          · exact absurd suspended.ne_nil (by simp [boot])
          · simp [Finished, boot] at finished
      fresh := fun _ _ => rfl
      level := rfl
      ticking := fun h => by cases h
      awake := wf.awake
      asleep := wf.asleep }

end Kernel

open Kernel

/-- Every step from a balanced state passes every test and keeps the balance. -/
theorem Levelled.step_asserted {d : Discipline} {s s' : Levelled T S L C}
    {action : LevelAction T S L C} (balanced : s.kernel.InBalance s.ownLevel)
    (step : (levelMachine d).step s action = some s') :
    (assertedMachine d).step s action = some s' ∧
      s'.kernel.InBalance s'.ownLevel := by
  cases action with
  | act action =>
      obtain ⟨k, acts, rfl⟩ := Option.map_eq_some_iff.mp step
      obtain ⟨checked, kept⟩ := balanced.ends_step acts
      refine ⟨?_, kept⟩
      simp [assertedMachine, Levelled.stepWith, checked]
  | setLevel now =>
      simp only [levelMachine, assertedMachine, Levelled.stepWith,
        asserted_setLevel] at step ⊢
      split at step
      · rename_i running
        cases step
        rw [if_pos running]
        exact ⟨rfl, balanced.setLevel running now⟩
      · cases step
  | userTick =>
      simp only [levelMachine, assertedMachine, Levelled.stepWith] at step ⊢
      split at step
      · rename_i enabled
        cases step
        rw [if_pos enabled]
        exact ⟨rfl, balanced.userTick enabled.1 enabled.2⟩
      · cases step

/-- In every state of every run of any number of threads and handlers, the
threads setting the level of their own code as they like: the code of a thread
finds the level it has asked for, so that every routine came back at the level
of its caller; everywhere else interrupts are off; and the run passes every
test of the level, those of the source and those on `Run`, on handlers and on
nested calls. -/
theorem levels_kept {d : Discipline} {main : T} {initialValue : S → Int}
    {lockMemory : L → Lock T} {conditionMemory : C → Condition T L}
    {actions : List (LevelAction T S L C)} {s : Levelled T S L C}
    (run : (levelMachine d).exec
      (.boot main initialValue lockMemory conditionMemory) actions = some s) :
    (s.kernel.phase = .running →
      s.kernel.level = s.ownLevel s.kernel.currentThread) ∧
    (s.kernel.phase ≠ .running → s.kernel.level = .intOff) ∧
    (assertedMachine d).exec
      (.boot main initialValue lockMemory conditionMemory) actions = some s := by
  have start := boot_inBalance main initialValue lockMemory conditionMemory
  obtain ⟨checked, balanced⟩ : (assertedMachine d).exec
      (.boot main initialValue lockMemory conditionMemory) actions = some s ∧
        s.kernel.InBalance s.ownLevel :=
    Lib.Machine.exec_congr_of_invariant
      (I := fun s => s.kernel.InBalance s.ownLevel)
      (fun _ _ _ balanced step => Levelled.step_asserted balanced step) start run
  refine ⟨?_, balanced.off, checked⟩
  intro running
  exact (balanced.asked running).symm

/-- Main turns interrupts off and sleeps in `P`; a forked thread, with interrupts
on, calls `V` and is interrupted in favour of main. -/
def sleepWithInterruptsOff {T : Type} (waker : T) :
    List (LevelAction T Unit Unit Unit) :=
  [.setLevel .intOff, .act (.call (.fork waker)), .act (.call (.p ())),
    .act (.dispatch 0), .act .endTick, .act (.call (.v ())), .act (.timeSlice 0)]

theorem levels_kept_across_sleep :
    ∃ s : Levelled (Fin 2) Unit Unit Unit,
      (levelMachine .fifo).exec
        (.boot 0 (fun _ => 0) (fun _ => ⟨false, none, []⟩) (fun _ => ⟨[], none⟩))
        (sleepWithInterruptsOff 1) = some s ∧
      s.kernel.phase = .running ∧ s.kernel.currentThread = 0 ∧
      s.ownLevel 0 = .intOff ∧ s.ownLevel 1 = .intOn ∧
      s.kernel.level = s.ownLevel s.kernel.currentThread := by
  obtain ⟨s, run, running, current, first, second⟩ :
      ∃ s : Levelled (Fin 2) Unit Unit Unit,
        (levelMachine .fifo).exec
          (.boot 0 (fun _ => 0) (fun _ => ⟨false, none, []⟩) (fun _ => ⟨[], none⟩))
          (sleepWithInterruptsOff 1) = some s ∧
        s.kernel.phase = .running ∧ s.kernel.currentThread = 0 ∧
        s.ownLevel 0 = .intOff ∧ s.ownLevel 1 = .intOn :=
    ⟨_, rfl, rfl, rfl, rfl, rfl⟩
  exact ⟨s, run, running, current, first, second, (levels_kept run).1 running⟩

end Nachos
