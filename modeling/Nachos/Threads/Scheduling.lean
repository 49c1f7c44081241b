/-
Module: Nachos.Threads.Scheduling
Purpose: The scheduler's contract over whole runs.  No thread is lost or
  duplicated, a finished thread never comes back, and the FIFO ready list
  dispatches threads in the order in which `ReadyToRun` appended them.
Trusted boundary: none
Main exports: history, Kernel.Place, Kernel.OnlyAt, Kernel.PutAway,
  threads_in_one_place
-/
import Mathlib.Data.List.Nodup
import Nachos.Threads.Placement

namespace Nachos

variable {T S L C : Type}
variable [DecidableEq T] [DecidableEq S] [DecidableEq L] [DecidableEq C]

/-! ### Reading the log -/

/-- What the selected events of a log carry, the oldest first. -/
def history {α : Type} (select : Event T S L C → Option α)
    (log : List (Event T S L C)) : List α :=
  log.reverse.filterMap select

section

omit [DecidableEq T] [DecidableEq S] [DecidableEq L] [DecidableEq C]

@[simp] theorem history_nil {α : Type} (select : Event T S L C → Option α) :
    history select [] = [] := rfl

@[simp] theorem history_cons {α : Type} (select : Event T S L C → Option α)
    (e : Event T S L C) (log : List (Event T S L C)) :
    history select (e :: log) = history select log ++ (select e).toList := by
  cases selected : select e <;> simp [history, selected]

end

def Event.readiedThread : Event T S L C → Option T
  | .readied t => some t
  | _ => none

def Event.dispatchedThread : Event T S L C → Option T
  | .dispatched t => some t
  | _ => none

namespace Kernel

/-- Threads enter the ready list in the order of the `ReadyToRun` calls and
leave it in the same order. -/
def InOrder (k : Kernel T S L C) : Prop :=
  history Event.readiedThread k.log =
    history Event.dispatchedThread k.log ++ k.readyList

/-- Between `k` and `k'` exactly the threads of `woken` were appended to the
ready list, and nobody was taken from it. -/
structure Wakes (k k' : Kernel T S L C) (woken : List T) : Prop where
  readyList : k'.readyList = k.readyList ++ woken
  readied : history Event.readiedThread k'.log =
    history Event.readiedThread k.log ++ woken
  dispatched : history Event.dispatchedThread k'.log =
    history Event.dispatchedThread k.log

section

omit [DecidableEq T] [DecidableEq S] [DecidableEq L] [DecidableEq C]

theorem Wakes.refl (k : Kernel T S L C) : Wakes k k [] where
  readyList := by simp
  readied := by simp
  dispatched := rfl

theorem Wakes.trans {k k' k'' : Kernel T S L C} {first second : List T}
    (left : Wakes k k' first) (right : Wakes k' k'' second) :
    Wakes k k'' (first ++ second) where
  readyList := by rw [right.readyList, left.readyList, List.append_assoc]
  readied := by rw [right.readied, left.readied, List.append_assoc]
  dispatched := by rw [right.dispatched, left.dispatched]

/-- Updates that neither touch the ready list nor log a scheduling event. -/
theorem Wakes.of_eq {k k' k'' : Kernel T S L C} {woken : List T}
    (wakes : Wakes k k' woken) (readyList : k''.readyList = k'.readyList)
    (readied : history Event.readiedThread k''.log =
      history Event.readiedThread k'.log)
    (dispatched : history Event.dispatchedThread k''.log =
      history Event.dispatchedThread k'.log) : Wakes k k'' woken where
  readyList := readyList.trans wakes.readyList
  readied := readied.trans wakes.readied
  dispatched := dispatched.trans wakes.dispatched

theorem Wakes.inOrder {k k' : Kernel T S L C} {woken : List T}
    (wakes : Wakes k k' woken) (inOrder : k.InOrder) : k'.InOrder := by
  rw [InOrder, wakes.readied, wakes.dispatched, wakes.readyList, inOrder,
    List.append_assoc]

end

omit [DecidableEq S] [DecidableEq L] [DecidableEq C] in
theorem wakes_readyToRun (t : T) (k : Kernel T S L C) :
    Wakes k (k.readyToRun t) [t] where
  readyList := rfl
  readied := by simp [readyToRun, Event.readiedThread]
  dispatched := by simp [readyToRun, Event.dispatchedThread]

theorem wakes_wakeFirst (q : WaitQueue S L C) (k : Kernel T S L C) :
    Wakes k (k.wakeFirst q) (k.queue q).head?.toList := by
  unfold wakeFirst
  split
  · rename_i contents
    simpa [contents] using Wakes.refl k
  · rename_i t rest contents
    have woken := wakes_readyToRun t (k.setQueue q rest)
    refine ⟨?_, ?_, ?_⟩
    · simp [contents]
    · simpa [contents] using woken.readied
    · simpa using woken.dispatched

theorem wakes_wakeWaiter (c : C) (k : Kernel T S L C) :
    Wakes k (k.wakeWaiter c) (k.conditions c).waitQueue.head?.toList := by
  unfold wakeWaiter
  split
  · rename_i contents
    simpa [contents] using Wakes.refl k
  · rename_i t rest contents
    have woken := wakes_wakeFirst (.condition c) k
    refine ⟨?_, ?_, ?_⟩
    · simpa [queue] using woken.readyList
    · simpa [queue, Event.readiedThread] using woken.readied
    · simpa [Event.dispatchedThread] using woken.dispatched

theorem wakes_broadcastLoop (c : C) (threads : List T) (k : Kernel T S L C) :
    ∃ woken, Wakes k (broadcastLoop c threads k) woken := by
  induction threads generalizing k with
  | nil => exact ⟨[], Wakes.refl k⟩
  | cons t threads inductionHypothesis =>
      obtain ⟨woken, later⟩ := inductionHypothesis (k.wakeWaiter c)
      exact ⟨_, (wakes_wakeWaiter c k).trans later⟩

theorem wakes_releaseBody (l : L) (k : Kernel T S L C) :
    ∃ woken, Wakes k (k.releaseBody l) woken := by
  have left : Wakes k ((k.note (.left l k.currentThread)).clearOwner l) [] := by
    unfold clearOwner
    split <;> exact (Wakes.refl k).of_eq rfl
      (by simp [Event.readiedThread]) (by simp [Event.dispatchedThread])
  exact ⟨_, left.trans (wakes_wakeFirst (.lock l) _)⟩

theorem wakes_signalBody (c : C) (conditionLock : Option L)
    (k : Kernel T S L C) :
    ∃ woken, Wakes k (k.signalBody c conditionLock) woken := by
  unfold signalBody
  split
  · exact ⟨[], Wakes.refl k⟩
  · split
    · exact ⟨[], Wakes.refl k⟩
    · exact ⟨_, wakes_wakeWaiter c k⟩

end Kernel

open Kernel

/-- Nobody is taken off the ready list in the middle of a turn. -/
theorem Turn.wakes {k k' : Kernel T S L C} {cause : Cause T S L C}
    (turn : Turn k cause k') : ∃ woken, Wakes k k' woken := by
  have silent : ∀ {k'' : Kernel T S L C}, k''.readyList = k.readyList →
      history Event.readiedThread k''.log = history Event.readiedThread k.log →
      history Event.dispatchedThread k''.log =
        history Event.dispatchedThread k.log → ∃ woken, Wakes k k'' woken :=
    fun readyList readied dispatched =>
      ⟨[], (Wakes.refl k).of_eq readyList readied dispatched⟩
  cases turn with
  | root => exact silent rfl rfl rfl
  | yielded => exact silent rfl rfl rfl
  | alone pick none => exact silent rfl rfl rfl
  | takeUnit s tests value =>
      exact silent rfl (by simp [Kernel.takeUnit, Event.readiedThread])
        (by simp [Kernel.takeUnit, Event.dispatchedThread])
  | parkUnit s tests value =>
      exact silent (by simp) (by simp [park, sleep, push])
        (by simp [park, sleep, push])
  | v s =>
      exact ⟨_, (wakes_wakeFirst (.semaphore s) k).of_eq rfl
        (by simp [vBody, Event.readiedThread])
        (by simp [vBody, Event.dispatchedThread])⟩
  | held l acquires held =>
      exact silent rfl (by simp [enter, Event.readiedThread])
        (by simp [enter, Event.dispatchedThread])
  | takeLock l acquires foreign free =>
      exact silent rfl (by simp [enter, Kernel.takeLock, Event.readiedThread])
        (by simp [enter, Kernel.takeLock, Event.dispatchedThread])
  | parkLock l foreign busy =>
      exact silent (by simp) (by simp [park, sleep, push])
        (by simp [park, sleep, push])
  | parkRelock c l foreign busy =>
      exact silent (by simp [push]) (by simp [park, sleep, push])
        (by simp [park, sleep, push])
  | returned l returns =>
      exact silent rfl (by simp [enter, Event.readiedThread])
        (by simp [enter, Event.dispatchedThread])
  | release l =>
      obtain ⟨woken, wakes⟩ := wakes_releaseBody l k
      exact ⟨woken, wakes.of_eq rfl rfl rfl⟩
  | skipWait c conditionLock rejected => exact silent rfl rfl rfl
  | parkWait c l accepted =>
      obtain ⟨woken, wakes⟩ := wakes_releaseBody l (k.bindLock c l)
      have bound : Wakes k (k.bindLock c l) [] :=
        (Wakes.refl k).of_eq rfl rfl rfl
      refine ⟨_, (bound.trans wakes).of_eq ?_ ?_ ?_⟩
      · simp [parkWaiter]
      · simp [parkWaiter, park, sleep, push, Event.readiedThread]
      · simp [parkWaiter, park, sleep, push, Event.dispatchedThread]
  | signal c conditionLock =>
      obtain ⟨woken, wakes⟩ := wakes_signalBody c conditionLock k
      exact ⟨woken, wakes.of_eq rfl rfl rfl⟩
  | broadcast c conditionLock =>
      obtain ⟨woken, wakes⟩ :=
        wakes_broadcastLoop c (k.conditions c).waitQueue k
      exact ⟨woken, wakes.of_eq rfl rfl rfl⟩
  | fork t fresh =>
      have started : Wakes k (k.setStack t [.threadRoot]) [] :=
        (Wakes.refl k).of_eq rfl rfl rfl
      exact ⟨_, (started.trans (wakes_readyToRun t _)).of_eq rfl rfl rfl⟩
  | finish => exact silent rfl rfl rfl

namespace Kernel

/-- A switch logs the dispatch, and perhaps the end of a dead thread. -/
theorem turnBase_history {α : Type} {select : Event T S L C → Option α}
    (next : T) (k : Kernel T S L C) (skips : ∀ t, select (.deleted t) = none) :
    history select (k.turnBase next).log =
      history select k.log ++ (select (.dispatched next)).toList := by
  unfold turnBase deleteCarcass switch
  split
  · simp
  · split <;> simp [skips]

/-- With `FindNextToRun` taking the first thread, a turn begins in order. -/
theorem InOrder.base {k base : Kernel T S L C} {action : Action T S L C}
    {cause : Cause T S L C} (inOrder : k.InOrder)
    (begins : Base .fifo k action cause base) : base.InOrder := by
  cases begins with
  | call op running callable => exact inOrder
  | alone pick ticking allowed => exact inOrder
  | dispatch pick next asleep allowed chosen =>
      obtain rfl : pick = 0 := by simpa [Discipline.allows] using allowed
      obtain ⟨rest, list_eq⟩ : ∃ rest, k.readyList = next :: rest := by
        rw [← List.head?_eq_getElem?] at chosen
        exact List.head?_eq_some_iff.mp chosen
      rw [InOrder, turnBase_history _ _ (fun _ => rfl),
        turnBase_history _ _ (fun _ => rfl), turnBase_readyList]
      rw [InOrder, list_eq] at inOrder
      simp [Event.readiedThread, Event.dispatchedThread, list_eq, inOrder]
  | yield pick next yields allowed chosen =>
      obtain rfl : pick = 0 := by simpa [Discipline.allows] using allowed
      obtain ⟨rest, list_eq⟩ : ∃ rest, k.readyList = next :: rest := by
        rw [← List.head?_eq_getElem?] at chosen
        exact List.head?_eq_some_iff.mp chosen
      rw [InOrder, turnBase_history _ _ (fun _ => rfl),
        turnBase_history _ _ (fun _ => rfl), turnBase_readyList]
      rw [InOrder, list_eq] at inOrder
      simp [yieldBase, push, readyToRun, Event.readiedThread,
        Event.dispatchedThread, list_eq, inOrder]

theorem InOrder.step {k k' : Kernel T S L C} {action : Action T S L C}
    (shaped : k.Shaped) (inOrder : k.InOrder)
    (step : k.step .fifo action = some k') : k'.InOrder := by
  cases step_effect shaped step with
  | turn begins poised turn =>
      obtain ⟨woken, wakes⟩ := turn.wakes
      exact wakes.inOrder (inOrder.base begins)
  | handlerV s handling =>
      have wakes : Wakes k (k.vBody s) _ :=
        (wakes_wakeFirst (.semaphore s) k).of_eq rfl
          (by simp [vBody, Event.readiedThread])
          (by simp [vBody, Event.dispatchedThread])
      exact wakes.inOrder inOrder
  | handlerP s handling value =>
      have wakes : Wakes k (k.takeUnit s) [] :=
        (Wakes.refl k).of_eq rfl (by simp [takeUnit, Event.readiedThread])
          (by simp [takeUnit, Event.dispatchedThread])
      exact wakes.inOrder inOrder
  | endTick ticking => exact inOrder
  | idle asleep nobody => exact inOrder
  | endIdle idle => exact inOrder

/-! ### Finished threads -/

/-- The thread is `main` or has been forked. -/
def Known (k : Kernel T S L C) (t : T) : Prop :=
  k.status t ≠ .justCreated

instance (k : Kernel T S L C) (t : T) : Decidable (k.Known t) :=
  inferInstanceAs (Decidable (k.status t ≠ .justCreated))

theorem Known.wakeFirst {k : Kernel T S L C} {t : T} (known : k.Known t)
    (q : WaitQueue S L C) : (k.wakeFirst q).Known t := by
  unfold Kernel.wakeFirst
  split
  · exact known
  · rename_i first rest contents
    by_cases same : t = first
    · simp [Known, same]
    · simpa [Known, same] using known

theorem Known.wakeWaiter {k : Kernel T S L C} {t : T} (known : k.Known t)
    (c : C) : (k.wakeWaiter c).Known t := by
  unfold Kernel.wakeWaiter
  split
  · exact known
  · exact known.wakeFirst (.condition c)

theorem Known.broadcastLoop {k : Kernel T S L C} {t : T} (known : k.Known t)
    (c : C) (threads : List T) : (broadcastLoop c threads k).Known t := by
  induction threads generalizing k with
  | nil => exact known
  | cons first threads inductionHypothesis =>
      exact inductionHypothesis (known.wakeWaiter c)

theorem Known.releaseBody {k : Kernel T S L C} {t : T} (known : k.Known t)
    (l : L) : (k.releaseBody l).Known t := by
  refine Known.wakeFirst ?_ (.lock l)
  unfold clearOwner
  split <;> exact known

theorem Known.park {k : Kernel T S L C} {t : T} (known : k.Known t)
    (q : WaitQueue S L C) (frame : Frame S L C) : (k.park q frame).Known t := by
  by_cases same : t = k.currentThread
  · simp [Known, same]
  · simpa [Known, same] using known

omit [DecidableEq S] [DecidableEq L] [DecidableEq C] in
theorem Known.readyToRun {k : Kernel T S L C} {t : T} (known : k.Known t)
    (t' : T) : (k.readyToRun t').Known t := by
  by_cases same : t = t'
  · simp [Known, same]
  · simpa [Known, same] using known

theorem Known.turn {k k' : Kernel T S L C} {cause : Cause T S L C} {t : T}
    (known : k.Known t) (turn : Turn k cause k') : k'.Known t := by
  cases turn with
  | parkUnit s tests value => exact known.park _ _
  | v s => exact known.wakeFirst (.semaphore s)
  | parkLock l foreign busy => exact known.park _ _
  | parkRelock c l foreign busy =>
      exact Known.park (k := k.push (.inReacquire c l .intOn)) known _ _
  | release l => exact known.releaseBody l
  | parkWait c l accepted =>
      have released : ((k.bindLock c l).releaseBody l).Known t :=
        Known.releaseBody (k := k.bindLock c l) known l
      exact Known.park (k := Kernel.note _ _) released _ _
  | signal c conditionLock =>
      unfold Known signalBody
      split
      · exact known
      · split
        · exact known
        · exact known.wakeWaiter c
  | broadcast c conditionLock => exact known.broadcastLoop c _
  | fork t' fresh =>
      exact Known.readyToRun (k := k.setStack t' [.threadRoot]) known t'
  | finish =>
      by_cases same : t = k.currentThread
      · simp [Known, same, finishBody, sleep, push]
      · simpa [Known, same, finishBody, sleep, push] using known
  | _ => exact known

theorem Known.base {d : Discipline} {k base : Kernel T S L C}
    {action : Action T S L C} {cause : Cause T S L C} {t : T}
    (known : k.Known t) (begins : Base d k action cause base) :
    base.Known t := by
  cases begins with
  | call op running callable => exact known
  | alone pick ticking allowed => exact known
  | dispatch pick next asleep allowed chosen =>
      by_cases same : t = next
      · simp [Known, same]
      · simpa [Known, same] using known
  | yield pick next yields allowed chosen =>
      by_cases same : t = next
      · simp [Known, same]
      · have readied := Known.readyToRun
          (k := { k.disable with readyList := k.readyList.eraseIdx pick })
          known k.currentThread
        simpa [Known, same, yieldBase, push] using readied

theorem Placed.releaseBody_status {k : Kernel T S L C} (placed : k.Placed) (l : L)
    {t : T} (awake : k.status t ≠ .blocked) :
    (k.releaseBody l).status t = k.status t := by
  have left : ((k.note (.left l k.currentThread)).clearOwner l).Placed := by
    unfold clearOwner
    split
    · exact placed.of_eq rfl rfl rfl rfl (queue_setLock_owner l none false _)
    · exact placed.of_eq rfl rfl rfl rfl (by simp)
  have same : ((k.note (.left l k.currentThread)).clearOwner l).status t =
      k.status t := by
    unfold clearOwner
    split <;> rfl
  exact (left.wakeFirst_status (.lock l) (by rw [same]; exact awake)).trans same

theorem Placed.wakeWaiter_status {k : Kernel T S L C} (placed : k.Placed) (c : C)
    {t : T} (awake : k.status t ≠ .blocked) :
    (k.wakeWaiter c).status t = k.status t := by
  unfold Kernel.wakeWaiter
  split
  · rfl
  · exact placed.wakeFirst_status (.condition c) awake

theorem Placed.broadcastLoop_status (c : C) (threads : List T) {t : T}
    {k : Kernel T S L C} (placed : k.Placed) (awake : k.status t ≠ .blocked) :
    (Kernel.broadcastLoop c threads k).status t = k.status t := by
  induction threads generalizing k with
  | nil => rfl
  | cons first threads inductionHypothesis =>
      have same := placed.wakeWaiter_status c awake
      have placed' : (k.wakeWaiter c).Placed := by
        unfold Kernel.wakeWaiter
        split
        · exact placed
        · exact (placed.wakeFirst (.condition c)).of_eq rfl rfl rfl rfl (by simp)
      exact (inductionHypothesis placed' (by rw [same]; exact awake)).trans same

/-- Only `Fork` makes a thread known. -/
theorem Active.known_of_turn {k k' : Kernel T S L C} {cause : Cause T S L C}
    {t : T} (active : k.Active) (turn : Turn k cause k') (known : k'.Known t) :
    k.Known t ∨ cause = .call (.fork t) := by
  by_contra neither
  obtain ⟨old, elsewhere⟩ := not_or.mp neither
  have unknown : k.status t = .justCreated := not_not.mp old
  have other : t ≠ k.currentThread := by
    rintro rfl
    simp [active.runs] at unknown
  have awake : k.status t ≠ .blocked := by simp [unknown]
  refine known ?_
  cases turn with
  | parkUnit s tests value => simpa [other] using unknown
  | v s => exact (active.wakeFirst_status (.semaphore s) awake).trans unknown
  | parkLock l foreign busy => simpa [other] using unknown
  | parkRelock c l foreign busy => simpa [push, other] using unknown
  | release l => exact (active.releaseBody_status l awake).trans unknown
  | parkWait c l accepted =>
      have bound : (k.bindLock c l).Placed :=
        active.toPlaced.of_eq rfl rfl rfl rfl (queue_bindLock c l k)
      have released := (bound.releaseBody_status l awake).trans unknown
      have current : t ≠ (k.bindLock c l).currentThread := other
      simpa [parkWaiter, current] using released
  | signal c conditionLock =>
      unfold Kernel.signalBody
      split
      · exact unknown
      · split
        · exact unknown
        · exact (active.wakeWaiter_status c awake).trans unknown
  | broadcast c conditionLock =>
      exact (Placed.broadcastLoop_status c _ active.toPlaced awake).trans unknown
  | fork t' fresh =>
      have different : t ≠ t' := by
        rintro rfl
        exact elsewhere rfl
      simpa [different] using unknown
  | finish => simpa [Kernel.finishBody, sleep, push, other] using unknown
  | _ => exact unknown

theorem WellFormed.known_of_step {d : Discipline} {k k' : Kernel T S L C}
    {action : Action T S L C} {t : T} (wf : k.WellFormed)
    (step : k.step d action = some k') (known : k'.Known t) :
    k.Known t ∨ action = .call (.fork t) := by
  cases step_effect wf.shaped step with
  | turn begins poised turn =>
      obtain ⟨placed, running⟩ := wf.base begins
      have active := Active.known_of_turn
        ⟨placed, running, poised.stack, poised.level⟩ turn known
      rcases active with before | forks
      · left
        cases begins with
        | call op runs callable => exact before
        | alone pick ticking allowed => exact before
        | dispatch pick next asleep allowed chosen =>
            by_cases same : t = next
            · have ready := (wf.ready next).mp (List.mem_of_getElem? chosen)
              rw [Known, same, ready]
              simp
            · simpa [Known, same] using before
        | yield pick next yields allowed chosen =>
            by_cases same : t = next
            · have ready := (wf.ready next).mp (List.mem_of_getElem? chosen)
              rw [Known, same, ready]
              simp
            · by_cases current : t = k.currentThread
              · have runs := (wf.awake (yields.imp And.right And.right)).1
                rw [Known, current, runs]
                simp
              · simpa [Known, same, current, Kernel.yieldBase, push] using before
      · right
        subst forks
        cases begins
        rfl
  | handlerV s handling =>
      left
      intro fresh
      refine known ?_
      exact (wf.wakeFirst_status (.semaphore s) (by simp [fresh])).trans fresh
  | handlerP s handling value => exact .inl known
  | endTick ticking => exact .inl known
  | idle asleep nobody => exact .inl known
  | endIdle idle => exact .inl known

/-- The thread has called `Finish` and the CPU has gone to another one. -/
structure Gone (k : Kernel T S L C) (t : T) : Prop where
  known : k.Known t
  finished : k.Finished t
  away : t ≠ k.currentThread

omit [DecidableEq T] [DecidableEq S] [DecidableEq L] [DecidableEq C] in
/-- Nobody dispatches a finished thread. -/
theorem WellFormed.next_ne_gone {k : Kernel T S L C} (wf : k.WellFormed)
    {t next : T} {pick : Nat} (finished : k.Finished t)
    (chosen : k.readyList[pick]? = some next) : t ≠ next := by
  rintro rfl
  have suspended := wf.shaped.ready t (List.mem_of_getElem? chosen)
  rw [finished] at suspended
  cases suspended

theorem Gone.base {d : Discipline} {k base : Kernel T S L C}
    {action : Action T S L C} {cause : Cause T S L C} {t : T} (gone : k.Gone t)
    (wf : k.WellFormed) (begins : Base d k action cause base) :
    base.Gone t := by
  have away : t ≠ base.currentThread := by
    cases begins with
    | call op running callable => exact gone.away
    | alone pick ticking allowed => exact gone.away
    | dispatch pick next asleep allowed chosen =>
        rw [turnBase_currentThread]
        exact wf.next_ne_gone gone.finished chosen
    | yield pick next yields allowed chosen =>
        rw [turnBase_currentThread]
        exact wf.next_ne_gone gone.finished chosen
  refine ⟨gone.known.base begins, ?_, away⟩
  rw [Finished, begins.stack_of_ne gone.away away]
  exact gone.finished

theorem Gone.step {d : Discipline} {k k' : Kernel T S L C}
    {action : Action T S L C} {t : T} (wf : k.WellFormed) (gone : k.Gone t)
    (step : k.step d action = some k') : k'.Gone t := by
  cases step_effect wf.shaped step with
  | turn begins poised turn =>
      obtain ⟨known, finished, away⟩ := gone.base wf begins
      refine ⟨known.turn turn, ?_, ?_⟩
      · rw [Finished, turn.stack_of_ne away known]
        exact finished
      · rw [turn.currentThread_eq]
        exact away
  | handlerV s handling =>
      refine ⟨gone.known.wakeFirst (.semaphore s), ?_, ?_⟩
      · simpa [Finished, vBody] using gone.finished
      · simpa [vBody] using gone.away
  | handlerP s handling value =>
      exact ⟨gone.known, gone.finished, gone.away⟩
  | endTick ticking => exact ⟨gone.known, gone.finished, gone.away⟩
  | idle asleep nobody => exact ⟨gone.known, gone.finished, gone.away⟩
  | endIdle idle => exact ⟨gone.known, gone.finished, gone.away⟩

/-! ### Places -/

/-- The places of the system: the CPU, the ready list, the wait queues. -/
inductive Place (S L C : Type) where
  | cpu
  | ready
  | queue (q : WaitQueue S L C)
deriving DecidableEq, Repr

def occupants (k : Kernel T S L C) : Place S L C → List T
  | .cpu => [k.currentThread]
  | .ready => k.readyList
  | .queue q => k.queue q

/-- The thread is once in this place and in no other. -/
def OnlyAt (k : Kernel T S L C) (t : T) (place : Place S L C) : Prop :=
  (k.occupants place).count t = 1 ∧
    ∀ other, other ≠ place → t ∉ k.occupants other

/-- The CPU apart, the thread is once in one place. -/
def PutAway (k : Kernel T S L C) (t : T) : Prop :=
  ∃ place, place ≠ .cpu ∧ (k.occupants place).count t = 1 ∧
    ∀ other, other ≠ place → other ≠ .cpu → t ∉ k.occupants other

omit [DecidableEq T] [DecidableEq S] [DecidableEq L] [DecidableEq C] in
theorem Gone.nowhere {k : Kernel T S L C} {t : T} (gone : k.Gone t)
    (wf : k.WellFormed) (place : Place S L C) : t ∉ k.occupants place := by
  have finished : k.stack t = [.inFinish] := gone.finished
  cases place with
  | cpu => simpa [occupants] using gone.away
  | ready =>
      intro member
      have suspended := wf.shaped.ready t member
      rw [finished] at suspended
      cases suspended
  | queue q =>
      intro member
      have sleeps := ((wf.queued q t).mp member).2
      simp [sleepsOn, finished, Frame.queue] at sleeps

omit [DecidableEq S] [DecidableEq L] [DecidableEq C] in
/-- A thread that is not executing is on the list its status names. -/
theorem Placed.putAway {k : Kernel T S L C} (placed : k.Placed) {t : T}
    (unfinished : ¬ k.Finished t)
    (listed : k.status t = .ready ∨ k.status t = .blocked) : k.PutAway t := by
  rcases listed with ready | blocked
  · refine ⟨.ready, by simp, ?_, ?_⟩
    · exact List.count_eq_one_of_mem placed.readyOnce ((placed.ready t).mpr ready)
    · intro other different notCpu
      cases other with
      | cpu => exact absurd rfl notCpu
      | ready => exact absurd rfl different
      | queue q =>
          intro member
          simp [((placed.queued q t).mp member).1] at ready
  · rcases placed.parked t blocked with ⟨-, sleeps⟩ | finished
    · obtain ⟨q, sleepsOn_eq⟩ := Option.ne_none_iff_exists'.mp sleeps
      refine ⟨.queue q, by simp, ?_, ?_⟩
      · exact List.count_eq_one_of_mem (placed.queuedOnce q)
          ((placed.queued q t).mpr ⟨blocked, sleepsOn_eq⟩)
      · intro other different notCpu
        cases other with
        | cpu => exact absurd rfl notCpu
        | ready =>
            intro member
            simp [(placed.ready t).mp member] at blocked
        | queue q' =>
            intro member
            have same := ((placed.queued q' t).mp member).2
            rw [sleepsOn_eq] at same
            cases same
            exact different rfl
    · exact absurd finished unfinished

omit [DecidableEq T] [DecidableEq S] [DecidableEq L] [DecidableEq C] in
/-- A known thread that is not executing is ready or blocked. -/
theorem WellFormed.listed {k : Kernel T S L C} (wf : k.WellFormed) {t : T}
    (known : k.Known t) (idle : t ≠ k.currentThread) :
    k.status t = .ready ∨ k.status t = .blocked := by
  cases status : k.status t with
  | justCreated => exact absurd status known
  | running => exact absurd (wf.running t status) idle
  | ready => exact .inl rfl
  | blocked => exact .inr rfl

theorem WellFormed.onlyAt {k : Kernel T S L C} (wf : k.WellFormed) {t : T}
    (known : k.Known t) (unfinished : ¬ k.Finished t)
    (settled : ¬ (t = k.currentThread ∧
      (k.phase = .sleeping ∨ k.phase = .idle))) :
    ∃ place, k.OnlyAt t place := by
  by_cases current : t = k.currentThread
  · subst current
    have awake : k.phase = .running ∨ k.phase = .oneTick := by
      cases phase : k.phase <;> simp [phase] at settled ⊢
    have runs := (wf.awake awake).1
    refine ⟨.cpu, by simp [occupants], fun other different => ?_⟩
    cases other with
    | cpu => exact absurd rfl different
    | ready =>
        intro member
        simp [(wf.ready _).mp member] at runs
    | queue q =>
        intro member
        simp [((wf.queued q _).mp member).1] at runs
  · obtain ⟨place, -, once, elsewhere⟩ :=
      wf.putAway unfinished (wf.listed known current)
    refine ⟨place, once, fun other different => ?_⟩
    by_cases cpu : other = .cpu
    · subst cpu
      simpa [occupants] using current
    · exact elsewhere other different cpu

end Kernel

/-! ### The contract of the scheduler -/

/-- In every state of every run each unfinished thread is in one place, apart
from a thread that has put itself away and still has the CPU; a finished
thread that the CPU has left never comes back; and threads are dispatched in
the order of the `ReadyToRun` calls. -/
theorem threads_in_one_place {main : T} {initialValue : S → Int}
    {lockMemory : L → Lock T} {conditionMemory : C → Condition T L}
    {actions : List (Action T S L C)} {k : Kernel T S L C}
    (run : (kernelMachine .fifo).exec
      (boot main initialValue lockMemory conditionMemory) actions = some k) :
    (∀ t, k.Known t → ¬ k.Finished t →
      (t = k.currentThread ∧ (k.phase = .sleeping ∨ k.phase = .idle) →
        k.PutAway t) ∧
      (¬ (t = k.currentThread ∧ (k.phase = .sleeping ∨ k.phase = .idle)) →
        ∃ place, k.OnlyAt t place)) ∧
    (∀ t, k.Known t → k.Finished t → t ≠ k.currentThread →
      ∀ later k', (kernelMachine .fifo).exec k later = some k' →
        ∀ place, t ∉ k'.occupants place) ∧
    history Event.readiedThread k.log =
      history Event.dispatchedThread k.log ++ k.readyList := by
  have booted := boot_wellFormed main initialValue lockMemory conditionMemory
  have wf := wellFormed_exec booted run
  refine ⟨fun t known unfinished => ⟨?_, wf.onlyAt known unfinished⟩, ?_, ?_⟩
  · rintro ⟨rfl, asleep⟩
    exact wf.putAway unfinished (wf.asleep asleep)
  · intro t known finished away later k' continued
    have gone : k'.Gone t :=
      invariant_exec (I := fun k => k.Gone t)
        (fun _ _ _ wf gone step => gone.step wf step) wf
        ⟨known, finished, away⟩ continued
    exact gone.nowhere (wellFormed_exec wf continued)
  · exact invariant_exec (I := InOrder)
      (fun _ _ _ wf inOrder step => inOrder.step wf.shaped step) booted rfl run

/-- Thread 0 forks threads 1 and 2, thread 1 waits for a unit that thread 2
provides, and thread 2 finishes and gives the CPU back to thread 0. -/
theorem forked_threads_in_one_place :
    ∃ k : Kernel (Fin 3) Unit Empty Empty,
      (kernelMachine .fifo).exec
        (boot 0 (fun _ => 0) Empty.elim Empty.elim)
        [.call (.fork 1), .endTick, .call (.fork 2), .endTick,
          .call (.yield 0), .endTick, .call (.p ()), .dispatch 0, .endTick,
          .call (.v ()), .endTick, .call .finish, .dispatch 0] = some k ∧
      k.Finished 2 ∧ k.occupants .cpu = [0] ∧ k.occupants .ready = [1] ∧
      (∀ later k', (kernelMachine .fifo).exec k later = some k' →
        ∀ place, 2 ∉ k'.occupants place) ∧
      history Event.readiedThread k.log =
        history Event.dispatchedThread k.log ++ k.readyList := by
  obtain ⟨k, run, finished, known, cpu, ready⟩ :
      ∃ k : Kernel (Fin 3) Unit Empty Empty, (kernelMachine .fifo).exec
        (boot 0 (fun _ => 0) Empty.elim Empty.elim)
        [.call (.fork 1), .endTick, .call (.fork 2), .endTick,
          .call (.yield 0), .endTick, .call (.p ()), .dispatch 0, .endTick,
          .call (.v ()), .endTick, .call .finish, .dispatch 0] = some k ∧
        k.Finished 2 ∧ k.Known 2 ∧ k.currentThread = 0 ∧ k.readyList = [1] :=
    ⟨_, rfl, rfl, by decide, rfl, rfl⟩
  obtain ⟨-, never, order⟩ := threads_in_one_place run
  refine ⟨k, run, finished, by rw [occupants, cpu], ready, ?_, order⟩
  exact never 2 known finished (by simp [cpu])

end Nachos
