/-
Module: Nachos.Threads.Conditions
Purpose: Condition variables over whole runs.  The waiters of a condition are
  woken in the order in which their `Wait`s were accepted, all of them have
  waited under the lock the condition is bound to, and the release inside
  `Wait` cannot be separated from the enqueuing.
Trusted boundary: none
Main exports: Kernel.acceptedWait, acceptedWaits, Kernel.WaitsUnder,
  condition_contract
-/
import Nachos.Threads.Scheduling

namespace Nachos

variable {T S L C : Type}
variable [DecidableEq T] [DecidableEq S] [DecidableEq L] [DecidableEq C]

/-- The thread that a `Signal` or `Broadcast` on `c` has woken. -/
def Event.wokenOn (c : C) : Event T S L C → Option T
  | .woken c' t => if c' = c then some t else none
  | _ => none

/-- The thread whose `Wait` on `c` has put it on the queue. -/
def Event.waitedOn (c : C) : Event T S L C → Option T
  | .waited c' t _ => if c' = c then some t else none
  | _ => none

namespace Kernel

/-- The thread whose `Wait` on `c` is accepted in this step: its lock is not
NULL, and is `waitingLock` unless that is NULL. -/
def acceptedWait (c : C) (k : Kernel T S L C) : Action T S L C → Option T
  | .call (.wait c' (some l)) =>
      if c' = c ∧ k.Accepts c l then some k.currentThread else none
  | _ => none

end Kernel

/-- The threads of the accepted `Wait`s on `c`, in the order of the calls. -/
def acceptedWaits (d : Discipline) (c : C) :
    Kernel T S L C → List (Action T S L C) → List T
  | _, [] => []
  | k, action :: actions =>
      (k.acceptedWait c action).toList ++
        ((k.step d action).elim [] fun k' => acceptedWaits d c k' actions)

namespace Kernel

/-- Condition `c` and its history are what they were. -/
structure Unmoved (c : C) (k k' : Kernel T S L C) : Prop where
  condition : k'.conditions c = k.conditions c
  woken : history (Event.wokenOn c) k'.log = history (Event.wokenOn c) k.log
  waited : history (Event.waitedOn c) k'.log = history (Event.waitedOn c) k.log

section

omit [DecidableEq T] [DecidableEq S] [DecidableEq L]

theorem Unmoved.trans {c : C} {k k' k'' : Kernel T S L C}
    (first : Unmoved c k k') (second : Unmoved c k' k'') : Unmoved c k k'' where
  condition := second.condition.trans first.condition
  woken := second.woken.trans first.woken
  waited := second.waited.trans first.waited

theorem Unmoved.oneTick {c : C} {k k' : Kernel T S L C} (unmoved : Unmoved c k k') :
    Unmoved c k k'.oneTick where
  condition := unmoved.condition
  woken := unmoved.woken
  waited := unmoved.waited

end

theorem wakeFirst_history {α : Type} {select : Event T S L C → Option α}
    (q : WaitQueue S L C) (k : Kernel T S L C)
    (skips : ∀ t, select (.readied t) = none) :
    history select (k.wakeFirst q).log = history select k.log := by
  unfold wakeFirst
  split
  · rfl
  · simp [readyToRun, skips]

theorem unmoved_wakeFirst {c : C} {q : WaitQueue S L C} (k : Kernel T S L C)
    (other : q ≠ .condition c) : Unmoved c k (k.wakeFirst q) where
  condition := wakeFirst_conditions k other
  woken := wakeFirst_history q k fun _ => rfl
  waited := wakeFirst_history q k fun _ => rfl

omit [DecidableEq T] [DecidableEq L] in
theorem unmoved_takeUnit (c : C) (s : S) (k : Kernel T S L C) : Unmoved c k (k.takeUnit s) where
  condition := rfl
  woken := by simp [takeUnit, Event.wokenOn]
  waited := by simp [takeUnit, Event.waitedOn]

theorem unmoved_vBody (c : C) (s : S) (k : Kernel T S L C) : Unmoved c k (k.vBody s) := by
  refine (unmoved_wakeFirst k (q := .semaphore s) (by simp)).trans ⟨rfl, ?_, ?_⟩
  · simp [vBody, Event.wokenOn]
  · simp [vBody, Event.waitedOn]

omit [DecidableEq T] [DecidableEq S] [DecidableEq L] in
theorem unmoved_enter (c : C) (l : L) (k : Kernel T S L C) : Unmoved c k (k.enter l) where
  condition := rfl
  woken := by simp [enter, Event.wokenOn]
  waited := by simp [enter, Event.waitedOn]

theorem unmoved_park {c : C} {q : WaitQueue S L C} (frame : Frame S L C)
    (k : Kernel T S L C) (other : q ≠ .condition c) :
    Unmoved c k (k.park q frame) where
  condition := setQueue_conditions _ k other
  woken := by simp [park, sleep, push]
  waited := by simp [park, sleep, push]

theorem unmoved_releaseBody (c : C) (l : L) (k : Kernel T S L C) :
    Unmoved c k (k.releaseBody l) := by
  have left : Unmoved c k ((k.note (.left l k.currentThread)).clearOwner l) := by
    unfold clearOwner
    split <;> exact ⟨rfl, by simp [Event.wokenOn], by simp [Event.waitedOn]⟩
  exact left.trans (unmoved_wakeFirst _ (by simp))

theorem unmoved_wakeWaiter {c c' : C} (k : Kernel T S L C) (other : c ≠ c') :
    Unmoved c k (k.wakeWaiter c') := by
  unfold wakeWaiter
  split
  · exact ⟨rfl, rfl, rfl⟩
  · refine (unmoved_wakeFirst k (q := .condition c') (by simp [other.symm])).trans ?_
    exact ⟨rfl, by simp [Event.wokenOn, other.symm], by simp [Event.waitedOn]⟩

theorem unmoved_signalBody {c c' : C} (conditionLock : Option L)
    (k : Kernel T S L C) (other : c ≠ c') :
    Unmoved c k (k.signalBody c' conditionLock) := by
  unfold signalBody
  split
  · exact ⟨rfl, rfl, rfl⟩
  · split
    · exact ⟨rfl, rfl, rfl⟩
    · exact unmoved_wakeWaiter k other

theorem unmoved_broadcastLoop {c c' : C} (threads : List T)
    (k : Kernel T S L C) (other : c ≠ c') :
    Unmoved c k (broadcastLoop c' threads k) := by
  induction threads generalizing k with
  | nil => exact ⟨rfl, rfl, rfl⟩
  | cons t threads inductionHypothesis =>
      exact (unmoved_wakeWaiter k other).trans (inductionHypothesis _)

/-! ### The three operations on one condition -/

theorem wakeWaiter_cons {c : C} {k : Kernel T S L C} {t : T} {rest : List T}
    (contents : (k.conditions c).waitQueue = t :: rest) :
    (k.wakeWaiter c).conditions c =
        { k.conditions c with waitQueue := rest } ∧
      (k.wakeWaiter c).readyList = k.readyList ++ [t] ∧
      (k.wakeWaiter c).log = .woken c t :: .readied t :: k.log := by
  have queued : k.queue (.condition c) = t :: rest := contents
  simp [wakeWaiter, contents, wakeFirst, queued, readyToRun, setQueue]

theorem signalBody_nil {c : C} {k : Kernel T S L C} (conditionLock : Option L)
    (contents : (k.conditions c).waitQueue = []) :
    k.signalBody c conditionLock = k := by
  simp [signalBody, contents]

theorem signalBody_cases (c : C) (conditionLock : Option L)
    (k : Kernel T S L C) :
    k.signalBody c conditionLock = k ∨
    ∃ t rest, (k.conditions c).waitQueue = t :: rest ∧
      (k.conditions c).waitingLock = conditionLock ∧
      k.signalBody c conditionLock = k.wakeWaiter c := by
  unfold signalBody
  cases contents : (k.conditions c).waitQueue with
  | nil => exact .inl (by simp)
  | cons t rest =>
      by_cases bound : (k.conditions c).waitingLock = conditionLock
      · exact .inr ⟨t, rest, rfl, bound, by simp [bound]⟩
      · exact .inl (by simp [bound])

/-- The loop of `Broadcast` empties the queue in order. -/
theorem broadcastLoop_all (c : C) (threads : List T) (k : Kernel T S L C)
    (contents : (k.conditions c).waitQueue = threads) :
    (broadcastLoop c threads k).conditions c =
        { k.conditions c with waitQueue := [] } ∧
      (broadcastLoop c threads k).readyList = k.readyList ++ threads ∧
      history (Event.wokenOn c) (broadcastLoop c threads k).log =
        history (Event.wokenOn c) k.log ++ threads ∧
      history (Event.waitedOn c) (broadcastLoop c threads k).log =
        history (Event.waitedOn c) k.log := by
  induction threads generalizing k with
  | nil => exact ⟨by rw [broadcastLoop, ← contents], by simp [broadcastLoop]⟩
  | cons t threads inductionHypothesis =>
      obtain ⟨condition, readyList, log⟩ := wakeWaiter_cons contents
      obtain ⟨condition', readyList', woken', waited'⟩ :=
        inductionHypothesis (k.wakeWaiter c) (by rw [condition])
      rw [broadcastLoop]
      refine ⟨by rw [condition', condition], ?_, ?_, ?_⟩
      · rw [readyList', readyList, List.append_assoc, List.singleton_append]
      · rw [woken', log]
        simp [Event.wokenOn]
      · rw [waited', log]
        simp [Event.waitedOn]

theorem parkWait_condition (c : C) (l : L) (k : Kernel T S L C) :
    ((((k.bindLock c l).releaseBody l).parkWaiter c l .intOn).conditions c) =
      { waitQueue := (k.conditions c).waitQueue ++ [k.currentThread],
        waitingLock := some l } := by
  have released := (unmoved_releaseBody c l (k.bindLock c l)).condition
  have bound : (k.bindLock c l).conditions c =
      { k.conditions c with waitingLock := some l } := by simp [bindLock]
  simp [parkWaiter, park, sleep, push, setQueue, queue, released, bound]
  rfl

theorem parkWait_log (c : C) (l : L) (k : Kernel T S L C) :
    (((k.bindLock c l).releaseBody l).parkWaiter c l .intOn).log =
      .waited c k.currentThread l :: ((k.bindLock c l).releaseBody l).log := by
  simp [parkWaiter, park, sleep, push]
  rfl

end Kernel

open Kernel

/-- The only turns that move a condition are an accepted `Wait`, a `Signal`
and a `Broadcast` on it. -/
theorem Turn.condition_cases {k k' : Kernel T S L C} {cause : Cause T S L C}
    (turn : Turn k cause k') (c : C) :
    (Unmoved c k k' ∧ ∀ l, cause = .call (.wait c (some l)) → ¬ k.Accepts c l) ∨
    (∃ l, k.Accepts c l ∧ cause = .call (.wait c (some l)) ∧
      k' = ((k.bindLock c l).releaseBody l).parkWaiter c l .intOn) ∨
    (∃ conditionLock, cause = .call (.signal c conditionLock) ∧
      k' = (k.signalBody c conditionLock).oneTick) ∨
    (∃ conditionLock, cause = .call (.broadcast c conditionLock) ∧
      k' = (broadcastLoop c (k.conditions c).waitQueue k).oneTick) := by
  cases turn with
  | takeUnit s tests value =>
      exact .inl ⟨(unmoved_takeUnit c s k).oneTick, by rintro l rfl; cases tests⟩
  | parkUnit s tests value =>
      exact .inl ⟨unmoved_park _ k (by simp), by rintro l rfl; cases tests⟩
  | v s => exact .inl ⟨(unmoved_vBody c s k).oneTick, by simp⟩
  | held l acquires held =>
      exact .inl ⟨(unmoved_enter c l k).oneTick, by rintro l rfl; cases acquires⟩
  | takeLock l acquires foreign free =>
      have taken : Unmoved c k (k.takeLock l) := ⟨rfl, rfl, rfl⟩
      exact .inl ⟨(taken.trans (unmoved_enter c l _)).oneTick,
        by rintro l rfl; cases acquires⟩
  | parkLock l foreign busy => exact .inl ⟨unmoved_park _ k (by simp), by simp⟩
  | parkRelock c' l foreign busy =>
      have pushed : Unmoved c k (k.push (.inReacquire c' l .intOn)) := ⟨rfl, rfl, rfl⟩
      exact .inl ⟨pushed.trans (unmoved_park _ _ (by simp)), by simp⟩
  | returned l returns =>
      exact .inl ⟨(unmoved_enter c l k).oneTick, by rintro l rfl; cases returns⟩
  | release l => exact .inl ⟨(unmoved_releaseBody c l k).oneTick, by simp⟩
  | skipWait c' conditionLock rejected =>
      refine .inl ⟨⟨rfl, rfl, rfl⟩, fun l same => ?_⟩
      cases same
      exact rejected l rfl
  | parkWait c' l accepted =>
      by_cases same : c = c'
      · subst same
        exact .inr (.inl ⟨l, accepted, rfl, rfl⟩)
      · have bound : Unmoved c k (k.bindLock c' l) :=
          ⟨by simp [bindLock, same], rfl, rfl⟩
        have released := bound.trans (unmoved_releaseBody c l _)
        have noted : Unmoved c ((k.bindLock c' l).releaseBody l)
            (((k.bindLock c' l).releaseBody l).note
              (.waited c' ((k.bindLock c' l).releaseBody l).currentThread l)) :=
          ⟨rfl, by simp [Event.wokenOn], by simp [Event.waitedOn, Ne.symm same]⟩
        refine .inl ⟨(released.trans noted).trans
          (unmoved_park _ _ (by simp [Ne.symm same])), ?_⟩
        rintro l' call
        cases call
        exact absurd rfl same
  | signal c' conditionLock =>
      by_cases same : c = c'
      · subst same
        exact .inr (.inr (.inl ⟨conditionLock, rfl, rfl⟩))
      · exact .inl ⟨(unmoved_signalBody conditionLock k same).oneTick, by simp⟩
  | broadcast c' conditionLock =>
      by_cases same : c = c'
      · subst same
        exact .inr (.inr (.inr ⟨conditionLock, rfl, rfl⟩))
      · have loop := unmoved_broadcastLoop (k.conditions c').waitQueue k same
        exact .inl ⟨loop.oneTick, by simp⟩
  | fork t fresh =>
      exact .inl ⟨⟨rfl, by simp [readyToRun, Event.wokenOn],
        by simp [readyToRun, Event.waitedOn]⟩, by simp⟩
  | root => exact .inl ⟨⟨rfl, rfl, rfl⟩, by simp⟩
  | yielded => exact .inl ⟨⟨rfl, rfl, rfl⟩, by simp⟩
  | alone pick none => exact .inl ⟨⟨rfl, rfl, rfl⟩, by simp⟩
  | finish => exact .inl ⟨⟨rfl, rfl, rfl⟩, by simp⟩

namespace Kernel

/-! ### The order of the waiters -/

/-- Woken threads and queue together are the accepted waits. -/
def WakesInOrder (c : C) (k : Kernel T S L C) : Prop :=
  history (Event.wokenOn c) k.log ++ (k.conditions c).waitQueue =
    history (Event.waitedOn c) k.log

omit [DecidableEq T] [DecidableEq S] [DecidableEq L] in
theorem Unmoved.wakesInOrder {c : C} {k k' : Kernel T S L C}
    (unmoved : Unmoved c k k') (order : k.WakesInOrder c) :
    k'.WakesInOrder c := by
  rw [WakesInOrder, unmoved.woken, unmoved.waited, unmoved.condition]
  exact order

@[simp] theorem turnBase_conditions (next : T) (k : Kernel T S L C) :
    (k.turnBase next).conditions = k.conditions := by
  unfold turnBase deleteCarcass switch
  split
  · rfl
  · split <;> rfl

theorem unmoved_base {d : Discipline} {k base : Kernel T S L C}
    {action : Action T S L C} {cause : Cause T S L C}
    (begins : Base d k action cause base) (c : C) : Unmoved c k base := by
  cases begins with
  | call op running callable => exact ⟨rfl, rfl, rfl⟩
  | alone pick ticking allowed => exact ⟨rfl, rfl, rfl⟩
  | dispatch pick next asleep allowed chosen =>
      refine ⟨by simp, ?_, ?_⟩
      · rw [turnBase_history _ _ (fun _ => rfl)]
        simp [Event.wokenOn]
      · rw [turnBase_history _ _ (fun _ => rfl)]
        simp [Event.waitedOn]
  | yield pick next yields allowed chosen =>
      refine ⟨by simp [Kernel.yieldBase, push, readyToRun], ?_, ?_⟩
      · rw [turnBase_history _ _ (fun _ => rfl)]
        simp [Kernel.yieldBase, push, readyToRun, Event.wokenOn]
      · rw [turnBase_history _ _ (fun _ => rfl)]
        simp [Kernel.yieldBase, push, readyToRun, Event.waitedOn]

/-- A turn keeps the order, and adds to the accepted waits exactly its own. -/
theorem WakesInOrder.turn {c : C} {k k' : Kernel T S L C}
    {cause : Cause T S L C} (order : k.WakesInOrder c)
    (turn : Turn k cause k') :
    k'.WakesInOrder c ∧
    ((∃ l, k.Accepts c l ∧ cause = .call (.wait c (some l)) ∧
        history (Event.waitedOn c) k'.log =
          history (Event.waitedOn c) k.log ++ [k.currentThread]) ∨
      ((∀ l, cause = .call (.wait c (some l)) → ¬ k.Accepts c l) ∧
        history (Event.waitedOn c) k'.log =
          history (Event.waitedOn c) k.log)) := by
  rcases turn.condition_cases c with ⟨unmoved, rejected⟩ |
    ⟨l, accepted, rfl, rfl⟩ | ⟨conditionLock, rfl, rfl⟩ | ⟨conditionLock, rfl, rfl⟩
  · exact ⟨unmoved.wakesInOrder order, .inr ⟨rejected, unmoved.waited⟩⟩
  · obtain ⟨-, woken, waited⟩ := unmoved_releaseBody c l (k.bindLock c l)
    refine ⟨?_, .inl ⟨l, accepted, rfl, ?_⟩⟩
    · rw [WakesInOrder, parkWait_condition, parkWait_log, history_cons,
        history_cons, woken, waited]
      simpa [Event.wokenOn, Event.waitedOn, WakesInOrder, bindLock,
        ← List.append_assoc] using order
    · rw [parkWait_log, history_cons, waited]
      simp [Event.waitedOn, bindLock]
  · refine ⟨?_, .inr ⟨by simp, ?_⟩⟩ <;>
      rcases signalBody_cases c conditionLock k with
        same | ⟨t, rest, contents, -, moved⟩
    · rw [same]
      exact order
    · obtain ⟨condition, -, log⟩ := wakeWaiter_cons contents
      rw [WakesInOrder, contents] at order
      rw [moved, WakesInOrder, oneTick_log, oneTick_conditions, condition, log]
      simpa [Event.wokenOn, Event.waitedOn] using order
    · rw [same, oneTick_log]
    · obtain ⟨-, -, log⟩ := wakeWaiter_cons contents
      rw [moved, oneTick_log, log]
      simp [Event.waitedOn]
  · obtain ⟨condition, -, woken, waited⟩ := broadcastLoop_all c _ k rfl
    refine ⟨?_, .inr ⟨by simp, by rw [oneTick_log, waited]⟩⟩
    rw [WakesInOrder, oneTick_log, oneTick_conditions, condition, woken, waited,
      List.append_nil]
    exact order

theorem WakesInOrder.step {d : Discipline} {c : C} {k k' : Kernel T S L C}
    {action : Action T S L C} (shaped : k.Shaped) (order : k.WakesInOrder c)
    (step : k.step d action = some k') :
    k'.WakesInOrder c ∧
      history (Event.waitedOn c) k'.log =
        history (Event.waitedOn c) k.log ++ (k.acceptedWait c action).toList := by
  cases step_effect shaped step with
  | @turn action cause base k' begins poised turn =>
      have same := unmoved_base begins c
      obtain ⟨order', accepted⟩ := (same.wakesInOrder order).turn turn
      refine ⟨order', ?_⟩
      rw [same.waited] at accepted
      cases begins with
      | call op running callable =>
          rcases accepted with ⟨l, accepts, call, waited⟩ | ⟨rejected, waited⟩
          · cases call
            have accepts' : k.Accepts c l := accepts
            rw [waited]
            simp [acceptedWait, accepts']
          · have none : k.acceptedWait c (.call op) = none := by
              unfold acceptedWait
              split
              · rename_i c' l call
                cases call
                refine if_neg ?_
                rintro ⟨rfl, accepts⟩
                exact rejected l rfl accepts
              · rfl
            rw [waited, none]
            simp
      | alone pick ticking allowed =>
          rcases accepted with ⟨l, -, call, -⟩ | ⟨-, waited⟩
          · cases call
          · simpa [acceptedWait] using waited
      | dispatch pick next asleep allowed chosen =>
          rcases accepted with ⟨l, -, call, -⟩ | ⟨-, waited⟩
          · cases call
          · simpa [acceptedWait] using waited
      | yield pick next yields allowed chosen =>
          rcases accepted with ⟨l, -, call, -⟩ | ⟨-, waited⟩
          · cases call
          · rcases yields with ⟨rfl, -⟩ | ⟨rfl, -⟩ <;>
              simpa [acceptedWait] using waited
  | handlerV s handling =>
      have unmoved := unmoved_vBody c s k
      exact ⟨unmoved.wakesInOrder order, by simpa [acceptedWait] using unmoved.waited⟩
  | handlerP s handling value =>
      have unmoved := unmoved_takeUnit c s k
      exact ⟨unmoved.wakesInOrder order, by simpa [acceptedWait] using unmoved.waited⟩
  | endTick ticking => exact ⟨order, by simp [acceptedWait]⟩
  | idle asleep nobody => exact ⟨order, by simp [acceptedWait]⟩
  | endIdle idle => exact ⟨order, by simp [acceptedWait]⟩

/-! ### The lock of the waiters -/

/-- A thread in `Wait` on `c` waits under the lock that `c` is bound to. -/
def WaitsUnder (c : C) (k : Kernel T S L C) : Prop :=
  ∀ t l, k.stack t = [.inWait c l .intOn] → (k.conditions c).waitingLock = some l

end Kernel

/-- A turn leaves every thread in the `Wait` it was in, and puts its own
thread into one only when that is accepted. -/
theorem Turn.stack_inWait {k k' : Kernel T S L C} {cause : Cause T S L C}
    (turn : Turn k cause k') (poised : k.Poised) {t : T} {c : C} {l : L}
    (waits : k'.stack t = [.inWait c l .intOn]) :
    k.stack t = [.inWait c l .intOn] ∨
    (t = k.currentThread ∧
      k' = ((k.bindLock c l).releaseBody l).parkWaiter c l .intOn) := by
  by_cases current : t = k.currentThread
  · subst current
    have empty := poised.stack
    cases turn with
    | parkWait c' l' accepted =>
        simp [parkWaiter, bindLock, empty] at waits
        obtain ⟨rfl, rfl⟩ := waits
        exact .inr ⟨rfl, rfl⟩
    | broadcast c' conditionLock => simp [empty] at waits
    | fork t' fresh =>
        by_cases same : k.currentThread = t'
        · simp [same] at waits
        · simp [same, empty] at waits
    | _ =>
        simp [Kernel.takeUnit, vBody, enter, Kernel.takeLock, push, finishBody,
          sleep, empty] at waits
  · cases turn with
    | fork t' fresh =>
        by_cases same : t = t'
        · simp [same] at waits
        · exact .inl (by simpa [same] using waits)
    | broadcast c' conditionLock => exact .inl (by simpa using waits)
    | _ =>
        left
        simpa [Kernel.takeUnit, vBody, enter, Kernel.takeLock, push, finishBody,
          sleep, parkWaiter, bindLock, current] using waits

namespace Kernel

/-- A bound condition stays bound. -/
theorem turn_waitingLock {k k' : Kernel T S L C} {cause : Cause T S L C}
    (turn : Turn k cause k') {c : C} {l : L}
    (bound : (k.conditions c).waitingLock = some l) :
    (k'.conditions c).waitingLock = some l := by
  rcases turn.condition_cases c with ⟨unmoved, -⟩ |
    ⟨l', accepted, -, rfl⟩ | ⟨conditionLock, -, rfl⟩ | ⟨conditionLock, -, rfl⟩
  · rw [unmoved.condition, bound]
  · rw [parkWait_condition]
    rcases accepted with same | none
    · rw [← same, bound]
    · rw [bound] at none
      cases none
  · rcases signalBody_cases c conditionLock k with
      same | ⟨t, rest, contents, -, moved⟩
    · rw [same, oneTick_conditions, bound]
    · obtain ⟨condition, -, -⟩ := wakeWaiter_cons contents
      rw [moved, oneTick_conditions, condition, bound]
  · obtain ⟨condition, -, -, -⟩ := broadcastLoop_all c _ k rfl
    rw [oneTick_conditions, condition, bound]

theorem WaitsUnder.base {d : Discipline} {c : C} {k base : Kernel T S L C}
    {action : Action T S L C} {cause : Cause T S L C} (under : k.WaitsUnder c)
    (begins : Base d k action cause base) : base.WaitsUnder c := by
  intro t l waits
  rw [(unmoved_base begins c).condition]
  refine under t l ?_
  cases begins with
  | call op running callable => exact waits
  | alone pick ticking allowed => exact waits
  | dispatch pick next asleep allowed chosen =>
      by_cases same : t = next
      · simp [same] at waits
      · simpa [same] using waits
  | yield pick next yields allowed chosen =>
      by_cases same : t = next
      · simp [same] at waits
      · by_cases current : t = k.currentThread
        · simp [Kernel.yieldBase, push, current] at waits
          rw [if_neg (by rw [← current]; exact same)] at waits
          simp at waits
        · simpa [same, Kernel.yieldBase, push, current] using waits

theorem WaitsUnder.step {d : Discipline} {c : C} {k k' : Kernel T S L C}
    {action : Action T S L C} (shaped : k.Shaped) (under : k.WaitsUnder c)
    (step : k.step d action = some k') : k'.WaitsUnder c := by
  cases step_effect shaped step with
  | turn begins poised turn =>
      intro t l waits
      rcases turn.stack_inWait poised waits with before | ⟨-, rfl⟩
      · exact turn_waitingLock turn (under.base begins t l before)
      · rw [parkWait_condition]
  | handlerV s handling =>
      intro t l waits
      have condition := wakeFirst_conditions k (q := .semaphore s) (c := c) (by simp)
      have before := under t l (by simpa [vBody] using waits)
      simpa [vBody, condition] using before
  | handlerP s handling value => exact under
  | endTick ticking => exact under
  | idle asleep nobody => exact under
  | endIdle idle => exact under

/-! ### Calls of the running thread -/

theorem perform_signal {k : Kernel T S L C} (on : k.level = .intOn) (c : C)
    (conditionLock : Option L) :
    k.perform (.signal c conditionLock) =
      (k.disable.signalBody c conditionLock).oneTick := by
  rw [perform, signal, on, setLevel_intOff, setLevel_intOn (by simp)]

theorem perform_broadcast {k : Kernel T S L C} (on : k.level = .intOn) (c : C)
    (conditionLock : Option L) :
    k.perform (.broadcast c conditionLock) =
      (broadcastLoop c (k.conditions c).waitQueue k.disable).oneTick := by
  simp only [perform, broadcast, on, setLevel_intOff]
  rw [setLevel_intOn (by simp)]
  rfl

/-- An accepted `Wait` binds the condition, releases the lock with interrupts
off, and queues its thread before they are turned on again. -/
theorem perform_wait {k : Kernel T S L C} (on : k.level = .intOn) {c : C} {l : L}
    (accepted : k.Accepts c l) :
    k.perform (.wait c (some l)) =
      ((k.disable.bindLock c l).release l).parkWaiter c l .intOn := by
  simp only [perform, wait, on, setLevel_intOff, waitBody]
  by_cases bound : (k.disable.conditions c).waitingLock = some l
  · rw [if_pos bound, waitOn, bindLock_eq_self bound]
  · have free : (k.disable.conditions c).waitingLock = none :=
      accepted.resolve_left bound
    rw [if_neg bound, if_pos free, waitOn]

omit [DecidableEq T] [DecidableEq S] [DecidableEq L] [DecidableEq C] in
/-- A thread in the queue of a condition is inside its `Wait`. -/
theorem WaitsUnder.of_waiter {k : Kernel T S L C} {c : C} {t : T} (wf : k.WellFormed)
    (under : k.WaitsUnder c) (member : t ∈ (k.conditions c).waitQueue) :
    ∃ l, k.stack t = [.inWait c l .intOn] ∧ (k.conditions c).waitingLock = some l := by
  obtain ⟨blocked, sleeps⟩ := (wf.queued (.condition c) t).mp member
  rcases wf.parked t blocked with ⟨suspended, -⟩ | finished
  · have waits : ∃ l, k.stack t = [.inWait c l .intOn] := by
      unfold sleepsOn at sleeps
      generalize k.stack t = frames at suspended sleeps
      cases suspended <;> simp [Frame.queue] at sleeps
      exact ⟨_, by rw [sleeps]⟩
    obtain ⟨l, frames⟩ := waits
    exact ⟨l, frames, under t l frames⟩
  · rw [Finished] at finished
    simp [sleepsOn, finished, Frame.queue] at sleeps

theorem signal_nobody {k : Kernel T S L C} {c : C} (on : k.level = .intOn)
    (conditionLock : Option L) (empty : (k.conditions c).waitQueue = []) :
    k.perform (.signal c conditionLock) = k.oneTick := by
  rw [perform_signal on, signalBody_nil (k := k.disable) conditionLock empty]
  rfl

theorem signal_first {k : Kernel T S L C} {c : C} {t : T} {rest : List T}
    (on : k.level = .intOn) (contents : (k.conditions c).waitQueue = t :: rest) :
    ∃ k', k.perform (.signal c (k.conditions c).waitingLock) = k' ∧
      (k'.conditions c).waitQueue = rest ∧ k'.readyList = k.readyList ++ [t] := by
  rw [perform_signal on]
  have moved : k.disable.signalBody c (k.conditions c).waitingLock =
      k.disable.wakeWaiter c := by
    simp [signalBody, contents]
  obtain ⟨condition, readyList, -⟩ := wakeWaiter_cons (k := k.disable) contents
  refine ⟨_, rfl, ?_, ?_⟩
  · rw [moved, oneTick_conditions, condition]
  · rw [moved, oneTick_readyList, readyList]
    rfl

theorem broadcast_everybody {k : Kernel T S L C} (on : k.level = .intOn) (c : C)
    (conditionLock : Option L) :
    ∃ k', k.perform (.broadcast c conditionLock) = k' ∧
      (k'.conditions c).waitQueue = [] ∧
      k'.readyList = k.readyList ++ (k.conditions c).waitQueue := by
  rw [perform_broadcast on]
  obtain ⟨condition, readyList, -, -⟩ :=
    broadcastLoop_all c (k.conditions c).waitQueue k.disable rfl
  refine ⟨_, rfl, ?_, ?_⟩
  · rw [oneTick_conditions, condition]
  · rw [oneTick_readyList, readyList]
    rfl

/-- Interrupts stay off from the release inside `Wait` to the enqueuing. -/
theorem wait_unbroken {k : Kernel T S L C} {c : C} {l : L} (on : k.level = .intOn)
    (running : k.phase = .running) (accepted : k.Accepts c l) :
    ∃ released k',
      released = (k.disable.bindLock c l).release l ∧
      released.level = .intOff ∧ released.phase = .running ∧
      released.currentThread = k.currentThread ∧
      k.perform (.wait c (some l)) = released.parkWaiter c l .intOn ∧
      released.parkWaiter c l .intOn = k' ∧
      (k'.conditions c).waitQueue =
        (k.conditions c).waitQueue ++ [k.currentThread] ∧
      history Event.dispatchedThread k'.log =
        history Event.dispatchedThread k.log := by
  have off : (k.disable.bindLock c l).level = .intOff := rfl
  have released := release_of_off l off
  have stays : ((k.disable.bindLock c l).releaseBody l).level = .intOff := by
    rw [releaseBody_level, off]
  rw [disable_of_off stays] at released
  refine ⟨_, _, rfl, ?_, ?_, ?_, perform_wait on accepted, rfl, ?_, ?_⟩
  · rw [released, releaseBody_level, off]
  · rw [released, releaseBody_phase]
    exact running
  · rw [released, releaseBody_currentThread]
    rfl
  · rw [released, parkWait_condition]
    rfl
  · obtain ⟨woken, wakes⟩ := wakes_releaseBody l (k.disable.bindLock c l)
    rw [released, parkWait_log, history_cons, wakes.dispatched]
    simp [Event.dispatchedThread, bindLock]

end Kernel

/-- The waited history of a run is the list of its accepted waits. -/
theorem exec_waitedOn {d : Discipline} {c : C} {k k' : Kernel T S L C}
    {actions : List (Action T S L C)} (wf : k.WellFormed)
    (order : k.WakesInOrder c)
    (run : (kernelMachine d).exec k actions = some k') :
    history (Event.waitedOn c) k'.log =
      history (Event.waitedOn c) k.log ++ acceptedWaits d c k actions := by
  induction actions generalizing k with
  | nil =>
      cases run
      simp [acceptedWaits]
  | cons action actions inductionHypothesis =>
      obtain ⟨next, step, rest⟩ := (Lib.Machine.exec_cons_eq_some _).mp run
      have taken : k.step d action = some next := step
      obtain ⟨order', waited⟩ := order.step wf.shaped taken
      rw [inductionHypothesis (wf.step taken) order' rest, waited, acceptedWaits,
        taken, Option.elim_some, List.append_assoc]

/-- In every state of every run, whatever `waitingLock` held at first: the
threads woken so far followed by the queue are the accepted waits in the order
of the calls; every queued thread waits under `waitingLock`; a `Signal` moves
exactly the first waiter, or nothing when the queue is empty; a `Broadcast`
moves all; and between the release inside an accepted `Wait` and the enqueuing
interrupts stay off. -/
theorem condition_contract {d : Discipline} {main : T} {initialValue : S → Int}
    {lockMemory : L → Lock T} {conditionMemory : C → Condition T L}
    {actions : List (Action T S L C)} {k : Kernel T S L C} (c : C)
    (run : (kernelMachine d).exec
      (boot main initialValue lockMemory conditionMemory) actions = some k) :
    history (Event.wokenOn c) k.log ++ (k.conditions c).waitQueue =
      acceptedWaits d c
        (boot main initialValue lockMemory conditionMemory) actions ∧
    (∀ t ∈ (k.conditions c).waitQueue, ∃ l,
      k.stack t = [.inWait c l .intOn] ∧
      (k.conditions c).waitingLock = some l) ∧
    (k.phase = .running →
      (∀ conditionLock, (k.conditions c).waitQueue = [] →
        k.perform (.signal c conditionLock) = k.oneTick) ∧
      (∀ t rest, (k.conditions c).waitQueue = t :: rest →
        ∃ k', k.perform (.signal c (k.conditions c).waitingLock) = k' ∧
          (k'.conditions c).waitQueue = rest ∧
          k'.readyList = k.readyList ++ [t]) ∧
      (∀ conditionLock, ∃ k', k.perform (.broadcast c conditionLock) = k' ∧
        (k'.conditions c).waitQueue = [] ∧
        k'.readyList = k.readyList ++ (k.conditions c).waitQueue) ∧
      (∀ l, k.Accepts c l → ∃ released k',
        released = (k.disable.bindLock c l).release l ∧
        released.level = .intOff ∧ released.phase = .running ∧
        released.currentThread = k.currentThread ∧
        k.perform (.wait c (some l)) = released.parkWaiter c l .intOn ∧
        released.parkWaiter c l .intOn = k' ∧
        (k'.conditions c).waitQueue =
          (k.conditions c).waitQueue ++ [k.currentThread] ∧
        history Event.dispatchedThread k'.log =
          history Event.dispatchedThread k.log)) := by
  have booted := boot_wellFormed main initialValue lockMemory conditionMemory
  have wf := wellFormed_exec booted run
  have startOrder :
      (boot main initialValue lockMemory conditionMemory).WakesInOrder c := rfl
  have order : k.WakesInOrder c :=
    invariant_exec (I := WakesInOrder c)
      (fun _ _ _ wf order step => (order.step wf.shaped step).1)
      booted startOrder run
  have under : k.WaitsUnder c :=
    invariant_exec (I := WaitsUnder c)
      (fun _ _ _ wf under step => under.step wf.shaped step)
      booted (by intro t l waits; cases waits) run
  refine ⟨?_, fun t member => under.of_waiter wf member, fun running => ?_⟩
  · have waited := exec_waitedOn booted startOrder run
    exact order.trans waited
  · have on : k.level = .intOn := by rw [wf.level, if_pos running]
    exact ⟨fun conditionLock empty => signal_nobody on conditionLock empty,
      fun t rest contents => signal_first on contents,
      fun conditionLock => broadcast_everybody on c conditionLock,
      fun l accepted => wait_unbroken on running accepted⟩

/-- Threads 1 and 2 wait on one condition and main signals once. -/
theorem condition_contract_after_signal :
    ∃ k : Kernel (Fin 3) Empty Unit Unit,
      (kernelMachine .fifo).exec
        (boot 0 Empty.elim (fun _ => ⟨false, none, []⟩) fun _ => ⟨[], none⟩)
        [.call (.fork 1), .endTick, .call (.fork 2), .endTick,
          .call (.yield 0), .endTick, .call (.acquire ()), .endTick,
          .call (.wait () (some ())), .dispatch 0, .endTick,
          .call (.acquire ()), .endTick, .call (.wait () (some ())),
          .dispatch 0, .endTick, .call (.signal () (some ()))] = some k ∧
      (k.conditions ()).waitQueue = [2] ∧
      history (Event.wokenOn ()) k.log ++ [2] = [1, 2] := by
  obtain ⟨k, run, queued, waited⟩ :
      ∃ k : Kernel (Fin 3) Empty Unit Unit, (kernelMachine .fifo).exec
        (boot 0 Empty.elim (fun _ => ⟨false, none, []⟩) fun _ => ⟨[], none⟩)
        [.call (.fork 1), .endTick, .call (.fork 2), .endTick,
          .call (.yield 0), .endTick, .call (.acquire ()), .endTick,
          .call (.wait () (some ())), .dispatch 0, .endTick,
          .call (.acquire ()), .endTick, .call (.wait () (some ())),
          .dispatch 0, .endTick, .call (.signal () (some ()))] = some k ∧
        (k.conditions ()).waitQueue = [2] ∧
        acceptedWaits .fifo ()
          (boot 0 Empty.elim (fun _ => ⟨false, none, []⟩) fun _ => ⟨[], none⟩)
          [.call (.fork 1), .endTick, .call (.fork 2), .endTick,
            .call (.yield 0), .endTick, .call (.acquire ()), .endTick,
            .call (.wait () (some ())), .dispatch 0, .endTick,
            .call (.acquire ()), .endTick, .call (.wait () (some ())),
            .dispatch 0, .endTick, .call (.signal () (some ()))] =
              ([1, 2] : List (Fin 3)) :=
    ⟨_, rfl, rfl, rfl⟩
  have order := (condition_contract () run).1
  rw [waited, queued] at order
  exact ⟨k, run, queued, order⟩

end Nachos
