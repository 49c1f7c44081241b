/-
Module: Nachos.Threads.Semaphores
Purpose: Semaphores over whole runs.  The counter is the balance of the
  completed calls and never negative, and no wake-up is lost: while threads
  are queued, every unit is spoken for by a thread that a `V` has woken.
Trusted boundary: none
Main exports: Kernel.woken, Kernel.Balanced, semaphore_balance
-/
import Nachos.Threads.Scheduling

namespace Nachos

variable {T S L C : Type}
variable [DecidableEq T] [DecidableEq S] [DecidableEq L] [DecidableEq C]

namespace Kernel

/-- The number of completed `P` calls, by threads and by handlers. -/
def completedP (s : S) (k : Kernel T S L C) : Nat :=
  k.log.count (.pDone s)

/-- The number of completed `V` calls, by threads and by handlers. -/
def completedV (s : S) (k : Kernel T S L C) : Nat :=
  k.log.count (.vDone s)

/-- The threads that a `V` has taken off the queue of `s` and that have not
tested `value` again: they are ready, but still in the `Sleep` of `P`. -/
def woken (s : S) (k : Kernel T S L C) : List T :=
  k.readyList.filter fun t => k.stack t = [.inP s .intOn]

/-- The invariant of one semaphore. -/
structure Balanced (s : S) (initialValue : Int) (k : Kernel T S L C) : Prop where
  value : (k.semaphores s).value =
    initialValue + k.completedV s - k.completedP s
  nonneg : 0 ≤ (k.semaphores s).value
  promised : (k.semaphores s).queue ≠ [] →
    (k.semaphores s).value ≤ (k.woken s).length

/-- Semaphore `s` is where it was, and no call on it was completed. -/
structure Untouched (s : S) (k k' : Kernel T S L C) : Prop where
  semaphore : k'.semaphores s = k.semaphores s
  completedP : k'.completedP s = k.completedP s
  completedV : k'.completedV s = k.completedV s

theorem Untouched.trans {s : S} {k k' k'' : Kernel T S L C}
    (first : Untouched s k k') (second : Untouched s k' k'') :
    Untouched s k k'' where
  semaphore := second.semaphore.trans first.semaphore
  completedP := second.completedP.trans first.completedP
  completedV := second.completedV.trans first.completedV

theorem Untouched.oneTick {s : S} {k k' : Kernel T S L C} (untouched : Untouched s k k') :
    Untouched s k k'.oneTick where
  semaphore := untouched.semaphore
  completedP := untouched.completedP
  completedV := untouched.completedV

theorem untouched_wakeFirst {s : S} {q : WaitQueue S L C}
    (k : Kernel T S L C) (other : q ≠ .semaphore s) :
    Untouched s k (k.wakeFirst q) where
  semaphore := wakeFirst_semaphores k other
  completedP := wakeFirst_count q k (by simp)
  completedV := wakeFirst_count q k (by simp)

theorem untouched_park {s : S} {q : WaitQueue S L C} (frame : Frame S L C)
    (k : Kernel T S L C) (other : q ≠ .semaphore s) :
    Untouched s k (k.park q frame) where
  semaphore := setQueue_semaphores _ k other
  completedP := by simp [Kernel.completedP, park, sleep, push]
  completedV := by simp [Kernel.completedV, park, sleep, push]

theorem untouched_releaseBody (s : S) (l : L) (k : Kernel T S L C) :
    Untouched s k (k.releaseBody l) := by
  have left : Untouched s k ((k.note (.left l k.currentThread)).clearOwner l) := by
    unfold clearOwner
    split <;>
      exact ⟨rfl, by simp [Kernel.completedP], by simp [Kernel.completedV]⟩
  exact left.trans (untouched_wakeFirst _ (by simp))

theorem untouched_wakeWaiter (s : S) (c : C) (k : Kernel T S L C) :
    Untouched s k (k.wakeWaiter c) := by
  unfold wakeWaiter
  split
  · exact ⟨rfl, rfl, rfl⟩
  · refine (untouched_wakeFirst k (q := .condition c) (by simp)).trans ?_
    exact ⟨rfl, by simp [Kernel.completedP], by simp [Kernel.completedV]⟩

theorem untouched_signalBody (s : S) (c : C) (conditionLock : Option L)
    (k : Kernel T S L C) : Untouched s k (k.signalBody c conditionLock) := by
  unfold signalBody
  split
  · exact ⟨rfl, rfl, rfl⟩
  · split
    · exact ⟨rfl, rfl, rfl⟩
    · exact untouched_wakeWaiter s c k

theorem untouched_broadcastLoop (s : S) (c : C) (threads : List T)
    (k : Kernel T S L C) : Untouched s k (broadcastLoop c threads k) := by
  induction threads generalizing k with
  | nil => exact ⟨rfl, rfl, rfl⟩
  | cons t threads inductionHypothesis =>
      exact (untouched_wakeWaiter s c k).trans (inductionHypothesis _)

theorem untouched_takeUnit {s s' : S} (k : Kernel T S L C) (other : s ≠ s') :
    Untouched s k (k.takeUnit s') where
  semaphore := by simp [takeUnit, other]
  completedP := by simp [Kernel.completedP, takeUnit, other.symm]
  completedV := by simp [Kernel.completedV, takeUnit]

theorem untouched_vBody {s s' : S} (k : Kernel T S L C) (other : s ≠ s') :
    Untouched s k (k.vBody s') := by
  refine (untouched_wakeFirst k (q := .semaphore s') (by simp [other.symm])).trans ?_
  refine ⟨by simp [vBody, other], ?_, ?_⟩
  · simp [Kernel.completedP, vBody]
  · simp [Kernel.completedV, vBody, other.symm]

theorem untouched_enter (s : S) (l : L) (k : Kernel T S L C) : Untouched s k (k.enter l) where
  semaphore := rfl
  completedP := by simp [Kernel.completedP, enter]
  completedV := by simp [Kernel.completedV, enter]

end Kernel

open Kernel

/-- The only turns that touch a semaphore are those of `P` and `V` on it. -/
theorem Turn.semaphore_cases {k k' : Kernel T S L C} {cause : Cause T S L C}
    (turn : Turn k cause k') (s : S) :
    Untouched s k k' ∨
    (cause.Tests s ∧ (k.semaphores s).value ≠ 0 ∧
      k' = (k.takeUnit s).oneTick) ∨
    (cause.Tests s ∧ (k.semaphores s).value = 0 ∧
      k' = k.park (.semaphore s) (.inP s .intOn)) ∨
    (cause = .call (.v s) ∧ k' = (k.vBody s).oneTick) := by
  cases turn with
  | takeUnit s' tests value =>
      by_cases same : s = s'
      · subst same
        exact .inr (.inl ⟨tests, value, rfl⟩)
      · exact .inl (untouched_takeUnit k same).oneTick
  | parkUnit s' tests value =>
      by_cases same : s = s'
      · subst same
        exact .inr (.inr (.inl ⟨tests, value, rfl⟩))
      · exact .inl (untouched_park _ k (by simp [Ne.symm same]))
  | v s' =>
      by_cases same : s = s'
      · subst same
        exact .inr (.inr (.inr ⟨rfl, rfl⟩))
      · exact .inl (untouched_vBody k same).oneTick
  | held l acquires held => exact .inl (untouched_enter s l k).oneTick
  | takeLock l acquires foreign free =>
      have taken : Untouched s k (k.takeLock l) := ⟨rfl, rfl, rfl⟩
      exact .inl (taken.trans (untouched_enter s l _)).oneTick
  | parkLock l foreign busy => exact .inl (untouched_park _ k (by simp))
  | parkRelock c l foreign busy =>
      have pushed : Untouched s k (k.push (.inReacquire c l .intOn)) := ⟨rfl, rfl, rfl⟩
      exact .inl (pushed.trans (untouched_park _ _ (by simp)))
  | returned l returns => exact .inl (untouched_enter s l k).oneTick
  | release l => exact .inl (untouched_releaseBody s l k).oneTick
  | parkWait c l accepted =>
      have bound : Untouched s k (k.bindLock c l) := ⟨rfl, rfl, rfl⟩
      have released := bound.trans (untouched_releaseBody s l _)
      have noted : Untouched s ((k.bindLock c l).releaseBody l)
          (((k.bindLock c l).releaseBody l).note
            (.waited c ((k.bindLock c l).releaseBody l).currentThread l)) :=
        ⟨rfl, by simp [completedP], by simp [completedV]⟩
      exact .inl ((released.trans noted).trans (untouched_park _ _ (by simp)))
  | signal c conditionLock =>
      exact .inl (untouched_signalBody s c conditionLock k).oneTick
  | broadcast c conditionLock =>
      exact .inl (untouched_broadcastLoop s c (k.conditions c).waitQueue k).oneTick
  | fork t fresh =>
      refine .inl ⟨rfl, ?_, ?_⟩
      · simp [completedP, readyToRun]
      · simp [completedV, readyToRun]
  | _ => exact .inl ⟨rfl, rfl, rfl⟩

namespace Kernel

/-! ### Woken threads -/

omit [DecidableEq T] in
theorem woken_congr {s : S} {k k' : Kernel T S L C}
    (readyList : k'.readyList = k.readyList)
    (stack : ∀ t ∈ k.readyList, k'.stack t = k.stack t) :
    k'.woken s = k.woken s := by
  unfold woken
  rw [readyList]
  refine List.filter_congr fun t member => ?_
  rw [stack t member]

/-- No turn loses a woken thread. -/
theorem Active.woken_le {k k' : Kernel T S L C} {cause : Cause T S L C}
    (active : k.Active) (turn : Turn k cause k') (s : S) :
    (k.woken s).length ≤ (k'.woken s).length := by
  obtain ⟨others, wakes⟩ := turn.wakes
  have same : ∀ t ∈ k.readyList, k'.stack t = k.stack t := by
    intro t member
    have ready := (active.ready t).mp member
    refine turn.stack_of_ne ?_ (by simp [ready])
    rintro rfl
    simp [active.runs] at ready
  have kept : k.readyList.filter (fun t => k'.stack t = [.inP s .intOn]) =
      k.woken s := by
    refine List.filter_congr fun t member => ?_
    rw [same t member]
  have split : k'.woken s = k.woken s ++
      others.filter (fun t => k'.stack t = [.inP s .intOn]) := by
    rw [← kept, ← List.filter_append, ← wakes.readyList]
    rfl
  rw [split, List.length_append]
  exact Nat.le_add_right _ _

/-- Giving the CPU to a thread takes that one from the woken threads. -/
theorem Placed.woken_turnBase {k : Kernel T S L C} {next : T} {rest : List T}
    (placed : k.Placed) (chosen : k.readyList.Perm (next :: rest)) (s : S) :
    (k.woken s).length =
      ((({ k with readyList := rest }).turnBase next).woken s).length +
        if k.stack next = [.inP s .intOn] then 1 else 0 := by
  have once := chosen.nodup_iff.mp placed.readyOnce
  have kept : (({ k with readyList := rest }).turnBase next).woken s =
      rest.filter fun t => k.stack t = [.inP s .intOn] := by
    rw [woken, turnBase_readyList]
    refine List.filter_congr fun t member => ?_
    have other : t ≠ next := by
      rintro rfl
      exact (List.nodup_cons.mp once).1 member
    simp [other]
  rw [kept, woken, (chosen.filter _).length_eq, List.filter_cons]
  split <;> simp_all

/-- At the beginning of a turn the thread that tests `value` again is no
longer counted among the woken ones. -/
theorem WellFormed.woken_base {d : Discipline} {k base : Kernel T S L C}
    {action : Action T S L C} {cause : Cause T S L C} (wf : k.WellFormed)
    (begins : Base d k action cause base) (s : S) :
    (k.woken s).length = (base.woken s).length ∨
    (cause = .back [.inP s .intOn] ∧
      (k.woken s).length = (base.woken s).length + 1) := by
  cases begins with
  | call op running callable => exact .inl rfl
  | alone pick ticking allowed => exact .inl rfl
  | dispatch pick next asleep allowed chosen =>
      have count := wf.toPlaced.woken_turnBase (readyList_perm chosen) s
      split at count
      · rename_i tests
        exact .inr ⟨by rw [tests], count⟩
      · exact .inl count
  | yield pick next yields allowed chosen =>
      have awake : k.phase = .running ∨ k.phase = .oneTick :=
        yields.imp And.right And.right
      obtain ⟨placed, -⟩ := wf.yieldBase awake
      have other := wf.shaped.next_ne_current awake chosen
      have perm : (k.yieldBase k.readyList).readyList.Perm
          (next :: (k.readyList.eraseIdx pick ++ [k.currentThread])) :=
        (readyList_perm chosen).append_right [k.currentThread]
      have count := placed.woken_turnBase perm s
      have stack_eq : (k.yieldBase k.readyList).stack next = k.stack next := by
        simp [Kernel.yieldBase, push, other]
      have before : (k.yieldBase k.readyList).woken s = k.woken s := by
        have unlisted : ∀ t ∈ k.readyList, t ≠ k.currentThread := by
          rintro t member rfl
          have runs := (wf.awake awake).1
          simp [(wf.ready _).mp member] at runs
        have kept : k.readyList.filter (fun t =>
            (k.yieldBase k.readyList).stack t = [.inP s .intOn]) =
              k.woken s := by
          refine List.filter_congr fun t member => ?_
          simp [Kernel.yieldBase, push, unlisted t member]
        have split : (k.yieldBase k.readyList).readyList =
            k.readyList ++ [k.currentThread] := rfl
        rw [woken, split, List.filter_append, kept]
        simp [Kernel.yieldBase, push]
      have after : (Kernel.turnBase next
            (k.disable.yieldBase (k.readyList.eraseIdx pick))).woken s =
          (Kernel.turnBase next { k.yieldBase k.readyList with
            readyList := k.readyList.eraseIdx pick ++ [k.currentThread] }).woken s := by
        refine woken_congr (by simp [Kernel.yieldBase, push]) fun t _ => ?_
        simp only [turnBase_stack]
        rfl
      rw [before, stack_eq, ← after] at count
      split at count
      · rename_i tests
        exact .inr ⟨by rw [tests], count⟩
      · exact .inl count

@[simp] theorem turnBase_semaphores (next : T) (k : Kernel T S L C) :
    (k.turnBase next).semaphores = k.semaphores := by
  unfold turnBase deleteCarcass switch
  split
  · rfl
  · split <;> rfl

theorem turnBase_count {e : Event T S L C} (next : T) (k : Kernel T S L C)
    (dispatch : e ≠ .dispatched next) (silent : ∀ t, e ≠ .deleted t) :
    (k.turnBase next).log.count e = k.log.count e := by
  unfold turnBase deleteCarcass switch
  split
  · simp [dispatch.symm]
  · split
    · simp [dispatch.symm]
    · simp [dispatch.symm, (silent _).symm]

theorem untouched_base {d : Discipline} {k base : Kernel T S L C}
    {action : Action T S L C} {cause : Cause T S L C}
    (begins : Base d k action cause base) (s : S) : Untouched s k base := by
  cases begins with
  | call op running callable => exact ⟨rfl, rfl, rfl⟩
  | alone pick ticking allowed => exact ⟨rfl, rfl, rfl⟩
  | dispatch pick next asleep allowed chosen =>
      exact ⟨by simp, turnBase_count _ _ (by simp) (by simp),
        turnBase_count _ _ (by simp) (by simp)⟩
  | yield pick next yields allowed chosen =>
      refine ⟨by simp [Kernel.yieldBase, push, readyToRun], ?_, ?_⟩
      · rw [completedP, turnBase_count _ _ (by simp) (by simp)]
        simp [Kernel.yieldBase, push, readyToRun, completedP]
      · rw [completedV, turnBase_count _ _ (by simp) (by simp)]
        simp [Kernel.yieldBase, push, readyToRun, completedV]

/-! ### The calls themselves -/

theorem Balanced.untouched {s : S} {initialValue : Int} {k k' : Kernel T S L C}
    (balanced : Balanced s initialValue k) (untouched : Untouched s k k')
    (kept : (k.woken s).length ≤ (k'.woken s).length) :
    Balanced s initialValue k' where
  value := by
    rw [untouched.semaphore, untouched.completedP, untouched.completedV,
      balanced.value]
  nonneg := untouched.semaphore ▸ balanced.nonneg
  promised queued := by
    rw [untouched.semaphore] at queued ⊢
    have promised := balanced.promised queued
    omega

/-- `value--` keeps the balance, and one promise fewer is needed. -/
theorem takeUnit_balance {s : S} {initialValue : Int} {k : Kernel T S L C}
    (value : (k.semaphores s).value =
      initialValue + k.completedV s - k.completedP s)
    (nonneg : 0 ≤ (k.semaphores s).value)
    (promised : (k.semaphores s).queue ≠ [] →
      (k.semaphores s).value ≤ (k.woken s).length + 1)
    (positive : (k.semaphores s).value ≠ 0) :
    Balanced s initialValue (k.takeUnit s) := by
  have value_eq : ((k.takeUnit s).semaphores s).value =
      (k.semaphores s).value - 1 := by simp [takeUnit]
  have queue_eq : ((k.takeUnit s).semaphores s).queue =
      (k.semaphores s).queue := by simp [takeUnit]
  have ps : (k.takeUnit s).completedP s = k.completedP s + 1 := by
    simp [completedP, takeUnit]
  have vs : (k.takeUnit s).completedV s = k.completedV s := by
    simp [completedV, takeUnit]
  have same : (k.takeUnit s).woken s = k.woken s := rfl
  refine ⟨?_, ?_, fun queued => ?_⟩
  · rw [value_eq, ps, vs]
    omega
  · rw [value_eq]
    omega
  · rw [queue_eq] at queued
    have bound := promised queued
    rw [value_eq, same]
    omega

/-- A `V` makes one more unit and wakes one more thread, if there is one. -/
theorem Balanced.vBody {s : S} {initialValue : Int} {k : Kernel T S L C}
    (balanced : Balanced s initialValue k) (placed : k.Placed) :
    Balanced s initialValue (k.vBody s) := by
  have value_eq : ((k.vBody s).semaphores s).value =
      (k.semaphores s).value + 1 := by
    simp only [Kernel.vBody, note_semaphores, setSemaphore_semaphores,
      Function.update_self]
    unfold wakeFirst
    split <;> simp [readyToRun]
  have ps : (k.vBody s).completedP s = k.completedP s := by
    have count := wakeFirst_count (e := .pDone s) (.semaphore s) k (by simp)
    simpa [completedP, Kernel.vBody] using count
  have vs : (k.vBody s).completedV s = k.completedV s + 1 := by
    have count := wakeFirst_count (e := .vDone s) (.semaphore s) k (by simp)
    simpa [completedV, Kernel.vBody] using count
  have value := balanced.value
  have nonneg := balanced.nonneg
  refine ⟨by rw [value_eq, ps, vs]; omega, by rw [value_eq]; omega, ?_⟩
  intro queued
  have queue_eq : ((k.vBody s).semaphores s).queue =
      (k.semaphores s).queue.tail := by
    simp only [Kernel.vBody, note_semaphores, setSemaphore_semaphores,
      Function.update_self]
    unfold wakeFirst
    split <;> rename_i contents
    · rw [queue] at contents
      simp [contents]
    · rw [queue] at contents
      simp [readyToRun, setQueue, contents]
  cases contents : (k.semaphores s).queue with
  | nil =>
      rw [queue_eq, contents] at queued
      exact absurd rfl queued
  | cons t rest =>
      have onQueue : t ∈ k.queue (.semaphore s) := by
        rw [queue, contents]
        simp
      obtain ⟨blocked, sleeps⟩ := (placed.queued _ t).mp onQueue
      have frames : k.stack t = [.inP s .intOn] := by
        rcases placed.parked t blocked with ⟨suspended, -⟩ | finished
        · unfold sleepsOn at sleeps
          generalize k.stack t = frames at suspended sleeps
          cases suspended <;> simp [Frame.queue] at sleeps
          rw [sleeps]
        · rw [Finished] at finished
          simp [sleepsOn, finished, Frame.queue] at sleeps
      have one_more : (k.vBody s).woken s = k.woken s ++ [t] := by
        have list : (k.vBody s).readyList = k.readyList ++ [t] := by
          have wakes := (wakes_wakeFirst (.semaphore s) k).readyList
          simpa [Kernel.vBody, queue, contents] using wakes
        have stack : (k.vBody s).stack = k.stack := by
          funext t'
          simp [Kernel.vBody]
        rw [woken, list, stack, List.filter_append]
        simp [woken, frames]
      have promised := balanced.promised (by simp [contents])
      rw [value_eq, one_more, List.length_append]
      simp only [List.length_singleton]
      omega

theorem Balanced.step {d : Discipline} {s : S} {initialValue : Int}
    {k k' : Kernel T S L C} {action : Action T S L C} (wf : k.WellFormed)
    (balanced : Balanced s initialValue k)
    (step : k.step d action = some k') : Balanced s initialValue k' := by
  cases step_effect wf.shaped step with
  | @turn action cause base k' begins poised turn =>
      have untouched := untouched_base begins s
      obtain ⟨placed, running⟩ := wf.base begins
      have active : base.Active := ⟨placed, running, poised.stack, poised.level⟩
      have value : (base.semaphores s).value =
          initialValue + base.completedV s - base.completedP s := by
        rw [untouched.semaphore, untouched.completedP, untouched.completedV,
          balanced.value]
      have nonneg : 0 ≤ (base.semaphores s).value :=
        untouched.semaphore ▸ balanced.nonneg
      -- the turn of a woken thread begins with one promise too few
      have slack : (base.semaphores s).queue ≠ [] →
          (base.semaphores s).value ≤ (base.woken s).length + 1 := by
        intro queued
        rw [untouched.semaphore] at queued ⊢
        have promised := balanced.promised queued
        rcases wf.woken_base begins s with same | ⟨-, fewer⟩ <;> omega
      rcases turn.semaphore_cases s with
        same | ⟨tests, positive, rfl⟩ | ⟨tests, zero, rfl⟩ | ⟨rfl, rfl⟩
      · rcases wf.woken_base begins s with kept | ⟨rfl, -⟩
        · have start : Balanced s initialValue base :=
            balanced.untouched untouched (Nat.le_of_eq kept)
          exact start.untouched same (active.woken_le turn s)
        · -- a thread that comes back to `P` tests the value
          cases turn with
          | takeUnit s' tests value' =>
              cases tests
              have changed := same.completedP
              simp [completedP, Kernel.takeUnit] at changed
          | parkUnit s' tests value' =>
              cases tests
              have changed := congrArg Semaphore.queue same.semaphore
              simp [park, setQueue, sleep, push, queue] at changed
          | held l acquires held => cases acquires
          | takeLock l acquires foreign free => cases acquires
          | returned l returns => cases returns
      · obtain ⟨value', nonneg', promised'⟩ :=
          takeUnit_balance value nonneg slack positive
        exact ⟨value', nonneg', promised'⟩
      · have parked : ((base.park (.semaphore s) (.inP s .intOn)).semaphores s).value =
            (base.semaphores s).value := by
          simp [park, sleep, push]
        refine ⟨?_, ?_, fun _ => ?_⟩
        · rw [parked, value]
          simp [completedP, completedV, park, sleep, push]
        · rw [parked]
          exact nonneg
        · rw [parked, zero]
          exact Int.natCast_nonneg _
      · rcases wf.woken_base begins s with kept | ⟨other, -⟩
        · have start : Balanced s initialValue base :=
            balanced.untouched untouched (Nat.le_of_eq kept)
          obtain ⟨value', nonneg', promised'⟩ := start.vBody placed
          exact ⟨value', nonneg', promised'⟩
        · cases other
  | handlerV s' handling =>
      by_cases same : s = s'
      · subst same
        exact balanced.vBody wf.toPlaced
      · have wakes := (wakes_wakeFirst (.semaphore s') k).readyList
        refine balanced.untouched (untouched_vBody k same) ?_
        have stack : (k.vBody s').stack = k.stack := by
          funext t
          simp [Kernel.vBody]
        have list : (k.vBody s').readyList =
            k.readyList ++ (k.queue (.semaphore s')).head?.toList := wakes
        rw [woken, woken, list, stack, List.filter_append, List.length_append]
        exact Nat.le_add_right _ _
  | handlerP s' handling positive =>
      by_cases same : s = s'
      · subst same
        refine takeUnit_balance balanced.value balanced.nonneg ?_ positive
        intro queued
        have promised := balanced.promised queued
        omega
      · exact balanced.untouched (untouched_takeUnit k same) (Nat.le_refl _)
  | endTick ticking => exact ⟨balanced.value, balanced.nonneg, balanced.promised⟩
  | idle asleep nobody =>
      exact ⟨balanced.value, balanced.nonneg, balanced.promised⟩
  | endIdle idle => exact ⟨balanced.value, balanced.nonneg, balanced.promised⟩

end Kernel

/-- The counter of every semaphore is the balance of the completed calls and
never negative, and while threads are queued there are at least as many woken
threads as units. -/
theorem semaphore_balance {d : Discipline} {main : T} {initialValue : S → Int}
    {lockMemory : L → Lock T} {conditionMemory : C → Condition T L}
    {actions : List (Action T S L C)} {k : Kernel T S L C} (s : S)
    (nonneg : 0 ≤ initialValue s)
    (run : (kernelMachine d).exec
      (boot main initialValue lockMemory conditionMemory) actions = some k) :
    (k.semaphores s).value =
      initialValue s + k.completedV s - k.completedP s ∧
    0 ≤ (k.semaphores s).value ∧
    ((k.semaphores s).queue ≠ [] →
      (k.semaphores s).value ≤ (k.woken s).length) ∧
    (k.woken s = [] → (k.semaphores s).queue ≠ [] →
      (k.semaphores s).value = 0) := by
  have booted := boot_wellFormed main initialValue lockMemory conditionMemory
  have start : Balanced s (initialValue s)
      (boot main initialValue lockMemory conditionMemory) :=
    ⟨by simp [boot, Semaphore.construct, completedP, completedV], nonneg,
      fun queued => absurd rfl queued⟩
  obtain ⟨value, nonneg', promised⟩ :=
    invariant_exec (I := Balanced s (initialValue s))
      (fun _ _ _ wf balanced step => balanced.step wf step) booted start run
  refine ⟨value, nonneg', promised, fun nobody queued => ?_⟩
  have bound := promised queued
  rw [nobody] at bound
  exact Int.le_antisymm bound nonneg'

/-- Threads 1 and 2 wait, a handler calls `V` while the CPU idles, and the
unit is promised to thread 1, which has not run yet. -/
theorem semaphore_balance_while_idle :
    ∃ k : Kernel (Fin 3) Unit Empty Empty,
      (kernelMachine .fifo).exec
        (boot 0 (fun _ => 0) Empty.elim Empty.elim)
        [.call (.fork 1), .endTick, .call (.fork 2), .endTick,
          .call .finish, .dispatch 0, .endTick, .call (.p ()),
          .dispatch 0, .endTick, .call (.p ()), .idle, .handlerV ()] = some k ∧
      k.woken () = [1] ∧ (k.semaphores ()).queue = [2] ∧
      (k.semaphores ()).value ≤ (k.woken ()).length := by
  obtain ⟨k, run, pending, queued⟩ :
      ∃ k : Kernel (Fin 3) Unit Empty Empty, (kernelMachine .fifo).exec
        (boot 0 (fun _ => 0) Empty.elim Empty.elim)
        [.call (.fork 1), .endTick, .call (.fork 2), .endTick,
          .call .finish, .dispatch 0, .endTick, .call (.p ()),
          .dispatch 0, .endTick, .call (.p ()), .idle, .handlerV ()] = some k ∧
        k.woken () = [1] ∧ (k.semaphores ()).queue = [2] :=
    ⟨_, rfl, by decide, rfl⟩
  obtain ⟨-, -, promised, -⟩ := semaphore_balance () (Int.le_refl 0) run
  exact ⟨k, run, pending, queued, promised (by simp [queued])⟩

end Nachos
