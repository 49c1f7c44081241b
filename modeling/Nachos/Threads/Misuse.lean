/-
Module: Nachos.Threads.Misuse
Purpose: Calls that break the rules of use of `Lock` and `Condition`.
  `Release` tests the ownership but wakes a sleeper whatever the outcome;
  `Wait` and `Signal` compare locks but never ask who holds them, and
  `Broadcast` looks at no lock.  Each group is harmless in a run exactly as
  long as the tests that the code does make, or an empty queue, stop it.
Trusted boundary: none
Main exports: Kernel.Undisturbed, ReleaseCall, illegal_release_harmless_iff,
  illegal_release_wakes_sleeper, Kernel.Misused, Kernel.Refused,
  misuse_harmless_iff, broadcast_by_stranger_wakes_waiter
-/
import Nachos.Threads.Pending

namespace Nachos

variable {T S L C : Type}
variable [DecidableEq T] [DecidableEq S] [DecidableEq L] [DecidableEq C]

open Kernel

/-! ### Release without the lock -/

namespace Kernel

/-- The lock, the ready list and the status of every thread are as before. -/
structure Undisturbed (l : L) (k k' : Kernel T S L C) : Prop where
  acquired : (k'.locks l).acquired = (k.locks l).acquired
  owner : (k'.locks l).owner = (k.locks l).owner
  queue : (k'.locks l).queue = (k.locks l).queue
  readyList : k'.readyList = k.readyList
  status : k'.status = k.status

/-- `Release` of `l` is called in this step, directly or by a `Wait` that
accepts `l`. -/
def CallsRelease (l : L) (k : Kernel T S L C) : Action T S L C → Prop
  | .call (.release l') => l' = l
  | .call (.wait c (some l')) => l' = l ∧ k.Accepts c l
  | _ => False

instance (l : L) (k : Kernel T S L C) (action : Action T S L C) :
    Decidable (k.CallsRelease l action) :=
  match action with
  | .call op =>
      match op with
      | .release l' => inferInstanceAs (Decidable (l' = l))
      | .wait _ (some l') => inferInstanceAs (Decidable (l' = l ∧ _))
      | .wait _ none | .p _ | .v _ | .acquire _ | .signal _ _ | .broadcast _ _
      | .fork _ | .yield _ | .finish => isFalse id
  | .handlerV _ | .handlerP _ | .endTick | .timeSlice _ | .dispatch _ | .idle
  | .endIdle => isFalse id

end Kernel

/-- The states around a call of `l->Release` in a step from `k`.  `Wait` makes
the call with interrupts off, after it has bound the condition. -/
inductive ReleaseCall (d : Discipline) (l : L) (k : Kernel T S L C) :
    Action T S L C → Kernel T S L C → Kernel T S L C → Prop where
  | direct {k' : Kernel T S L C} (step : k.step d (.call (.release l)) = some k') :
      ReleaseCall d l k (.call (.release l)) k k'
  | inWait (c : C) (accepted : k.Accepts c l) :
      ReleaseCall d l k (.call (.wait c (some l))) (k.disable.bindLock c l)
        ((k.disable.bindLock c l).release l)

namespace Kernel

/-- Any `Release` of `l` by a thread that does not own it changes nothing. -/
def HarmlessRelease (d : Discipline) (l : L) (k : Kernel T S L C)
    (action : Action T S L C) : Prop :=
  ∀ before after, ReleaseCall d l k action before after →
    ¬ before.isHeldByCurrentThread l → Undisturbed l before after

/-- A `Release` of `l` by a thread that does not own it finds nobody asleep. -/
def ReleasesUnqueued (l : L) (k : Kernel T S L C) (action : Action T S L C) :
    Prop :=
  k.CallsRelease l action → ¬ k.isHeldByCurrentThread l →
    (k.locks l).queue = []

instance (l : L) (k : Kernel T S L C) (action : Action T S L C) :
    Decidable (k.ReleasesUnqueued l action) :=
  inferInstanceAs (Decidable (_ → _ → _))

/-- The wake-up in `Release` happens whoever calls it. -/
theorem releaseBody_foreign {l : L} {k : Kernel T S L C}
    (foreign : ¬ k.isHeldByCurrentThread l) :
    Undisturbed l k (k.releaseBody l) ↔ (k.locks l).queue = [] := by
  have kept : (k.note (.left l k.currentThread)).clearOwner l =
      k.note (.left l k.currentThread) := clearOwner_eq_self foreign
  have body : k.releaseBody l =
      (k.note (.left l k.currentThread)).wakeFirst (.lock l) := by
    rw [releaseBody, kept]
  have queue_eq : (k.note (.left l k.currentThread)).queue (.lock l) =
      (k.locks l).queue := rfl
  cases contents : (k.locks l).queue with
  | nil =>
      have same : k.releaseBody l = k.note (.left l k.currentThread) := by
        rw [body, wakeFirst, queue_eq, contents]
      rw [same]
      exact ⟨fun _ => rfl, fun _ => ⟨rfl, rfl, rfl, rfl, rfl⟩⟩
  | cons t rest =>
      have longer : (k.releaseBody l).readyList = k.readyList ++ [t] := by
        rw [body, wakeFirst, queue_eq, contents]
        simp
      refine ⟨fun undisturbed => ?_, fun empty => by cases empty⟩
      have same := undisturbed.readyList
      rw [longer] at same
      simp at same

section

omit [DecidableEq T] [DecidableEq S] [DecidableEq L] [DecidableEq C]

theorem undisturbed_oneTick {l : L} {k k' : Kernel T S L C} :
    Undisturbed l k k'.oneTick ↔ Undisturbed l k k' :=
  ⟨fun h => ⟨h.acquired, h.owner, h.queue, h.readyList, h.status⟩,
    fun h => ⟨h.acquired, h.owner, h.queue, h.readyList, h.status⟩⟩

theorem undisturbed_of_disable {l : L} {k k' : Kernel T S L C} :
    Undisturbed l k.disable k' ↔ Undisturbed l k k' :=
  ⟨fun h => ⟨h.acquired, h.owner, h.queue, h.readyList, h.status⟩,
    fun h => ⟨h.acquired, h.owner, h.queue, h.readyList, h.status⟩⟩

end

/-- A direct call of `Release`. -/
theorem WellFormed.release_step {d : Discipline} {k k' : Kernel T S L C} {l : L}
    (wf : k.WellFormed) (step : k.step d (.call (.release l)) = some k') :
    k' = (k.disable.releaseBody l).oneTick := by
  obtain ⟨-, -, turn⟩ := wf.turn_of_call step (by simp)
  cases turn with
  | takeUnit s tests => cases tests
  | parkUnit s tests => cases tests
  | held l acquires => cases acquires
  | takeLock l acquires => cases acquires
  | returned l returns => cases returns
  | release l => rfl

/-- The call of `Release` inside `Wait`, which finds interrupts off. -/
theorem release_inside_wait (c : C) (l : L) (k : Kernel T S L C) :
    (k.disable.bindLock c l).release l =
      (k.disable.bindLock c l).releaseBody l := by
  have off : (k.disable.bindLock c l).level = .intOff := rfl
  have stays : ((k.disable.bindLock c l).releaseBody l).level = .intOff := by
    rw [releaseBody_level, off]
  rw [release_of_off l off, disable_of_off stays]

/-- What an illegal `Release` does depends on the queue alone. -/
theorem WellFormed.harmlessRelease_iff {d : Discipline} {k k' : Kernel T S L C}
    {l : L} {action : Action T S L C} (wf : k.WellFormed)
    (step : k.step d action = some k') :
    k.HarmlessRelease d l action ↔ k.ReleasesUnqueued l action := by
  constructor
  · intro harmless called foreign
    unfold CallsRelease at called
    split at called
    · subst called
      have undisturbed := harmless k k' (.direct step) foreign
      rw [wf.release_step step, undisturbed_oneTick,
        ← undisturbed_of_disable] at undisturbed
      exact (releaseBody_foreign (k := k.disable) foreign).mp undisturbed
    · rename_i c l'
      obtain ⟨rfl, accepted⟩ := called
      have undisturbed := harmless _ _ (.inWait c accepted) foreign
      rw [release_inside_wait] at undisturbed
      exact (releaseBody_foreign (k := k.disable.bindLock c l') foreign).mp
        undisturbed
    · cases called
  · intro unqueued before after call foreign
    cases call with
    | direct step =>
        rw [wf.release_step step, undisturbed_oneTick, ← undisturbed_of_disable]
        exact (releaseBody_foreign (k := k.disable) foreign).mpr
          (unqueued rfl foreign)
    | inWait c accepted =>
        rw [release_inside_wait]
        exact (releaseBody_foreign foreign).mpr (unqueued ⟨rfl, accepted⟩ foreign)

end Kernel

/-- In every run: every `Release` by a thread that is not the owner leaves
lock, ready list and threads alone if and only if each of them finds the queue
of the lock empty. -/
theorem illegal_release_harmless_iff {d : Discipline} {main : T}
    {initialValue : S → Int} {lockMemory : L → Lock T}
    {conditionMemory : C → Condition T L} {actions : List (Action T S L C)}
    {k : Kernel T S L C} (l : L)
    (run : (kernelMachine d).exec
      (boot main initialValue lockMemory conditionMemory) actions = some k) :
    (kernelMachine d).Steps (HarmlessRelease d l)
      (boot main initialValue lockMemory conditionMemory) actions ↔
    (kernelMachine d).Steps (ReleasesUnqueued l)
      (boot main initialValue lockMemory conditionMemory) actions := by
  refine Lib.Machine.steps_congr_of_invariant (I := WellFormed) ?_ ?_
    (boot_wellFormed main initialValue lockMemory conditionMemory) run
  · intro k action k' wf step
    exact wf.step step
  · intro k action k' wf step
    exact wf.harmlessRelease_iff step

/-- Main has the lock, a second thread sleeps in `Acquire`, and a third one
runs. -/
def strangerRuns {T : Type} (second third : T) : List (Action T Empty Unit Empty) :=
  [.call (.fork second), .endTick, .call (.fork third), .endTick,
    .call (.acquire ()), .endTick, .call (.yield 0), .endTick,
    .call (.acquire ()), .dispatch 0, .endTick]

/-- Main releases a lock that nobody has and nobody sleeps on. -/
theorem illegal_release_harmless_unqueued :
    (kernelMachine .fifo).Steps (HarmlessRelease .fifo ())
      (boot (0 : Fin 3) Empty.elim (fun _ => ⟨false, none, []⟩) Empty.elim)
      [.call (.release ()), .endTick] :=
  (illegal_release_harmless_iff () rfl).mpr (by decide)

/-- Thread 2 calls `Release`, and thread 1 is woken in its `Acquire` while
thread 0 has the lock. -/
theorem illegal_release_wakes_sleeper :
    ¬ ∀ (actions : List (Action (Fin 3) Empty Unit Empty))
      (k : Kernel (Fin 3) Empty Unit Empty),
      (kernelMachine .fifo).exec
        (boot 0 Empty.elim (fun _ => ⟨false, none, []⟩) Empty.elim)
        actions = some k →
      (kernelMachine .fifo).Steps (HarmlessRelease .fifo ())
        (boot 0 Empty.elim (fun _ => ⟨false, none, []⟩) Empty.elim)
        actions := by
  intro always
  have harmless := always (strangerRuns 1 2 ++ [.call (.release ())]) _ rfl
  have atRelease := Lib.Machine.Steps.at_step harmless rfl
  have undisturbed := atRelease _ _ (.direct rfl) (by decide)
  have woken : ([0, 1] : List (Fin 3)) = [0] := undisturbed.readyList
  cases woken

/-! ### Operations on a condition without the right lock -/

/-- The condition and the lock of a call on a condition. -/
def Action.conditionCall : Action T S L C → Option (C × Option L)
  | .call (.wait c conditionLock) => some (c, conditionLock)
  | .call (.signal c conditionLock) => some (c, conditionLock)
  | .call (.broadcast c conditionLock) => some (c, conditionLock)
  | _ => none

namespace Kernel

/-- No condition, no lock, no list and no thread is changed. -/
structure Unaffected (k k' : Kernel T S L C) : Prop where
  conditions : k'.conditions = k.conditions
  locks : k'.locks = k.locks
  readyList : k'.readyList = k.readyList
  status : k'.status = k.status

/-- The lock is NULL, or is not the one under which a present waiter waits, or
is not held by the calling thread. -/
def Misused (c : C) (conditionLock : Option L) (k : Kernel T S L C) : Prop :=
  conditionLock = none ∨
  (∃ t ∈ (k.conditions c).waitQueue, ∃ l,
    k.stack t = [.inWait c l .intOn] ∧ conditionLock ≠ some l) ∨
  (∃ l, conditionLock = some l ∧ ¬ k.isHeldByCurrentThread l)

/-- A misused call on a condition changes nothing. -/
def HarmlessMisuse (d : Discipline) (k : Kernel T S L C)
    (action : Action T S L C) : Prop :=
  ∀ c conditionLock k', action.conditionCall = some (c, conditionLock) →
    k.Misused c conditionLock → k.step d action = some k' → Unaffected k k'

/-- The code's own tests stop the call: `Wait` compares the lock with NULL and
with `waitingLock`, `Signal` looks at the queue and at `waitingLock`,
`Broadcast` at the queue. -/
def Refused (k : Kernel T S L C) : Action T S L C → Prop
  | .call (.wait c conditionLock) =>
      ∀ l, conditionLock = some l → ¬ k.Accepts c l
  | .call (.signal c conditionLock) =>
      (k.conditions c).waitQueue = [] ∨
        (k.conditions c).waitingLock ≠ conditionLock
  | .call (.broadcast c _) => (k.conditions c).waitQueue = []
  | _ => True

/-- Every misused call on a condition is stopped. -/
def RefusesMisuse (k : Kernel T S L C) (action : Action T S L C) : Prop :=
  ∀ c conditionLock, action.conditionCall = some (c, conditionLock) →
    k.Misused c conditionLock → k.Refused action

/-- A `Wait` that is accepted blocks its thread. -/
theorem WellFormed.wait_unaffected_iff {d : Discipline} {k k' : Kernel T S L C}
    {c : C} {conditionLock : Option L} (wf : k.WellFormed)
    (step : k.step d (.call (.wait c conditionLock)) = some k') :
    Unaffected k k' ↔ ∀ l, conditionLock = some l → ¬ k.Accepts c l := by
  obtain ⟨running, -, turn⟩ := wf.turn_of_call step (by simp)
  cases turn with
  | takeUnit s tests => cases tests
  | parkUnit s tests => cases tests
  | held l acquires => cases acquires
  | takeLock l acquires => cases acquires
  | returned l returns => cases returns
  | skipWait c conditionLock rejected =>
      exact ⟨fun _ => rejected, fun _ => ⟨rfl, rfl, rfl, rfl⟩⟩
  | parkWait c l accepted =>
      refine ⟨fun unaffected => ?_, fun rejects => absurd accepted (rejects l rfl)⟩
      have same := congrFun unaffected.status k.currentThread
      rw [(wf.awake (.inl running)).1] at same
      simp [parkWaiter, bindLock] at same

/-- A `Signal` that is not stopped readies the first waiter. -/
theorem WellFormed.signal_unaffected_iff {d : Discipline} {k k' : Kernel T S L C}
    {c : C} {conditionLock : Option L} (wf : k.WellFormed)
    (step : k.step d (.call (.signal c conditionLock)) = some k') :
    Unaffected k k' ↔ (k.conditions c).waitQueue = [] ∨
      (k.conditions c).waitingLock ≠ conditionLock := by
  obtain ⟨-, -, turn⟩ := wf.turn_of_call step (by simp)
  cases turn with
  | takeUnit s tests => cases tests
  | parkUnit s tests => cases tests
  | held l acquires => cases acquires
  | takeLock l acquires => cases acquires
  | returned l returns => cases returns
  | signal c conditionLock =>
      constructor
      · intro unaffected
        by_contra passes
        push Not at passes
        obtain ⟨t, rest, contents⟩ := List.exists_cons_of_ne_nil passes.1
        obtain ⟨-, readyList, -⟩ := wakeWaiter_cons (k := k.disable) contents
        have same := unaffected.readyList
        simp [signalBody, contents, passes.2, readyList] at same
      · intro stopped
        have same : k.disable.signalBody c conditionLock = k.disable := by
          rcases stopped with empty | other
          · exact signalBody_nil (k := k.disable) conditionLock empty
          · simp [signalBody, other]
        rw [same]
        exact ⟨rfl, rfl, rfl, rfl⟩

/-- A `Broadcast` readies every waiter. -/
theorem WellFormed.broadcast_unaffected_iff {d : Discipline}
    {k k' : Kernel T S L C} {c : C} {conditionLock : Option L} (wf : k.WellFormed)
    (step : k.step d (.call (.broadcast c conditionLock)) = some k') :
    Unaffected k k' ↔ (k.conditions c).waitQueue = [] := by
  obtain ⟨-, -, turn⟩ := wf.turn_of_call step (by simp)
  cases turn with
  | takeUnit s tests => cases tests
  | parkUnit s tests => cases tests
  | held l acquires => cases acquires
  | takeLock l acquires => cases acquires
  | returned l returns => cases returns
  | broadcast c conditionLock =>
      constructor
      · intro unaffected
        obtain ⟨-, readyList, -, -⟩ :=
          broadcastLoop_all c (k.conditions c).waitQueue k.disable rfl
        have same : k.readyList ++ (k.conditions c).waitQueue = k.readyList :=
          readyList.symm.trans unaffected.readyList
        simpa using same
      · intro empty
        have same : broadcastLoop c (k.disable.conditions c).waitQueue k.disable =
            k.disable := by
          rw [disable_conditions, empty, broadcastLoop]
        rw [same]
        exact ⟨rfl, rfl, rfl, rfl⟩

/-- A call on a condition is without effect exactly when it is stopped. -/
theorem WellFormed.unaffected_iff_refused {d : Discipline} {k k' : Kernel T S L C}
    {action : Action T S L C} {called : C × Option L} (wf : k.WellFormed)
    (calls : action.conditionCall = some called)
    (step : k.step d action = some k') :
    Unaffected k k' ↔ k.Refused action := by
  unfold Action.conditionCall at calls
  split at calls
  · exact wf.wait_unaffected_iff step
  · exact wf.signal_unaffected_iff step
  · exact wf.broadcast_unaffected_iff step
  · cases calls

end Kernel

/-- In every run: every call on a condition with a NULL lock, with another lock
than that of the waiters or with a lock that the caller does not hold is
without effect if and only if each of them is stopped by the tests the code
makes. -/
theorem misuse_harmless_iff {d : Discipline} {main : T}
    {initialValue : S → Int} {lockMemory : L → Lock T}
    {conditionMemory : C → Condition T L} {actions : List (Action T S L C)}
    {k : Kernel T S L C}
    (run : (kernelMachine d).exec
      (boot main initialValue lockMemory conditionMemory) actions = some k) :
    (kernelMachine d).Steps (HarmlessMisuse d)
      (boot main initialValue lockMemory conditionMemory) actions ↔
    (kernelMachine d).Steps RefusesMisuse
      (boot main initialValue lockMemory conditionMemory) actions := by
  refine Lib.Machine.steps_congr_of_invariant (I := WellFormed) ?_ ?_
    (boot_wellFormed main initialValue lockMemory conditionMemory) run
  · intro k action k' wf step
    exact wf.step step
  · intro k action k' wf step
    constructor
    · intro harmless c conditionLock calls misused
      exact (wf.unaffected_iff_refused calls step).mp
        (harmless c conditionLock k' calls misused step)
    · intro refuses c conditionLock k'' calls misused step'
      exact (wf.unaffected_iff_refused calls step').mpr
        (refuses c conditionLock calls misused)

namespace Kernel

instance (k : Kernel T S L C) (action : Action T S L C) :
    Decidable (k.Refused action) :=
  match action with
  | .call op =>
      match op with
      | .wait c (some l) =>
          decidable_of_iff (¬ k.Accepts c l) (by simp [Refused])
      | .wait _ none => isTrue fun _ same => by cases same
      | .signal c conditionLock =>
          inferInstanceAs (Decidable ((k.conditions c).waitQueue = [] ∨
            (k.conditions c).waitingLock ≠ conditionLock))
      | .broadcast c _ =>
          inferInstanceAs (Decidable ((k.conditions c).waitQueue = []))
      | .p _ | .v _ | .acquire _ | .release _ | .fork _ | .yield _ | .finish =>
          isTrue trivial
  | .handlerV _ | .handlerP _ | .endTick | .timeSlice _ | .dispatch _ | .idle
  | .endIdle => isTrue trivial

end Kernel

/-- Main holds nothing and calls all three operations on a condition without
waiters, `Wait` with a NULL lock. -/
def idleMisuse : List (Action (Fin 2) Empty Unit Unit) :=
  [.call (.wait () none), .endTick, .call (.signal () (some ())), .endTick,
    .call (.broadcast () (some ())), .endTick]

theorem misuse_harmless_without_waiters :
    (kernelMachine .fifo).Steps (HarmlessMisuse .fifo)
      (boot (0 : Fin 2) Empty.elim (fun _ => ⟨false, none, []⟩)
        fun _ => ⟨[], none⟩) idleMisuse := by
  apply (misuse_harmless_iff rfl).mpr
  have refused : (kernelMachine .fifo).Steps Refused
      (boot (0 : Fin 2) Empty.elim (fun _ => ⟨false, none, []⟩)
        fun _ => ⟨[], none⟩) idleMisuse := by decide
  exact refused.mono fun k action stopped c conditionLock calls misused => stopped

/-- A forked thread waits on the condition, and main runs. -/
def waiterAsleep {T : Type} (waiter : T) : List (Action T Empty Unit Unit) :=
  [.call (.fork waiter), .endTick, .call (.yield 0), .endTick,
    .call (.acquire ()), .endTick, .call (.wait () (some ())), .dispatch 0,
    .endTick]

/-- Main calls `Broadcast` with a NULL lock and wakes thread 1. -/
theorem broadcast_by_stranger_wakes_waiter :
    ¬ ∀ (actions : List (Action (Fin 2) Empty Unit Unit))
      (k : Kernel (Fin 2) Empty Unit Unit),
      (kernelMachine .fifo).exec
        (boot 0 Empty.elim (fun _ => ⟨false, none, []⟩) fun _ => ⟨[], none⟩)
        actions = some k →
      (kernelMachine .fifo).Steps (HarmlessMisuse .fifo)
        (boot 0 Empty.elim (fun _ => ⟨false, none, []⟩) fun _ => ⟨[], none⟩)
        actions := by
  intro always
  have harmless := always (waiterAsleep 1 ++ [.call (.broadcast () none)]) _ rfl
  have atBroadcast := Lib.Machine.Steps.at_step harmless rfl
  have unaffected := atBroadcast () none _ rfl (.inl rfl) rfl
  have woken : ([1] : List (Fin 2)) = [] := unaffected.readyList
  cases woken

end Nachos
