/-
Module: Nachos.Threads.Bindings
Purpose: Two fields of synch.cc that outlive what they record.  `waitingLock`
  is written when a condition gets its first waiter and never again, so that
  it still names a lock when the last waiter has left; and the constructors
  store neither `owner` nor `waitingLock`, so that the first calls on a lock
  or condition depend on what its memory held before.
Trusted boundary: none
Main exports: Kernel.OpenWhenEmpty, Kernel.RemovesLastWaiter,
  open_iff_waiters_stay, Observation, Kernel.observe, same_runs_iff_same_memory
-/
import Nachos.Threads.Pending

namespace Nachos

variable {T S L C : Type}
variable [DecidableEq T] [DecidableEq S] [DecidableEq L] [DecidableEq C]

open Kernel

/-! ### The lock of a condition without waiters -/

namespace Kernel

/-- Without waiters the condition is bound to no lock, and a `Wait` under any
lock puts its thread to sleep on it. -/
def OpenWhenEmpty (d : Discipline) (c : C) (k : Kernel T S L C) : Prop :=
  (k.conditions c).waitQueue = [] →
    (k.conditions c).waitingLock = none ∧
    ∀ l k', k.step d (.call (.wait c (some l))) = some k' →
      (k'.conditions c).waitQueue = [k.currentThread] ∧
      k'.status k.currentThread = .blocked

/-- The step takes the last waiter off the queue: a `Signal` under the right
lock with one waiter, or a `Broadcast` with any. -/
def RemovesLastWaiter (c : C) (k : Kernel T S L C) : Action T S L C → Prop
  | .call (.signal c' conditionLock) =>
      c' = c ∧ (k.conditions c).waitingLock = conditionLock ∧
        (k.conditions c).waitQueue.length = 1
  | .call (.broadcast c' _) => c' = c ∧ (k.conditions c).waitQueue ≠ []
  | _ => False

instance (c : C) (k : Kernel T S L C) (action : Action T S L C) :
    Decidable (k.RemovesLastWaiter c action) :=
  match action with
  | .call op =>
      match op with
      | .signal c' conditionLock =>
          inferInstanceAs (Decidable (c' = c ∧
            (k.conditions c).waitingLock = conditionLock ∧
            (k.conditions c).waitQueue.length = 1))
      | .broadcast c' _ =>
          inferInstanceAs (Decidable (c' = c ∧ (k.conditions c).waitQueue ≠ []))
      | .wait _ _ | .p _ | .v _ | .acquire _ | .release _ | .fork _ | .yield _
      | .finish => isFalse id
  | .handlerV _ | .handlerP _ | .endTick | .timeSlice _ | .dispatch _ | .idle
  | .endIdle => isFalse id

/-- As long as no last waiter has left, waiters and binding go together. -/
structure BoundByWaiters (c : C) (k : Kernel T S L C) : Prop where
  under : k.WaitsUnder c
  unbound : (k.conditions c).waitQueue = [] → (k.conditions c).waitingLock = none

omit [DecidableEq T] [DecidableEq S] [DecidableEq L] [DecidableEq C] in
theorem WellFormed.bound_of_waiters {c : C} {k : Kernel T S L C}
    (wf : k.WellFormed) (under : k.WaitsUnder c)
    (waiters : (k.conditions c).waitQueue ≠ []) :
    (k.conditions c).waitingLock ≠ none := by
  obtain ⟨t, rest, contents⟩ := List.exists_cons_of_ne_nil waiters
  obtain ⟨-, l, frames⟩ := wf.asleep_in_wait (c := c) (t := t) (by simp [contents])
  rw [under t l frames]
  simp

theorem BoundByWaiters.step {d : Discipline} {c : C} {k k' : Kernel T S L C}
    {action : Action T S L C} (wf : k.WellFormed) (bound : k.BoundByWaiters c)
    (stays : ¬ k.RemovesLastWaiter c action)
    (step : k.step d action = some k') : k'.BoundByWaiters c := by
  refine ⟨bound.under.step wf.shaped step, ?_⟩
  rw [wf.condition_of_step step c]
  unfold conditionAfter
  split
  · split
    · intro empty
      simp at empty
    · exact bound.unbound
  · rename_i c' conditionLock
    split
    · rename_i matched
      obtain ⟨rfl, same⟩ := matched
      intro empty
      have short : (k.conditions c').waitQueue.length ≠ 1 :=
        fun one => stays ⟨rfl, same, one⟩
      cases contents : (k.conditions c').waitQueue with
      | nil => exact bound.unbound contents
      | cons t rest =>
          simp only [contents, List.tail_cons] at empty
          simp [contents, empty] at short
    · exact bound.unbound
  · split
    · rename_i same
      subst same
      intro _
      by_contra stale
      exact stays ⟨rfl, fun empty => stale (bound.unbound empty)⟩
    · exact bound.unbound
  · exact bound.unbound

theorem BoundByWaiters.open {d : Discipline} {c : C} {k : Kernel T S L C}
    (wf : k.WellFormed) (bound : k.BoundByWaiters c) : k.OpenWhenEmpty d c := by
  intro empty
  have free := bound.unbound empty
  refine ⟨free, fun l k' step => ?_⟩
  have after := wf.condition_of_step step c
  have accepts : k.Accepts c l := .inr free
  rw [conditionAfter, if_pos ⟨rfl, accepts⟩, empty] at after
  have queued : (k'.conditions c).waitQueue = [k.currentThread] := by
    rw [after]
    rfl
  exact ⟨queued, ((wf.step step).asleep_in_wait (c := c) (by simp [queued])).1⟩

/-- The lock stays behind when the last waiter leaves. -/
theorem WellFormed.stale_of_removes {d : Discipline} {c : C}
    {k k' : Kernel T S L C} {action : Action T S L C} (wf : k.WellFormed)
    (under : k.WaitsUnder c) (removes : k.RemovesLastWaiter c action)
    (step : k.step d action = some k') : ¬ k'.OpenWhenEmpty d c := by
  intro opens
  have after := wf.condition_of_step step c
  unfold RemovesLastWaiter at removes
  split at removes
  · obtain ⟨rfl, same, one⟩ := removes
    obtain ⟨t, contents⟩ := List.length_eq_one_iff.mp one
    rw [conditionAfter, if_pos ⟨rfl, same⟩] at after
    have unbound := (opens (by simp [after, contents])).1
    rw [after] at unbound
    exact wf.bound_of_waiters under (by simp [contents]) unbound
  · obtain ⟨rfl, waiters⟩ := removes
    rw [conditionAfter, if_pos rfl] at after
    have unbound := (opens (by simp [after])).1
    rw [after] at unbound
    exact wf.bound_of_waiters under waiters unbound
  · cases removes

end Kernel

/-- For a condition that starts unbound, in every run: the condition is open to
every lock whenever it has no waiters if and only if no step of the run takes
the last waiter off its queue. -/
theorem open_iff_waiters_stay {d : Discipline} {main : T}
    {initialValue : S → Int} {lockMemory : L → Lock T}
    {conditionMemory : C → Condition T L} {actions : List (Action T S L C)}
    {k : Kernel T S L C} (c : C) (free : (conditionMemory c).waitingLock = none)
    (run : (kernelMachine d).exec
      (boot main initialValue lockMemory conditionMemory) actions = some k) :
    (kernelMachine d).Along (OpenWhenEmpty d c)
      (boot main initialValue lockMemory conditionMemory) actions ↔
    (kernelMachine d).Steps (fun k action => ¬ k.RemovesLastWaiter c action)
      (boot main initialValue lockMemory conditionMemory) actions := by
  have start : (boot main initialValue lockMemory conditionMemory).WellFormed ∧
      (boot main initialValue lockMemory conditionMemory).BoundByWaiters c := by
    refine ⟨boot_wellFormed main initialValue lockMemory conditionMemory, ?_, ?_⟩
    · intro t l waits
      cases waits
    · intro _
      exact free
  refine Lib.Machine.along_iff_steps
    (I := fun k : Kernel T S L C => k.WellFormed ∧ k.BoundByWaiters c)
    ?_ (fun k invariant => invariant.2.open invariant.1) ?_ start
    (Lib.Machine.steps_true _ _) run
  · intro k action k' invariant _ stays step
    exact ⟨invariant.1.step step, invariant.2.step invariant.1 stays step⟩
  · intro k action k' invariant _ removes step
    exact invariant.1.stale_of_removes invariant.2.under (not_not.mp removes) step

/-- A forked thread waits under a lock and main runs. -/
def waiterUnder {T L : Type} (waiter : T) (l : L) : List (Action T Empty L Unit) :=
  [.call (.fork waiter), .endTick, .call (.yield 0), .endTick,
    .call (.acquire l), .endTick, .call (.wait () (some l)), .dispatch 0,
    .endTick]

theorem open_while_waiter_sleeps :
    (kernelMachine .fifo).Along (OpenWhenEmpty .fifo ())
      (boot (0 : Fin 2) Empty.elim (fun _ => ⟨false, none, []⟩)
        fun _ => ⟨[], none⟩) (waiterUnder 1 (0 : Fin 2)) :=
  (open_iff_waiters_stay () rfl rfl).mpr (by decide)

/-- Main signals thread 1, and the condition stays bound to lock 0 without a
waiter. -/
theorem binding_survives_last_waiter :
    ¬ ∀ (actions : List (Action (Fin 2) Empty (Fin 2) Unit))
      (k : Kernel (Fin 2) Empty (Fin 2) Unit),
      (kernelMachine .fifo).exec
        (boot 0 Empty.elim (fun _ => ⟨false, none, []⟩) fun _ => ⟨[], none⟩)
        actions = some k → k.OpenWhenEmpty .fifo () := by
  intro always
  have opens := always (waiterUnder 1 0 ++ [.call (.signal () (some 0))]) _ rfl
  have unbound : some (0 : Fin 2) = none := (opens rfl).1
  cases unbound

/-! ### Memory that a constructor leaves alone -/

/-- What a run shows: who runs, which thread is blocked or ready, the order of
the ready threads, and who owns each lock that is taken. -/
structure Observation (T L : Type) where
  currentThread : T
  phase : Phase
  status : T → ThreadStatus
  readyList : List T
  owners : L → Option T

namespace Kernel

def observe (k : Kernel T S L C) : Observation T L where
  currentThread := k.currentThread
  phase := k.phase
  status := k.status
  readyList := k.readyList
  owners l := if (k.locks l).acquired then (k.locks l).owner else none

/-- Main forks `t`, unless it is `t` itself, and gives it the CPU. -/
def giveCpu (main t : T) : List (Action T S L C) :=
  if t = main then []
  else [.call (.fork t), .endTick, .call (.yield 0), .endTick]

/-- A free lock is taken by `Acquire`, except that a thread which the field
`owner` names does not touch it. -/
theorem acquire_owners {k : Kernel T S L C} {l : L} (on : k.level = .intOn)
    (free : (k.locks l).acquired = false) :
    (k.perform (.acquire l)).observe.owners l =
      if (k.locks l).owner = some k.currentThread then none
      else some k.currentThread := by
  rw [perform, acquire, on, setLevel_intOff, acquireBody]
  by_cases held : (k.locks l).owner = some k.currentThread
  · have disabledHeld : k.disable.isHeldByCurrentThread l := held
    rw [if_pos disabledHeld, if_pos held, setLevel_intOn rfl]
    simp [observe, enter, free]
  · have disabledForeign : ¬ k.disable.isHeldByCurrentThread l := held
    have disabledFree : ¬ (k.disable.locks l).acquired = true := by simp [free]
    rw [if_neg disabledForeign, if_neg disabledFree, if_neg held, setLevel_intOn rfl]
    simp [observe, enter, takeLock]

/-- `Wait` blocks exactly when the field `waitingLock` lets it. -/
theorem wait_phase {k : Kernel T S L C} {c : C} {l : L} (on : k.level = .intOn) :
    (k.perform (.wait c (some l))).observe.phase =
      if k.Accepts c l then .sleeping else .oneTick := by
  by_cases accepted : k.Accepts c l
  · rw [perform_wait on accepted, if_pos accepted]
    rfl
  · have other : ¬ (k.disable.conditions c).waitingLock = some l :=
      fun same => accepted (.inl same)
    have bound : ¬ (k.disable.conditions c).waitingLock = none :=
      fun free => accepted (.inr free)
    rw [perform, wait, on, setLevel_intOff, waitBody, if_neg other, if_neg bound,
      if_neg accepted, setLevel_intOn rfl]
    rfl

theorem step_of_callable {d : Discipline} {k : Kernel T S L C} (op : Op T S L C)
    (running : k.phase = .running) (callable : k.Callable d op) :
    (kernelMachine d).step k (.call op) = some (k.perform op) :=
  if_pos ⟨running, callable⟩

section Memories

variable (d : Discipline) (main : T) (initialValue : S → Int)
variable (lockMemory : L → Lock T) (conditionMemory : C → Condition T L)

theorem exec_giveCpu (t : T) :
    ∃ k, (kernelMachine d).exec
        (boot main initialValue lockMemory conditionMemory)
        (giveCpu main t) = some k ∧
      k.currentThread = t ∧ k.phase = .running ∧ k.level = .intOn ∧
      k.locks = fun l => (lockMemory l).construct := by
  by_cases same : t = main
  · subst same
    exact ⟨_, by rw [giveCpu, if_pos rfl]; rfl, rfl, rfl, rfl, rfl⟩
  · have allowed : d.allows 0 = true := by cases d <;> rfl
    have summary : ((kernelMachine d).exec
        (boot main initialValue lockMemory conditionMemory)
        (giveCpu main t)).map
          (fun k => (k.currentThread, k.phase, k.level, k.locks)) =
        some (t, .running, .intOn, fun l => (lockMemory l).construct) := by
      simp [giveCpu, Lib.Machine.exec, kernelMachine, Kernel.step, boot, Callable,
        same, Ne.symm same, perform, fork, readyToRun, setLevel, allowed, resume,
        yield, yieldBody, findNextToRun, push, run, switch, returnInto]
      rfl
    obtain ⟨k, run, fields⟩ := Option.map_eq_some_iff.mp summary
    simp only [Prod.mk.injEq] at fields
    exact ⟨k, run, fields⟩

/-- Who owns the lock when `t` has been the first to call `Acquire`. -/
theorem exec_acquire_owners (t : T) (l : L) :
    ((kernelMachine d).exec
        (boot main initialValue lockMemory conditionMemory)
        (giveCpu main t ++ [.call (.acquire l)])).map (fun k => k.observe.owners l) =
      some (if (lockMemory l).owner = some t then none else some t) := by
  obtain ⟨k, run, rfl, running, on, locks⟩ :=
    exec_giveCpu d main initialValue lockMemory conditionMemory t
  have step := step_of_callable (d := d) (.acquire l) running trivial
  have free : (k.locks l).acquired = false := by rw [locks]; rfl
  have both := (Lib.Machine.exec_snoc_eq_some (kernelMachine d)).mpr ⟨k, run, step⟩
  rw [both, Option.map_some, acquire_owners on free, locks]
  rfl

/-- Whether main blocks when it calls `Wait` first of all. -/
theorem exec_wait_phase (c : C) (l : L) :
    ((kernelMachine d).exec
        (boot main initialValue lockMemory conditionMemory)
        [.call (.wait c (some l))]).map (fun k => k.observe.phase) =
      some (if (conditionMemory c).waitingLock = some l ∨
        (conditionMemory c).waitingLock = none then .sleeping else .oneTick) := by
  have step := step_of_callable (d := d) (.wait c (some l))
    (k := boot main initialValue lockMemory conditionMemory) rfl trivial
  rw [Lib.Machine.exec_cons_of_step step, Lib.Machine.exec_nil, Option.map_some, wait_phase rfl]
  rfl

end Memories

omit [DecidableEq L] in
/-- A lock pointer is determined by the locks that are accepted under it. -/
theorem waitingLock_ext [Nontrivial L] {first second : Option L}
    (same : ∀ l, (first = some l ∨ first = none) ↔ (second = some l ∨ second = none)) :
    first = second := by
  cases first with
  | none =>
      cases second with
      | none => rfl
      | some l =>
          obtain ⟨l', other⟩ := exists_ne l
          have accepted := (same l').mp (.inr rfl)
          simp [other.symm] at accepted
  | some l =>
      have accepted := (same l).mp (.inl rfl)
      rcases accepted with bound | free
      · exact bound.symm
      · subst free
        obtain ⟨l', other⟩ := exists_ne l
        have accepted' := (same l').mpr (.inr rfl)
        simp [other.symm] at accepted'

end Kernel

/-- For any two contents of the memory in which the locks and conditions are
constructed: all runs with the same calls under the same schedule show the same
if and only if the two contents agree on every `owner` and every
`waitingLock`. -/
theorem same_runs_iff_same_memory [Nontrivial L] {d : Discipline} {main : T}
    {initialValue : S → Int} {lockMemory lockMemory' : L → Lock T}
    {conditionMemory conditionMemory' : C → Condition T L} :
    (∀ actions : List (Action T S L C),
      ((kernelMachine d).exec
        (boot main initialValue lockMemory conditionMemory) actions).map observe =
      ((kernelMachine d).exec
        (boot main initialValue lockMemory' conditionMemory') actions).map observe) ↔
    (∀ l, (lockMemory l).owner = (lockMemory' l).owner) ∧
      ∀ c, (conditionMemory c).waitingLock = (conditionMemory' c).waitingLock := by
  constructor
  · intro same
    constructor
    · intro l
      apply Option.ext
      intro t
      have shown := congrArg (Option.map fun o : Observation T L => o.owners l)
        (same (giveCpu main t ++ [.call (.acquire l)]))
      rw [Option.map_map, Option.map_map] at shown
      have owners :=
        (exec_acquire_owners d main initialValue lockMemory conditionMemory t l).symm.trans
          (shown.trans
            (exec_acquire_owners d main initialValue lockMemory' conditionMemory' t l))
      by_cases first : (lockMemory l).owner = some t <;>
        by_cases second : (lockMemory' l).owner = some t <;>
        simp_all
    · intro c
      apply waitingLock_ext
      intro l
      have shown := congrArg (Option.map fun o : Observation T L => o.phase)
        (same [.call (.wait c (some l))])
      rw [Option.map_map, Option.map_map] at shown
      have phases :=
        (exec_wait_phase d main initialValue lockMemory conditionMemory c l).symm.trans
          (shown.trans
            (exec_wait_phase d main initialValue lockMemory' conditionMemory' c l))
      split at phases <;> split at phases <;> simp_all
  · rintro ⟨owners, waitingLocks⟩ actions
    have booted : boot main initialValue lockMemory conditionMemory =
        boot main initialValue lockMemory' conditionMemory' := by
      simp [boot, Lock.construct, Condition.construct, owners, waitingLocks]
    rw [booted]

/-- Memory that differs only where the constructors write, and a critical
section of main. -/
theorem same_runs_from_other_queues :
    ((kernelMachine .fifo).exec (boot (0 : Fin 2) Empty.elim
      (fun _ => ⟨false, none, []⟩) fun _ => ⟨[], none⟩)
      ([.call (.acquire true), .call (.release true)] :
        List (Action (Fin 2) Empty Bool Unit))).map observe =
    ((kernelMachine .fifo).exec (boot (0 : Fin 2) Empty.elim
      (fun _ => ⟨true, none, [1]⟩) fun _ => ⟨[0, 1], none⟩)
      ([.call (.acquire true), .call (.release true)] :
        List (Action (Fin 2) Empty Bool Unit))).map observe :=
  same_runs_iff_same_memory.mpr ⟨fun _ => rfl, fun _ => rfl⟩ _

/-- The first `Acquire` of main takes a lock whose `owner` was NULL, and takes
nothing when the memory held main itself. -/
theorem unset_owner_decides_acquire :
    ¬ ∀ (lockMemory lockMemory' : Bool → Lock (Fin 1))
      (conditionMemory conditionMemory' : Empty → Condition (Fin 1) Bool)
      (actions : List (Action (Fin 1) Empty Bool Empty)),
      ((kernelMachine .fifo).exec
        (boot 0 Empty.elim lockMemory conditionMemory) actions).map observe =
      ((kernelMachine .fifo).exec
        (boot 0 Empty.elim lockMemory' conditionMemory') actions).map observe := by
  intro always
  have same := always (fun _ => ⟨false, none, []⟩) (fun _ => ⟨false, some 0, []⟩)
    Empty.elim Empty.elim [.call (.acquire true)]
  have owners := congrArg (Option.map fun o : Observation (Fin 1) Bool => o.owners true)
    same
  have taken : some (some (0 : Fin 1)) = some none := owners
  cases taken

end Nachos
