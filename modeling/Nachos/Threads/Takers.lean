/-
Module: Nachos.Threads.Takers
Purpose: A semaphore on which one thread alone calls `P`: how many of its calls
  are completed, and how many `V`s came, followed through one step of the
  thread system.
Trusted boundary: none
Main exports: WellFormed.callP_effect, WellFormed.handlerV_effect, Kernel.Taken,
  Kernel.Taken.step, Kernel.Taken.handlerV,
  Kernel.Taken.callP, Kernel.Taken.returned, Kernel.Taken.completed
-/
import Nachos.Threads.Pending
import Nachos.Threads.Semaphores

namespace Nachos

variable {T S L C : Type}
variable [DecidableEq T] [DecidableEq S] [DecidableEq L] [DecidableEq C]

open Kernel

/-- The step neither calls `P` or `V` on the semaphore nor lets a handler do
so. -/
def Action.Spares (s : S) (action : Action T S L C) : Prop :=
  action ≠ .call (.p s) ∧ action ≠ .call (.v s) ∧ action ≠ .handlerP s ∧ action ≠ .handlerV s

namespace Kernel

section

omit [DecidableEq T] [DecidableEq S] [DecidableEq L] [DecidableEq C]

/-- The frames of a thread that is in `P`. -/
theorem stack_of_pendingP {frames : List (Frame S L C)} {s : S}
    (pending : pendingCall frames = some (.p s : Op T S L C)) : frames = [.inP s .intOn] := by
  unfold pendingCall at pending
  split at pending <;> simp_all

theorem pendingP_of_stack {frames : List (Frame S L C)} {s : S}
    (inside : frames = [.inP s .intOn]) : pendingCall frames = some (.p s : Op T S L C) := by
  rw [inside]
  rfl

theorem stack_of_tests {frames : List (Frame S L C)} {s : S}
    (tests : (Cause.back frames : Cause T S L C).Tests s) : frames = [.inP s .intOn] := by
  cases tests
  rfl

end

theorem completedP_vBody (s s' : S) (k : Kernel T S L C) :
    (k.vBody s').completedP s = k.completedP s := by
  have woken := wakeFirst_count (e := .pDone s) (.semaphore s') k (by simp)
  simpa [completedP, vBody] using woken

theorem completedV_vBody (s : S) (k : Kernel T S L C) :
    (k.vBody s).completedV s = k.completedV s + 1 := by
  have woken := wakeFirst_count (e := .vDone s) (.semaphore s) k (by simp)
  simpa [completedV, vBody] using woken

/-- A `P` is completed by the thread that comes back to it. -/
theorem WellFormed.completedP_of_step {d : Discipline} {k k' : Kernel T S L C}
    {action : Action T S L C} {s : S} (wf : k.WellFormed) (spares : action.Spares s)
    (step : k.step d action = some k') :
    k'.completedP s = k.completedP s ∨
      ∃ t, k.stack t = [.inP s .intOn] ∧ k'.stack t = [] ∧
        k'.completedP s = k.completedP s + 1 := by
  obtain ⟨notP, -, notHandler, -⟩ := spares
  cases step_effect wf.shaped step with
  | @turn _ cause base _ begins poised turn =>
      have before := untouched_base begins s
      rcases turn.semaphore_cases s with same | ⟨tests, -, rfl⟩ | ⟨-, -, rfl⟩ | ⟨-, rfl⟩
      · left
        rw [same.completedP, before.completedP]
      · right
        have grown : (base.takeUnit s).oneTick.completedP s = k.completedP s + 1 := by
          rw [← before.completedP]
          simp [completedP, takeUnit]
        cases begins with
        | call op running callable =>
            cases tests
            exact absurd rfl notP
        | alone pick ticking allowed => cases tests
        | dispatch pick next asleep allowed chosen =>
            refine ⟨next, stack_of_tests tests, ?_, grown⟩
            simp [takeUnit]
        | yield pick next yields allowed chosen =>
            refine ⟨next, stack_of_tests tests, ?_, grown⟩
            simp [takeUnit]
      · left
        rw [← before.completedP]
        simp [completedP, park, sleep, push]
      · left
        rw [← before.completedP]
        exact completedP_vBody s s base
  | handlerV s' handling => exact .inl (completedP_vBody s s' k)
  | handlerP s' handling value =>
      left
      have other : s ≠ s' := by
        rintro rfl
        exact notHandler rfl
      exact (untouched_takeUnit k other).completedP
  | endTick ticking => exact .inl rfl
  | idle asleep nobody => exact .inl rfl
  | endIdle idle => exact .inl rfl

theorem WellFormed.completedV_of_step {d : Discipline} {k k' : Kernel T S L C}
    {action : Action T S L C} {s : S} (wf : k.WellFormed)
    (notV : action ≠ .call (.v s)) (notHandler : action ≠ .handlerV s)
    (step : k.step d action = some k') : k'.completedV s = k.completedV s := by
  cases step_effect wf.shaped step with
  | @turn _ cause base _ begins poised turn =>
      have before := untouched_base begins s
      rw [← before.completedV]
      rcases turn.semaphore_cases s with same | ⟨-, -, rfl⟩ | ⟨-, -, rfl⟩ | ⟨rfl, rfl⟩
      · exact same.completedV
      · simp [completedV, takeUnit]
      · simp [completedV, park, sleep, push]
      · cases begins
        exact absurd rfl notV
  | handlerV s' handling =>
      have other : s ≠ s' := by
        rintro rfl
        exact notHandler rfl
      exact (untouched_vBody k other).completedV
  | handlerP s' handling value => simp [completedV, takeUnit]
  | endTick ticking => rfl
  | idle asleep nobody => rfl
  | endIdle idle => rfl

/-- A thread makes its calls while it runs. -/
theorem running_of_call {d : Discipline} {k k' : Kernel T S L C} {op : Op T S L C}
    (step : k.step d (.call op) = some k') : k.phase = .running := by
  by_contra other
  simp [Kernel.step, other] at step

/-- What a handler does that calls `V`. -/
theorem WellFormed.handlerV_effect {d : Discipline} {k k' : Kernel T S L C} {s : S}
    (wf : k.WellFormed) (step : k.step d (.handlerV s) = some k') :
    k'.stack = k.stack ∧ k'.completedP s = k.completedP s ∧
      k'.completedV s = k.completedV s + 1 := by
  have handled : k' = k.vBody s := by
    cases step_effect wf.shaped step with
    | turn begins =>
        cases begins with
        | yield pick next yields => rcases yields with ⟨same, -⟩ | ⟨same, -⟩ <;> cases same
    | handlerV s handling => rfl
  rw [handled]
  refine ⟨?_, completedP_vBody s s k, completedV_vBody s k⟩
  funext t
  simp [vBody]

/-- A call of `P` takes a unit and returns, or goes to sleep; the other threads are
where they were. -/
theorem WellFormed.callP_effect {d : Discipline} {k k' : Kernel T S L C} {s : S}
    (wf : k.WellFormed) (step : k.step d (.call (.p s)) = some k') :
    (∀ t, t ≠ k.currentThread → k'.stack t = k.stack t) ∧
      ((k'.completedP s = k.completedP s + 1 ∧
          pendingCall (k'.stack k.currentThread) ≠ some (.p s : Op T S L C)) ∨
        (k'.completedP s = k.completedP s ∧
          pendingCall (k'.stack k.currentThread) = some (.p s : Op T S L C))) := by
  obtain ⟨-, poised, turn⟩ := wf.turn_of_call step (by simp)
  have empty : k.stack k.currentThread = [] := poised.stack
  cases turn with
  | takeUnit s' tests value =>
      cases tests
      refine ⟨fun t _ => by simp [takeUnit, disable], .inl ⟨?_, ?_⟩⟩
      · simp [completedP, takeUnit, disable]
      · simp [takeUnit, disable, empty, pendingCall]
  | parkUnit s' tests value =>
      cases tests
      refine ⟨fun t other => by simp [park, sleep, push, disable, other], .inr ⟨?_, ?_⟩⟩
      · simp [completedP, park, sleep, push, disable]
      · simp [park, sleep, push, disable, empty, pendingCall]
  | held l acquires held => cases acquires
  | takeLock l acquires foreign free => cases acquires
  | returned l returns => cases returns

/-- The thread `taker` alone calls `P` on the semaphore, which started at 0; it
has made `calls` such calls and `units` calls of `V` were completed.  Only if
`inside` is set it may not have returned from the last one. -/
structure Taken (s : S) (taker : T) (units calls : Nat) (inside : Bool)
    (k : Kernel T S L C) : Prop where
  wf : k.WellFormed
  blank : k.Blank
  balanced : Balanced s 0 k
  completedV : k.completedV s = units
  sole : ∀ t, pendingCall (k.stack t) = some (.p s : Op T S L C) → t = taker
  count : k.completedP s +
    (if pendingCall (k.stack taker) = some (.p s : Op T S L C) then 1 else 0) = calls
  outside : inside = false → pendingCall (k.stack taker) ≠ some (.p s : Op T S L C)

variable {d : Discipline} {k k' : Kernel T S L C} {action : Action T S L C} {s : S} {taker : T}
variable {units calls : Nat} {inside : Bool}

/-- A thread that is in `P` stays there until it completes it. -/
theorem WellFormed.pendingP_iff (wf : k.WellFormed) (blank : k.Blank)
    (notCalled : action ≠ .call (.p s)) (step : k.step d action = some k')
    (same : k'.completedP s = k.completedP s) (t : T) :
    pendingCall (k'.stack t) = some (.p s : Op T S L C) ↔
      pendingCall (k.stack t) = some (.p s : Op T S L C) := by
  constructor
  · intro pending
    rcases wf.pending_of_step step pending with before | ⟨-, called⟩
    · exact before
    · exact absurd called notCalled
  · intro pending
    have frames := stack_of_pendingP pending
    rcases wf.stack_of_step blank step pending with
      kept | ⟨base, begins, rfl, poised, turn⟩
    · rw [kept]
      exact pending
    · rw [frames] at begins turn
      have before := (untouched_base begins s).completedP
      cases turn with
      | takeUnit s' tests value =>
          cases tests
          simp [completedP, takeUnit] at same before
          omega
      | parkUnit s' tests value =>
          cases tests
          simp [park, sleep, push, poised.stack, pendingCall]
      | held l acquires held => cases acquires
      | takeLock l acquires foreign free => cases acquires
      | returned l returns => cases returns

theorem Taken.pending_iff (taken : Taken s taker units calls inside k)
    (notCalled : action ≠ .call (.p s)) (step : k.step d action = some k')
    (same : k'.completedP s = k.completedP s) (t : T) :
    pendingCall (k'.stack t) = some (.p s : Op T S L C) ↔
      pendingCall (k.stack t) = some (.p s : Op T S L C) :=
  taken.wf.pendingP_iff taken.blank notCalled step same t

/-- A step that spares the semaphore may complete a `P`, and nothing else. -/
theorem Taken.step (taken : Taken s taker units calls inside k) (spares : action.Spares s)
    (step : k.step d action = some k') : Taken s taker units calls inside k' := by
  have completedV := taken.wf.completedV_of_step spares.2.1 spares.2.2.2 step
  refine ⟨taken.wf.step step, taken.blank.step taken.wf step, taken.balanced.step taken.wf step,
    completedV.trans taken.completedV, ?_, ?_, ?_⟩
  · intro t pending
    rcases taken.wf.pending_of_step step pending with before | ⟨-, called⟩
    · exact taken.sole t before
    · exact absurd called spares.1
  · have count := taken.count
    rcases taken.wf.completedP_of_step spares step with same | ⟨t, frames, back, more⟩
    · rw [same, if_congr (taken.pending_iff spares.1 step same taker) rfl rfl]
      exact count
    · obtain rfl : t = taker := taken.sole t (pendingP_of_stack frames)
      rw [if_pos (pendingP_of_stack frames)] at count
      have out : pendingCall (k'.stack t) ≠ some (.p s : Op T S L C) := by
        simp [back, pendingCall]
      rw [if_neg out, more]
      exact count
  · intro out pending
    rcases taken.wf.pending_of_step step pending with before | ⟨-, called⟩
    · exact taken.outside out before
    · exact absurd called spares.1

/-- A handler calls `V`. -/
theorem Taken.handlerV (taken : Taken s taker units calls inside k)
    (step : k.step d (.handlerV s) = some k') : Taken s taker (units + 1) calls inside k' := by
  obtain ⟨stack, completedP, completedV⟩ := taken.wf.handlerV_effect step
  refine ⟨taken.wf.step step, taken.blank.step taken.wf step, taken.balanced.step taken.wf step,
    ?_, ?_, ?_, ?_⟩
  · rw [completedV, taken.completedV]
  · rw [stack]
    exact taken.sole
  · rw [stack, completedP]
    exact taken.count
  · rw [stack]
    exact taken.outside

/-- The taker calls `P`. -/
theorem Taken.callP (taken : Taken s taker units calls inside k) (current : k.currentThread = taker)
    (step : k.step d (.call (.p s)) = some k') : Taken s taker units (calls + 1) true k' := by
  have wf' := taken.wf.step step
  have blank' := taken.blank.step taken.wf step
  have balanced' := taken.balanced.step taken.wf step
  have completedV : k'.completedV s = k.completedV s :=
    taken.wf.completedV_of_step (by simp) (by simp) step
  refine ⟨wf', blank', balanced', completedV.trans taken.completedV, ?_, ?_, by simp⟩
  · intro t pending
    rcases taken.wf.pending_of_step step pending with before | ⟨rfl, -⟩
    · exact taken.sole t before
    · exact current
  · subst current
    have empty : k.stack k.currentThread = [] :=
      (taken.wf.awake (.inl (running_of_call step))).2
    have count := taken.count
    rw [if_neg (by simp [empty, pendingCall])] at count
    rcases (taken.wf.callP_effect step).2 with ⟨more, out⟩ | ⟨same, pending⟩
    · rw [if_neg out]
      omega
    · rw [if_pos pending]
      omega

/-- While the taker runs, it has returned from its calls. -/
theorem Taken.returned (taken : Taken s taker units calls inside k)
    (running : k.phase = .running) (current : k.currentThread = taker) :
    Taken s taker units calls false k := by
  have empty : k.stack taker = [] := by
    rw [← current]
    exact taken.wf.shaped.current (.inl running)
  exact { taken with outside := fun _ => by simp [empty, pendingCall] }

/-- Outside `P` the calls of the taker are completed. -/
theorem Taken.completed (taken : Taken s taker units calls false k) :
    k.completedP s = calls := by
  have count := taken.count
  rw [if_neg (taken.outside rfl)] at count
  exact count

theorem Taken.value (taken : Taken s taker units calls inside k) :
    (k.semaphores s).value = units - k.completedP s := by
  rw [taken.balanced.value, taken.completedV]
  omega

theorem Taken.completedP_le (taken : Taken s taker units calls inside k) :
    k.completedP s ≤ units := by
  have value := taken.value
  have nonneg := taken.balanced.nonneg
  omega

theorem Taken.calls_le (taken : Taken s taker units calls inside k) :
    calls ≤ k.completedP s + 1 := by
  have count := taken.count
  split at count
  · omega
  · omega

theorem boot_taken (main : T) {initialValue : S → Int} (lockMemory : L → Lock T)
    (conditionMemory : C → Condition T L) (zero : initialValue s = 0) (taker : T) :
    Taken s taker 0 0 false (boot main initialValue lockMemory conditionMemory) where
  wf := boot_wellFormed main initialValue lockMemory conditionMemory
  blank := boot_blank main initialValue lockMemory conditionMemory
  balanced := ⟨by simp [boot, Semaphore.construct, zero, completedP, Kernel.completedV],
    by simp [boot, Semaphore.construct, zero], fun queued => absurd rfl queued⟩
  completedV := rfl
  sole t pending := by simp [boot, pendingCall] at pending
  count := rfl
  outside _ := by simp [boot, pendingCall]

end Kernel

end Nachos
