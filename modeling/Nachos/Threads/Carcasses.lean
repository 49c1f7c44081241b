/-
Module: Nachos.Threads.Carcasses
Purpose: The deletion of finished threads.  `Finish` leaves its thread in the
  one slot `threadToBeDestroyed`, and `Scheduler::Run` empties the slot when it
  comes back to a thread that has run before.  A new thread starts elsewhere,
  so that it finds the slot still full, and its own `Finish` overwrites it.
Trusted boundary: none
Main exports: Kernel.CarcassesKept, Kernel.Overwrites,
  carcasses_kept_iff_slot_empty, second_finish_forgets_first
-/
import Nachos.Threads.Pending

namespace Nachos

variable {T S L C : Type}
variable [DecidableEq T] [DecidableEq S] [DecidableEq L] [DecidableEq C]

open Kernel

namespace Kernel

/-- How often `Run` has deleted `t`. -/
def deletions (k : Kernel T S L C) (t : T) : Nat :=
  k.log.count (.deleted t)

/-- A finished thread that is not deleted is `threadToBeDestroyed` (so there is
at most one), no thread is deleted twice, and a deleted thread has finished and
is not the current one. -/
structure CarcassesKept (k : Kernel T S L C) : Prop where
  remembered : ∀ t, k.Finished t → k.deletions t = 0 →
    k.threadToBeDestroyed = some t
  once : ∀ t, k.deletions t ≤ 1
  finished : ∀ t, 0 < k.deletions t → k.Finished t ∧ t ≠ k.currentThread

/-- `Finish` is called while the slot still holds another thread. -/
def Overwrites (k : Kernel T S L C) (action : Action T S L C) : Prop :=
  action = .call .finish ∧ k.threadToBeDestroyed ≠ none

instance (k : Kernel T S L C) (action : Action T S L C) :
    Decidable (k.Overwrites action) :=
  inferInstanceAs (Decidable (_ ∧ _))

/-! ### What a turn does to the slot -/

/-- The slot and the deletions are what they were. -/
structure Undeleted (k k' : Kernel T S L C) : Prop where
  slot : k'.threadToBeDestroyed = k.threadToBeDestroyed
  deletions : k'.deletions = k.deletions

theorem Undeleted.trans {k k' k'' : Kernel T S L C} (first : Undeleted k k')
    (second : Undeleted k' k'') : Undeleted k k'' where
  slot := second.slot.trans first.slot
  deletions := second.deletions.trans first.deletions

theorem Undeleted.of_eq {k k' : Kernel T S L C}
    (slot : k'.threadToBeDestroyed = k.threadToBeDestroyed)
    (log : k'.log = k.log) : Undeleted k k' where
  slot := slot
  deletions := by
    funext t
    rw [Kernel.deletions, Kernel.deletions, log]

theorem Undeleted.of_cons {k k' : Kernel T S L C} {e : Event T S L C}
    (slot : k'.threadToBeDestroyed = k.threadToBeDestroyed)
    (log : k'.log = e :: k.log) (silent : ∀ t, e ≠ .deleted t) :
    Undeleted k k' where
  slot := slot
  deletions := by
    funext t
    simp [Kernel.deletions, log, silent t]

theorem undeleted_wakeFirst (q : WaitQueue S L C) (k : Kernel T S L C) :
    Undeleted k (k.wakeFirst q) where
  slot := by
    unfold wakeFirst
    split <;> simp [readyToRun]
  deletions := funext fun t => wakeFirst_count q k (by simp)

theorem undeleted_park (q : WaitQueue S L C) (frame : Frame S L C)
    (k : Kernel T S L C) : Undeleted k (k.park q frame) where
  slot := by simp [park, sleep, push]
  deletions := by
    funext t
    simp [deletions, park, sleep, push]

theorem undeleted_releaseBody (l : L) (k : Kernel T S L C) :
    Undeleted k (k.releaseBody l) := by
  have left : Undeleted k ((k.note (.left l k.currentThread)).clearOwner l) := by
    refine .of_cons (e := .left l k.currentThread) ?_ ?_ (by simp) <;>
      unfold clearOwner <;> split <;> rfl
  exact left.trans (undeleted_wakeFirst _ _)

theorem undeleted_wakeWaiter (c : C) (k : Kernel T S L C) :
    Undeleted k (k.wakeWaiter c) := by
  unfold wakeWaiter
  split
  · exact ⟨rfl, rfl⟩
  · exact (undeleted_wakeFirst _ k).trans (.of_cons rfl rfl (by simp))

theorem undeleted_signalBody (c : C) (conditionLock : Option L)
    (k : Kernel T S L C) : Undeleted k (k.signalBody c conditionLock) := by
  unfold signalBody
  split
  · exact ⟨rfl, rfl⟩
  · split
    · exact ⟨rfl, rfl⟩
    · exact undeleted_wakeWaiter c k

theorem undeleted_broadcastLoop (c : C) (threads : List T) (k : Kernel T S L C) :
    Undeleted k (broadcastLoop c threads k) := by
  induction threads generalizing k with
  | nil => exact ⟨rfl, rfl⟩
  | cons t threads inductionHypothesis =>
      exact (undeleted_wakeWaiter c k).trans (inductionHypothesis _)

end Kernel

/-- Nothing but `Finish` writes the slot in a turn, and nothing deletes. -/
theorem Turn.carcass_cases {k k' : Kernel T S L C} {cause : Cause T S L C}
    (turn : Turn k cause k') :
    (cause ≠ .call .finish ∧ Undeleted k k') ∨
    (cause = .call .finish ∧ k' = k.finishBody) := by
  have silent : ∀ {k'' : Kernel T S L C}, Undeleted k k'' → Undeleted k k''.oneTick :=
    fun same => ⟨same.slot, same.deletions⟩
  cases turn with
  | root => exact .inl ⟨by simp, ⟨rfl, rfl⟩⟩
  | yielded => exact .inl ⟨by simp, ⟨rfl, rfl⟩⟩
  | alone pick none => exact .inl ⟨by simp, ⟨rfl, rfl⟩⟩
  | takeUnit s tests value =>
      exact .inl ⟨by cases tests <;> simp, silent (.of_cons rfl rfl (by simp))⟩
  | parkUnit s tests value =>
      exact .inl ⟨by cases tests <;> simp, undeleted_park _ _ k⟩
  | v s =>
      refine .inl ⟨by simp, silent ((undeleted_wakeFirst (.semaphore s) k).trans ?_)⟩
      exact .of_cons rfl rfl (by simp)
  | held l acquires held =>
      exact .inl ⟨by cases acquires <;> simp, silent (.of_cons rfl rfl (by simp))⟩
  | takeLock l acquires foreign free =>
      exact .inl ⟨by cases acquires <;> simp, silent (.of_cons rfl rfl (by simp))⟩
  | parkLock l foreign busy => exact .inl ⟨by simp, undeleted_park _ _ k⟩
  | parkRelock c l foreign busy =>
      have pushed : Undeleted k (k.push (.inReacquire c l .intOn)) := .of_eq rfl rfl
      exact .inl ⟨by simp, pushed.trans (undeleted_park _ _ _)⟩
  | returned l returns =>
      exact .inl ⟨by cases returns <;> simp, silent (.of_cons rfl rfl (by simp))⟩
  | release l => exact .inl ⟨by simp, silent (undeleted_releaseBody l k)⟩
  | skipWait c conditionLock rejected => exact .inl ⟨by simp, ⟨rfl, rfl⟩⟩
  | parkWait c l accepted =>
      have bound : Undeleted k (k.bindLock c l) := .of_eq rfl rfl
      have released := bound.trans (undeleted_releaseBody l (k.bindLock c l))
      have noted : Undeleted ((k.bindLock c l).releaseBody l)
          (((k.bindLock c l).releaseBody l).note
            (.waited c ((k.bindLock c l).releaseBody l).currentThread l)) :=
        .of_cons rfl rfl (by simp)
      exact .inl ⟨by simp, (released.trans noted).trans (undeleted_park _ _ _)⟩
  | signal c conditionLock =>
      exact .inl ⟨by simp, silent (undeleted_signalBody c conditionLock k)⟩
  | broadcast c conditionLock =>
      exact .inl ⟨by simp, silent (undeleted_broadcastLoop c _ k)⟩
  | fork t fresh =>
      exact .inl ⟨by simp, silent (.of_cons rfl rfl (by simp))⟩
  | finish => exact .inr ⟨rfl, rfl⟩

namespace Kernel

/-- Before a turn begins the slot is left alone, or it is emptied by deleting
the thread in it. -/
theorem carcass_base {d : Discipline} {k base : Kernel T S L C}
    {action : Action T S L C} {cause : Cause T S L C}
    (begins : Base d k action cause base) :
    Undeleted k base ∨
    ∃ t, k.threadToBeDestroyed = some t ∧ base.threadToBeDestroyed = none ∧
      base.deletions = Function.update k.deletions t (k.deletions t + 1) := by
  have given : ∀ (next : T) (k' : Kernel T S L C), Undeleted k k' →
      Undeleted k (k'.turnBase next) ∨
      ∃ t, k.threadToBeDestroyed = some t ∧
        (k'.turnBase next).threadToBeDestroyed = none ∧
        (k'.turnBase next).deletions =
          Function.update k.deletions t (k.deletions t + 1) := by
    intro next k' same
    have switched : Undeleted k (k'.switch next) :=
      same.trans (.of_cons (e := .dispatched next) rfl rfl (by simp))
    unfold turnBase
    split
    · exact .inl ⟨switched.slot, switched.deletions⟩
    · unfold deleteCarcass
      split
      · exact .inl ⟨switched.slot, switched.deletions⟩
      · rename_i t full
        refine .inr ⟨t, by rw [← switched.slot, full], rfl, ?_⟩
        rw [← switched.deletions]
        funext t'
        by_cases deleted : t' = t
        · subst deleted
          simp [deletions]
        · simp [deletions, deleted, Ne.symm deleted]
  cases begins with
  | call op running callable => exact .inl ⟨rfl, rfl⟩
  | alone pick ticking allowed => exact .inl ⟨rfl, rfl⟩
  | dispatch pick next asleep allowed chosen => exact given next _ ⟨rfl, rfl⟩
  | yield pick next yields allowed chosen =>
      exact given next _ (.of_cons (e := .readied k.currentThread) rfl rfl (by simp))

/-! ### Finished threads -/

section

omit [DecidableEq T] [DecidableEq S] [DecidableEq L] [DecidableEq C]

theorem Finished.ne_nil {k : Kernel T S L C} {t : T} (finished : k.Finished t) :
    k.stack t ≠ [] := by
  rw [finished]
  simp

/-- A thread that executes has not finished. -/
theorem WellFormed.ne_current_of_finished {k : Kernel T S L C} {t : T}
    (wf : k.WellFormed) (finished : k.Finished t)
    (awake : k.phase = .running ∨ k.phase = .oneTick) : t ≠ k.currentThread := by
  rintro rfl
  exact finished.ne_nil (wf.awake awake).2

end

/-- Finished threads keep their last frame, and are not given the CPU. -/
theorem Finished.base {d : Discipline} {k base : Kernel T S L C}
    {action : Action T S L C} {cause : Cause T S L C} {t : T}
    (finished : k.Finished t) (wf : k.WellFormed)
    (begins : Base d k action cause base) :
    base.Finished t ∧ t ≠ base.currentThread := by
  cases begins with
  | call op running callable =>
      exact ⟨finished, wf.ne_current_of_finished finished (.inl running)⟩
  | alone pick ticking allowed =>
      exact ⟨finished, wf.ne_current_of_finished finished (.inr ticking)⟩
  | dispatch pick next asleep allowed chosen =>
      have other := wf.next_ne_gone finished chosen
      refine ⟨?_, by rwa [turnBase_currentThread]⟩
      simpa [Finished, other] using finished
  | yield pick next yields allowed chosen =>
      have other := wf.next_ne_gone finished chosen
      have current := wf.ne_current_of_finished finished
        (yields.imp And.right And.right)
      refine ⟨?_, by rwa [turnBase_currentThread]⟩
      simpa [Finished, other, Kernel.yieldBase, push, current] using finished

theorem Finished.step {d : Discipline} {k k' : Kernel T S L C}
    {action : Action T S L C} {t : T} (finished : k.Finished t)
    (wf : k.WellFormed) (blank : k.Blank) (step : k.step d action = some k') :
    k'.Finished t := by
  have known : k.Known t := fun fresh => finished.ne_nil (blank t fresh)
  cases step_effect wf.shaped step with
  | turn begins poised turn =>
      obtain ⟨finishedBase, other⟩ := finished.base wf begins
      rw [Finished, turn.stack_of_ne other (known.base begins)]
      exact finishedBase
  | handlerV s handling => simpa [Finished, vBody] using finished
  | handlerP s handling value => exact finished
  | endTick ticking => exact finished
  | idle asleep nobody => exact finished
  | endIdle idle => exact finished

end Kernel

/-- In a turn only `Finish` finishes a thread, the one of the turn. -/
theorem Turn.finished_cases {k k' : Kernel T S L C} {cause : Cause T S L C} {t : T}
    (turn : Turn k cause k') (poised : k.Poised) (finished : k'.Finished t) :
    k.Finished t ∨ (t = k.currentThread ∧ cause = .call .finish) := by
  have empty := poised.stack
  by_cases current : t = k.currentThread
  · subst current
    cases turn with
    | finish => exact .inr ⟨rfl, rfl⟩
    | fork t' fresh =>
        by_cases same : k.currentThread = t'
        · simp [Finished, same] at finished
        · simp [Finished, same, empty] at finished
    | broadcast c conditionLock => simp [Finished, empty] at finished
    | _ =>
        simp [Finished, Kernel.takeUnit, vBody, enter, Kernel.takeLock, push,
          parkWaiter, bindLock, empty] at finished
  · left
    cases turn with
    | fork t' fresh =>
        by_cases same : t = t'
        · simp [Finished, same] at finished
        · simpa [Finished, same] using finished
    | broadcast c conditionLock => simpa [Finished] using finished
    | _ =>
        simpa [Finished, Kernel.takeUnit, vBody, enter, Kernel.takeLock, push,
          finishBody, sleep, parkWaiter, bindLock, current] using finished

namespace Kernel

/-- Nobody finishes before a turn begins. -/
theorem finished_of_base {d : Discipline} {k base : Kernel T S L C}
    {action : Action T S L C} {cause : Cause T S L C} {t : T}
    (begins : Base d k action cause base) (finished : base.Finished t) :
    k.Finished t := by
  cases begins with
  | call op running callable => exact finished
  | alone pick ticking allowed => exact finished
  | dispatch pick next asleep allowed chosen =>
      by_cases same : t = next
      · simp [Finished, same] at finished
      · simpa [Finished, same] using finished
  | yield pick next yields allowed chosen =>
      by_cases same : t = next
      · simp [Finished, same] at finished
      · by_cases current : t = k.currentThread
        · subst current
          simp [Finished, same, Kernel.yieldBase, push] at finished
        · simpa [Finished, same, Kernel.yieldBase, push, current] using finished

/-! ### The invariant -/

/-- Besides, the slot holds a finished thread that is not deleted. -/
structure SlotKept (k : Kernel T S L C) : Prop extends CarcassesKept k where
  slot : ∀ t, k.threadToBeDestroyed = some t → k.Finished t ∧ k.deletions t = 0

theorem SlotKept.of_undeleted {k k' : Kernel T S L C} (kept : k.SlotKept)
    (same : Undeleted k k') (finished : ∀ t, k'.Finished t ↔ k.Finished t)
    (current : k'.currentThread = k.currentThread) : k'.SlotKept where
  remembered t := by
    rw [finished, same.deletions, same.slot]
    exact kept.remembered t
  once t := by
    rw [same.deletions]
    exact kept.once t
  finished t := by
    rw [same.deletions, finished, current]
    exact kept.finished t
  slot t := by
    rw [same.slot, finished, same.deletions]
    exact kept.slot t

/-- Giving the CPU away deletes the thread in the slot or leaves all as it
is. -/
theorem SlotKept.base {d : Discipline} {k base : Kernel T S L C}
    {action : Action T S L C} {cause : Cause T S L C} (kept : k.SlotKept)
    (wf : k.WellFormed) (begins : Base d k action cause base) :
    base.SlotKept := by
  rcases carcass_base begins with same | ⟨t, full, emptied, deleted⟩
  · refine ⟨⟨?_, ?_, ?_⟩, ?_⟩
    · intro t finished undeleted
      rw [same.deletions] at undeleted
      rw [same.slot]
      exact kept.remembered t (finished_of_base begins finished) undeleted
    · intro t
      rw [same.deletions]
      exact kept.once t
    · intro t gone
      rw [same.deletions] at gone
      exact (kept.finished t gone).1.base wf begins
    · intro t full
      rw [same.slot] at full
      rw [same.deletions]
      exact ⟨((kept.slot t full).1.base wf begins).1, (kept.slot t full).2⟩
  · have unique := (kept.slot t full).2
    refine ⟨⟨?_, ?_, ?_⟩, ?_⟩
    · intro t' finished undeleted
      rw [deleted] at undeleted
      by_cases same : t' = t
      · simp [same] at undeleted
      · rw [Function.update_of_ne same] at undeleted
        have slot := kept.remembered t' (finished_of_base begins finished) undeleted
        rw [full, Option.some.injEq] at slot
        exact absurd slot.symm same
    · intro t'
      rw [deleted]
      by_cases same : t' = t
      · simp [same, unique]
      · rw [Function.update_of_ne same]
        exact kept.once t'
    · intro t' gone
      rw [deleted] at gone
      by_cases same : t' = t
      · subst same
        exact (kept.slot t' full).1.base wf begins
      · rw [Function.update_of_ne same] at gone
        exact (kept.finished t' gone).1.base wf begins
    · intro t' slot
      rw [emptied] at slot
      cases slot

theorem SlotKept.turn {k k' : Kernel T S L C} {cause : Cause T S L C}
    (kept : k.SlotKept) (poised : k.Poised) (turn : Turn k cause k')
    (stays : ∀ t, k.Finished t → k'.Finished t)
    (free : cause = .call .finish → k.threadToBeDestroyed = none) :
    k'.SlotKept := by
  rcases turn.carcass_cases with ⟨other, same⟩ | ⟨rfl, rfl⟩
  · apply kept.of_undeleted same
    · intro t
      constructor
      · intro finished
        exact (turn.finished_cases poised finished).resolve_right
          fun both => other both.2
      · exact stays t
    · exact turn.currentThread_eq
  · have deletions_eq : k.finishBody.deletions = k.deletions := rfl
    have slot_eq : k.finishBody.threadToBeDestroyed = some k.currentThread := rfl
    have current_eq : k.finishBody.currentThread = k.currentThread := rfl
    have busy : ¬ k.Finished k.currentThread := fun finished =>
      finished.ne_nil poised.stack
    refine ⟨⟨?_, ?_, ?_⟩, ?_⟩
    · intro t finished undeleted
      rcases turn.finished_cases poised finished with before | ⟨rfl, -⟩
      · have slot := kept.remembered t before (deletions_eq ▸ undeleted)
        rw [free rfl] at slot
        cases slot
      · exact slot_eq
    · intro t
      rw [deletions_eq]
      exact kept.once t
    · intro t gone
      rw [deletions_eq] at gone
      rw [current_eq]
      exact ⟨stays t (kept.finished t gone).1, (kept.finished t gone).2⟩
    · intro t slot
      obtain rfl : k.currentThread = t := Option.some.inj (slot_eq ▸ slot)
      refine ⟨by simp [Finished, finishBody, sleep, push, poised.stack], ?_⟩
      rw [deletions_eq]
      by_contra deleted
      exact busy (kept.finished _ (Nat.pos_of_ne_zero deleted)).1

theorem SlotKept.step {d : Discipline} {k k' : Kernel T S L C}
    {action : Action T S L C} (kept : k.SlotKept) (wf : k.WellFormed)
    (blank : k.Blank) (keeps : ¬ k.Overwrites action)
    (step : k.step d action = some k') : k'.SlotKept := by
  cases step_effect wf.shaped step with
  | @turn _ cause base _ begins poised turn =>
      refine (kept.base wf begins).turn poised turn ?_ ?_
      · intro t finished
        exact (finished_of_base begins finished).step wf blank step
      · rintro rfl
        cases begins with
        | call op running callable =>
            by_contra full
            exact keeps ⟨rfl, full⟩
  | handlerV s handling =>
      apply kept.of_undeleted
      · exact (undeleted_wakeFirst (.semaphore s) k).trans
          (.of_cons (e := .vDone s) rfl rfl (by simp))
      · intro t
        simp [Finished, vBody]
      · simp [vBody]
  | handlerP s handling value =>
      exact kept.of_undeleted (.of_cons (e := .pDone s) rfl rfl (by simp))
        (fun _ => Iff.rfl) rfl
  | endTick ticking => exact kept.of_undeleted ⟨rfl, rfl⟩ (fun _ => Iff.rfl) rfl
  | idle asleep nobody => exact kept.of_undeleted ⟨rfl, rfl⟩ (fun _ => Iff.rfl) rfl
  | endIdle idle => exact kept.of_undeleted ⟨rfl, rfl⟩ (fun _ => Iff.rfl) rfl

/-- The thread that was in the slot is forgotten. -/
theorem SlotKept.forgotten {d : Discipline} {k k' : Kernel T S L C}
    {action : Action T S L C} (kept : k.SlotKept) (wf : k.WellFormed)
    (blank : k.Blank) (overwrites : k.Overwrites action)
    (step : k.step d action = some k') : ¬ k'.CarcassesKept := by
  obtain ⟨rfl, full⟩ := overwrites
  obtain ⟨t, slot⟩ := Option.ne_none_iff_exists'.mp full
  obtain ⟨finished, undeleted⟩ := kept.slot t slot
  obtain ⟨running, -, turn⟩ := wf.turn_of_call step (by simp)
  have other := wf.ne_current_of_finished finished (.inl running)
  intro kept'
  rcases turn.carcass_cases with ⟨notFinish, -⟩ | ⟨-, rfl⟩
  · exact notFinish rfl
  · have slot' := kept'.remembered t (finished.step wf blank step) undeleted
    exact other (Option.some.inj slot').symm

end Kernel

/-- In every run, under every schedule: at most one finished thread is not
deleted and it is `threadToBeDestroyed`, no thread is deleted twice or while it
is the current one, in every state of the run if and only if no thread calls
`Finish` in it while the slot is still full. -/
theorem carcasses_kept_iff_slot_empty {d : Discipline} {main : T}
    {initialValue : S → Int} {lockMemory : L → Lock T}
    {conditionMemory : C → Condition T L} {actions : List (Action T S L C)}
    {k : Kernel T S L C}
    (run : (kernelMachine d).exec
      (boot main initialValue lockMemory conditionMemory) actions = some k) :
    (kernelMachine d).Along CarcassesKept
      (boot main initialValue lockMemory conditionMemory) actions ↔
    (kernelMachine d).Steps (fun k action => ¬ k.Overwrites action)
      (boot main initialValue lockMemory conditionMemory) actions := by
  have start : (boot main initialValue lockMemory conditionMemory).WellFormed ∧
      (boot main initialValue lockMemory conditionMemory).Blank ∧
      (boot main initialValue lockMemory conditionMemory).SlotKept := by
    refine ⟨boot_wellFormed main initialValue lockMemory conditionMemory,
      boot_blank main initialValue lockMemory conditionMemory, ⟨?_, ?_, ?_⟩, ?_⟩
    · intro t finished
      cases finished
    · intro t
      exact Nat.zero_le 1
    · intro t deleted
      cases deleted
    · intro t slot
      cases slot
  refine Lib.Machine.along_iff_steps
    (I := fun k : Kernel T S L C => k.WellFormed ∧ k.Blank ∧ k.SlotKept)
    ?_ (fun k invariant => invariant.2.2.toCarcassesKept) ?_ start
    (Lib.Machine.steps_true _ _) run
  · rintro k action k' ⟨wf, blank, kept⟩ _ keeps step
    exact ⟨wf.step step, blank.step wf step, kept.step wf blank keeps step⟩
  · rintro k action k' ⟨wf, blank, kept⟩ _ overwrites step
    exact kept.forgotten wf blank (not_not.mp overwrites) step

/-- A forked thread finishes and main, an old thread, is dispatched and deletes
it. -/
def finishThenMain {T : Type} (forked : T) : List (Action T Empty Empty Empty) :=
  [.call (.fork forked), .endTick, .call (.yield 0), .endTick, .call .finish,
    .dispatch 0, .endTick]

theorem carcasses_kept_by_main :
    (kernelMachine .fifo).Along CarcassesKept
      (boot (0 : Fin 3) Empty.elim Empty.elim Empty.elim) (finishThenMain 1) :=
  (carcasses_kept_iff_slot_empty rfl).mpr (by decide)

/-- Main forks two threads and yields; thread 1 finishes, thread 2 is new and
finishes next.  Thread 1 is never deleted. -/
theorem second_finish_forgets_first :
    ¬ ∀ (actions : List (Action (Fin 3) Empty Empty Empty))
      (k : Kernel (Fin 3) Empty Empty Empty),
      (kernelMachine .fifo).exec
        (boot 0 Empty.elim Empty.elim Empty.elim) actions = some k →
      k.CarcassesKept := by
  intro always
  have kept := always [.call (.fork 1), .endTick, .call (.fork 2), .endTick,
    .call (.yield 0), .endTick, .call .finish, .dispatch 0, .endTick,
    .call .finish] _ rfl
  have slot : some (2 : Fin 3) = some 1 := kept.remembered 1 rfl (by decide)
  cases slot

end Nachos
