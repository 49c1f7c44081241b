/-
Module: Nachos.Threads.Locks
Purpose: Mutual exclusion by `Lock`.  `Release` frees the lock and wakes the
  first sleeper, and a thread woken in `Acquire` returns without looking at
  the lock again.  So the threads between `Acquire` and `Release` are exactly
  the recorded owner for as long as no sleeper of the lock gets the CPU back,
  and no longer.
Trusted boundary: none
Main exports: Kernel.Inside, Kernel.Exclusive, Kernel.Disciplined,
  Kernel.ResumesSleeper, exclusive_iff_no_sleeper_resumes,
  woken_sleeper_is_not_owner
-/
import Nachos.Threads.Scheduling

namespace Nachos

variable {T S L C : Type}
variable [DecidableEq T] [DecidableEq S] [DecidableEq L] [DecidableEq C]

/-- The last thing `t` did with `l`, by the log, was to return from an
`Acquire`. -/
def insideBy (l : L) (t : T) : List (Event T S L C) → Bool
  | [] => false
  | .entered l' t' :: log => if l' = l ∧ t' = t then true else insideBy l t log
  | .left l' t' :: log => if l' = l ∧ t' = t then false else insideBy l t log
  | _ :: log => insideBy l t log

namespace Kernel

/-- `t` has returned from `Acquire`, or from a `Wait` that slept, and has not
since called `Release` or gone to sleep in `Wait`. -/
def Inside (l : L) (k : Kernel T S L C) (t : T) : Prop :=
  insideBy l t k.log = true

instance (l : L) (k : Kernel T S L C) (t : T) : Decidable (k.Inside l t) :=
  inferInstanceAs (Decidable (_ = _))

/-- The threads inside are the owner when the lock is taken, and nobody when
it is free. -/
def Exclusive (l : L) (k : Kernel T S L C) : Prop :=
  ((k.locks l).acquired = true →
    ∃ o, (k.locks l).owner = some o ∧ ∀ t, k.Inside l t ↔ t = o) ∧
  ((k.locks l).acquired = false → ∀ t, ¬ k.Inside l t)

/-- `Release`, on its own or inside `Wait`, is called by a thread inside. -/
def Disciplined (l : L) (k : Kernel T S L C) : Action T S L C → Prop
  | .call (.release l') => l' = l → k.Inside l k.currentThread
  | .call (.wait c (some l')) =>
      l' = l → k.Accepts c l → k.Inside l k.currentThread
  | _ => True

/-- The thread that this action gives the CPU to. -/
def nextThread (k : Kernel T S L C) : Action T S L C → Option T
  | .dispatch pick | .timeSlice pick | .call (.yield pick) => k.readyList[pick]?
  | _ => none

/-- The action gives the CPU to a thread that is in the `Sleep` of
`l->Acquire`. -/
def ResumesSleeper (l : L) (k : Kernel T S L C) (action : Action T S L C) : Prop :=
  (k.nextThread action).bind k.sleepsOn = some (.lock l)

instance (l : L) (k : Kernel T S L C) (action : Action T S L C) :
    Decidable (k.ResumesSleeper l action) :=
  inferInstanceAs (Decidable (_ = _))

/-! ### What a turn does to one lock -/

/-- The fields of `l` that say who has it, and the threads inside, are what
they were. -/
structure Unlocked (l : L) (k k' : Kernel T S L C) : Prop where
  acquired : (k'.locks l).acquired = (k.locks l).acquired
  owner : (k'.locks l).owner = (k.locks l).owner
  inside : ∀ t, insideBy l t k'.log = insideBy l t k.log

omit [DecidableEq S] [DecidableEq C] in
theorem Unlocked.trans {l : L} {k k' k'' : Kernel T S L C}
    (first : Unlocked l k k') (second : Unlocked l k' k'') : Unlocked l k k'' where
  acquired := second.acquired.trans first.acquired
  owner := second.owner.trans first.owner
  inside t := (second.inside t).trans (first.inside t)

theorem unlocked_wakeFirst (l : L) (q : WaitQueue S L C) (k : Kernel T S L C) :
    Unlocked l k (k.wakeFirst q) := by
  unfold wakeFirst
  split
  · exact ⟨rfl, rfl, fun _ => rfl⟩
  · exact ⟨by simp [readyToRun], by simp [readyToRun],
      fun t => by simp [readyToRun, insideBy]⟩

theorem unlocked_park (l : L) (q : WaitQueue S L C) (frame : Frame S L C)
    (k : Kernel T S L C) : Unlocked l k (k.park q frame) where
  acquired := by simp [park, sleep, push]
  owner := by simp [park, sleep, push]
  inside t := by simp [park, sleep, push]

theorem unlocked_wakeWaiter (l : L) (c : C) (k : Kernel T S L C) :
    Unlocked l k (k.wakeWaiter c) := by
  unfold wakeWaiter
  split
  · exact ⟨rfl, rfl, fun _ => rfl⟩
  · refine (unlocked_wakeFirst l (.condition c) k).trans ?_
    exact ⟨rfl, rfl, fun t => by simp [insideBy]⟩

theorem unlocked_signalBody (l : L) (c : C) (conditionLock : Option L)
    (k : Kernel T S L C) : Unlocked l k (k.signalBody c conditionLock) := by
  unfold signalBody
  split
  · exact ⟨rfl, rfl, fun _ => rfl⟩
  · split
    · exact ⟨rfl, rfl, fun _ => rfl⟩
    · exact unlocked_wakeWaiter l c k

theorem unlocked_broadcastLoop (l : L) (c : C) (threads : List T)
    (k : Kernel T S L C) : Unlocked l k (broadcastLoop c threads k) := by
  induction threads generalizing k with
  | nil => exact ⟨rfl, rfl, fun _ => rfl⟩
  | cons t threads inductionHypothesis =>
      exact (unlocked_wakeWaiter l c k).trans (inductionHypothesis _)

omit [DecidableEq S] [DecidableEq C] in
theorem unlocked_enter {l l' : L} (k : Kernel T S L C) (other : l ≠ l') :
    Unlocked l k (k.enter l') where
  acquired := rfl
  owner := rfl
  inside t := by simp [enter, insideBy, other.symm]

theorem unlocked_releaseBody {l l' : L} (k : Kernel T S L C) (other : l ≠ l') :
    Unlocked l k (k.releaseBody l') := by
  have left : Unlocked l k ((k.note (.left l' k.currentThread)).clearOwner l') := by
    unfold clearOwner
    split
    · exact ⟨by simp [other], by simp [other],
        fun t => by simp [insideBy, other.symm]⟩
    · exact ⟨rfl, rfl, fun t => by simp [insideBy, other.symm]⟩
  exact left.trans (unlocked_wakeFirst l _ _)

/-- A `Release` by the owner frees the lock; the calling thread is outside
after any `Release`. -/
theorem releaseBody_lock (l : L) (k : Kernel T S L C) :
    ((k.releaseBody l).locks l).acquired =
        (if k.isHeldByCurrentThread l then false else (k.locks l).acquired) ∧
      ((k.releaseBody l).locks l).owner =
        (if k.isHeldByCurrentThread l then none else (k.locks l).owner) ∧
      ∀ t, insideBy l t (k.releaseBody l).log =
        if k.currentThread = t then false else insideBy l t k.log := by
  have woken := unlocked_wakeFirst l (.lock l)
    ((k.note (.left l k.currentThread)).clearOwner l)
  have held_eq : (k.note (.left l k.currentThread)).isHeldByCurrentThread l ↔
      k.isHeldByCurrentThread l := Iff.rfl
  refine ⟨woken.acquired.trans ?_, woken.owner.trans ?_,
    fun t => (woken.inside t).trans ?_⟩
  · by_cases held : k.isHeldByCurrentThread l <;>
      simp [clearOwner, held_eq, held]
  · by_cases held : k.isHeldByCurrentThread l <;>
      simp [clearOwner, held_eq, held]
  · by_cases held : k.isHeldByCurrentThread l <;>
      simp [clearOwner, held_eq, held, insideBy]

end Kernel

open Kernel

/-- The only turns that matter for who has a lock. -/
theorem Turn.lock_cases {k k' : Kernel T S L C} {cause : Cause T S L C}
    (turn : Turn k cause k') (l : L) :
    Unlocked l k k' ∨
    (cause.Acquires l ∧ k.isHeldByCurrentThread l ∧ k' = (k.enter l).oneTick) ∨
    (cause.Acquires l ∧ ¬ k.isHeldByCurrentThread l ∧
      (k.locks l).acquired = false ∧ k' = ((k.takeLock l).enter l).oneTick) ∨
    (cause.Returns l ∧ k' = (k.enter l).oneTick) ∨
    (cause = .call (.release l) ∧ Unlocked l (k.releaseBody l) k') ∨
    (∃ c, k.Accepts c l ∧ cause = .call (.wait c (some l)) ∧
      Unlocked l (k.releaseBody l) k') := by
  have silent : ∀ {k k'' : Kernel T S L C}, k''.locks = k.locks →
      k''.log = k.log → Unlocked l k k'' := by
    intro k k'' locks log
    exact ⟨by rw [locks], by rw [locks], fun t => by rw [log]⟩
  cases turn with
  | root => exact .inl (silent rfl rfl)
  | yielded => exact .inl (silent rfl rfl)
  | alone pick none => exact .inl (silent rfl rfl)
  | takeUnit s tests value =>
      exact .inl ⟨rfl, rfl, fun t => by simp [Kernel.takeUnit, insideBy]⟩
  | parkUnit s tests value => exact .inl (unlocked_park l _ _ k)
  | v s =>
      refine .inl ((unlocked_wakeFirst l (.semaphore s) k).trans ?_)
      exact ⟨rfl, rfl, fun t => by simp [vBody, insideBy]⟩
  | held l' acquires held =>
      by_cases same : l = l'
      · subst same
        exact .inr (.inl ⟨acquires, held, rfl⟩)
      · exact .inl ((unlocked_enter k same).trans (silent rfl rfl))
  | takeLock l' acquires foreign free =>
      by_cases same : l = l'
      · subst same
        exact .inr (.inr (.inl ⟨acquires, foreign, free, rfl⟩))
      · refine .inl ⟨?_, ?_, ?_⟩
        · simp [Kernel.takeLock, enter, same]
        · simp [Kernel.takeLock, enter, same]
        · intro t
          simp [Kernel.takeLock, enter, insideBy, Ne.symm same]
  | parkLock l' foreign busy => exact .inl (unlocked_park l _ _ k)
  | parkRelock c l' foreign busy =>
      have pushed : Unlocked l k (k.push (.inReacquire c l' .intOn)) :=
        silent rfl rfl
      exact .inl (pushed.trans (unlocked_park l _ _ _))
  | returned l' returns =>
      by_cases same : l = l'
      · subst same
        exact .inr (.inr (.inr (.inl ⟨returns, rfl⟩)))
      · exact .inl ((unlocked_enter k same).trans (silent rfl rfl))
  | release l' =>
      by_cases same : l = l'
      · subst same
        exact .inr (.inr (.inr (.inr (.inl ⟨rfl, silent rfl rfl⟩))))
      · exact .inl ((unlocked_releaseBody k same).trans (silent rfl rfl))
  | skipWait c conditionLock rejected => exact .inl (silent rfl rfl)
  | parkWait c l' accepted =>
      have bound : Unlocked l k (k.bindLock c l') := silent rfl rfl
      have parked : Unlocked l ((k.bindLock c l').releaseBody l')
          (((k.bindLock c l').releaseBody l').parkWaiter c l' .intOn) := by
        refine .trans (k := _) ?_ (unlocked_park l _ _ _)
        exact ⟨rfl, rfl, fun t => by simp [insideBy]⟩
      by_cases same : l = l'
      · subst same
        refine .inr (.inr (.inr (.inr (.inr ⟨c, accepted, rfl, ?_⟩))))
        refine .trans ?_ parked
        obtain ⟨acquired, owner, inside⟩ := releaseBody_lock l k
        obtain ⟨acquired', owner', inside'⟩ := releaseBody_lock l (k.bindLock c l)
        exact ⟨acquired'.trans acquired.symm, owner'.trans owner.symm,
          fun t => (inside' t).trans (inside t).symm⟩
      · exact .inl ((bound.trans (unlocked_releaseBody _ same)).trans parked)
  | signal c conditionLock =>
      exact .inl ((unlocked_signalBody l c conditionLock k).trans (silent rfl rfl))
  | broadcast c conditionLock =>
      exact .inl ((unlocked_broadcastLoop l c _ k).trans (silent rfl rfl))
  | fork t fresh =>
      exact .inl ⟨rfl, rfl, fun t => by simp [readyToRun, insideBy]⟩
  | finish => exact .inl (silent rfl rfl)

/-- Who sleeps on a lock after a turn slept there before, or is the thread of
the turn and was kept out. -/
theorem Turn.sleepsOn_lock {k k' : Kernel T S L C} {cause : Cause T S L C}
    (turn : Turn k cause k') (poised : k.Poised) {t : T} {l : L}
    (sleeps : k'.sleepsOn t = some (.lock l)) :
    (t ≠ k.currentThread ∧ k.sleepsOn t = some (.lock l)) ∨
    (t = k.currentThread ∧ ¬ k.isHeldByCurrentThread l ∧
      (k'.locks l).owner = (k.locks l).owner) := by
  have empty := poised.stack
  by_cases current : t = k.currentThread
  · subst current
    cases turn with
    | parkLock l' foreign busy =>
        obtain rfl : l' = l := by simpa [sleepsOn, Frame.queue] using sleeps
        exact .inr ⟨rfl, foreign, (unlocked_park l' _ _ k).owner⟩
    | parkRelock c l' foreign busy =>
        obtain rfl : l' = l := by simpa [sleepsOn, Frame.queue, push] using sleeps
        exact .inr ⟨rfl, foreign, (unlocked_park l' _ _ _).owner⟩
    | fork t' fresh =>
        by_cases same : k.currentThread = t'
        · simp [sleepsOn, same, Frame.queue] at sleeps
        · simp [sleepsOn, same, empty] at sleeps
    | broadcast c conditionLock => simp [sleepsOn, empty] at sleeps
    | _ =>
        simp [sleepsOn, Kernel.takeUnit, vBody, enter, Kernel.takeLock,
          push, finishBody, sleep, parkWaiter, bindLock, Frame.queue, empty] at sleeps
  · refine .inl ⟨current, ?_⟩
    cases turn with
    | fork t' fresh =>
        by_cases same : t = t'
        · simp [sleepsOn, same, Frame.queue] at sleeps
        · simpa [sleepsOn, same] using sleeps
    | broadcast c conditionLock => simpa [sleepsOn] using sleeps
    | _ =>
        simpa [sleepsOn, Kernel.takeUnit, vBody, enter, Kernel.takeLock, push,
          finishBody, sleep, parkWaiter, bindLock, current] using sleeps

namespace Kernel

@[simp] theorem turnBase_locks (next : T) (k : Kernel T S L C) :
    (k.turnBase next).locks = k.locks := by
  unfold turnBase deleteCarcass switch
  split
  · rfl
  · split <;> rfl

theorem turnBase_insideBy (l : L) (t next : T) (k : Kernel T S L C) :
    insideBy l t (k.turnBase next).log = insideBy l t k.log := by
  unfold turnBase deleteCarcass switch
  split
  · simp [insideBy]
  · split <;> simp [insideBy]

theorem unlocked_base {d : Discipline} {k base : Kernel T S L C}
    {action : Action T S L C} {cause : Cause T S L C}
    (begins : Base d k action cause base) (l : L) : Unlocked l k base := by
  cases begins with
  | call op running callable => exact ⟨rfl, rfl, fun _ => rfl⟩
  | alone pick ticking allowed => exact ⟨rfl, rfl, fun _ => rfl⟩
  | dispatch pick next asleep allowed chosen =>
      exact ⟨by simp, by simp, fun t => turnBase_insideBy l t next _⟩
  | yield pick next yields allowed chosen =>
      refine ⟨?_, ?_, fun t => (turnBase_insideBy l t next _).trans ?_⟩
      · simp [Kernel.yieldBase, push, readyToRun]
      · simp [Kernel.yieldBase, push, readyToRun]
      · simp [Kernel.yieldBase, push, readyToRun, insideBy]

/-- Nobody goes to sleep before a turn begins. -/
theorem sleepsOn_base {d : Discipline} {k base : Kernel T S L C}
    {action : Action T S L C} {cause : Cause T S L C}
    (begins : Base d k action cause base) {t : T} {q : WaitQueue S L C}
    (sleeps : base.sleepsOn t = some q) : k.sleepsOn t = some q := by
  cases begins with
  | call op running callable => exact sleeps
  | alone pick ticking allowed => exact sleeps
  | dispatch pick next asleep allowed chosen =>
      by_cases same : t = next
      · simp [sleepsOn, same] at sleeps
      · simpa [sleepsOn, same] using sleeps
  | yield pick next yields allowed chosen =>
      by_cases same : t = next
      · simp [sleepsOn, same] at sleeps
      · by_cases current : t = k.currentThread
        · subst current
          simp [sleepsOn, same, Kernel.yieldBase, push, Frame.queue] at sleeps
        · simpa [sleepsOn, same, Kernel.yieldBase, push, current] using sleeps

/-- A turn that comes back from the `Sleep` of `l->Acquire` belongs to a
sleeper of `l` that the action resumes. -/
theorem Base.resumesSleeper {d : Discipline} {k base : Kernel T S L C}
    {action : Action T S L C} {cause : Cause T S L C} {l : L}
    (begins : Base d k action cause base) (returns : cause.Returns l) :
    k.ResumesSleeper l action := by
  have sleeps : ∀ next, cause = .back (k.stack next) →
      k.sleepsOn next = some (.lock l) := by
    rintro next rfl
    unfold sleepsOn
    generalize k.stack next = frames at returns
    cases returns <;> rfl
  cases begins with
  | call op running callable => cases returns
  | alone pick ticking allowed => cases returns
  | dispatch pick next asleep allowed chosen =>
      simp [ResumesSleeper, nextThread, chosen, sleeps next rfl]
  | yield pick next yields allowed chosen =>
      rcases yields with ⟨rfl, -⟩ | ⟨rfl, -⟩ <;>
        simp [ResumesSleeper, nextThread, chosen, sleeps next rfl]

/-! ### The invariant -/

/-- While no sleeper is resumed: the thread inside is the owner, and nobody
sleeps on a lock it owns. -/
structure Guarded (l : L) (k : Kernel T S L C) : Prop where
  owned : (k.locks l).acquired = true ↔ (k.locks l).owner ≠ none
  inside : ∀ t, k.Inside l t ↔ (k.locks l).owner = some t
  sleeper : ∀ t, k.sleepsOn t = some (.lock l) → (k.locks l).owner ≠ some t

omit [DecidableEq S] [DecidableEq C] in
theorem Guarded.exclusive {l : L} {k : Kernel T S L C} (guarded : k.Guarded l) :
    k.Exclusive l := by
  refine ⟨fun acquired => ?_, fun free t inside => ?_⟩
  · obtain ⟨o, owner⟩ := Option.ne_none_iff_exists'.mp (guarded.owned.mp acquired)
    refine ⟨o, owner, fun t => ?_⟩
    rw [guarded.inside, owner, Option.some.injEq]
    exact eq_comm
  · have owner := (guarded.inside t).mp inside
    have acquired := guarded.owned.mpr (by simp [owner])
    rw [free] at acquired
    cases acquired

theorem Guarded.base {d : Discipline} {l : L} {k base : Kernel T S L C}
    {action : Action T S L C} {cause : Cause T S L C} (guarded : k.Guarded l)
    (begins : Base d k action cause base) : base.Guarded l := by
  have same := unlocked_base begins l
  refine ⟨?_, fun t => ?_, fun t sleeps => ?_⟩
  · rw [same.acquired, same.owner]
    exact guarded.owned
  · rw [Inside, same.inside, same.owner]
    exact guarded.inside t
  · rw [same.owner]
    exact guarded.sleeper t (sleepsOn_base begins sleeps)

/-- Every turn that does not come back from the `Sleep` of `l->Acquire`
preserves the invariant. -/
theorem Guarded.turn {l : L} {k k' : Kernel T S L C} {cause : Cause T S L C}
    (guarded : k.Guarded l) (poised : k.Poised) (turn : Turn k cause k')
    (stays : ¬ cause.Returns l)
    (releases : cause = .call (.release l) → k.Inside l k.currentThread)
    (waits : ∀ c, cause = .call (.wait c (some l)) → k.Accepts c l →
      k.Inside l k.currentThread) : k'.Guarded l := by
  -- whoever sleeps on the lock afterwards is not made its owner by the turn
  have sleeper : (∀ o, (k'.locks l).owner = some o →
      (k.locks l).owner = some o ∨ o = k.currentThread ∧ k'.sleepsOn o = none) →
      ∀ t, k'.sleepsOn t = some (.lock l) → (k'.locks l).owner ≠ some t := by
    intro owners t sleeps owner
    rcases owners t owner with before | ⟨-, awake⟩
    · rcases turn.sleepsOn_lock poised sleeps with ⟨-, slept⟩ | ⟨rfl, foreign, -⟩
      · exact guarded.sleeper t slept before
      · exact foreign before
    · rw [awake] at sleeps
      cases sleeps
  -- the thread of the turn leaves the lock it has
  have leaves : k.Inside l k.currentThread → Unlocked l (k.releaseBody l) k' →
      k'.Guarded l := by
    intro inside same
    have held : k.isHeldByCurrentThread l := (guarded.inside _).mp inside
    obtain ⟨acquired, owner, insides⟩ := releaseBody_lock l k
    rw [if_pos held] at acquired owner
    have owner' : (k'.locks l).owner = none := same.owner.trans owner
    refine ⟨?_, fun t => ?_, sleeper ?_⟩
    · rw [same.acquired, acquired, owner']
      simp
    · rw [Inside, same.inside, insides, owner']
      by_cases current : k.currentThread = t
      · simp [current]
      · have before := guarded.inside t
        rw [held, Option.some.injEq] at before
        simpa [current, Inside] using before
    · intro o ownedBy
      rw [owner'] at ownedBy
      cases ownedBy
  rcases turn.lock_cases l with same | ⟨-, held, rfl⟩ | ⟨-, foreign, free, rfl⟩ |
    ⟨returns, -⟩ | ⟨rfl, same⟩ | ⟨c, accepts, rfl, same⟩
  · refine ⟨?_, fun t => ?_, sleeper ?_⟩
    · rw [same.acquired, same.owner]
      exact guarded.owned
    · rw [Inside, same.inside, same.owner]
      exact guarded.inside t
    · intro o owner
      exact .inl (same.owner ▸ owner)
  · refine ⟨guarded.owned, fun t => ?_, sleeper fun o owner => .inl owner⟩
    have owner : ((k.enter l).oneTick.locks l).owner = some k.currentThread := held
    rw [owner, Option.some.injEq]
    by_cases current : k.currentThread = t
    · simp [Inside, enter, insideBy, current]
    · have before := guarded.inside t
      rw [held, Option.some.injEq] at before
      simpa [Inside, enter, insideBy, current] using before
  · have nobody : (k.locks l).owner = none := by
      by_contra someone
      have acquired := guarded.owned.mpr someone
      rw [free] at acquired
      cases acquired
    have owner : (((k.takeLock l).enter l).oneTick.locks l).owner =
        some k.currentThread := by simp [Kernel.takeLock, enter]
    refine ⟨?_, fun t => ?_, sleeper fun o ownedBy => ?_⟩
    · rw [owner]
      simp [Kernel.takeLock, enter]
    · rw [owner, Option.some.injEq]
      by_cases current : k.currentThread = t
      · simp [Inside, Kernel.takeLock, enter, insideBy, current]
      · have before := guarded.inside t
        rw [nobody] at before
        simpa [Inside, Kernel.takeLock, enter, insideBy, current] using before
    · rw [owner, Option.some.injEq] at ownedBy
      subst ownedBy
      refine .inr ⟨rfl, ?_⟩
      simp [sleepsOn, Kernel.takeLock, enter, poised.stack]
  · exact absurd returns stays
  · exact leaves (releases rfl) same
  · exact leaves (waits c rfl accepts) same

theorem Guarded.step {d : Discipline} {l : L} {k k' : Kernel T S L C}
    {action : Action T S L C} (shaped : k.Shaped) (guarded : k.Guarded l)
    (disciplined : k.Disciplined l action)
    (keeps : ¬ k.ResumesSleeper l action)
    (step : k.step d action = some k') : k'.Guarded l := by
  cases step_effect shaped step with
  | turn begins poised turn =>
      refine (guarded.base begins).turn poised turn
        (fun returns => keeps (Base.resumesSleeper begins returns)) ?_ ?_
      · rintro rfl
        cases begins
        exact disciplined rfl
      · rintro c rfl accepts
        cases begins
        exact disciplined rfl accepts
  | handlerV s handling =>
      have woken := unlocked_wakeFirst l (.semaphore s) k
      refine ⟨?_, fun t => ?_, fun t sleeps => ?_⟩
      · simpa [vBody, woken.acquired, woken.owner] using guarded.owned
      · simpa [vBody, Inside, insideBy, woken.inside t, woken.owner] using
          guarded.inside t
      · simpa [vBody, woken.owner] using
          guarded.sleeper t (by simpa [vBody, sleepsOn] using sleeps)
  | handlerP s handling value =>
      refine ⟨guarded.owned, fun t => ?_, guarded.sleeper⟩
      simpa [takeUnit, Inside, insideBy] using guarded.inside t
  | endTick ticking => exact ⟨guarded.owned, guarded.inside, guarded.sleeper⟩
  | idle asleep nobody => exact ⟨guarded.owned, guarded.inside, guarded.sleeper⟩
  | endIdle idle => exact ⟨guarded.owned, guarded.inside, guarded.sleeper⟩

/-- A `Yield` that finds nobody is the only turn with this cause. -/
theorem turn_yield_none {k k' : Kernel T S L C} {pick : Nat}
    (turn : Turn k (.call (.yield pick)) k') : k.readyList[pick]? = none := by
  cases turn with
  | takeUnit s tests value => cases tests
  | parkUnit s tests value => cases tests
  | held l acquires held => cases acquires
  | takeLock l acquires foreign free => cases acquires
  | returned l returns => cases returns
  | alone pick nobody => exact nobody

/-- When an action gives the CPU to a thread, the step is a turn of it. -/
theorem step_nextThread {d : Discipline} {k k' : Kernel T S L C}
    {action : Action T S L C} {next : T} (shaped : k.Shaped)
    (chosen : k.nextThread action = some next)
    (step : k.step d action = some k') :
    ∃ base, Base d k action (.back (k.stack next)) base ∧
      base.currentThread = next ∧ Turn base (.back (k.stack next)) k' := by
  cases step_effect shaped step with
  | @turn action cause base k' begins poised turn =>
      have origin := begins
      cases begins with
      | call op running callable =>
          cases op with
          | yield pick =>
              have nobody := turn_yield_none turn
              have found : k.disable.readyList[pick]? = some next := chosen
              rw [nobody] at found
              cases found
          | _ => cases chosen
      | alone pick ticking allowed =>
          have nobody := turn_yield_none turn
          have found : k.readyList[pick]? = some next := chosen
          cases found.symm.trans nobody
      | dispatch pick next' asleep allowed chosen' =>
          obtain rfl : next' = next := Option.some.inj (chosen'.symm.trans chosen)
          exact ⟨_, origin, turnBase_currentThread _ _, turn⟩
      | yield pick next' yields allowed chosen' =>
          have same : k.readyList[pick]? = some next := by
            rcases yields with ⟨rfl, -⟩ | ⟨rfl, -⟩ <;> exact chosen
          obtain rfl : next' = next := Option.some.inj (chosen'.symm.trans same)
          exact ⟨_, origin, turnBase_currentThread _ _, turn⟩
  | handlerV s handling => cases chosen
  | handlerP s handling value => cases chosen
  | endTick ticking => cases chosen
  | idle asleep nobody => cases chosen
  | endIdle idle => cases chosen

section

omit [DecidableEq T] [DecidableEq S] [DecidableEq L] [DecidableEq C]

theorem nextThread_ready {k : Kernel T S L C} {action : Action T S L C} {next : T}
    (chosen : k.nextThread action = some next) : next ∈ k.readyList := by
  unfold nextThread at chosen
  split at chosen
  · exact List.mem_of_getElem? chosen
  · exact List.mem_of_getElem? chosen
  · exact List.mem_of_getElem? chosen
  · cases chosen

/-- A thread suspended on a lock is in the `Sleep` of `Acquire`. -/
theorem Suspended.returns {k : Kernel T S L C} {t : T} {l : L}
    (suspended : Suspended (k.stack t))
    (sleeps : k.sleepsOn t = some (.lock l)) :
    Cause.Returns l (.back (k.stack t) : Cause T S L C) := by
  unfold sleepsOn at sleeps
  generalize k.stack t = frames at suspended sleeps
  cases suspended <;> simp [Frame.queue] at sleeps
  · rw [sleeps]
    exact .acquire
  · rw [sleeps]
    exact .reacquire _

end

/-- Nothing but the return is left of `Acquire` after its `Sleep`. -/
theorem turn_returns {k k' : Kernel T S L C} {cause : Cause T S L C} {l : L}
    (turn : Turn k cause k') (returns : cause.Returns l) :
    k' = (k.enter l).oneTick := by
  cases returns <;> cases turn with
  | takeUnit s tests value => cases tests
  | parkUnit s tests value => cases tests
  | held l' acquires held => cases acquires
  | takeLock l' acquires foreign free => cases acquires
  | returned l' returns =>
      cases returns
      rfl

/-- A resumed sleeper returns from `Acquire` and is not the owner. -/
theorem Guarded.sleeper_breaks {d : Discipline} {l : L} {k k' : Kernel T S L C}
    {action : Action T S L C} (wf : k.WellFormed) (guarded : k.Guarded l)
    (resumes : k.ResumesSleeper l action)
    (step : k.step d action = some k') : ¬ k'.Exclusive l := by
  obtain ⟨next, chosen, sleeps⟩ := Option.bind_eq_some_iff.mp resumes
  have suspended := wf.shaped.ready next (nextThread_ready chosen)
  obtain ⟨base, begins, current, turn⟩ := step_nextThread wf.shaped chosen step
  obtain rfl := turn_returns turn (suspended.returns sleeps)
  have foreign : (base.locks l).owner ≠ some next := by
    rw [(unlocked_base begins l).owner]
    exact guarded.sleeper next sleeps
  have inside : Inside l (base.enter l).oneTick next := by
    simp [Inside, enter, insideBy, current]
  intro exclusive
  cases taken : (base.locks l).acquired with
  | false => exact exclusive.2 taken next inside
  | true =>
      obtain ⟨o, owner, only⟩ := exclusive.1 taken
      rw [(only next).mp inside] at foreign
      exact foreign owner

end Kernel

/-- For a lock that starts free, in every run in which `Release` is called by
threads inside only: the threads inside are exactly the owner in every state
of the run if and only if no step of it gives the CPU to a thread asleep in
`Acquire`. -/
theorem exclusive_iff_no_sleeper_resumes {d : Discipline} {main : T}
    {initialValue : S → Int} {lockMemory : L → Lock T}
    {conditionMemory : C → Condition T L} {actions : List (Action T S L C)}
    {k : Kernel T S L C} (l : L) (free : (lockMemory l).owner = none)
    (run : (kernelMachine d).exec
      (boot main initialValue lockMemory conditionMemory) actions = some k)
    (disciplined : (kernelMachine d).Steps (Disciplined l)
      (boot main initialValue lockMemory conditionMemory) actions) :
    (kernelMachine d).Along (Exclusive l)
      (boot main initialValue lockMemory conditionMemory) actions ↔
    (kernelMachine d).Steps (fun k action => ¬ k.ResumesSleeper l action)
      (boot main initialValue lockMemory conditionMemory) actions := by
  have start : (boot main initialValue lockMemory conditionMemory).WellFormed ∧
      (boot main initialValue lockMemory conditionMemory).Guarded l := by
    refine ⟨boot_wellFormed main initialValue lockMemory conditionMemory, ?_, ?_, ?_⟩
    · simp [boot, Lock.construct, free]
    · intro t
      simp [boot, Inside, insideBy, Lock.construct, free]
    · intro t sleeps
      cases sleeps
  refine Lib.Machine.along_iff_steps
    (I := fun k : Kernel T S L C => k.WellFormed ∧ k.Guarded l)
    ?_ (fun k invariant => invariant.2.exclusive) ?_ start disciplined run
  · intro k action k' invariant allowed keeps step
    exact ⟨invariant.1.step step,
      invariant.2.step invariant.1.shaped allowed keeps step⟩
  · intro k action k' invariant allowed resumes step
    exact invariant.2.sleeper_breaks invariant.1 (not_not.mp resumes) step

namespace Kernel

instance (l : L) (k : Kernel T S L C) (action : Action T S L C) :
    Decidable (k.Disciplined l action) :=
  match action with
  | .call op =>
      match op with
      | .release l' => inferInstanceAs (Decidable (l' = l → _))
      | .wait _ (some l') => inferInstanceAs (Decidable (l' = l → _ → _))
      | .wait _ none | .p _ | .v _ | .acquire _ | .signal _ _ | .broadcast _ _
      | .fork _ | .yield _ | .finish => isTrue trivial
  | .handlerV _ | .handlerP _ | .endTick | .timeSlice _ | .dispatch _ | .idle
  | .endIdle => isTrue trivial

end Kernel

/-- Two threads and one lock: thread 0 has the lock while thread 1 calls
`Acquire` and sleeps, and thread 0 then releases it. -/
def contention : List (Action (Fin 2) Empty Unit Empty) :=
  [.call (.fork 1), .endTick, .call (.acquire ()), .endTick,
    .call (.yield 0), .endTick, .call (.acquire ()), .dispatch 0, .endTick,
    .call (.release ()), .endTick]

/-- No sleeper has been resumed yet, so thread 0 has been alone inside. -/
theorem exclusive_along_contention :
    ∃ k, (kernelMachine .fifo).exec
        (boot 0 Empty.elim (fun _ => ⟨false, none, []⟩) Empty.elim)
        contention = some k ∧
      (kernelMachine .fifo).Along (Exclusive ())
        (boot 0 Empty.elim (fun _ => ⟨false, none, []⟩) Empty.elim)
        contention :=
  ⟨_, rfl, (exclusive_iff_no_sleeper_resumes () rfl rfl (by decide)).mpr (by decide)⟩

/-- Thread 0 yields after its `Release`: thread 1 returns from `Acquire` and
is inside, but the lock is free and has no owner. -/
theorem woken_sleeper_is_not_owner :
    ¬ ∀ (actions : List (Action (Fin 2) Empty Unit Empty))
      (k : Kernel (Fin 2) Empty Unit Empty),
      (kernelMachine .fifo).exec
        (boot 0 Empty.elim (fun _ => ⟨false, none, []⟩) Empty.elim)
        actions = some k →
      (kernelMachine .fifo).Steps (Disciplined ())
        (boot 0 Empty.elim (fun _ => ⟨false, none, []⟩) Empty.elim) actions →
      k.Exclusive () := by
  intro always
  have exclusive := always (contention ++ [.call (.yield 0)]) _ rfl (by decide)
  exact exclusive.2 rfl 1 (by decide)

end Nachos
