/-
Module: Nachos.Threads.Pending
Purpose: The call from which a suspended thread has still to return, what a
  thread that has called `Acquire` has of the lock, and who is asleep on a
  condition, each followed through one step of the thread system.
Trusted boundary: none
Main exports: pendingCall, WellFormed.pending_of_step, Owned, Has, Has.step,
  WellFormed.asleep_of_step
-/
import Nachos.Threads.Conditions
import Nachos.Threads.Locks

namespace Nachos

variable {T S L C : Type}
variable [DecidableEq T] [DecidableEq S] [DecidableEq L] [DecidableEq C]

/-- The call that a thread suspended with these frames is in. -/
def pendingCall : List (Frame S L C) → Option (Op T S L C)
  | [.inP s .intOn] => some (.p s)
  | [.inAcquire l .intOn] => some (.acquire l)
  | [.inWait c l .intOn] => some (.wait c (some l))
  | [.inAcquire _ .intOff, .inReacquire c l .intOn] => some (.wait c (some l))
  | _ => none

omit [DecidableEq T] [DecidableEq S] [DecidableEq L] [DecidableEq C] in
/-- `Yield` is not among them: its thread waits for nothing. -/
theorem pendingCall_ne_yield (frames : List (Frame S L C)) (pick : Nat) :
    pendingCall frames ≠ some (.yield pick : Op T S L C) := by
  unfold pendingCall
  split <;> simp

/-- The lock that the call ends with. -/
def Op.lock : Op T S L C → Option L
  | .acquire l => some l
  | .wait _ conditionLock => conditionLock
  | _ => none

open Kernel

/-- A turn leaves other threads in their calls, and its own thread in the one
that it began with. -/
theorem Turn.pending {k k' : Kernel T S L C} {cause : Cause T S L C}
    (turn : Turn k cause k') (poised : k.Poised) {t : T} {op : Op T S L C}
    (pending : pendingCall (k'.stack t) = some op) :
    pendingCall (k.stack t) = some op ∨
    (t = k.currentThread ∧ (cause = .call op ∨
      ∃ frames, cause = .back frames ∧ pendingCall frames = some op)) := by
  have empty := poised.stack
  by_cases current : t = k.currentThread
  · subst current
    refine .inr ⟨rfl, ?_⟩
    cases turn with
    | parkUnit s tests value =>
        obtain rfl : .p s = op := by simpa [empty, pendingCall] using pending
        cases tests with
        | call => exact .inl rfl
        | back => exact .inr ⟨_, rfl, rfl⟩
    | parkLock l foreign busy =>
        obtain rfl : .acquire l = op := by simpa [empty, pendingCall] using pending
        exact .inl rfl
    | parkRelock c l foreign busy =>
        obtain rfl : .wait c (some l) = op := by
          simpa [empty, push, pendingCall] using pending
        exact .inr ⟨_, rfl, rfl⟩
    | parkWait c l accepted =>
        obtain rfl : .wait c (some l) = op := by
          simpa [parkWaiter, bindLock, empty, pendingCall] using pending
        exact .inl rfl
    | fork t' fresh =>
        by_cases same : k.currentThread = t'
        · simp [same, pendingCall] at pending
        · simp [same, empty, pendingCall] at pending
    | broadcast c conditionLock => simp [empty, pendingCall] at pending
    | _ =>
        simp [Kernel.takeUnit, vBody, enter, Kernel.takeLock, push, finishBody,
          sleep, empty, pendingCall] at pending
  · left
    cases turn with
    | fork t' fresh =>
        by_cases same : t = t'
        · simp [same, pendingCall] at pending
        · simpa [same] using pending
    | broadcast c conditionLock => simpa using pending
    | _ =>
        simpa [Kernel.takeUnit, vBody, enter, Kernel.takeLock, push, finishBody,
          sleep, parkWaiter, bindLock, current] using pending

namespace Kernel

/-- Before a turn begins nobody has entered a call. -/
theorem Base.pending {d : Discipline} {k base : Kernel T S L C}
    {action : Action T S L C} {cause : Cause T S L C}
    (begins : Base d k action cause base) {t : T} {op : Op T S L C}
    (pending : pendingCall (base.stack t) = some op) :
    pendingCall (k.stack t) = some op := by
  cases begins with
  | call op running callable => exact pending
  | alone pick ticking allowed => exact pending
  | dispatch pick next asleep allowed chosen =>
      by_cases same : t = next
      · simp [same, pendingCall] at pending
      · simpa [same] using pending
  | yield pick next yields allowed chosen =>
      by_cases same : t = next
      · simp [same, pendingCall] at pending
      · by_cases current : t = k.currentThread
        · subst current
          simp [same, Kernel.yieldBase, push, pendingCall] at pending
        · simpa [same, Kernel.yieldBase, push, current] using pending

/-- A thread is in a call after a step because it was, or because it is the
current thread and has just made it. -/
theorem WellFormed.pending_of_step {d : Discipline} {k k' : Kernel T S L C}
    {action : Action T S L C} (wf : k.WellFormed)
    (step : k.step d action = some k') {t : T} {op : Op T S L C}
    (pending : pendingCall (k'.stack t) = some op) :
    pendingCall (k.stack t) = some op ∨
      (t = k.currentThread ∧ action = .call op) := by
  cases step_effect wf.shaped step with
  | turn begins poised turn =>
      rcases turn.pending poised pending with before | ⟨rfl, called⟩
      · exact .inl (Base.pending begins before)
      · cases begins with
        | call op' running callable =>
            rcases called with same | ⟨frames, back, -⟩
            · cases same
              exact .inr ⟨rfl, rfl⟩
            · cases back
        | alone pick ticking allowed =>
            rcases called with same | ⟨frames, back, -⟩
            · cases same
              exact absurd pending (pendingCall_ne_yield _ pick)
            · cases back
        | dispatch pick next asleep allowed chosen =>
            rcases called with same | ⟨frames, back, inside⟩
            · cases same
            · cases back
              rw [turnBase_currentThread]
              exact .inl inside
        | yield pick next yields allowed chosen =>
            rcases called with same | ⟨frames, back, inside⟩
            · cases same
            · cases back
              rw [turnBase_currentThread]
              exact .inl inside
  | handlerV s handling => exact .inl (by simpa [vBody] using pending)
  | handlerP s handling value => exact .inl pending
  | endTick ticking => exact .inl pending
  | idle asleep nobody => exact .inl pending
  | endIdle idle => exact .inl pending

/-! ### The frames of a thread in a call -/

/-- A thread that has not been forked has no frames. -/
def Blank (k : Kernel T S L C) : Prop :=
  ∀ t, k.status t = .justCreated → k.stack t = []

theorem Blank.step {d : Discipline} {k k' : Kernel T S L C}
    {action : Action T S L C} (wf : k.WellFormed) (blank : k.Blank)
    (step : k.step d action = some k') : k'.Blank := by
  intro t fresh
  cases step_effect wf.shaped step with
  | @turn _ cause base _ begins poised turn =>
      have freshBase : base.status t = .justCreated := by
        by_contra known
        exact Known.turn known turn fresh
      have freshBefore : k.status t = .justCreated := by
        by_contra known
        exact Known.base known begins freshBase
      have own : t ≠ base.currentThread := by
        rintro rfl
        rw [(wf.base begins).2] at freshBase
        cases freshBase
      have current : t ≠ k.currentThread := by
        rintro rfl
        rcases phase : k.phase with _ | _ | _ | _
        · simp [(wf.awake (.inl phase)).1] at freshBefore
        · simp [(wf.awake (.inr phase)).1] at freshBefore
        · simpa [freshBefore] using wf.asleep (.inl phase)
        · simpa [freshBefore] using wf.asleep (.inr phase)
      rw [← blank t freshBefore, ← Base.stack_of_ne begins current own]
      cases turn with
      | fork t' unforked =>
          have different : t ≠ t' := by
            rintro rfl
            simp at fresh
          simp [different]
      | broadcast c conditionLock => rw [oneTick_stack, broadcastLoop_stack]
      | _ =>
          simp [Kernel.takeUnit, vBody, enter, Kernel.takeLock, push, finishBody,
            sleep, parkWaiter, bindLock, own]
  | handlerV s handling =>
      have before : k.status t = .justCreated := by
        by_contra known
        exact Known.wakeFirst known (.semaphore s) (by simpa [vBody] using fresh)
      simpa [vBody] using blank t before
  | handlerP s handling value => exact blank t fresh
  | endTick ticking => exact blank t fresh
  | idle asleep nobody => exact blank t fresh
  | endIdle idle => exact blank t fresh

omit [DecidableEq S] [DecidableEq L] [DecidableEq C] in
theorem boot_blank (main : T) (initialValue : S → Int) (lockMemory : L → Lock T)
    (conditionMemory : C → Condition T L) :
    (boot main initialValue lockMemory conditionMemory : Kernel T S L C).Blank :=
  fun _ _ => rfl

/-- A thread that is in a call keeps its frames until it is given the CPU. -/
theorem WellFormed.stack_of_step {d : Discipline} {k k' : Kernel T S L C}
    {action : Action T S L C} (wf : k.WellFormed) (blank : k.Blank)
    (step : k.step d action = some k') {t : T} {op : Op T S L C}
    (pending : pendingCall (k.stack t) = some op) :
    k'.stack t = k.stack t ∨
    ∃ base, Base d k action (.back (k.stack t)) base ∧
      base.currentThread = t ∧ base.Poised ∧
      Turn base (.back (k.stack t)) k' := by
  have busy : k.stack t ≠ [] := by
    intro empty
    simp [empty, pendingCall] at pending
  have awake : k.phase = .running ∨ k.phase = .oneTick → t ≠ k.currentThread := by
    rintro phase rfl
    exact busy (wf.awake phase).2
  have known : k.Known t := fun fresh => busy (blank t fresh)
  cases step_effect wf.shaped step with
  | @turn _ cause base _ begins poised turn =>
      have others : t ≠ base.currentThread → base.stack t = k.stack t →
          k'.stack t = k.stack t := by
        intro own same
        rw [turn.stack_of_ne own (Known.base known begins), same]
      cases begins with
      | call op' running callable =>
          exact .inl (others (awake (.inl running)) rfl)
      | alone pick ticking allowed =>
          exact .inl (others (awake (.inr ticking)) rfl)
      | dispatch pick next asleep allowed chosen =>
          by_cases own : t = next
          · subst own
            exact .inr ⟨_, .dispatch pick t asleep allowed chosen,
              turnBase_currentThread _ _, poised, turn⟩
          · refine .inl (others ?_ (by simp [own]))
            rwa [turnBase_currentThread]
      | yield pick next yields allowed chosen =>
          by_cases own : t = next
          · subst own
            exact .inr ⟨_, .yield pick t yields allowed chosen,
              turnBase_currentThread _ _, poised, turn⟩
          · have current := awake (yields.imp And.right And.right)
            refine .inl (others ?_ (by simp [own, Kernel.yieldBase, push, current]))
            rwa [turnBase_currentThread]
  | handlerV s handling => exact .inl (by simp [vBody])
  | handlerP s handling value => exact .inl rfl
  | endTick ticking => exact .inl rfl
  | idle asleep nobody => exact .inl rfl
  | endIdle idle => exact .inl rfl

/-! ### Who has a lock -/

/-- A lock that is taken has an owner, and a free one has none. -/
def Owned (l : L) (k : Kernel T S L C) : Prop :=
  (k.locks l).acquired = (k.locks l).owner.isSome

/-- The thread that a turn belongs to, where the turn begins with
`l->Acquire`. -/
theorem Base.acquires {d : Discipline} {k base : Kernel T S L C}
    {action : Action T S L C} {cause : Cause T S L C} {l : L}
    (begins : Base d k action cause base) (acquires : cause.Acquires l) :
    (base.currentThread = k.currentThread ∧ action = .call (.acquire l)) ∨
    ∃ c, k.stack base.currentThread = [.inWait c l .intOn] := by
  cases begins with
  | call op running callable =>
      cases acquires
      exact .inl ⟨rfl, rfl⟩
  | alone pick ticking allowed => cases acquires
  | dispatch pick next asleep allowed chosen =>
      rw [turnBase_currentThread]
      generalize k.stack next = frames at acquires
      cases acquires with
      | back c => exact .inr ⟨c, rfl⟩
  | yield pick next yields allowed chosen =>
      rw [turnBase_currentThread]
      generalize k.stack next = frames at acquires
      cases acquires with
      | back c => exact .inr ⟨c, rfl⟩

/-- A turn with the cause of a call is that call of the current thread. -/
theorem Base.of_call {d : Discipline} {k base : Kernel T S L C}
    {action : Action T S L C} {op : Op T S L C}
    (begins : Base d k action (.call op) base) (notYield : ∀ pick, op ≠ .yield pick) :
    action = .call op ∧ base = k.disable := by
  cases begins with
  | call op running callable => exact ⟨rfl, rfl⟩
  | alone pick ticking allowed => exact absurd rfl (notYield pick)

/-- A step takes a lock that is free, frees one of the current thread, or
leaves the lock as it is. -/
theorem WellFormed.lock_of_step {d : Discipline} {k k' : Kernel T S L C}
    {action : Action T S L C} (wf : k.WellFormed)
    (step : k.step d action = some k') (l : L) :
    ((k'.locks l).acquired = (k.locks l).acquired ∧
      (k'.locks l).owner = (k.locks l).owner) ∨
    (∃ t, (k.locks l).acquired = false ∧ (k'.locks l).acquired = true ∧
      (k'.locks l).owner = some t ∧
      ((t = k.currentThread ∧ action = .call (.acquire l)) ∨
        ∃ c, k.stack t = [.inWait c l .intOn])) ∨
    ((k.locks l).owner = some k.currentThread ∧
      (k'.locks l).acquired = false ∧ (k'.locks l).owner = none ∧
      (action = .call (.release l) ∨ ∃ c, action = .call (.wait c (some l)) ∧
        k.Accepts c l)) := by
  cases step_effect wf.shaped step with
  | @turn _ cause base _ begins poised turn =>
      obtain ⟨acquired, owner, -⟩ := unlocked_base begins l
      have freed : ∀ {k' : Kernel T S L C},
          base = k.disable → Unlocked l (base.releaseBody l) k' →
          ((k'.locks l).acquired = (k.locks l).acquired ∧
            (k'.locks l).owner = (k.locks l).owner) ∨
          ((k.locks l).owner = some k.currentThread ∧
            (k'.locks l).acquired = false ∧ (k'.locks l).owner = none) := by
        rintro k' rfl unlocked
        obtain ⟨acquired', owner', -⟩ := releaseBody_lock l k.disable
        rw [unlocked.acquired, unlocked.owner, acquired', owner']
        by_cases held : k.disable.isHeldByCurrentThread l
        · rw [if_pos held, if_pos held]
          exact .inr ⟨held, rfl, rfl⟩
        · rw [if_neg held, if_neg held]
          exact .inl ⟨rfl, rfl⟩
      rcases turn.lock_cases l with unlocked | ⟨-, -, rfl⟩ |
        ⟨acquires, -, free, rfl⟩ | ⟨-, rfl⟩ | ⟨rfl, unlocked⟩ |
        ⟨c, accepted, rfl, unlocked⟩
      · exact .inl ⟨unlocked.acquired.trans acquired, unlocked.owner.trans owner⟩
      · exact .inl ⟨acquired, owner⟩
      · refine .inr (.inl ⟨base.currentThread, acquired ▸ free, ?_, ?_,
          Base.acquires begins acquires⟩)
        · simp [Kernel.takeLock, enter]
        · simp [Kernel.takeLock, enter]
      · exact .inl ⟨acquired, owner⟩
      · obtain ⟨rfl, same⟩ := Base.of_call begins (by simp)
        rcases freed same unlocked with kept | ⟨held, free, nobody⟩
        · exact .inl kept
        · exact .inr (.inr ⟨held, free, nobody, .inl rfl⟩)
      · obtain ⟨rfl, same⟩ := Base.of_call begins (by simp)
        rcases freed same unlocked with kept | ⟨held, free, nobody⟩
        · exact .inl kept
        · subst same
          exact .inr (.inr ⟨held, free, nobody, .inr ⟨c, rfl, accepted⟩⟩)
  | handlerV s handling =>
      have same := wakeFirst_locks k (q := .semaphore s) (l := l) (by simp)
      simp [vBody, same]
  | handlerP s handling value => exact .inl ⟨rfl, rfl⟩
  | endTick ticking => exact .inl ⟨rfl, rfl⟩
  | idle asleep nobody => exact .inl ⟨rfl, rfl⟩
  | endIdle idle => exact .inl ⟨rfl, rfl⟩

theorem Owned.step {d : Discipline} {l : L} {k k' : Kernel T S L C}
    {action : Action T S L C} (wf : k.WellFormed) (owned : k.Owned l)
    (step : k.step d action = some k') : k'.Owned l := by
  unfold Owned at owned ⊢
  rcases wf.lock_of_step step l with ⟨acquired, owner⟩ |
    ⟨t, -, acquired, owner, -⟩ | ⟨-, acquired, owner, -⟩
  · rw [acquired, owner, owned]
  · rw [acquired, owner]
    rfl
  · rw [acquired, owner]
    rfl

/-- `t` owns the lock, or has still to return from a call that ends with
it. -/
def Has (l : L) (k : Kernel T S L C) (t : T) : Prop :=
  (k.locks l).owner = some t ∨
    ∃ op : Op T S L C, pendingCall (k.stack t) = some op ∧ op.lock = some l

/-- A call that is not a `Yield` is a turn of the current thread. -/
theorem WellFormed.turn_of_call {d : Discipline} {k k' : Kernel T S L C}
    {op : Op T S L C} (wf : k.WellFormed)
    (step : k.step d (.call op) = some k') (notYield : ∀ pick, op ≠ .yield pick) :
    k.phase = .running ∧ k.disable.Poised ∧ Turn k.disable (.call op) k' := by
  cases step_effect wf.shaped step with
  | turn begins poised turn =>
      cases begins with
      | call op running callable => exact ⟨running, poised, turn⟩
      | yield pick next yields allowed chosen =>
          rcases yields with ⟨same, -⟩ | ⟨same, -⟩
          · cases same
            exact absurd rfl (notYield pick)
          · cases same

/-- An accepted `Wait` has not returned when the step is over. -/
theorem WellFormed.pending_wait {d : Discipline} {k k' : Kernel T S L C} {c : C}
    {l : L} (wf : k.WellFormed)
    (step : k.step d (.call (.wait c (some l))) = some k')
    (accepted : k.Accepts c l) :
    pendingCall (k'.stack k.currentThread) =
      some (.wait c (some l) : Op T S L C) := by
  obtain ⟨-, poised, turn⟩ := wf.turn_of_call step (by simp)
  have empty : k.stack k.currentThread = [] := poised.stack
  cases turn with
  | takeUnit s tests => cases tests
  | parkUnit s tests => cases tests
  | held l acquires => cases acquires
  | takeLock l acquires => cases acquires
  | returned l returns => cases returns
  | skipWait c conditionLock rejected => exact absurd accepted (rejected l rfl)
  | parkWait c l accepted => simp [parkWaiter, bindLock, empty, pendingCall]

/-- A `Wait` that has not returned was accepted. -/
theorem WellFormed.accepts_of_pending {d : Discipline} {k k' : Kernel T S L C}
    {c : C} {l : L} {op : Op T S L C} (wf : k.WellFormed)
    (step : k.step d (.call (.wait c (some l))) = some k')
    (pending : pendingCall (k'.stack k.currentThread) = some op) :
    k.Accepts c l := by
  obtain ⟨-, poised, turn⟩ := wf.turn_of_call step (by simp)
  have empty : k.stack k.currentThread = [] := poised.stack
  cases turn with
  | takeUnit s tests => cases tests
  | parkUnit s tests => cases tests
  | held l acquires => cases acquires
  | takeLock l acquires => cases acquires
  | returned l returns => cases returns
  | skipWait c conditionLock rejected => simp [empty, pendingCall] at pending
  | parkWait c l accepted => exact accepted

/-- The owner is outside when it has called `Release`. -/
theorem WellFormed.release_owner {d : Discipline} {k k' : Kernel T S L C} {l : L}
    (wf : k.WellFormed) (step : k.step d (.call (.release l)) = some k') :
    (k'.locks l).owner ≠ some k.currentThread := by
  obtain ⟨-, -, turn⟩ := wf.turn_of_call step (by simp)
  cases turn with
  | takeUnit s tests => cases tests
  | parkUnit s tests => cases tests
  | held l acquires => cases acquires
  | takeLock l acquires => cases acquires
  | returned l returns => cases returns
  | release l =>
      obtain ⟨-, owner, -⟩ := releaseBody_lock l k.disable
      rw [oneTick_locks, owner]
      by_cases held : k.disable.isHeldByCurrentThread l
      · simp [held]
      · rw [if_neg held]
        exact held

/-- After `Acquire` the thread has the lock, or is still on its way. -/
theorem WellFormed.has_of_acquire {d : Discipline} {k k' : Kernel T S L C} {l : L}
    (wf : k.WellFormed) (step : k.step d (.call (.acquire l)) = some k') :
    k'.Has l k.currentThread := by
  obtain ⟨-, poised, turn⟩ := wf.turn_of_call step (by simp)
  have empty : k.stack k.currentThread = [] := poised.stack
  cases turn with
  | takeUnit s tests => cases tests
  | parkUnit s tests => cases tests
  | held l acquires held =>
      cases acquires
      exact .inl held
  | takeLock l acquires foreign free =>
      cases acquires
      exact .inl (by simp [Kernel.takeLock, enter])
  | parkLock l foreign busy =>
      exact .inr ⟨.acquire l, by simp [empty, pendingCall], rfl⟩
  | returned l returns => cases returns

/-- Coming back to a call that ends with `l`, other than out of a `Sleep` in
`l->Acquire`, a thread takes the lock or goes to sleep for it. -/
theorem has_of_back {base k' : Kernel T S L C} {frames : List (Frame S L C)}
    {op : Op T S L C} {l : L} (pending : pendingCall frames = some op)
    (ends : op.lock = some l) (empty : base.stack base.currentThread = [])
    (awake : ¬ Cause.Returns l (.back frames : Cause T S L C))
    (turn : Turn base (.back frames) k') : k'.Has l base.currentThread := by
  cases turn with
  | root => cases pending
  | yielded => cases pending
  | takeUnit s tests =>
      cases tests
      cases pending
      cases ends
  | parkUnit s tests =>
      cases tests
      cases pending
      cases ends
  | held l acquires held =>
      cases acquires
      cases pending
      cases ends
      exact .inl held
  | takeLock l acquires foreign free =>
      cases acquires
      cases pending
      cases ends
      exact .inl (by simp [Kernel.takeLock, enter])
  | parkRelock c l foreign busy =>
      cases pending
      cases ends
      exact .inr ⟨.wait c (some l), by simp [empty, push, pendingCall], rfl⟩
  | returned l returns =>
      cases returns with
      | acquire =>
          cases pending
          cases ends
          exact absurd .acquire awake
      | reacquire c =>
          cases pending
          cases ends
          exact absurd (.reacquire c) awake

/-- While no sleeper is resumed, only a `Release` ends what a thread has of a
lock. -/
theorem Has.step {d : Discipline} {l : L} {k k' : Kernel T S L C}
    {action : Action T S L C} {t : T} (wf : k.WellFormed) (blank : k.Blank)
    (owned : k.Owned l) (asleep : ¬ k.ResumesSleeper l action)
    (step : k.step d action = some k') (has : k.Has l t) :
    k'.Has l t ∨ (t = k.currentThread ∧ action = .call (.release l)) := by
  rcases has with owner | ⟨op, pending, ends⟩
  · rcases wf.lock_of_step step l with ⟨-, same⟩ | ⟨t', free, -⟩ |
      ⟨owner', -, -, freed⟩
    · exact .inl (.inl (same.trans owner))
    · rw [Owned, owner, free] at owned
      cases owned
    · obtain rfl : k.currentThread = t := by
        rw [owner] at owner'
        exact (Option.some.inj owner').symm
      rcases freed with rfl | ⟨c, rfl, accepted⟩
      · exact .inr ⟨rfl, rfl⟩
      · exact .inl (.inr ⟨_, wf.pending_wait step accepted, rfl⟩)
  · rcases wf.stack_of_step blank step pending with same |
      ⟨base, begins, rfl, poised, turn⟩
    · exact .inl (.inr ⟨op, by rw [same, pending], ends⟩)
    · refine .inl (has_of_back pending ends poised.stack ?_ turn)
      exact fun returns => asleep (Base.resumesSleeper begins returns)

/-! ### Who is asleep on a condition -/

/-- A condition after a step. -/
def conditionAfter (c : C) (k : Kernel T S L C) : Action T S L C → Condition T L
  | .call (.wait c' (some l)) =>
      if c' = c ∧ k.Accepts c l then
        { waitQueue := (k.conditions c).waitQueue ++ [k.currentThread]
          waitingLock := some l }
      else k.conditions c
  | .call (.signal c' conditionLock) =>
      if c' = c ∧ (k.conditions c).waitingLock = conditionLock then
        { k.conditions c with waitQueue := (k.conditions c).waitQueue.tail }
      else k.conditions c
  | .call (.broadcast c' _) =>
      if c' = c then { k.conditions c with waitQueue := [] }
      else k.conditions c
  | _ => k.conditions c

theorem signalBody_condition (c c' : C) (conditionLock : Option L)
    (k : Kernel T S L C) :
    (k.signalBody c' conditionLock).conditions c =
      if c' = c ∧ (k.conditions c).waitingLock = conditionLock then
        { k.conditions c with waitQueue := (k.conditions c).waitQueue.tail }
      else k.conditions c := by
  by_cases same : c' = c
  · subst same
    by_cases bound : (k.conditions c').waitingLock = conditionLock
    · rw [if_pos ⟨rfl, bound⟩]
      cases contents : (k.conditions c').waitQueue with
      | nil =>
          rw [signalBody_nil conditionLock contents]
          cases condition : k.conditions c'
          rw [condition] at contents
          cases contents
          rfl
      | cons t rest =>
          obtain ⟨condition, -, -⟩ := wakeWaiter_cons contents
          simpa [signalBody, contents, bound] using condition
    · rw [if_neg (fun both => bound both.2)]
      simp [signalBody, bound]
  · rw [if_neg (fun both => same both.1)]
    exact (unmoved_signalBody conditionLock k (Ne.symm same)).condition

end Kernel

/-- Other turns than those with a call on it leave a condition alone. -/
theorem Turn.condition_of_other {k k' : Kernel T S L C} {cause : Cause T S L C}
    {c : C} (turn : Turn k cause k')
    (notWait : ∀ l, cause ≠ .call (.wait c (some l)))
    (notSignal : ∀ conditionLock, cause ≠ .call (.signal c conditionLock))
    (notBroadcast : ∀ conditionLock, cause ≠ .call (.broadcast c conditionLock)) :
    k'.conditions c = k.conditions c := by
  rcases turn.condition_cases c with ⟨unmoved, -⟩ | ⟨l, -, called, -⟩ |
    ⟨conditionLock, called, -⟩ | ⟨conditionLock, called, -⟩
  · exact unmoved.condition
  · exact absurd called (notWait l)
  · exact absurd called (notSignal conditionLock)
  · exact absurd called (notBroadcast conditionLock)

theorem Turn.condition_wait {k k' : Kernel T S L C} {c c' : C}
    {conditionLock : Option L}
    (turn : Turn k.disable (.call (.wait c' conditionLock)) k') :
    k'.conditions c = k.conditionAfter c (.call (.wait c' conditionLock)) := by
  rcases turn.condition_cases c with ⟨unmoved, refused⟩ | ⟨l, accepted, called, rfl⟩ |
    ⟨conditionLock, called, -⟩ | ⟨conditionLock, called, -⟩
  · rw [unmoved.condition]
    cases conditionLock with
    | none => rfl
    | some l =>
        have refuses : ¬ (c' = c ∧ k.Accepts c l) := by
          rintro ⟨rfl, accepted⟩
          exact refused l rfl accepted
        simp [conditionAfter, refuses]
  · cases called
    have accepts : k.Accepts c l := accepted
    rw [parkWait_condition]
    simp [conditionAfter, accepts]
  · cases called
  · cases called

theorem Turn.condition_signal {k k' : Kernel T S L C} {c c' : C}
    {conditionLock : Option L}
    (turn : Turn k.disable (.call (.signal c' conditionLock)) k') :
    k'.conditions c = k.conditionAfter c (.call (.signal c' conditionLock)) := by
  cases turn with
  | takeUnit s tests => cases tests
  | parkUnit s tests => cases tests
  | held l acquires => cases acquires
  | takeLock l acquires => cases acquires
  | returned l returns => cases returns
  | signal => exact signalBody_condition c c' conditionLock k.disable

theorem Turn.condition_broadcast {k k' : Kernel T S L C} {c c' : C}
    {conditionLock : Option L}
    (turn : Turn k.disable (.call (.broadcast c' conditionLock)) k') :
    k'.conditions c = k.conditionAfter c (.call (.broadcast c' conditionLock)) := by
  cases turn with
  | takeUnit s tests => cases tests
  | parkUnit s tests => cases tests
  | held l acquires => cases acquires
  | takeLock l acquires => cases acquires
  | returned l returns => cases returns
  | broadcast =>
      by_cases same : c' = c
      · subst same
        obtain ⟨condition, -, -, -⟩ := broadcastLoop_all c' _ k.disable rfl
        simpa [conditionAfter] using condition
      · have unmoved := unmoved_broadcastLoop
          (k.disable.conditions c').waitQueue k.disable (Ne.symm same)
        simpa [conditionAfter, same] using unmoved.condition

namespace Kernel

/-- A step changes a condition in the way of its call. -/
theorem WellFormed.condition_of_step {d : Discipline} {k k' : Kernel T S L C}
    {action : Action T S L C} (wf : k.WellFormed)
    (step : k.step d action = some k') (c : C) :
    k'.conditions c = k.conditionAfter c action := by
  cases step_effect wf.shaped step with
  | turn begins poised turn =>
      have begun := (unmoved_base begins c).condition
      cases begins with
      | call op running callable =>
          cases op with
          | wait c' conditionLock => exact turn.condition_wait
          | signal c' conditionLock => exact turn.condition_signal
          | broadcast c' conditionLock => exact turn.condition_broadcast
          | _ => exact turn.condition_of_other (by simp) (by simp) (by simp)
      | alone pick ticking allowed =>
          exact turn.condition_of_other (by simp) (by simp) (by simp)
      | dispatch pick next asleep allowed chosen =>
          exact (turn.condition_of_other (by simp) (by simp) (by simp)).trans begun
      | yield pick next yields allowed chosen =>
          have same :=
            (turn.condition_of_other (by simp) (by simp) (by simp)).trans begun
          rcases yields with ⟨rfl, -⟩ | ⟨rfl, -⟩ <;> exact same
  | handlerV s handling =>
      have same := wakeFirst_conditions k (q := .semaphore s) (c := c) (by simp)
      simpa [vBody, conditionAfter] using same
  | handlerP s handling value => rfl
  | endTick ticking => rfl
  | idle asleep nobody => rfl
  | endIdle idle => rfl

omit [DecidableEq T] [DecidableEq S] [DecidableEq L] [DecidableEq C] in
/-- A thread in the queue of a condition is in its `Wait`. -/
theorem WellFormed.asleep_in_wait {k : Kernel T S L C} (wf : k.WellFormed) {c : C}
    {t : T} (asleep : t ∈ (k.conditions c).waitQueue) :
    k.status t = .blocked ∧ ∃ l, k.stack t = [.inWait c l .intOn] := by
  obtain ⟨blocked, sleeps⟩ := (wf.queued (.condition c) t).mp asleep
  refine ⟨blocked, ?_⟩
  rcases wf.parked t blocked with ⟨suspended, -⟩ | finished
  · rw [sleepsOn] at sleeps
    generalize k.stack t = frames at suspended sleeps
    cases suspended with
    | wait c' l =>
        cases sleeps
        exact ⟨l, rfl⟩
    | _ => cases sleeps
  · rw [sleepsOn, finished] at sleeps
    cases sleeps

end Kernel

end Nachos
