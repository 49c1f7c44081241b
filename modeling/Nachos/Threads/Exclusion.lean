/-
Module: Nachos.Threads.Exclusion
Purpose: The lock of an interface whose calls begin with `lock->Acquire` and end
  with `lock->Release`: as long as no thread is resumed out of the `Sleep` of
  `Acquire`, the threads that are past it own the lock.
Trusted boundary: none
Main exports: Kernel.Excluded, Kernel.Excluded.owner, Kernel.Excluded.step,
  Kernel.Excluded.acquire
-/
import Nachos.Threads.Pending

namespace Nachos

variable {T S L C : Type}
variable [DecidableEq T] [DecidableEq S] [DecidableEq L] [DecidableEq C]

namespace Kernel

/-- The threads of `entering` own the lock or are still in `Acquire`; those of
`holding` own it. -/
structure Excluded (lock : L) (entering holding : T → Prop) (k : Kernel T S L C) : Prop where
  wf : k.WellFormed
  blank : k.Blank
  owned : k.Owned lock
  has : ∀ t, entering t → k.Has lock t
  owns : ∀ t, holding t → (k.locks lock).owner = some t

namespace Excluded

variable {lock : L} {entering holding : T → Prop}
variable {d : Discipline} {k k' : Kernel T S L C} {action : Action T S L C}

section

omit [DecidableEq T] [DecidableEq S] [DecidableEq L] [DecidableEq C]

/-- At most one thread holds. -/
theorem holding_unique (excluded : k.Excluded lock entering holding) {t t' : T}
    (first : holding t) (second : holding t') : t = t' :=
  Option.some.inj ((excluded.owns t first).symm.trans (excluded.owns t' second))

/-- A thread that runs inside its call owns the lock. -/
theorem owner (excluded : k.Excluded lock entering holding) (running : k.phase = .running)
    (inside : entering k.currentThread ∨ holding k.currentThread) :
    (k.locks lock).owner = some k.currentThread := by
  have empty : k.stack k.currentThread = [] := (excluded.wf.awake (.inl running)).2
  rcases inside with enters | holds
  · rcases excluded.has _ enters with owner | ⟨op, pending, -⟩
    · exact owner
    · simp [empty, pendingCall] at pending
  · exact excluded.owns _ holds

/-- No other thread holds meanwhile. -/
theorem alone (excluded : k.Excluded lock entering holding) (running : k.phase = .running)
    (inside : entering k.currentThread ∨ holding k.currentThread) {t : T} (holds : holding t) :
    t = k.currentThread :=
  Option.some.inj ((excluded.owns t holds).symm.trans (excluded.owner running inside))

end

/-- A step that resumes no sleeper of the lock and releases the lock for no thread
in a call. -/
theorem step (excluded : k.Excluded lock entering holding)
    (notWait : ∀ c, action ≠ .call (.wait c (some lock)))
    (asleep : ¬ k.ResumesSleeper lock action)
    (outside : action = .call (.release lock) →
      ¬ entering k.currentThread ∧ ¬ holding k.currentThread)
    (step : k.step d action = some k') :
    k'.Excluded lock entering holding := by
  refine ⟨excluded.wf.step step, excluded.blank.step excluded.wf step,
    excluded.owned.step excluded.wf step, ?_, ?_⟩
  · intro t enters
    rcases Has.step excluded.wf excluded.blank excluded.owned asleep step
      (excluded.has t enters) with has | ⟨rfl, released⟩
    · exact has
    · exact absurd enters (outside released).1
  · intro t holds
    have owner := excluded.owns t holds
    rcases excluded.wf.lock_of_step step lock with ⟨-, same⟩ | ⟨_, free, -⟩ |
      ⟨current, -, -, released | ⟨c, waited, -⟩⟩
    · exact same.trans owner
    · have owned := excluded.owned
      rw [Owned, owner, free] at owned
      cases owned
    · have same := Option.some.inj (current.symm.trans owner)
      exact absurd (same ▸ holds) (outside released).2
    · exact absurd waited (notWait c)

/-- The running thread calls `Acquire`. -/
theorem acquire (excluded : k.Excluded lock entering holding)
    (step : k.step d (.call (.acquire lock)) = some k') :
    k'.Excluded lock (fun t => entering t ∨ t = k.currentThread) holding := by
  have kept := excluded.step (by simp) (by simp [ResumesSleeper, nextThread]) (by simp) step
  refine { kept with has := ?_ }
  rintro t (enters | rfl)
  · exact kept.has t enters
  · exact excluded.wf.has_of_acquire step

section

omit [DecidableEq T] [DecidableEq S] [DecidableEq L] [DecidableEq C]

/-- Threads come to the call with the lock, or leave it. -/
theorem of_places (excluded : k.Excluded lock entering holding)
    {entering' holding' : T → Prop} (come : ∀ t, entering' t → k.Has lock t)
    (stay : ∀ t, holding' t → (k.locks lock).owner = some t) :
    k.Excluded lock entering' holding' :=
  { excluded with has := come, owns := stay }

end

end Excluded

section

omit [DecidableEq S] [DecidableEq L] [DecidableEq C]

theorem boot_excluded (main : T) {initialValue : S → Int} {lockMemory : L → Lock T}
    (conditionMemory : C → Condition T L) {lock : L} (free : (lockMemory lock).owner = none) :
    (boot main initialValue lockMemory conditionMemory).Excluded lock
      (fun _ => False) fun _ => False where
  wf := boot_wellFormed main initialValue lockMemory conditionMemory
  blank := boot_blank main initialValue lockMemory conditionMemory
  owned := by simp [Owned, boot, Lock.construct, free]
  has t enters := enters.elim
  owns t holds := holds.elim

end

end Kernel

end Nachos
