/-
Module: Nachos.Office.Locking
Purpose: Where the threads of the office are inside their locks, by their
  program counters, and how that fits what the thread system knows: a
  suspended thread is in the call that its program counter stands after, an
  owner is inside, and while no sleeper is resumed a thread inside has the
  lock.
Trusted boundary: none
Main exports: blockingCall, locksOf, Coupled, OwnersInside, Consistent,
  HeldInside, Holding, afterCall, HeldInside.pending_of_other
-/
import Nachos.Office.Segments
import Nachos.Threads.Pending

namespace Nachos.Office

open LockName CvName

/-! ### Program counters and calls -/

/-- The call that a customer may still have to return from. -/
def Client.blockingCall (c : Client) : Option Call :=
  match c.pc with
  | .join m .look => some (.acquire (monitorLock m))
  | .join m (.take i) => some (.wait (clerkLineCV m i) (some (monitorLock m)))
  | .join m (.greet i) => some (.acquire (clerkLineLocks m i))
  | .join m (.served i) =>
      some (.wait (clerkLineCV m i) (some (clerkLineLocks m i)))
  | _ => none

/-- The locks between whose `Acquire` and `Release` a customer is. -/
def Client.locks (c : Client) : List LockName :=
  match c.pc with
  | .join m .look | .join m (.take _) => [monitorLock m]
  | .join m (.greet i) | .join m (.await i) | .join m (.served i)
  | .join m (.tooSoon i _) | .join m (.leave i) => [clerkLineLocks m i]
  | _ => []

def Clerk.blockingCall (m : Kind) (clerk : Clerk) : Option Call :=
  match clerk.pc with
  | .look => some (.acquire (monitorLock m))
  | .openMonitor => some (.acquire (clerkLineLocks m clerk.myLine))
  | .takeLine | .serve | .develop | .close =>
      some (.wait (clerkLineCV m clerk.myLine)
        (some (clerkLineLocks m clerk.myLine)))
  | _ => none

def Clerk.locks (m : Kind) (clerk : Clerk) : List LockName :=
  match clerk.pc with
  | .create | .enter => []
  | .look | .lookRegular | .markBusy => [monitorLock m]
  -- the `Wait` of the picture clerk's break ends with the lock of the line
  | .takeLine | .openMonitor => [monitorLock m, clerkLineLocks m clerk.myLine]
  | .await | .serve | .develop | .awaitOpinion | .working _ | .awaitLeave
  | .close => [clerkLineLocks m clerk.myLine]

def ManagerPc.blockingCall : ManagerPc → Option Call
  | .scan m 0 => some (.acquire (monitorLock m))
  | _ => none

def ManagerPc.locks : ManagerPc → List LockName
  | .enter _ => []
  | .scan m _ => [monitorLock m]

def blockingCall (office : Office) : Who → Option Call
  | .clerk m n => (office.clerks m n).blockingCall m
  | .manager => office.manager.blockingCall
  | .customer n => (office.clients n).blockingCall
  | .main | .senator _ => none

def locksOf (office : Office) : Who → List LockName
  | .clerk m n => (office.clerks m n).locks m
  | .manager => office.manager.locks
  | .customer n => (office.clients n).locks
  | .main | .senator _ => []

/-- How a segment of a thread fits the call it ends in. -/
structure Fits (before after : List LockName) (blocking call : Option Call) :
    Prop where
  entered : ∀ l ∈ after, l ∈ before ∨ call = some (.acquire l) ∨
    ∃ c, call = some (.wait c (some l))
  left : ∀ l ∈ before, l ∈ after ∨ call = some (.release l)
  acquired : ∀ l, call = some (.acquire l) → l ∈ after
  released : ∀ l, call = some (.release l) → l ∉ after
  blocks : ∀ op, call = some op → op.lock ≠ none → blocking = some op

theorem Client.Does.fits {numClerks : Kind → Nat} {ssnCount : Int}
    {rand pick : Nat} {desks : Desks} {c : Client} {segment : Segment Client}
    (does : c.Does numClerks ssnCount rand pick desks segment) :
    Fits c.locks segment.next.locks segment.next.blockingCall segment.call := by
  cases does with
  | create pc | finish pc | choose _ pc | pass pc | leaving pc | enter _ pc
  | queueUp _ _ pc | walkUp _ _ pc | take _ _ pc | lock _ _ pc | greet _ _ pc
  | await _ _ pc | retake _ pc | served _ _ pc | tooSoon _ _ _ pc
  | yield _ _ _ pc | goodbye _ _ pc | leave _ _ pc =>
      constructor <;>
        simp +contextual [Client.locks, Client.blockingCall, pc, construct, Op.lock]

theorem Clerk.Does.fits {m : Kind} {clerkID pick : Nat} {desks : Desks}
    {clerk : Clerk} {segment : Segment Clerk}
    (does : clerk.Does m clerkID pick desks segment) :
    Fits (clerk.locks m) (segment.next.locks m) (segment.next.blockingCall m)
      segment.call := by
  cases does with
  | startWork n pc passes =>
      rcases pc with pc | ⟨-, pc⟩ <;> constructor <;>
        simp +contextual [Clerk.locks, Clerk.blockingCall, pc, Op.lock]
  | present pc picture =>
      rcases pc with pc | pc <;> constructor <;>
        simp +contextual [Clerk.locks, Clerk.blockingCall, pc, Op.lock]
  | create pc | enter pc | callCustomer pc | goOnBreak pc | goOnPictureBreak pc
  | markBusy pc | takeLine pc | openMonitor pc | await pc | refuse pc
  | awaitOpinion pc | yield _ pc | finishWork pc | finishPicture pc
  | awaitLeave pc | close pc =>
      constructor <;>
        simp +contextual [Clerk.locks, Clerk.blockingCall, pc, Op.lock, newRound]

theorem ManagerPc.step_fits (numClerks : Kind → Nat) (desks : Desks)
    (pc : ManagerPc) :
    Fits pc.locks (pc.step numClerks desks).next.locks
      (pc.step numClerks desks).next.blockingCall
      (pc.step numClerks desks).call := by
  cases pc with
  | enter m =>
      constructor <;>
        simp +contextual [ManagerPc.step, ManagerPc.locks, ManagerPc.blockingCall,
          Op.lock]
  | scan m i =>
      simp only [ManagerPc.step]
      split
      · split <;> constructor <;>
          simp +contextual [ManagerPc.locks, ManagerPc.blockingCall, Op.lock]
      · constructor <;>
          simp +contextual [ManagerPc.locks, ManagerPc.blockingCall, Op.lock]

/-- A segment changes the locks of its own thread only. -/
theorem Runs.fits {setup : Setup} {rand pick : Nat} {office after : Office}
    {who : Who} {call : Option Call}
    (runs : Runs setup rand pick office who after call) :
    Fits (office.locksOf who) (after.locksOf who) (after.blockingCall who) call ∧
    ∀ t, t ≠ who → after.locksOf t = office.locksOf t ∧
      after.blockingCall t = office.blockingCall t := by
  cases runs with
  | fork t rest pending =>
      refine ⟨?_, fun t other => by cases t <;> exact ⟨rfl, rfl⟩⟩
      constructor <;> simp [locksOf, Op.lock]
  | finish none =>
      refine ⟨?_, fun t other => ⟨rfl, rfl⟩⟩
      constructor <;> simp [locksOf, Op.lock]
  | senator n =>
      refine ⟨?_, fun t other => ⟨rfl, rfl⟩⟩
      constructor <;> simp [locksOf, Op.lock]
  | manager =>
      refine ⟨ManagerPc.step_fits _ _ _, fun t other => ?_⟩
      cases t with
      | manager => exact absurd rfl other
      | _ => exact ⟨rfl, rfl⟩
  | clerk m n segment does =>
      refine ⟨?_, fun t other => ?_⟩
      · simpa [locksOf, blockingCall] using does.fits
      · cases t with
        | clerk m' n' =>
            have different : ¬ (m' = m ∧ n' = n) := by
              rintro ⟨rfl, rfl⟩
              exact other rfl
            simp only [locksOf, blockingCall, office.afterClerk_other segment different,
              and_self]
        | _ => exact ⟨rfl, rfl⟩
  | customer n segment does =>
      refine ⟨?_, fun t other => ?_⟩
      · simpa [locksOf, blockingCall] using does.fits
      · cases t with
        | customer n' =>
            have different : n' ≠ n := by
              rintro rfl
              exact other rfl
            simp [locksOf, blockingCall, different]
        | _ => exact ⟨rfl, rfl⟩

/-- The lock of the call that a thread stands after is one of its locks. -/
theorem lock_mem_locksOf {office : Office} {t : Who} {op : Call} {l : LockName}
    (blocking : office.blockingCall t = some op) (ends : op.lock = some l) :
    l ∈ office.locksOf t := by
  cases t with
  | clerk m n =>
      simp only [blockingCall, Clerk.blockingCall] at blocking
      simp only [locksOf, Clerk.locks]
      split at blocking <;> rename_i pc <;> cases blocking <;> cases ends <;> simp [pc]
  | manager =>
      simp only [blockingCall, ManagerPc.blockingCall] at blocking
      split at blocking
      · rename_i pc
        cases blocking
        cases ends
        simp [locksOf, ManagerPc.locks, pc]
      · cases blocking
  | customer n =>
      simp only [blockingCall, Client.blockingCall] at blocking
      simp only [locksOf, Client.locks]
      split at blocking <;> rename_i pc <;> cases blocking <;> cases ends <;> simp [pc]
  | main => cases blocking
  | senator n => cases blocking

/-! ### A condition and a call -/

/-- The condition after a segment that ends in a call or in none. -/
def afterCall (c : CvName) (kernel : Kernel Who Empty LockName CvName) :
    Option Call → Condition Who LockName
  | none => kernel.conditions c
  | some op => kernel.conditionAfter c (.call op)

/-- A condition that has been bound to a lock stays bound to it. -/
theorem waitingLock_afterCall {c : CvName}
    {kernel : Kernel Who Empty LockName CvName} {l : LockName} (call : Option Call)
    (bound : (kernel.conditions c).waitingLock = some l) :
    (afterCall c kernel call).waitingLock = some l := by
  cases call with
  | none => exact bound
  | some op =>
      rw [afterCall]
      unfold Kernel.conditionAfter
      split
      · split
        · rename_i accepted
          rcases accepted.2 with same | same
          · rw [← same, bound]
          · simp [bound] at same
        · exact bound
      · split <;> exact bound
      · split <;> exact bound
      · exact bound

theorem wait_afterCall {c : CvName} {l : LockName}
    {kernel : Kernel Who Empty LockName CvName} (accepted : kernel.Accepts c l) :
    afterCall c kernel (some (.wait c (some l))) =
      ⟨(kernel.conditions c).waitQueue ++ [kernel.currentThread], some l⟩ := by
  simp [afterCall, Kernel.conditionAfter, accepted]

/-! ### Suspended threads are in the call they stand after -/

def Coupled (office : Office) : Prop :=
  ∀ (t : Who) (op : Call), pendingCall (office.kernel.stack t) = some op →
    office.blockingCall t = some op

/-- The office has no semaphores, so that a pending call ends with a lock. -/
theorem lock_of_pending {frames : List (Frame Empty LockName CvName)} {op : Call}
    (pending : pendingCall frames = some op) : op.lock ≠ none := by
  unfold pendingCall at pending
  split at pending <;> cases pending
  · rename_i s
    exact s.elim
  all_goals simp [Op.lock]

/-- A running thread is in no call. -/
theorem pendingCall_current {office : Office} (wf : office.kernel.WellFormed)
    (running : office.kernel.phase = .running) (op : Call) :
    pendingCall (office.kernel.stack office.kernel.currentThread) ≠ some op := by
  rw [(wf.awake (.inl running)).2]
  simp [pendingCall]

theorem Coupled.step {setup : Setup} {d : Discipline} {office office' : Office}
    {move : Move} (wf : office.kernel.WellFormed) (unbribed : office.Unbribed)
    (coupled : office.Coupled)
    (step : office.step setup d move = some office') : office'.Coupled := by
  intro t op pending
  cases unbribed.moves step with
  | silent rand pick after running runs =>
      rw [runs.kernel_eq] at pending
      have other : t ≠ office.kernel.currentThread := by
        rintro rfl
        exact pendingCall_current wf running op pending
      rw [(runs.fits.2 t other).2]
      exact coupled t op pending
  | call rand pick after op' kernel running runs calls called =>
      rcases wf.pending_of_step called pending with before | ⟨rfl, same⟩
      · have other : t ≠ office.kernel.currentThread := by
          rintro rfl
          exact pendingCall_current wf running op before
        exact (runs.fits.2 t other).2.trans (coupled t op before)
      · cases same
        exact runs.fits.1.blocks op rfl (lock_of_pending pending)
  | system action kernel notCall stepped =>
      rcases wf.pending_of_step stepped pending with before | ⟨-, same⟩
      · exact coupled t op before
      · exact absurd same (notCall op)

theorem boot_coupled (setup : Setup) : (boot setup).Coupled := by
  intro t op pending
  cases pending

/-- A thread asleep on a condition stands after its `Wait`. -/
theorem Coupled.of_asleep {office : Office} (coupled : office.Coupled)
    (wf : office.kernel.WellFormed) {c : CvName} {t : Who}
    (asleep : t ∈ (office.kernel.conditions c).waitQueue) :
    ∃ l, office.blockingCall t = some (.wait c (some l)) ∧
      office.kernel.stack t = [.inWait c l .intOn] := by
  obtain ⟨-, l, stack⟩ := wf.asleep_in_wait asleep
  exact ⟨l, coupled t _ (by rw [stack]; rfl), stack⟩

/-! ### Owners are inside -/

def OwnersInside (office : Office) : Prop :=
  ∀ t l, (office.kernel.locks l).owner = some t → l ∈ office.locksOf t

/-- Who waits under a lock stands inside it. -/
theorem Coupled.inside_of_wait {office : Office} (coupled : office.Coupled)
    {t : Who} {c : CvName} {l : LockName}
    (waits : office.kernel.stack t = [.inWait c l .intOn]) :
    l ∈ office.locksOf t := by
  have blocking := coupled t (.wait c (some l)) (by rw [waits]; rfl)
  exact lock_mem_locksOf blocking rfl

theorem OwnersInside.step {setup : Setup} {d : Discipline}
    {office office' : Office} {move : Move} (wf : office.kernel.WellFormed)
    (unbribed : office.Unbribed) (coupled : office.Coupled)
    (inside : office.OwnersInside)
    (step : office.step setup d move = some office') : office'.OwnersInside := by
  intro t l owner
  cases unbribed.moves step with
  | silent rand pick after running runs =>
      rw [runs.kernel_eq] at owner
      have before := inside t l owner
      by_cases current : t = office.kernel.currentThread
      · subst current
        exact (runs.fits.1.left l before).resolve_right (by simp)
      · rwa [(runs.fits.2 t current).1]
  | call rand pick after op kernel running runs calls called =>
      rcases wf.lock_of_step called l with ⟨-, same⟩ | ⟨t', -, -, owner', taken⟩ |
        ⟨-, -, nobody, -⟩
      · have before := inside t l (same ▸ owner)
        by_cases current : t = office.kernel.currentThread
        · subst current
          rcases runs.fits.1.left l before with still | released
          · exact still
          · cases released
            exact absurd owner (wf.release_owner called)
        · exact (runs.fits.2 t current).1 ▸ before
      · obtain rfl : t' = t := by
          rw [owner] at owner'
          exact (Option.some.inj owner').symm
        rcases taken with ⟨rfl, same⟩ | ⟨c, waits⟩
        · cases same
          exact runs.fits.1.acquired l rfl
        · have current : t' ≠ office.kernel.currentThread := by
            rintro rfl
            rw [(wf.awake (.inl running)).2] at waits
            cases waits
          exact (runs.fits.2 t' current).1 ▸ coupled.inside_of_wait waits
      · rw [owner] at nobody
        cases nobody
  | system action kernel notCall stepped =>
      rcases wf.lock_of_step stepped l with ⟨-, same⟩ | ⟨t', -, -, owner', taken⟩ |
        ⟨-, -, nobody, -⟩
      · exact inside t l (same ▸ owner)
      · obtain rfl : t' = t := by
          rw [owner] at owner'
          exact (Option.some.inj owner').symm
        rcases taken with ⟨-, same⟩ | ⟨c, waits⟩
        · exact absurd same (notCall _)
        · exact coupled.inside_of_wait waits
      · rw [owner] at nobody
        cases nobody

/-! ### What holds in every run -/

/-- What no step breaks, where the locks were built in memory that names no
owner. -/
structure Consistent (office : Office) : Prop where
  wf : office.kernel.WellFormed
  blank : office.kernel.Blank
  owned : ∀ l, office.kernel.Owned l
  under : ∀ c, office.kernel.WaitsUnder c
  unbribed : office.Unbribed
  coupled : office.Coupled
  inside : office.OwnersInside

theorem Consistent.step {setup : Setup} {d : Discipline} {office office' : Office}
    {move : Move} (consistent : office.Consistent)
    (step : office.step setup d move = some office') : office'.Consistent := by
  obtain ⟨wf, blank, owned, under, unbribed, coupled, inside⟩ := consistent
  have kernel : office'.kernel.WellFormed ∧ office'.kernel.Blank ∧
      (∀ l, office'.kernel.Owned l) ∧ ∀ c, office'.kernel.WaitsUnder c := by
    cases unbribed.moves step with
    | silent rand pick after running runs =>
        rw [runs.kernel_eq]
        exact ⟨wf, blank, owned, under⟩
    | call rand pick after op kernel running runs calls called =>
        exact ⟨wf.step called, blank.step wf called,
          fun l => (owned l).step wf called, fun c => (under c).step wf.shaped called⟩
    | system action kernel notCall stepped =>
        exact ⟨wf.step stepped, blank.step wf stepped,
          fun l => (owned l).step wf stepped,
          fun c => (under c).step wf.shaped stepped⟩
  obtain ⟨wf', blank', owned', under'⟩ := kernel
  exact ⟨wf', blank', owned', under', unbribed.step step,
    coupled.step wf unbribed step, inside.step wf unbribed coupled step⟩

theorem boot_consistent {setup : Setup}
    (unowned : ∀ l, (setup.lockMemory l).owner = none) :
    (boot setup).Consistent where
  wf := boot_kernel_wellFormed setup
  blank := Kernel.boot_blank _ _ _ _
  owned l := by simp [Kernel.Owned, boot, Kernel.boot, Lock.construct, unowned]
  under c t l waits := by cases waits
  unbribed := boot_unbribed setup
  coupled := boot_coupled setup
  inside t l owner := by
    simp [boot, Kernel.boot, Lock.construct, unowned] at owner

/-! ### Threads inside have the lock -/

/-- Every thread inside lock `l` has it. -/
def HeldInside (l : LockName) (office : Office) : Prop :=
  ∀ t, l ∈ office.locksOf t → office.kernel.Has l t

def Holding (office : Office) : Prop :=
  ∀ l, office.HeldInside l

/-- No thread is given the CPU out of its `Sleep` in `Lock::Acquire`. -/
def NoSleeperResumes (setup : Setup) (office : Office) (move : Move) : Prop :=
  ∀ action, office.kernelAction setup move = some action →
    ∀ l, ¬ office.kernel.ResumesSleeper l action

/-- Whether a step gives the CPU to a sleeper of a lock. -/
def resumesSleeper (setup : Setup) (office : Office) (move : Move) : Bool :=
  match (office.kernelAction setup move).bind fun action =>
      (office.kernel.nextThread action).bind office.kernel.sleepsOn with
  | some (.lock _) => true
  | _ => false

theorem noSleeperResumes_iff (setup : Setup) (office : Office) (move : Move) :
    office.resumesSleeper setup move = false ↔ NoSleeperResumes setup office move := by
  unfold resumesSleeper NoSleeperResumes Kernel.ResumesSleeper
  cases office.kernelAction setup move with
  | none => simp
  | some action =>
      simp only [Option.bind_some, Option.some.injEq, forall_eq']
      cases (office.kernel.nextThread action).bind office.kernel.sleepsOn with
      | none => simp
      | some queue => cases queue <;> simp

/-- No `Wait` is refused because of the lock it is called with. -/
def NoWaitRefused (setup : Setup) (office : Office) (move : Move) : Prop :=
  ∀ c l, office.kernelAction setup move = some (.call (.wait c (some l))) →
    office.kernel.Accepts c l

/-- A step keeps the threads inside a lock in it, where a `Wait` with which a
thread gets in is not refused. -/
theorem HeldInside.step {setup : Setup} {d : Discipline} {office office' : Office}
    {move : Move} {l : LockName} (held : office.HeldInside l)
    (consistent : office.Consistent) (awake : NoSleeperResumes setup office move)
    (accepts : ∀ c, office.kernelAction setup move = some (.call (.wait c (some l))) →
      l ∈ office.locksOf office.kernel.currentThread ∨ office.kernel.Accepts c l)
    (step : office.step setup d move = some office') : office'.HeldInside l := by
  obtain ⟨wf, blank, owned, -, unbribed, -, -⟩ := consistent
  intro t inside
  cases unbribed.moves step with
  | silent rand pick after running runs =>
      rw [runs.kernel_eq]
      by_cases current : t = office.kernel.currentThread
      · subst current
        have before : l ∈ office.locksOf office.kernel.currentThread := by
          simpa using runs.fits.1.entered l inside
        exact held _ before
      · rw [(runs.fits.2 t current).1] at inside
        exact held t inside
  | call rand pick after op kernel running runs calls called =>
      have keeps : l ∈ office.locksOf t → kernel.Has l t ∨
          (t = office.kernel.currentThread ∧ op = .release l) := by
        intro before
        rcases Kernel.Has.step wf blank (owned l) (awake _ calls l) called
          (held t before) with has | ⟨current, same⟩
        · exact .inl has
        · cases same
          exact .inr ⟨current, rfl⟩
      by_cases current : t = office.kernel.currentThread
      · subst current
        have stays : l ∈ office.locksOf office.kernel.currentThread →
            kernel.Has l office.kernel.currentThread := by
          intro before
          rcases keeps before with has | ⟨-, rfl⟩
          · exact has
          · exact absurd inside (runs.fits.1.released l rfl)
        rcases runs.fits.1.entered l inside with before | same | ⟨c, same⟩
        · exact stays before
        · cases same
          exact wf.has_of_acquire called
        · cases same
          rcases accepts c calls with before | accepted
          · exact stays before
          · exact .inr ⟨_, wf.pending_wait called accepted, rfl⟩
      · have before : l ∈ office.locksOf t := (runs.fits.2 t current).1 ▸ inside
        exact (keeps before).resolve_right (fun both => current both.1)
  | system action kernel notCall stepped =>
      rcases Kernel.Has.step wf blank (owned l) (awake action rfl l) stepped
        (held t inside) with has | ⟨-, same⟩
      · exact has
      · exact absurd same (notCall _)

theorem Holding.step {setup : Setup} {d : Discipline} {office office' : Office}
    {move : Move} (consistent : office.Consistent) (holding : office.Holding)
    (awake : NoSleeperResumes setup office move)
    (accepts : NoWaitRefused setup office move)
    (step : office.step setup d move = some office') : office'.Holding :=
  fun l => (holding l).step consistent awake (fun c calls => .inr (accepts c l calls)) step

/-- Every other thread inside a lock of the running thread has yet to return
from the call it stands after. -/
theorem HeldInside.pending_of_other {office : Office} {l : LockName} {t : Who}
    (held : office.HeldInside l) (consistent : office.Consistent)
    (running : office.kernel.phase = .running)
    (mine : l ∈ office.locksOf office.kernel.currentThread)
    (inside : l ∈ office.locksOf t) (other : t ≠ office.kernel.currentThread) :
    ∃ op, pendingCall (office.kernel.stack t) = some op ∧
      office.blockingCall t = some op ∧ op.lock = some l := by
  have owner : (office.kernel.locks l).owner = some office.kernel.currentThread := by
    rcases held _ mine with owner | ⟨op, pending, -⟩
    · exact owner
    · exact absurd pending (pendingCall_current consistent.wf running op)
  rcases held t inside with owner' | ⟨op, pending, ends⟩
  · rw [owner, Option.some.injEq] at owner'
    exact absurd owner'.symm other
  · exact ⟨op, pending, consistent.coupled t op pending, ends⟩

/-- Only the picture clerk's break gets a thread into a lock by a `Wait`. -/
theorem Runs.inside_of_wait {setup : Setup} {rand pick : Nat} {office after : Office}
    {who : Who} {call : Option Call} {c : CvName} {l : LockName}
    (runs : Runs setup rand pick office who after call)
    (waits : call = some (.wait c (some l)))
    (other : ∀ i, l ≠ clerkLineLocks .picture i) : l ∈ office.locksOf who := by
  cases runs with
  | fork t rest pending | finish none | senator n => simp at waits
  | manager =>
      cases pc : office.manager with
      | enter m => simp [ManagerPc.step, pc] at waits
      | scan m i =>
          simp only [ManagerPc.step, pc] at waits
          split at waits
          · split at waits <;> simp at waits
          · simp at waits
  | clerk m k segment does =>
      cases does with
      | goOnPictureBreak pc nobody picture =>
          subst picture
          cases waits
          exact absurd rfl (other _)
      | await pc | awaitOpinion pc | awaitLeave pc =>
          cases waits
          simp [locksOf, Clerk.locks, pc]
      | _ => cases waits
  | customer n segment does =>
      cases does with
      | queueUp m i pc smallest busy =>
          cases waits
          simp [locksOf, Client.locks, pc]
      | await m i pc =>
          cases waits
          simp [locksOf, Client.locks, pc]
      | _ => cases waits

end Nachos.Office
