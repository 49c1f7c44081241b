/-
Module: Nachos.Office.Breaks
Purpose: Owners of the monitor locks do not sleep in a `Wait` that leaves
  their monitor closed, except for picture clerks: the break of
  `PictureClerk::run` waits under the lock of the line while the clerk has the
  lock of the monitor.  The owners stay awake along a run exactly when no
  picture clerk goes on such a break in it.
Trusted boundary: none
Main exports: AsleepInWait, OwnersAwake, BreaksInside, owners_awake_iff,
  picture_clerk_sleeps_in_monitor
-/
import Nachos.Office.Locking

namespace Nachos.Office

open LockName CvName

/-- `t` is asleep in a `Wait` that was called with `l`. -/
def AsleepInWait (office : Office) (t : Who) (l : LockName) : Prop :=
  office.kernel.status t = .blocked ∧
    ∃ c, pendingCall (office.kernel.stack t) = some (.wait c (some l) : Call)

/-- No owner of a monitor lock is asleep in a `Wait` that does not release
it. -/
def OwnersAwake (office : Office) : Prop :=
  ∀ m t, (office.kernel.locks (monitorLock m)).owner = some t →
    ∀ l, office.AsleepInWait t l → l = monitorLock m

/-- A picture clerk that owns its monitor finds nobody in its lines, and its
`Wait` under the lock of the line is accepted. -/
def BreaksInside (office : Office) : Move → Prop
  | .exec _ _ =>
      match office.kernel.currentThread with
      | .clerk .picture n =>
          let clerk := office.clerks .picture n
          clerk.pc = .look ∧
          ¬ (office.desks .picture clerk.myLine).clerkBribeLineCount > 0 ∧
          ¬ (office.desks .picture clerk.myLine).clerkLineCount > 0 ∧
          (office.kernel.locks (monitorLock .picture)).owner =
            some (.clerk .picture n) ∧
          office.kernel.Accepts (clerkLineCV .picture clerk.myLine)
            (clerkLineLocks .picture clerk.myLine)
      | _ => False
  | .system _ => False

/-! ### One step -/

/-- The owners of monitor locks are in no `Wait` under another lock. -/
def OwnersOut (office : Office) : Prop :=
  ∀ m t, (office.kernel.locks (monitorLock m)).owner = some t →
    ∀ c l, pendingCall (office.kernel.stack t) = some (.wait c (some l) : Call) →
      l = monitorLock m

theorem OwnersOut.ownersAwake {office : Office} (out : office.OwnersOut) :
    office.OwnersAwake := by
  rintro m t owner l ⟨-, c, pending⟩
  exact out m t owner c l pending

/-- The only `Wait` inside a monitor under another lock is the one of the
picture clerk's break. -/
theorem Runs.wait_inside {setup : Setup} {rand pick : Nat} {office after : Office}
    {who : Who} {c : CvName} {l : LockName} {m : Kind}
    (runs : Runs setup rand pick office who after (some (.wait c (some l))))
    (inside : monitorLock m ∈ office.locksOf who) (other : l ≠ monitorLock m) :
    ∃ n, who = .clerk .picture n ∧ (office.clerks .picture n).pc = .look ∧
      ¬ 0 < (office.desks .picture (office.clerks .picture n).myLine).clerkLineCount ∧
      c = clerkLineCV .picture (office.clerks .picture n).myLine ∧
      l = clerkLineLocks .picture (office.clerks .picture n).myLine := by
  generalize ended : some (Op.wait c (some l)) = call at runs
  cases runs with
  | fork t rest pending => cases ended
  | finish none => cases ended
  | senator n => cases ended
  | manager =>
      cases pc : office.manager with
      | enter m' => simp [pc, ManagerPc.step] at ended
      | scan m' i =>
          simp only [pc, ManagerPc.step] at ended
          split at ended
          · split at ended <;> cases ended
          · cases ended
  | clerk m' n segment does =>
      cases does with
      | goOnPictureBreak pc nobody picture =>
          subst picture
          cases ended
          exact ⟨n, rfl, pc, nobody, rfl, rfl⟩
      | await pc => simp [locksOf, Clerk.locks, pc] at inside
      | awaitOpinion pc => simp [locksOf, Clerk.locks, pc] at inside
      | awaitLeave pc => simp [locksOf, Clerk.locks, pc] at inside
      | _ => cases ended
  | customer n segment does =>
      cases does with
      | queueUp m' i pc smallest busy =>
          cases ended
          simp only [locksOf, Client.locks, pc, List.mem_singleton] at inside
          exact absurd inside.symm other
      | await m' i pc => simp [locksOf, Client.locks, pc] at inside
      | _ => cases ended

theorem OwnersOut.step {setup : Setup} {d : Discipline} {office office' : Office}
    {move : Move} (consistent : office.Consistent) (out : office.OwnersOut)
    (noBreak : ¬ office.BreaksInside move)
    (step : office.step setup d move = some office') : office'.OwnersOut := by
  obtain ⟨wf, -, -, -, unbribed, coupled, inside⟩ := consistent
  -- a thread that was in its call before the step
  have before : ∀ {k' : Kernel Who Empty LockName CvName}
      {action : Action Who Empty LockName CvName} {m t c l},
      office.kernel.step d action = some k' →
      (k'.locks (monitorLock m)).owner = some t →
      pendingCall (office.kernel.stack t) = some (.wait c (some l) : Call) →
      (t = office.kernel.currentThread → action ≠ .call (.acquire (monitorLock m))) →
      l = monitorLock m := by
    intro k' action m t c l stepped owner pending notAcquire
    rcases wf.lock_of_step stepped (monitorLock m) with ⟨-, same⟩ |
      ⟨t', -, -, owner', taken⟩ | ⟨-, -, nobody, -⟩
    · exact out m t (same ▸ owner) c l pending
    · obtain rfl : t' = t := by
        rw [owner] at owner'
        exact (Option.some.inj owner').symm
      rcases taken with ⟨current, called⟩ | ⟨c', waits⟩
      · exact absurd called (notAcquire current)
      · rw [waits] at pending
        cases pending
        rfl
    · rw [owner] at nobody
      cases nobody
  intro m t owner c l pending
  cases unbribed.moves step with
  | silent rand pick after running runs =>
      rw [runs.kernel_eq] at owner pending
      exact out m t owner c l pending
  | call rand pick after op kernel running runs calls called =>
      rcases wf.pending_of_step called pending with already | ⟨rfl, same⟩
      · refine before called owner already ?_
        rintro rfl
        exact absurd already (pendingCall_current wf running _)
      · cases same
        by_contra other
        have owned : (office.kernel.locks (monitorLock m)).owner =
            some office.kernel.currentThread := by
          rcases wf.lock_of_step called (monitorLock m) with ⟨-, same⟩ |
            ⟨t', -, -, owner', taken⟩ | ⟨-, -, nobody, -⟩
          · exact same ▸ owner
          · obtain rfl : t' = office.kernel.currentThread := by
              rw [owner] at owner'
              exact (Option.some.inj owner').symm
            rcases taken with ⟨-, called⟩ | ⟨c', waits⟩
            · cases called
            · rw [(wf.awake (.inl running)).2] at waits
              cases waits
          · rw [owner] at nobody
            cases nobody
        obtain ⟨n, who, pc, nobody, rfl, rfl⟩ :=
          runs.wait_inside (inside _ _ owned) other
        apply noBreak
        simp only [BreaksInside, who]
        have monitor : m = .picture := by
          have member := inside _ _ owned
          simpa [who, locksOf, Clerk.locks, pc] using member
        subst monitor
        refine ⟨pc, ?_, nobody, who ▸ owned, wf.accepts_of_pending called pending⟩
        rw [(unbribed.desks .picture _).lineCount]
        simp
  | system action kernel notCall stepped =>
      rcases wf.pending_of_step stepped pending with already | ⟨-, same⟩
      · exact before stepped owner already (fun _ => notCall _)
      · exact absurd same (notCall _)

/-- A picture clerk that finds nobody waits under the lock of its line. -/
theorem Runs.picture_break {setup : Setup} {rand pick n : Nat}
    {office after : Office} {call : Option Call}
    (runs : Runs setup rand pick office (.clerk .picture n) after call)
    (pc : (office.clerks .picture n).pc = .look)
    (nobody : ¬ 0 < (office.desks .picture
      (office.clerks .picture n).myLine).clerkLineCount) :
    call = some (.wait (clerkLineCV .picture (office.clerks .picture n).myLine)
      (some (clerkLineLocks .picture (office.clerks .picture n).myLine))) := by
  cases runs with
  | clerk m n segment does =>
      cases does with
      | callCustomer pc filled => exact absurd filled nobody
      | goOnBreak pc nobody other => exact absurd rfl other
      | goOnPictureBreak pc nobody picture => rfl
      | startWork n pc' passes => simp [pc] at pc'
      | present pc' picture => simp [pc] at pc'
      | create pc' | enter pc' | markBusy pc' | takeLine pc' | openMonitor pc'
      | await pc' | refuse pc' | awaitOpinion pc' | yield _ pc' | finishWork pc'
      | finishPicture pc' | awaitLeave pc' | close pc' => simp [pc] at pc'

/-- An accepted `Wait` under the lock of a line leaves the monitor with its
owner. -/
theorem owner_of_wait {d : Discipline} {k k' : Kernel Who Empty LockName CvName}
    {c : CvName} {l l' : LockName} {t : Who} (wf : k.WellFormed)
    (owned : k.Owned l) (other : l' ≠ l)
    (step : k.step d (.call (.wait c (some l'))) = some k')
    (owner : (k.locks l).owner = some t) : (k'.locks l).owner = some t := by
  rcases wf.lock_of_step step l with ⟨-, same⟩ | ⟨t', free, -⟩ |
    ⟨-, -, -, released | ⟨c', waited, -⟩⟩
  · rw [same, owner]
  · rw [Kernel.Owned, owner, free] at owned
    cases owned
  · cases released
  · cases waited
    exact absurd rfl other

theorem Consistent.break_sleeps {setup : Setup} {d : Discipline}
    {office office' : Office} {move : Move} (consistent : office.Consistent)
    (breaks : office.BreaksInside move)
    (step : office.step setup d move = some office') : ¬ office'.OwnersAwake := by
  obtain ⟨wf, -, owned, -, unbribed, -, -⟩ := consistent
  intro awake
  cases unbribed.moves step with
  | system action kernel notCall stepped => exact breaks
  | silent rand pick after running runs =>
      simp only [BreaksInside] at breaks
      split at breaks
      · rename_i n who
        rw [who] at runs
        exact absurd (runs.picture_break breaks.1 breaks.2.2.1) (by simp)
      · exact breaks
  | call rand pick after op kernel running runs calls called =>
      simp only [BreaksInside] at breaks
      split at breaks
      · rename_i n who
        obtain ⟨pc, -, nobody, owner, accepted⟩ := breaks
        rw [who] at runs
        have waits := Option.some.inj (runs.picture_break pc nobody)
        subst waits
        have pending := wf.pending_wait called accepted
        have asleep : Who.clerk .picture n ∈ (kernel.conditions
            (clerkLineCV .picture (office.clerks .picture n).myLine)).waitQueue := by
          rw [wf.condition_of_step called]
          simp [Kernel.conditionAfter, accepted, who]
        have blocked := ((wf.step called).asleep_in_wait asleep).1
        have still := owner_of_wait wf (owned _) (by simp) called owner
        rw [who] at pending
        have same := awake .picture _ still _ ⟨blocked, _, pending⟩
        cases same
      · exact breaks

/-- Where the locks were built in memory that names no owner: in every run, no
owner of a monitor lock is ever asleep in a `Wait` that does not release it,
exactly when no picture clerk that owns its monitor goes on its break, its
`Wait` being accepted. -/
theorem owners_awake_iff {setup : Setup} {d : Discipline} {office : Office}
    {moves : List Move} (unowned : ∀ l, (setup.lockMemory l).owner = none)
    (run : (officeMachine setup d).exec (boot setup) moves = some office) :
    (officeMachine setup d).Along OwnersAwake (boot setup) moves ↔
      (officeMachine setup d).Steps (fun office move => ¬ office.BreaksInside move)
        (boot setup) moves := by
  refine Lib.Machine.along_iff_steps
    (I := fun office => office.Consistent ∧ office.OwnersOut)
    (A := fun _ _ => True) ?_ (fun _ both => both.2.ownersAwake) ?_
    ⟨boot_consistent unowned, fun m t owner c l pending => by cases pending⟩
    (Lib.Machine.steps_true _ _) run
  · rintro before move after ⟨consistent, out⟩ - noBreak step
    exact ⟨consistent.step step, out.step consistent noBreak step⟩
  · rintro before move after ⟨consistent, -⟩ - breaks step
    exact consistent.break_sleeps (not_not.mp breaks) step

instance (office : Office) : (move : Move) → Decidable (office.BreaksInside move)
  | .system _ => inferInstanceAs (Decidable False)
  | .exec _ _ => by
      dsimp only [BreaksInside]
      refine Who.casesOn office.kernel.currentThread inferInstance
        (fun m _ => ?_) inferInstance (fun _ => inferInstance) fun _ => inferInstance
      refine Kind.casesOn m ?_ ?_ ?_ ?_ <;> dsimp only <;> infer_instance

/-- An application clerk leaves its monitor open while it waits. -/
theorem owners_awake_along_visit :
    ∃ office,
      (officeMachine (oneClerk .application 1) .fifo).exec
        (boot (oneClerk .application 1)) oneVisit = some office ∧
      (officeMachine (oneClerk .application 1) .fifo).Along OwnersAwake
        (boot (oneClerk .application 1)) oneVisit := by
  obtain ⟨office, run⟩ := Option.isSome_iff_exists.mp
    (show ((officeMachine (oneClerk .application 1) .fifo).exec
      (boot (oneClerk .application 1)) oneVisit).isSome = true by decide +kernel)
  exact ⟨office, run, (owners_awake_iff (fun _ => rfl) run).mpr (by decide +kernel)⟩

/-- `Problem2` forks a picture clerk, the manager and a customer, and the
clerk goes on its break. -/
def pictureBreak : List Move := List.flatten [
  calls 3, [.exec 0 0, .system (.dispatch 0), .system .endTick, .exec 0 0], calls 1,
  [.exec 0 0]]

/-- The only picture clerk is then asleep and has the lock of its monitor. -/
theorem picture_clerk_sleeps_in_monitor :
    ∃ office,
      (officeMachine (oneClerk .picture 1) .fifo).exec
        (boot (oneClerk .picture 1)) pictureBreak = some office ∧
      (office.kernel.locks (monitorLock .picture)).owner = some (.clerk .picture 0) ∧
      office.AsleepInWait (.clerk .picture 0) (clerkLineLocks .picture 0) ∧
      ¬ office.OwnersAwake := by
  obtain ⟨office, run, ends⟩ : ∃ office,
      (officeMachine (oneClerk .picture 1) .fifo).exec
        (boot (oneClerk .picture 1)) pictureBreak = some office ∧
      ((office.kernel.locks (monitorLock .picture)).owner,
        office.kernel.status (.clerk .picture 0),
        pendingCall (office.kernel.stack (.clerk .picture 0))) =
      (some (.clerk .picture 0), .blocked,
        some (.wait (clerkLineCV .picture 0) (some (clerkLineLocks .picture 0)) : Call)) :=
    Option.map_eq_some_iff.mp (by decide +kernel)
  simp only [Prod.mk.injEq] at ends
  obtain ⟨owner, blocked, pending⟩ := ends
  have asleep : office.AsleepInWait (.clerk .picture 0) (clerkLineLocks .picture 0) :=
    ⟨blocked, _, pending⟩
  refine ⟨office, run, owner, asleep, fun awake => ?_⟩
  cases awake .picture _ owner _ asleep

end Nachos.Office
