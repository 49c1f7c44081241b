/-
Module: Nachos.Office.System
Purpose: The passport office as one machine.  The thread that has the CPU runs
  a segment of its program and makes the call that ends it; every other step
  is one of the thread system.  The inversion lemmas say once what a step can
  do to the office, and every office run is a run of the thread system.
Trusted boundary: none
Main exports: Setup, Office, Office.program, Office.step, officeMachine,
  Office.boot, Office.step_cases, Office.kernel_exec
-/
import Nachos.Office.Programs
import Nachos.Threads.Scheduling

namespace Nachos.Office

/-- The answers to the menu of `Problem2`, and what the memory held in which
the locks, the conditions and `picturesTaken` were allocated. -/
structure Setup where
  numClerks : Kind → Nat
  numSenators : Nat
  numCustomers : Nat
  lockMemory : LockName → Lock Who
  conditionMemory : CvName → Condition Who LockName
  picturesTaken : Nat → Bool

/-- The threads in the order in which `Problem2` forks them. -/
def Setup.forks (setup : Setup) : List Who :=
  (List.range (setup.numClerks .application)).map (.clerk .application) ++
  (List.range (setup.numClerks .passport)).map (.clerk .passport) ++
  (List.range (setup.numClerks .picture)).map (.clerk .picture) ++
  (List.range (setup.numClerks .cashier)).map (.clerk .cashier) ++
  [.manager] ++
  (List.range setup.numSenators).map .senator ++
  (List.range setup.numCustomers).map .customer

theorem mem_forks_customer {setup : Setup} {n : Nat} :
    .customer n ∈ setup.forks ↔ n < setup.numCustomers := by
  simp [Setup.forks]

end Office

/-- The state of the whole simulation. -/
structure Office where
  kernel : Kernel Office.Who Empty Office.LockName Office.CvName
  desks : Office.Desks
  /-- `applicationClerkID`, `pictureClerkID`, `passportClerkID`, and the size
  of `cClerks` -/
  clerkID : Office.Kind → Nat
  ssnCount : Int
  clients : Nat → Office.Client
  clerks : Office.Kind → Nat → Office.Clerk
  manager : Office.ManagerPc
  /-- the forks that `Problem2` has still to make -/
  toFork : List Office.Who
  /-- newest remark first -/
  log : List Office.Remark

namespace Office

/-- What can happen next. -/
inductive Move where
  /-- the running thread runs its next segment, which may draw `rand` and may
  yield to the ready thread `pick` -/
  | exec (rand pick : Nat)
  /-- a step of the thread system that is not a call -/
  | system (action : Action Who Empty LockName CvName)
deriving DecidableEq, Repr

def createClerk (office : Office) (m : Kind) (n : Nat) : Kind → Nat :=
  if (office.clerks m n).pc = .create ∧ m ≠ .application then
    Function.update office.clerkID m (office.clerkID m + 1)
  else
    office.clerkID

def createCustomer (office : Office) (n : Nat) : Int :=
  if (office.clients n).pc = .create then office.ssnCount + 1
  else office.ssnCount

/-- The segment of thread `who`: the office after it, and the call in which
it ends.  The constructor of an application clerk does not return, so that
`applicationClerkID++` is not reached. -/
def program (setup : Setup) (rand pick : Nat) (office : Office) :
    Who → Option (Office × Option Call)
  | .main =>
      match office.toFork with
      | [] => some (office, some .finish)
      | t :: rest => some ({ office with toFork := rest }, some (.fork t))
  | .clerk m n =>
      let segment := (office.clerks m n).step m (office.clerkID m) rand pick
        office.desks
      some ({ office with
          clerks := Function.update office.clerks m
            (Function.update (office.clerks m) n segment.next)
          clerkID := office.createClerk m n
          desks := segment.desks
          log := segment.remarks ++ office.log }, segment.call)
  | .manager =>
      let segment := office.manager.step setup.numClerks office.desks
      some ({ office with
          manager := segment.next
          desks := segment.desks
          log := segment.remarks ++ office.log }, segment.call)
  | .senator _ => some (office, some .finish)
  | .customer n =>
      ((office.clients n).step setup.numClerks (office.createCustomer n) rand
        pick office.desks).map fun segment =>
          ({ office with
              clients := Function.update office.clients n segment.next
              ssnCount := office.createCustomer n
              desks := segment.desks
              log := segment.remarks ++ office.log }, segment.call)

def step (setup : Setup) (d : Discipline) (office : Office) :
    Move → Option Office
  | .exec rand pick =>
      if office.kernel.phase = .running then
        (office.program setup rand pick office.kernel.currentThread).bind
          fun (office', call) =>
            match call with
            | none => some office'
            | some op => (office.kernel.step d (.call op)).map fun kernel =>
                { office' with kernel := kernel }
      else none
  | .system (.call _) => none
  | .system action =>
      (office.kernel.step d action).map fun kernel =>
        { office with kernel := kernel }

/-- The office when `Problem2` has built the monitors. -/
def boot (setup : Setup) : Office where
  kernel := Kernel.boot .main Empty.elim setup.lockMemory setup.conditionMemory
  desks := fun _ i => .construct (setup.picturesTaken i)
  clerkID := fun _ => 0
  ssnCount := -1
  clients := fun _ => .fresh
  clerks := fun _ _ => .fresh
  manager := .enter .application
  toFork := setup.forks
  log := []

end Office

def officeMachine (setup : Office.Setup) (d : Discipline) :
    Lib.Machine Office Office.Move where
  step := Office.step setup d

namespace Office

/-! ### What a step can do -/

/-- A step is a segment of the running thread, with the call it ends in if it
ends in one, or a step of the thread system alone. -/
theorem step_cases {setup : Setup} {d : Discipline} {office office' : Office}
    {move : Move} (step : office.step setup d move = some office') :
    (∃ rand pick after call, move = .exec rand pick ∧
      office.kernel.phase = .running ∧
      office.program setup rand pick office.kernel.currentThread =
        some (after, call) ∧
      ((call = none ∧ office' = after) ∨
        ∃ op kernel, call = some op ∧
          office.kernel.step d (.call op) = some kernel ∧
          office' = { after with kernel := kernel })) ∨
    (∃ action kernel, move = .system action ∧ (∀ op, action ≠ .call op) ∧
      office.kernel.step d action = some kernel ∧
      office' = { office with kernel := kernel }) := by
  cases move with
  | exec rand pick =>
      left
      simp only [Office.step] at step
      split at step
      · rename_i running
        obtain ⟨⟨after, call⟩, ran, rest⟩ := Option.bind_eq_some_iff.mp step
        refine ⟨rand, pick, after, call, rfl, running, ran, ?_⟩
        cases call with
        | none => exact .inl ⟨rfl, (Option.some.inj rest).symm⟩
        | some op =>
            obtain ⟨kernel, called, same⟩ := Option.map_eq_some_iff.mp rest
            exact .inr ⟨op, kernel, rfl, called, same.symm⟩
      · cases step
  | system action =>
      right
      cases action with
      | call op => cases step
      | _ =>
          obtain ⟨kernel, stepped, same⟩ := Option.map_eq_some_iff.mp step
          exact ⟨_, kernel, rfl, by simp, stepped, same.symm⟩

/-- A program does not touch the thread system. -/
theorem program_kernel {setup : Setup} {rand pick : Nat} {office after : Office}
    {who : Who} {call : Option Call}
    (ran : office.program setup rand pick who = some (after, call)) :
    after.kernel = office.kernel := by
  cases who with
  | main =>
      simp only [program] at ran
      split at ran <;> cases ran <;> rfl
  | clerk m n =>
      cases ran
      rfl
  | manager =>
      cases ran
      rfl
  | senator n =>
      cases ran
      rfl
  | customer n =>
      obtain ⟨segment, -, same⟩ := Option.map_eq_some_iff.mp ran
      cases same
      rfl

/-- Every office run is a run of the thread system. -/
theorem kernel_exec {setup : Setup} {d : Discipline} {office office' : Office}
    {moves : List Move}
    (run : (officeMachine setup d).exec office moves = some office') :
    ∃ actions, (kernelMachine d).exec office.kernel actions =
      some office'.kernel := by
  refine Lib.Machine.exec_of_simulation ?_ run
  intro before move after step
  rcases step_cases step with ⟨rand, pick, mid, call, -, -, ran, ends⟩ |
    ⟨action, kernel, -, -, stepped, rfl⟩
  · rcases ends with ⟨-, rfl⟩ | ⟨op, kernel, -, called, rfl⟩
    · exact .inl (program_kernel ran)
    · exact .inr ⟨.call op, called⟩
  · exact .inr ⟨action, stepped⟩

theorem boot_kernel_wellFormed (setup : Setup) :
    (boot setup).kernel.WellFormed :=
  Kernel.boot_wellFormed _ _ _ _

/-- The threads of the office are in their places in every state. -/
theorem wellFormed_exec {setup : Setup} {d : Discipline} {office : Office}
    {moves : List Move}
    (run : (officeMachine setup d).exec (boot setup) moves = some office) :
    office.kernel.WellFormed := by
  obtain ⟨actions, kernelRun⟩ := kernel_exec run
  exact Nachos.wellFormed_exec (boot_kernel_wellFormed setup) kernelRun

/-- An invariant of the office, its kernel being well-formed, holds at the end
of every run. -/
theorem invariant_exec {setup : Setup} {d : Discipline} {I : Office → Prop}
    (preserved : ∀ office move office', office.kernel.WellFormed → I office →
      office.step setup d move = some office' → I office')
    {office : Office} {moves : List Move} (start : I (boot setup))
    (run : (officeMachine setup d).exec (boot setup) moves = some office) :
    I office := by
  have both : office.kernel.WellFormed ∧ I office := by
    refine Lib.Machine.invariant (I := fun o : Office => o.kernel.WellFormed ∧ I o)
      ?_ ⟨boot_kernel_wellFormed setup, start⟩ run
    intro before move after invariant step
    refine ⟨?_, preserved before move after invariant.1 invariant.2 step⟩
    rcases step_cases step with ⟨rand, pick, mid, call, -, -, ran, ends⟩ |
      ⟨action, kernel, -, -, stepped, rfl⟩
    · rcases ends with ⟨-, rfl⟩ | ⟨op, kernel, -, called, rfl⟩
      · rw [program_kernel ran]
        exact invariant.1
      · exact invariant.1.step called
    · exact invariant.1.step stepped
  exact both.2

/-! ### Who runs -/

/-- Every thread that is known was forked by `Problem2`, or is its own. -/
structure Forked (setup : Setup) (office : Office) : Prop where
  known : ∀ t, office.kernel.Known t → t = .main ∨ t ∈ setup.forks
  toFork : ∀ t ∈ office.toFork, t ∈ setup.forks

/-- Only `Problem2` forks, and it takes the next thread of its list. -/
theorem program_fork {setup : Setup} {rand pick : Nat} {office after : Office}
    {who : Who} {call : Option Call}
    (ran : office.program setup rand pick who = some (after, call)) :
    (∀ t ∈ after.toFork, t ∈ office.toFork) ∧
    ∀ t, call = some (.fork t) → t ∈ office.toFork := by
  cases who with
  | main =>
      simp only [program] at ran
      split at ran
      · cases ran
        exact ⟨fun t member => member, by simp⟩
      · rename_i first rest pending
        cases ran
        rw [pending]
        exact ⟨fun t member => List.mem_cons_of_mem _ member, by simp⟩
  | clerk m n =>
      cases ran
      refine ⟨fun t member => member, fun t forks => ?_⟩
      exact absurd forks (Clerk.step_call_ne_fork m _ rand pick office.desks _ t)
  | manager =>
      cases ran
      refine ⟨fun t member => member, fun t forks => ?_⟩
      exact absurd forks (ManagerPc.step_call_ne_fork setup.numClerks office.desks _ t)
  | senator n =>
      cases ran
      exact ⟨fun t member => member, by simp⟩
  | customer n =>
      obtain ⟨segment, stepped, same⟩ := Option.map_eq_some_iff.mp ran
      cases same
      refine ⟨fun t member => member, fun t forks => ?_⟩
      exact absurd forks (Client.step_call_ne_fork stepped t)

theorem Forked.step {setup : Setup} {d : Discipline} {office office' : Office}
    {move : Move} (wf : office.kernel.WellFormed) (forked : office.Forked setup)
    (step : office.step setup d move = some office') : office'.Forked setup := by
  rcases step_cases step with ⟨rand, pick, mid, call, -, -, ran, ends⟩ |
    ⟨action, kernel, -, notCall, stepped, rfl⟩
  · obtain ⟨pending, forks⟩ := program_fork ran
    rcases ends with ⟨-, rfl⟩ | ⟨op, kernel, rfl, called, rfl⟩
    · refine ⟨?_, fun t member => forked.toFork t (pending t member)⟩
      rw [program_kernel ran]
      exact forked.known
    · refine ⟨fun t known => ?_, fun t member => forked.toFork t (pending t member)⟩
      rcases wf.known_of_step called known with before | fork
      · exact forked.known t before
      · cases fork
        exact .inr (forked.toFork t (forks t rfl))
  · refine ⟨fun t known => ?_, forked.toFork⟩
    rcases wf.known_of_step stepped known with before | fork
    · exact forked.known t before
    · exact absurd fork (notCall _)

theorem boot_forked (setup : Setup) : (boot setup).Forked setup where
  known t known := by
    left
    by_contra other
    refine known ?_
    simp [boot, Kernel.boot, other]
  toFork _ member := member

/-- The thread that has the CPU is one of those that `Problem2` forks. -/
theorem Forked.current {setup : Setup} {office : Office}
    (forked : office.Forked setup) (wf : office.kernel.WellFormed)
    (running : office.kernel.phase = .running) :
    office.kernel.currentThread = .main ∨
      office.kernel.currentThread ∈ setup.forks := by
  refine forked.known _ ?_
  rw [Kernel.Known, (wf.awake (.inl running)).1]
  simp

theorem mem_forks_clerk {setup : Setup} {m : Kind} {n : Nat} :
    .clerk m n ∈ setup.forks ↔ n < setup.numClerks m := by
  cases m <;> simp [Setup.forks]

/-! ### A schedule -/

/-- An office with one clerk, built in cleared memory. -/
def oneClerk (kind : Kind) (numCustomers : Nat) : Setup where
  numClerks := fun m => if m = kind then 1 else 0
  numSenators := 0
  numCustomers := numCustomers
  lockMemory := fun _ => ⟨false, none, []⟩
  conditionMemory := fun _ => ⟨[], none⟩
  picturesTaken := fun _ => false

/-- The running thread runs segments that end in calls, and goes on. -/
def calls (n : Nat) : List Move :=
  (List.replicate n [Move.exec 0 0, .system .endTick]).flatten

/-- Time slices in which nobody gets anywhere. -/
def slices (n : Nat) : List Move :=
  List.replicate n (.system (.timeSlice 0))

/-- The CPU goes round for `n` time slices and stays where it is then. -/
def pass (n : Nat) : List Move :=
  slices n ++ [.system .endTick]

/-- The CPU goes to the manager, which is first on the ready list, and from
there to the next thread. -/
def pastManager : List Move :=
  .system (.dispatch 0) :: pass 1

/-- An application clerk and the only customer meet: the clerk goes on its break, the
customer walks up to the counter, the clerk works for it and reports, and the
customer is about to take note of that. -/
def oneVisit : List Move := List.flatten [
  -- `Problem2` forks the clerk, the manager and the customer
  calls 3, [.exec 0 0, .system (.dispatch 0), .system .endTick],
  -- the clerk starts, goes on its break and waits at the counter
  [.exec 0 0], calls 3, [.exec 0 0], pastManager,
  -- the customer starts, chooses the line, and waits at the counter
  [.exec 0 0, .exec 0 0], calls 1, [.exec 0 0], calls 3, [.exec 0 0], pastManager,
  -- the clerk yields 20 times, reports, and waits for the customer to leave
  [.exec 0 0], (List.replicate 20 (.exec 0 0 :: pass 1)).flatten,
  calls 1, [.exec 0 0], pastManager]

end Office

end Nachos
