/-
Module: Nachos.Office.Visits
Purpose: The two sides of a visit.  A customer that walks up to an idle clerk
  is in no queue, so that the clerk works for nobody or for somebody else, and
  every customer prints that it is leaving at the end of each pass of its
  loop.  Where only customers that have got in line are served and no clerk
  looks at its line before it is done with the customer it has called, what the
  customer records, what the clerk has done and what the clerk tests agree in
  every pass of the loop.
Trusted boundary: none
Main exports: RecordsAgree, TestsOwn, ReportsAgree, InStep, visits_agree,
  idle_visit_disagrees
-/
import Nachos.Office.Serving

namespace Nachos.Office

open LockName CvName

/-! ### What agreement means -/

/-- A record agrees with the clerk's work. -/
def Remark.RecordAgrees : Remark → List Remark → Prop
  | .records ssn m i, earlier => VisitAgrees ssn m i earlier
  | _, _ => True

/-- Whatever a customer has recorded, the clerk of its line had done its work for
it since the customer chose the line. -/
def RecordsAgree (office : Office) : Prop :=
  Follows Remark.RecordAgrees office.log

/-- Whether the passport clerk or the cashier goes to work. -/
def Clerk.accepts (m : Kind) (desk : Desk) (clerk : Clerk) : Bool :=
  match m with
  | .passport => !(lacksReqs desk clerk.bribed).1
  | .cashier => (isCertified desk clerk.bribed).1
  | _ => true

/-- Clerk `k` has called customer `n`, which is in its line; the front of the
queue is what this customer has, and decides. -/
structure TestsOf (office : Office) (m : Kind) (k n : Nat) : Prop where
  called : (office.clerks m k).frontSSN = some (office.clients n).ssn
  inLine : office.InLine m (office.clerks m k).myLine n
  front : (office.desks m (office.clerks m k).myLine).reqs.head? =
    some ((office.clients n).requirement m)
  decides : (office.clerks m k).accepts m (office.desks m (office.clerks m k).myLine) =
    (office.clients n).requirement m

/-- When the passport clerk or the cashier makes its test, it tests the
requirement of the customer that it has called. -/
def TestsOwn (office : Office) : Move → Prop
  | .exec _ _ =>
      match office.kernel.currentThread with
      | .clerk m k =>
          m = .passport ∨ m = .cashier → (office.clerks m k).pc = .serve →
            ∃ n, office.TestsOf m k n
      | _ => True
  | .system _ => True

/-- When a customer is about to take note of the result, it has what was asked
for exactly when the clerk has done its work for it. -/
def ReportsAgree (office : Office) : Move → Prop
  | .exec _ _ =>
      match office.kernel.currentThread with
      | .customer n =>
          office.kernel.phase = .running →
          ∀ m i, m ≠ .picture → (office.clients n).pc = .join m (.served i) →
            ((office.clients n).requirement m = true ↔
              VisitAgrees (office.clients n).ssn m i office.log)
      | _ => True
  | .system _ => True

/-! ### When the two sides agree -/

/-- Only customers that have got in line are served. -/
def CustomerInStep (office : Office) (n : Nat) : Prop :=
  match (office.clients n).pc with
  | .join m (.served i) => m ≠ .picture → office.InLine m i n
  | _ => True

/-- A clerk looks at its line while everybody in it is asleep there, and makes its
test for somebody that it has called. -/
def ClerkInStep (setup : Setup) (office : Office) (m : Kind) (k : Nat) : Prop :=
  m ≠ .picture →
    match (office.clerks m k).pc with
    | .look =>
        ∀ n < setup.numCustomers, office.InLine m (office.clerks m k).myLine n →
          .customer n ∈ (office.kernel.conditions
            (clerkLineCV m (office.clerks m k).myLine)).waitQueue
    | .serve => m ≠ .application → (office.clerks m k).frontSSN ≠ none
    | _ => True

def ThreadInStep (setup : Setup) (office : Office) : Move → Prop
  | .exec _ _ =>
      match office.kernel.currentThread with
      | .customer n => office.CustomerInStep n
      | .clerk m k => office.ClerkInStep setup m k
      | _ => True
  | .system _ => True

/-- No `Wait` in a line is refused. -/
def LineWaits (setup : Setup) (office : Office) (move : Move) : Prop :=
  ∀ m i, m ≠ .picture → office.kernelAction setup move =
      some (.call (.wait (clerkLineCV m i) (some (monitorLock m)))) →
    office.kernel.Accepts (clerkLineCV m i) (monitorLock m)

/-- What the agreement rests on, in one step. -/
structure InStep (setup : Setup) (office : Office) (move : Move) : Prop where
  noSleeper : NoSleeperResumes setup office move
  lineWaits : LineWaits setup office move
  threads : ThreadInStep setup office move

/-! ### Records -/

theorem Follows.append {P : Remark → List Remark → Prop} {remarks log : List Remark}
    (follows : Follows P log)
    (easy : ∀ remark ∈ remarks, ∀ earlier, P remark earlier) :
    Follows P (remarks ++ log) := by
  induction remarks with
  | nil => exact follows
  | cons remark remarks inductionHypothesis =>
      exact ⟨easy remark (by simp) _,
        inductionHypothesis fun r member => easy r (by simp [member])⟩

theorem Silent.recordAgrees {remarks : List Remark} (silent : Silent remarks) :
    ∀ remark ∈ remarks, ∀ earlier, remark.RecordAgrees earlier := by
  intro remark member earlier
  obtain rfl := silent remark member
  trivial

theorem RecordsAgree.clerk {office : Office} {m : Kind} {k pick : Nat}
    {segment : Segment Clerk} (agree : office.RecordsAgree)
    (does : (office.clerks m k).Does m (office.clerkID m) pick office.desks segment) :
    (office.afterClerk m k segment).RecordsAgree := by
  refine Follows.append agree ?_
  rcases does.remarks with silent | ⟨-, same⟩
  · exact silent.recordAgrees
  · intro remark member earlier
    rw [same, List.mem_singleton] at member
    subst member
    trivial

/-- A customer that sets one of its flags has what the clerk asks for. -/
theorem Client.Satisfied.requirement {m : Kind} {rand : Nat} {c : Client}
    (satisfied : c.Satisfied m rand) : c.requirement m = true := by
  cases m with
  | passport | cashier => exact satisfied
  | application | picture => rfl

theorem RecordsAgree.customer {setup : Setup} {office : Office} {n rand pick : Nat}
    {segment : Segment Client} (agree : office.RecordsAgree)
    (does : (office.clients n).Does setup.numClerks (office.createCustomer n) rand pick
      office.desks segment)
    (reports : ∀ m i, m ≠ .picture → (office.clients n).pc = .join m (.served i) →
      ((office.clients n).requirement m = true ↔
        VisitAgrees (office.clients n).ssn m i office.log)) :
    (office.afterClient n segment).RecordsAgree := by
  have silent : ∀ m i, Silent (Client.quit m (office.desks m i)).2 :=
    fun m i => Client.silent_quit m _
  cases does with
  | served m i pc satisfied =>
      have popped := Follows.append agree (silent m i).recordAgrees
      rw [RecordsAgree, afterClient_log, List.append_assoc]
      unfold Client.recorded
      split
      · exact popped
      · rename_i other
        rw [List.singleton_append]
        refine ⟨?_, popped⟩
        have works := (reports m i other pc).mp satisfied.requirement
        refine (visitAgrees_append fun remark member touches => ?_).mpr works
        obtain rfl := silent m i remark member
        exact touches
  | tooSoon m i j pc checked unsatisfied =>
      exact Follows.append agree (silent m i).recordAgrees
  | _ =>
      refine Follows.append agree fun remark member earlier => ?_
      cases remark with
      | records ssn m i => simp at member
      | _ => trivial

/-! ### What holds in every run -/

/-- Only customers that `Problem2` forks have started. -/
def Bounded (setup : Setup) (office : Office) : Prop :=
  ∀ n, (office.clients n).pc ≠ .create → n < setup.numCustomers

/-- What holds in every state of a run whose steps are in step. -/
structure Concerted (setup : Setup) (office : Office) : Prop where
  consistent : office.Consistent
  forked : office.Forked setup
  bounded : office.Bounded setup
  registered : office.Registered
  held : ∀ l, (∀ i, l ≠ clerkLineLocks .picture i) → office.HeldInside l
  lines : ∀ m i, m ≠ .picture → office.LineInOrder m i
  records : office.RecordsAgree

section

variable {setup : Setup} {d : Discipline} {office office' after : Office} {move : Move}
variable {rand pick : Nat} {call : Option Call}
variable {kernel : Kernel Who Empty LockName CvName}

theorem boot_concerted (unowned : ∀ l, (setup.lockMemory l).owner = none) :
    (boot setup).Concerted setup where
  consistent := boot_consistent unowned
  forked := boot_forked setup
  bounded n started := absurd rfl started
  registered := boot_registered setup
  held l _ t inside := by cases t <;> cases inside
  lines m i other := by
    refine ⟨none, [], ⟨.boot setup m i, rfl, fun _ => rfl, rfl, by simp, fun _ => ?_, by simp,
      by simp⟩, .nobody fun k attends => attends.2.1 rfl⟩
    simp [boot, Kernel.boot, Condition.construct]
  records := trivial

theorem Concerted.held_monitor (concerted : office.Concerted setup) (m : Kind) :
    office.HeldInside (monitorLock m) :=
  concerted.held _ fun _ => by simp

theorem Concerted.held_counter (concerted : office.Concerted setup) {m : Kind}
    (other : m ≠ .picture) (i : Nat) : office.HeldInside (clerkLineLocks m i) :=
  concerted.held _ fun _ same => other (LockName.clerkLineLocks.inj same).1

/-- A customer that is served has been called, and its clerk is done with it. -/
theorem Concerted.reports (concerted : office.Concerted setup)
    (running : office.kernel.phase = .running) {n : Nat}
    (current : office.kernel.currentThread = .customer n)
    (inStep : office.CustomerInStep n) {m : Kind} {i : Nat} (other : m ≠ .picture)
    (pc : (office.clients n).pc = .join m (.served i)) :
    (office.clients n).requirement m = true ↔
      VisitAgrees (office.clients n).ssn m i office.log := by
  obtain ⟨called, asleep, lineup, service⟩ := concerted.lines m i other
  simp only [CustomerInStep, pc] at inStep
  obtain rfl :=
    lineup.called_of_current concerted.consistent.wf running current (inStep other)
  exact (service.agrees_of_served pc).2

/-- The test of a clerk that has called somebody. -/
theorem Concerted.tests (concerted : office.Concerted setup) {m : Kind} {k : Nat}
    (checked : m = .passport ∨ m = .cashier) (pc : (office.clerks m k).pc = .serve)
    (inStep : office.ClerkInStep setup m k) : ∃ n, office.TestsOf m k n := by
  have other : m ≠ .picture ∧ m ≠ .application := by rcases checked with rfl | rfl <;> simp
  have called := inStep other.1
  simp only [pc] at called
  obtain ⟨waiting, asleep, lineup, service⟩ :=
    concerted.lines m (office.clerks m k).myLine other.1
  obtain ⟨n, rfl, attended⟩ :=
    service.attended_of (k := k) ⟨rfl, called other.2, by simp [pc]⟩
  have front : (office.desks m (office.clerks m k).myLine).reqs.head? =
      some ((office.clients n).requirement m) := by
    rw [lineup.reqs checked]
    rfl
  refine ⟨n, attended.front, lineup.inLine_called, front, ?_⟩
  have honest := (concerted.consistent.unbribed.clerks m k).honest
  have unbribed := concerted.consistent.unbribed.desks m (office.clerks m k).myLine
  rw [← Clerk.test_of_front checked front unbribed]
  rcases checked with rfl | rfl <;> simp [Clerk.accepts, Clerk.test, honest]

theorem Concerted.runs_bounded (concerted : office.Concerted setup)
    (running : office.kernel.phase = .running)
    (runs : Runs setup rand pick office office.kernel.currentThread after call) :
    after.Bounded setup := by
  intro n started
  generalize current : office.kernel.currentThread = who at runs
  by_cases own : who = .customer n
  · rw [own] at current
    rcases concerted.forked.current concerted.consistent.wf running with main | forked
    · simp [current] at main
    · exact mem_forks_customer.mp (current ▸ forked)
  · cases runs with
    | customer n' segment does =>
        have different : n ≠ n' := fun same => own (by rw [same])
        rw [office.afterClient_other segment different] at started
        exact concerted.bounded n started
    | _ => exact concerted.bounded n started

theorem Concerted.runs_registered (concerted : office.Concerted setup) {who : Who}
    (runs : Runs setup rand pick office who after call) : after.Registered := by
  cases runs with
  | customer n segment does => exact concerted.registered.afterClient does
  | _ => exact ⟨concerted.registered.bound, concerted.registered.distinct⟩

theorem Concerted.runs_lines (concerted : office.Concerted setup)
    (running : office.kernel.phase = .running)
    (runs : Runs setup rand pick office office.kernel.currentThread after call)
    (inStep : ThreadInStep setup office (.exec rand pick))
    (followed : office.Followed call kernel)
    (accepts : ∀ m i, m ≠ .picture →
      call = some (.wait (clerkLineCV m i) (some (monitorLock m))) →
      office.kernel.Accepts (clerkLineCV m i) (monitorLock m))
    (m : Kind) (i : Nat) (other : m ≠ .picture) :
    LineInOrder { after with kernel := kernel } m i := by
  have line := concerted.lines m i other
  generalize current : office.kernel.currentThread = who at runs
  simp only [ThreadInStep, current] at inStep
  cases runs with
  | fork t rest pending =>
      exact line.idle followed (by simp [Aside]) (by simp [current]) rfl rfl rfl rfl
  | finish none =>
      exact line.idle followed (by simp [Aside]) (by simp [current]) rfl rfl rfl rfl
  | senator n =>
      exact line.idle followed (by simp [Aside]) (by simp [current]) rfl rfl rfl rfl
  | manager =>
      exact line.idle followed (ManagerPc.step_aside _ _ _ m i) (by simp [current]) rfl rfl
        rfl rfl
  | clerk m' k segment does =>
      refine line.clerk concerted.consistent concerted.registered running current does other
        followed ?_
      rintro rfl pc rfl n inLine
      have looks := inStep other
      simp only [pc] at looks
      exact looks n (concerted.bounded n (Members.started_of_inLine inLine)) inLine
  | customer n segment does =>
      refine line.customer concerted.consistent concerted.registered (concerted.held_monitor m)
        (concerted.held_counter other i) running current does other followed
        (accepts m i other) fun pc => ?_
      simp only [CustomerInStep, pc] at inStep
      exact inStep other

theorem Concerted.runs_records (concerted : office.Concerted setup)
    (running : office.kernel.phase = .running)
    (runs : Runs setup rand pick office office.kernel.currentThread after call)
    (inStep : ThreadInStep setup office (.exec rand pick)) : after.RecordsAgree := by
  generalize current : office.kernel.currentThread = who at runs
  simp only [ThreadInStep, current] at inStep
  cases runs with
  | clerk m k segment does => exact concerted.records.clerk does
  | customer n segment does =>
      exact concerted.records.customer does fun m i other pc =>
        concerted.reports running current inStep other pc
  | _ => exact concerted.records

theorem Unbribed.runs_of_call {op : Call} (unbribed : office.Unbribed)
    (calls : office.kernelAction setup (.exec rand pick) = some (.call op)) :
    ∃ after, Runs setup rand pick office office.kernel.currentThread after (some op) := by
  obtain ⟨⟨after, call⟩, ran, called⟩ := Option.bind_eq_some_iff.mp calls
  obtain ⟨op', rfl, same⟩ := Option.map_eq_some_iff.mp called
  cases same
  exact ⟨after, unbribed.program ran⟩

theorem Concerted.step (concerted : office.Concerted setup) (inStep : InStep setup office move)
    (step : office.step setup d move = some office') : office'.Concerted setup := by
  obtain ⟨noSleeper, lineWaits, threads⟩ := inStep
  have wf := concerted.consistent.wf
  have held : ∀ l, (∀ i, l ≠ clerkLineLocks .picture i) → office'.HeldInside l := by
    intro l other
    refine (concerted.held l other).step concerted.consistent noSleeper (fun c waits => ?_) step
    cases move with
    | exec rand pick =>
        obtain ⟨after, runs⟩ := concerted.consistent.unbribed.runs_of_call waits
        exact .inl (runs.inside_of_wait rfl other)
    | system action =>
        cases waits
        cases step
  have consistent := concerted.consistent.step step
  have forked := concerted.forked.step wf step
  cases concerted.consistent.unbribed.moves step with
  | silent rand pick after running runs =>
      have same : { office' with kernel := office.kernel } = office' := by
        rw [← runs.kernel_eq]
      refine ⟨consistent, forked, concerted.runs_bounded running runs,
        concerted.runs_registered runs, held, fun m i other => ?_,
        concerted.runs_records running runs threads⟩
      rw [← same]
      exact concerted.runs_lines running runs threads (.silent office) (by simp) m i other
  | call rand pick after op kernel running runs calls called =>
      have bounded := concerted.runs_bounded running runs
      have registered := concerted.runs_registered runs
      have records := concerted.runs_records running runs threads
      refine ⟨consistent, forked, bounded, ⟨registered.bound, registered.distinct⟩, held,
        fun m i other => ?_, records⟩
      refine concerted.runs_lines running runs threads (.call wf called) ?_ m i other
      rintro m i other same
      cases same
      exact lineWaits m i other calls
  | system action kernel notCall stepped =>
      refine ⟨consistent, forked, concerted.bounded, ⟨concerted.registered.bound,
        concerted.registered.distinct⟩, held, fun m i other => ?_, concerted.records⟩
      exact (concerted.lines m i other).idle (.system wf notCall stepped) (aside_none m i)
        (fun _ _ => rfl) rfl rfl rfl rfl

end

theorem Concerted.testsOwn {setup : Setup} {office : Office} {move : Move}
    (concerted : office.Concerted setup) (inStep : InStep setup office move) :
    TestsOwn office move := by
  have threads := inStep.threads
  cases move with
  | system action => trivial
  | exec rand pick =>
      simp only [ThreadInStep] at threads
      simp only [TestsOwn]
      split
      · rename_i m k current
        simp only [current] at threads
        exact fun checked pc => concerted.tests checked pc threads
      · trivial

theorem Concerted.reportsAgree {setup : Setup} {office : Office} {move : Move}
    (concerted : office.Concerted setup) (inStep : InStep setup office move) :
    ReportsAgree office move := by
  have threads := inStep.threads
  cases move with
  | system action => trivial
  | exec rand pick =>
      simp only [ThreadInStep] at threads
      simp only [ReportsAgree]
      split
      · rename_i n current
        simp only [current] at threads
        exact fun running m i other pc => concerted.reports running current threads other pc
      · trivial

/-- In every run, where the locks were built in memory that names no owner.  Where
no thread is given the CPU out of its `Sleep` in `Lock::Acquire`, no `Wait` in a
line is refused, only customers that have got in line are served, a clerk looks
at its line only while everybody in it is asleep there, and the passport clerk
and the cashier test only for somebody that they have called: every record
agrees with the clerk's work during that visit, the tested value is the one of
the customer that has been called, and a customer has what was asked for exactly
when the clerk has done its work.  Every customer that prints that it is leaving
has been provided its passport exactly when no customer comes to the end of a
pass of its loop. -/
theorem visits_agree {setup : Setup} {d : Discipline} {office : Office}
    {moves : List Move} (unowned : ∀ l, (setup.lockMemory l).owner = none)
    (run : (officeMachine setup d).exec (boot setup) moves = some office) :
    ((officeMachine setup d).Steps (InStep setup) (boot setup) moves →
      (officeMachine setup d).Along RecordsAgree (boot setup) moves ∧
        (officeMachine setup d).Steps TestsOwn (boot setup) moves ∧
        (officeMachine setup d).Steps ReportsAgree (boot setup) moves) ∧
    ((officeMachine setup d).Along LeavesAgree (boot setup) moves ↔
      (officeMachine setup d).Steps NobodyLeaves (boot setup) moves) := by
  refine ⟨fun inStep => ?_, leaves_agree_iff run⟩
  have concerted : (officeMachine setup d).Along (Concerted setup) (boot setup) moves :=
    Lib.Machine.along_of_guarded
      (fun before move after concerted inStep step => concerted.step inStep step)
      (boot_concerted unowned) inStep
  exact ⟨concerted.mono fun _ concerted => concerted.records,
    concerted.steps inStep fun _ _ concerted inStep => concerted.testsOwn inStep,
    concerted.steps inStep fun _ _ concerted inStep => concerted.reportsAgree inStep⟩

/-! ### Runs -/

instance (office : Office) (n : Nat) : Decidable (office.CustomerInStep n) := by
  dsimp only [CustomerInStep]
  generalize (office.clients n).pc = pc
  induction pc using ClientPc.casesOn with
  | join m pc =>
      induction pc using Stage.casesOn with
      | served i => exact inferInstanceAs (Decidable (m ≠ .picture → office.InLine m i n))
      | _ => exact inferInstanceAs (Decidable True)
  | _ => exact inferInstanceAs (Decidable True)

instance (setup : Setup) (office : Office) (m : Kind) (k : Nat) :
    Decidable (office.ClerkInStep setup m k) := by
  dsimp only [ClerkInStep]
  generalize (office.clerks m k).pc = pc
  refine @instDecidableForall _ _ inferInstance ?_
  induction pc using ClerkPc.casesOn with
  | look =>
      exact inferInstanceAs (Decidable (∀ n < setup.numCustomers,
        office.InLine m (office.clerks m k).myLine n →
          .customer n ∈ (office.kernel.conditions
            (clerkLineCV m (office.clerks m k).myLine)).waitQueue))
  | serve =>
      exact inferInstanceAs (Decidable (m ≠ .application →
        (office.clerks m k).frontSSN ≠ none))
  | _ => exact inferInstanceAs (Decidable True)

instance (setup : Setup) (office : Office) :
    (move : Move) → Decidable (ThreadInStep setup office move)
  | .system _ => inferInstanceAs (Decidable True)
  | .exec _ _ => by
      dsimp only [ThreadInStep]
      exact Who.casesOn office.kernel.currentThread inferInstance
        (fun _ _ => inferInstance) inferInstance (fun _ => inferInstance)
        fun _ => inferInstance

/-- Whether the `Wait` of a step, if it is one in a line, is accepted. -/
def lineWaits (setup : Setup) (office : Office) (move : Move) : Bool :=
  match office.kernelAction setup move with
  | some (.call (.wait (.clerkLineCV m i) (some (.monitorLock m')))) =>
      decide (m ≠ .picture → m = m' →
        office.kernel.Accepts (clerkLineCV m i) (monitorLock m))
  | _ => true

theorem lineWaits_iff (setup : Setup) (office : Office) (move : Move) :
    office.lineWaits setup move = true ↔ LineWaits setup office move := by
  unfold lineWaits LineWaits
  split
  · rename_i m i m' calls
    simp only [decide_eq_true_eq, calls, Option.some.injEq, Action.call.injEq,
      Op.wait.injEq, clerkLineCV.injEq, monitorLock.injEq]
    constructor
    · rintro accepted m₁ i₁ other ⟨⟨rfl, rfl⟩, rfl⟩
      exact accepted other rfl
    · rintro accepts other rfl
      exact accepts m i other ⟨⟨rfl, rfl⟩, rfl⟩
  · rename_i otherCall
    simpa using fun m i _ calls => absurd calls (otherCall m i m)

instance (setup : Setup) (office : Office) (move : Move) :
    Decidable (InStep setup office move) :=
  decidable_of_iff (office.resumesSleeper setup move = false ∧
      office.lineWaits setup move = true ∧ ThreadInStep setup office move) <| by
    rw [noSleeperResumes_iff, lineWaits_iff]
    exact ⟨fun ⟨noSleeper, lineWaits, threads⟩ => ⟨noSleeper, lineWaits, threads⟩,
      fun inStep => ⟨inStep.noSleeper, inStep.lineWaits, inStep.threads⟩⟩

instance (office : Office) : (move : Move) → Decidable (NobodyLeaves office move)
  | .system _ => inferInstanceAs (Decidable True)
  | .exec _ _ => by
      dsimp only [NobodyLeaves]
      exact Who.casesOn office.kernel.currentThread inferInstance
        (fun _ _ => inferInstance) inferInstance (fun _ => inferInstance)
        fun _ => inferInstance

/-- An office with one clerk of each kind and five customers, built in cleared
memory. -/
def fourClerks : Setup where
  numClerks := fun _ => 1
  numSenators := 0
  numCustomers := 5
  lockMemory := fun _ => ⟨false, none, []⟩
  conditionMemory := fun _ => ⟨[], none⟩
  picturesTaken := fun _ => false

/-- The time slice is over, and the CPU goes to a ready thread. -/
def handOver (pick : Nat) : List Move :=
  [.system (.timeSlice pick), .system .endTick]

/-- The running thread waits in its line, and the CPU goes to a ready thread. -/
def waitInLine (pick : Nat) : List Move :=
  [.exec 0 0, .system (.dispatch pick), .system .endTick]

/-- A customer starts or has left a counter, chooses with this random number, and
finds its line. -/
def choosesWith (rand : Nat) : List Move :=
  [.exec 0 0, .exec rand 0] ++ calls 1

/-- A clerk calls the first customer of its line, goes to the counter, works and
closes the counter. -/
def clerkRound (pick : Nat) : List Move := List.flatten [
  calls 5, [.exec 0 0], (List.replicate 20 (.exec 0 0 :: handOver pick)).flatten,
  calls 2, [.exec 0 0]]

/-- Customers 0, 1 and 2 walk up to the clerks for applications and passports and
to the cashier, which have not started, and are not given the CPU again.
Customers 3 and 4 wait for the application clerk, which serves them in turn.
Customer 3 goes on to the picture clerk, where customer 4 waits behind it, and
then to the lines for passports and payments. -/
def fourPasses : List Move := List.flatten [
  calls 9, [.exec 0 0], handOver 5,
  choosesWith 0, [.exec 0 0, .exec 0 0], handOver 5,
  choosesWith 2, [.exec 0 0, .exec 0 0], handOver 5,
  choosesWith 3, [.exec 0 0, .exec 0 0], handOver 5,
  -- customers 3 and 4 get in line, and customer 3 is served
  choosesWith 0, waitInLine 5, choosesWith 0, waitInLine 0,
  [.exec 0 0], clerkRound 8, handOver 6, calls 6,
  -- it walks up to the picture clerk, and customer 4 is served
  choosesWith 1, [.exec 0 0, .exec 0 0], handOver 8, clerkRound 9, handOver 9, calls 6,
  choosesWith 1, waitInLine 8,
  -- customer 3 likes its picture, and is served in the other two lines
  calls 3, [.exec 1 0, .system .endTick], calls 1, choosesWith 2, waitInLine 6,
  [.exec 0 0], clerkRound 8, handOver 6, calls 6, choosesWith 3, waitInLine 6,
  [.exec 0 0], clerkRound 8, handOver 6, calls 6, [.exec 0 0, .exec 0 0]]

/-- Two customers are served in the same line of this run, and one of them in all
four passes of its loop; at the end of the first of these it has printed that it
is leaving. -/
theorem visits_agree_along_passes :
    ∃ office,
      (officeMachine fourClerks .anyReady).exec (boot fourClerks) fourPasses =
        some office ∧
      (office.clients 3).pc = .gone ∧
      .records 3 .application 0 ∈ office.log ∧ .records 4 .application 0 ∈ office.log ∧
      .records 3 .passport 0 ∈ office.log ∧ .records 3 .cashier 0 ∈ office.log ∧
      (officeMachine fourClerks .anyReady).Along RecordsAgree (boot fourClerks)
        fourPasses ∧
      (officeMachine fourClerks .anyReady).Steps TestsOwn (boot fourClerks) fourPasses ∧
      (officeMachine fourClerks .anyReady).Steps ReportsAgree (boot fourClerks)
        fourPasses ∧
      ¬ (officeMachine fourClerks .anyReady).Along LeavesAgree (boot fourClerks)
        fourPasses := by
  obtain ⟨office, run, ends⟩ : ∃ office,
      (officeMachine fourClerks .anyReady).exec (boot fourClerks) fourPasses =
        some office ∧
      ((office.clients 3).pc, decide (.records 3 .application 0 ∈ office.log),
        decide (.records 4 .application 0 ∈ office.log),
        decide (.records 3 .passport 0 ∈ office.log),
        decide (.records 3 .cashier 0 ∈ office.log)) = (.gone, true, true, true, true) :=
    Option.map_eq_some_iff.mp (by decide +kernel)
  simp only [Prod.mk.injEq, decide_eq_true_eq] at ends
  obtain ⟨pc, first, second, passport, cashier⟩ := ends
  obtain ⟨agree, leaves⟩ := visits_agree (fun _ => rfl) run
  obtain ⟨records, tests, reports⟩ := agree (by decide +kernel)
  refine ⟨office, run, pc, first, second, passport, cashier, records, tests, reports, ?_⟩
  rw [leaves]
  decide +kernel

/-- The only customer walks up to the clerk on its break, which works without
an SSN, and prints that it is leaving although there is no cashier. -/
theorem idle_visit_disagrees :
    ∃ office,
      (officeMachine (oneClerk .application 1) .fifo).exec
        (boot (oneClerk .application 1)) (oneVisit ++ calls 2 ++ [.exec 0 0]) =
          some office ∧
      .records 0 .application 0 ∈ office.log ∧
      (∀ i, .works .application i (some 0) ∉ office.log) ∧
      .leaves 0 ∈ office.log ∧ (∀ i, .works .cashier i (some 0) ∉ office.log) ∧
      ¬ RecordsAgree office ∧ ¬ LeavesAgree office := by
  obtain ⟨office, run, log⟩ : ∃ office,
      (officeMachine (oneClerk .application 1) .fifo).exec
        (boot (oneClerk .application 1)) (oneVisit ++ calls 2 ++ [.exec 0 0]) =
          some office ∧
      office.log = [.leaves 0, .records 0 .application 0, .emptyAccess,
        .works .application 0 none, .joins 0 .application 0] :=
    Option.map_eq_some_iff.mp (by decide +kernel)
  refine ⟨office, run, ?_⟩
  rw [RecordsAgree, LeavesAgree, log]
  refine ⟨by simp, by simp, by simp, by simp, ?_, ?_⟩
  · rintro ⟨-, ⟨between, ⟨⟨before, same⟩, -⟩, works⟩, -⟩
    have member : .works .application 0 (some 0) ∈ between ++ .joins 0 .application 0 ::
      before := List.mem_append_left _ works
    rw [← same] at member
    simp at member
  · rintro ⟨⟨i, works⟩, -⟩
    simp at works

end Nachos.Office
