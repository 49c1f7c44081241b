/-
Module: Nachos.Office.Leaving
Purpose: The print with which a customer leaves the Passport Office.  It stands
  inside the while loop, so that the first customer to print it is in its first
  pass, in which nobody has anything to show to the cashier: no run in which a
  customer prints it has the passports provided before.
Trusted boundary: none
Main exports: Follows, LeavesAgree, NobodyLeaves, leaves_agree_iff
-/
import Nachos.Office.Segments

namespace Nachos.Office

/-! ### Logs -/

/-- Every remark of a log, newest first, stands in relation `P` to the ones
before it. -/
def Follows (P : Remark → List Remark → Prop) : List Remark → Prop
  | [] => True
  | remark :: earlier => P remark earlier ∧ Follows P earlier

/-- A customer prints that it is leaving after the cashier has provided its
passport. -/
def Remark.LeavesAfterPassport : Remark → List Remark → Prop
  | .leaves ssn, earlier => ∃ i, .works .cashier i (some ssn) ∈ earlier
  | _, _ => True

def LeavesAgree (office : Office) : Prop :=
  Follows Remark.LeavesAfterPassport office.log

/-- The running customer does not come to the end of the body of its loop. -/
def NobodyLeaves (office : Office) : Move → Prop
  | .exec _ _ =>
      match office.kernel.currentThread with
      | .customer n => (office.clients n).pc ≠ .leaving
      | _ => True
  | .system _ => True

/-- A remark about an empty queue only. -/
def Silent (remarks : List Remark) : Prop :=
  ∀ remark ∈ remarks, remark = .emptyAccess

theorem silent_accessed {α : Type} (queue : List α) : Silent (accessed queue) := by
  cases queue with
  | nil => simp [Silent, accessed]
  | cons x rest => simp [Silent, accessed]

theorem Silent.append {first second : List Remark} (silent : Silent first)
    (silent' : Silent second) : Silent (first ++ second) := by
  intro remark member
  rcases List.mem_append.mp member with member | member
  · exact silent remark member
  · exact silent' remark member

theorem Client.silent_quit (m : Kind) (desk : Desk) : Silent (quit m desk).2 := by
  cases m with
  | application => exact silent_accessed desk.clientSSNs
  | picture => exact silent_accessed desk.clientSSNs
  | passport => exact (silent_accessed desk.reqs).append (silent_accessed desk.clientSSNs)
  | cashier => exact (silent_accessed desk.reqs).append (silent_accessed desk.clientSSNs)

theorem Clerk.silent_test (m : Kind) (desk : Desk) : Silent (test m desk).2 := by
  cases m with
  | application => simp [test, Silent]
  | picture => simp [test, Silent]
  | passport =>
      simp only [test, lacksReqs]
      split
      · exact silent_accessed desk.reqs
      · exact (silent_accessed desk.reqs).append (silent_accessed desk.bribeReqs)
  | cashier =>
      simp only [test, isCertified]
      split
      · exact (silent_accessed desk.reqs).append (silent_accessed desk.clientSSNs)
      · exact ((silent_accessed desk.reqs).append
          (silent_accessed desk.bribeReqs)).append (silent_accessed desk.clientSSNs)

/-- What a clerk remarks: nothing but empty queues, or its work. -/
theorem Clerk.Does.remarks {m : Kind} {clerkID pick : Nat} {desks : Desks} {clerk : Clerk}
    {segment : Segment Clerk} (does : clerk.Does m clerkID pick desks segment) :
    Silent segment.remarks ∨
      (clerk.pc = .working 0 ∧
        segment.remarks = [.works m clerk.myLine clerk.frontSSN]) := by
  cases does with
  | callCustomer pc filled => exact .inl (silent_accessed _)
  | startWork n pc passes => exact .inl (silent_test _ _)
  | refuse pc checked fails => exact .inl (silent_test _ _)
  | finishWork pc other => exact .inr ⟨pc, rfl⟩
  | _ => exact .inl (by simp [Silent])

/-! ### A customer in its first pass -/

namespace Client

/-- The customer has been served, and is about to end its first pass. -/
def Passed (c : Client) : Prop :=
  (∃ m i, c.pc = .join m (.leave i)) ∨ c.pc = .leaving

/-- No flag is set. -/
def Unmarked (c : Client) : Prop :=
  c.applicationAccepted = false ∧ c.pictureTaken = false ∧
    c.certified = false ∧ c.done = false

/-- What a segment in the first pass does. -/
structure FirstPass (desks : Desks) (segment : Segment Client) : Prop where
  unmarked : segment.next.Passed ∨ segment.next.Unmarked
  reqs : ∀ m i, ∀ req ∈ (segment.desks m i).reqs, req ∈ (desks m i).reqs ∨ req = false
  stays : ∀ ssn, .leaves ssn ∉ segment.remarks
  idle : ∀ m i ssn, .works m i ssn ∉ segment.remarks

theorem FirstPass.of_move {desks desks' : Desks} {next : Client} {call : Option Call}
    {remarks : List Remark} (queues : ∀ m i, (desks' m i).reqs = (desks m i).reqs)
    (unmarked : next.Passed ∨ next.Unmarked) (stays : ∀ ssn, .leaves ssn ∉ remarks)
    (idle : ∀ m i ssn, .works m i ssn ∉ remarks) :
    FirstPass desks ⟨next, desks', call, remarks⟩ where
  unmarked := unmarked
  reqs m i _ member := .inl (queues m i ▸ member)
  stays := stays
  idle := idle

/-- A desk is set without touching its requirements. -/
theorem reqs_kept {desks : Desks} {m : Kind} {i : Nat} {desk : Desk}
    (reqs : desk.reqs = (desks m i).reqs) (m' : Kind) (i' : Nat) :
    (desks.set m i desk m' i').reqs = (desks m' i').reqs := by
  by_cases same : m' = m ∧ i' = i
  · obtain ⟨rfl, rfl⟩ := same
    rwa [Desks.set_self]
  · rw [Desks.set_of_ne same]

/-- Who is served leaves no more requirements in the queues than there were. -/
theorem quit_reqs (m : Kind) (i : Nat) (desks : Desks) (m' : Kind) (i' : Nat) :
    ∀ req ∈ (desks.set m i (quit m (desks m i)).1 m' i').reqs,
      req ∈ (desks m' i').reqs := by
  by_cases same : m' = m ∧ i' = i
  · obtain ⟨rfl, rfl⟩ := same
    rw [Desks.set_self]
    cases m' <;>
      simp +contextual [quit, Desk.leaveLine, Desk.popReqs, List.mem_of_mem_tail]
  · rw [Desks.set_of_ne same]
    exact fun req member => member

/-- Who gets in line in its first pass pushes `false`. -/
theorem queueUp_reqs (m : Kind) (i : Nat) (desks : Desks) {c : Client}
    (honest : c.bribed = false) (unmarked : c.Unmarked) (m' : Kind) (i' : Nat) :
    ∀ req ∈ (desks.set m i (c.queueUp m (desks m i)) m' i').reqs,
      req ∈ (desks m' i').reqs ∨ req = false := by
  obtain ⟨accepted, -, certified, -⟩ := unmarked
  by_cases same : m' = m ∧ i' = i
  · obtain ⟨rfl, rfl⟩ := same
    rw [Desks.set_self]
    cases m' <;>
      simp +contextual [queueUp, Desk.joinLine, Desk.giveReqs, honest, accepted, certified]
  · rw [Desks.set_of_ne same]
    exact fun req member => .inl member

theorem Does.firstPass {numClerks : Kind → Nat} {ssnCount : Int} {rand pick : Nat}
    {desks : Desks} {c : Client} {segment : Segment Client}
    (does : c.Does numClerks ssnCount rand pick desks segment)
    (honest : c.bribed = false) (unmarked : c.Passed ∨ c.Unmarked)
    (first : c.pc ≠ .leaving) : FirstPass desks segment := by
  have early : ¬ c.Passed → c.Unmarked := fun early => unmarked.resolve_left early
  have kept : ∀ m i, (desks m i).reqs = (desks m i).reqs := fun m i => rfl
  have silent : ∀ m i, Silent (quit m (desks m i)).2 := fun m i => silent_quit m _
  cases does with
  | create pc => exact .of_move kept (.inr ⟨rfl, rfl, rfl, rfl⟩) (by simp) (by simp)
  | finish pc done =>
      have unmarked := early (by simp [Passed, pc])
      rw [unmarked.2.2.2] at done
      cases done
  | pass pc notDone chosen => exact .of_move kept (.inl (.inr rfl)) (by simp) (by simp)
  | leaving pc => exact absurd pc first
  | queueUp m i pc smallest busy =>
      have unmarked := early (by simp [Passed, pc])
      exact ⟨.inr unmarked, queueUp_reqs m i desks honest unmarked, by simp, by simp⟩
  | take m i pc =>
      exact .of_move (reqs_kept rfl) (.inr (early (by simp [Passed, pc]))) (by simp)
        (by simp)
  | greet m i pc =>
      exact .of_move (reqs_kept (by cases m <;> rfl))
        (.inr (early (by simp [Passed, pc]))) (by simp) (by simp)
  | served m i pc satisfied =>
      refine ⟨.inl (.inl ⟨m, i, rfl⟩), fun m' i' req member =>
        .inl (quit_reqs m i desks m' i' req member), fun ssn member => ?_,
        fun m' i' ssn member => ?_⟩
      all_goals
        rcases List.mem_append.mp member with recorded | popped
        · unfold Client.recorded at recorded
          split at recorded <;> simp at recorded
        · cases silent m i _ popped
  | tooSoon m i n pc checked unsatisfied =>
      refine ⟨.inr (early (by simp [Passed, pc])), fun m' i' req member =>
        .inl (quit_reqs m i desks m' i' req member), fun ssn member => ?_,
        fun m' i' ssn member => ?_⟩
      all_goals cases silent m i _ member
  | goodbye m i pc =>
      exact .of_move kept (.inl (.inl ⟨m, i, rfl⟩)) (by simp) (by simp)
  | leave m i pc => exact .of_move kept (.inl (.inr rfl)) (by simp) (by simp)
  | choose _ pc | enter _ pc | walkUp _ _ pc | lock _ _ pc | await _ _ pc | retake _ pc
  | yield _ _ _ pc =>
      exact .of_move kept (.inr (early (by simp [Passed, pc]))) (by simp) (by simp)

end Client

/-! ### The office before anybody has printed -/

/-- Nobody has come to the end of its first pass: no certification is in a queue,
and no cashier has worked. -/
structure FirstPasses (office : Office) : Prop where
  unbribed : office.Unbribed
  unmarked : ∀ n, (office.clients n).Passed ∨ (office.clients n).Unmarked
  reqs : ∀ m i, ∀ req ∈ (office.desks m i).reqs, req = false
  idle : ∀ k n, (office.clerks .cashier k).pc ≠ .working n
  stay : ∀ ssn, .leaves ssn ∉ office.log
  provided : ∀ i ssn, .works .cashier i ssn ∉ office.log

theorem FirstPasses.of_kernel {office : Office} (passes : office.FirstPasses)
    (kernel : Kernel Who Empty LockName CvName) :
    FirstPasses { office with kernel := kernel } :=
  ⟨passes.unbribed.of_kernel kernel, passes.unmarked, passes.reqs, passes.idle,
    passes.stay, passes.provided⟩

theorem boot_firstPasses (setup : Setup) : (boot setup).FirstPasses where
  unbribed := boot_unbribed setup
  unmarked _ := .inr ⟨rfl, rfl, rfl, rfl⟩
  reqs _ _ _ member := by cases member
  idle k n := by simp [boot, Clerk.fresh]
  stay _ member := by cases member
  provided _ _ member := by cases member

/-- Where nobody prints, every print agrees. -/
theorem FirstPasses.leavesAgree {office : Office} (passes : office.FirstPasses) :
    office.LeavesAgree := by
  have follows : ∀ log : List Remark, (∀ ssn, .leaves ssn ∉ log) →
      Follows Remark.LeavesAfterPassport log := by
    intro log stay
    induction log with
    | nil => trivial
    | cons remark earlier inductionHypothesis =>
        refine ⟨?_, inductionHypothesis fun ssn member => stay ssn (by simp [member])⟩
        cases remark with
        | leaves ssn => exact absurd (by simp) (stay ssn)
        | _ => trivial
  exact follows _ passes.stay

/-- A cashier finds no certification. -/
theorem Clerk.test_cashier {desk : Desk} (reqs : ∀ req ∈ desk.reqs, req = false) :
    (test .cashier desk).1 = false := by
  cases contents : desk.reqs with
  | nil => simp [test, isCertified, contents]
  | cons req rest =>
      obtain rfl : req = false := reqs req (by simp [contents])
      simp [test, isCertified, contents]

theorem Clerk.Does.not_working {clerkID pick : Nat} {desks : Desks} {clerk : Clerk}
    {segment : Segment Clerk} (does : clerk.Does .cashier clerkID pick desks segment)
    (reqs : ∀ i, ∀ req ∈ (desks .cashier i).reqs, req = false)
    (idle : ∀ n, clerk.pc ≠ .working n) (n : Nat) : segment.next.pc ≠ .working n := by
  cases does with
  | startWork n' pc passes =>
      rw [Clerk.test_cashier (reqs _)] at passes
      cases passes
  | yield n' pc => exact absurd pc (idle _)
  | _ => simp

theorem FirstPasses.clerk {office : Office} {m : Kind} {k pick : Nat}
    {segment : Segment Clerk} (passes : office.FirstPasses)
    (does : (office.clerks m k).Does m (office.clerkID m) pick office.desks segment)
    (unbribed : (office.afterClerk m k segment).Unbribed) :
    (office.afterClerk m k segment).FirstPasses where
  unbribed := unbribed
  unmarked := passes.unmarked
  reqs m' i req member := by
    rw [afterClerk_desks] at member
    have same : (segment.desks m' i).reqs = (office.desks m' i).reqs := by
      cases does with
      | goOnBreak pc nobody other => exact Client.reqs_kept (by rfl) m' i
      | goOnPictureBreak pc nobody picture => exact Client.reqs_kept (by rfl) m' i
      | markBusy pc => exact Client.reqs_kept (by rfl) m' i
      | _ => rfl
    exact passes.reqs m' i req (same ▸ member)
  idle k' n := by
    by_cases same : .cashier = m ∧ k' = k
    · obtain ⟨rfl, rfl⟩ := same
      simpa using does.not_working (passes.reqs .cashier) (passes.idle k') n
    · rw [office.afterClerk_other segment same]
      exact passes.idle k' n
  stay ssn member := by
    rcases List.mem_append.mp member with new | old
    · rcases does.remarks with silent | ⟨-, same⟩
      · cases silent _ new
      · simp [same] at new
    · exact passes.stay ssn old
  provided i ssn member := by
    rcases List.mem_append.mp member with new | old
    · rcases does.remarks with silent | ⟨pc, same⟩
      · cases silent _ new
      · rw [same, List.mem_singleton] at new
        cases new
        exact passes.idle k 0 pc
    · exact passes.provided i ssn old

theorem FirstPasses.customer {setup : Setup} {office : Office} {n rand pick : Nat}
    {segment : Segment Client} (passes : office.FirstPasses)
    (first : (office.clients n).pc ≠ .leaving)
    (does : (office.clients n).Does setup.numClerks (office.createCustomer n) rand
      pick office.desks segment)
    (unbribed : (office.afterClient n segment).Unbribed) :
    (office.afterClient n segment).FirstPasses := by
  obtain ⟨unmarked, reqs, stays, idle⟩ :=
    does.firstPass (passes.unbribed.clients n) (passes.unmarked n) first
  refine ⟨unbribed, fun n' => ?_, fun m i req member => ?_, passes.idle,
    fun ssn member => ?_, fun i ssn member => ?_⟩
  · by_cases same : n' = n
    · subst same
      simpa using unmarked
    · simpa [same] using passes.unmarked n'
  · exact (reqs m i req member).elim (passes.reqs m i req) id
  · exact (List.mem_append.mp member).elim (stays ssn) (passes.stay ssn)
  · exact (List.mem_append.mp member).elim (idle _ i ssn) (passes.provided i ssn)

theorem FirstPasses.runs {setup : Setup} {rand pick : Nat} {office after : Office}
    {who : Who} {call : Option Call} (passes : office.FirstPasses)
    (current : office.kernel.currentThread = who)
    (nobody : NobodyLeaves office (.exec rand pick))
    (runs : Runs setup rand pick office who after call) : after.FirstPasses := by
  have unbribed := passes.unbribed.runs runs
  simp only [NobodyLeaves, current] at nobody
  cases runs with
  | clerk m k segment does => exact passes.clerk does unbribed
  | customer n segment does => exact passes.customer nobody does unbribed
  | _ =>
      exact ⟨unbribed, passes.unmarked, passes.reqs, passes.idle, passes.stay,
        passes.provided⟩

theorem FirstPasses.step {setup : Setup} {d : Discipline} {office office' : Office}
    {move : Move} (passes : office.FirstPasses) (nobody : NobodyLeaves office move)
    (step : office.step setup d move = some office') : office'.FirstPasses := by
  cases passes.unbribed.moves step with
  | silent rand pick after running runs => exact passes.runs rfl nobody runs
  | call rand pick after op kernel running runs calls called =>
      exact (passes.runs rfl nobody runs).of_kernel kernel
  | system action kernel notCall stepped => exact passes.of_kernel kernel

theorem Client.Does.remarks_leaving {numClerks : Kind → Nat} {ssnCount : Int}
    {rand pick : Nat} {desks : Desks} {c : Client} {segment : Segment Client}
    (does : c.Does numClerks ssnCount rand pick desks segment) (pc : c.pc = .leaving) :
    segment.remarks = [.leaves c.ssn] := by
  cases does with
  | leaving pc' => rfl
  | create pc' | finish pc' | choose _ pc' | pass pc' | enter _ pc' | queueUp _ _ pc'
  | walkUp _ _ pc' | take _ _ pc' | lock _ _ pc' | greet _ _ pc' | await _ _ pc'
  | retake _ pc' | served _ _ pc' | tooSoon _ _ _ pc' | yield _ _ _ pc' | goodbye _ _ pc'
  | leave _ _ pc' =>
      rw [pc] at pc'
      cases pc'

theorem FirstPasses.runs_leaves {setup : Setup} {rand pick : Nat} {office after : Office}
    {who : Who} {call : Option Call} (passes : office.FirstPasses)
    (current : office.kernel.currentThread = who)
    (leaves : ¬ NobodyLeaves office (.exec rand pick))
    (runs : Runs setup rand pick office who after call) :
    ¬ Follows Remark.LeavesAfterPassport after.log := by
  simp only [NobodyLeaves, current] at leaves
  cases runs with
  | customer n segment does =>
      rw [afterClient_log, does.remarks_leaving (not_not.mp leaves)]
      rintro ⟨⟨i, provided⟩, -⟩
      exact passes.provided i _ provided
  | _ => exact absurd trivial leaves

/-- The first print stands in the log without a passport before it. -/
theorem FirstPasses.not_leavesAgree {setup : Setup} {d : Discipline}
    {office office' : Office} {move : Move} (passes : office.FirstPasses)
    (leaves : ¬ NobodyLeaves office move)
    (step : office.step setup d move = some office') : ¬ office'.LeavesAgree := by
  cases passes.unbribed.moves step with
  | silent rand pick after running runs => exact passes.runs_leaves rfl leaves runs
  | call rand pick after op kernel running runs calls called =>
      have disagrees := passes.runs_leaves rfl leaves runs
      exact disagrees
  | system action kernel notCall stepped => exact absurd trivial leaves

/-- In every run: every customer that prints that it is leaving has been provided
its passport exactly when no customer comes to the end of a pass of its loop. -/
theorem leaves_agree_iff {setup : Setup} {d : Discipline} {office : Office}
    {moves : List Move}
    (run : (officeMachine setup d).exec (boot setup) moves = some office) :
    (officeMachine setup d).Along LeavesAgree (boot setup) moves ↔
      (officeMachine setup d).Steps NobodyLeaves (boot setup) moves := by
  refine Lib.Machine.along_iff_steps (I := FirstPasses) (A := fun _ _ => True)
    ?_ (fun _ passes => passes.leavesAgree) ?_ (boot_firstPasses setup) ?_ run
  · intro before move after passes _ nobody step
    exact passes.step nobody step
  · intro before move after passes _ leaves step agrees
    exact passes.not_leavesAgree leaves step agrees
  · exact Lib.Machine.steps_true _ _

end Nachos.Office
