/-
Module: Nachos.Office.Queues
Purpose: The line counts and the queues behind them.  A customer that finds
  the clerk idle pushes nothing and pops all the same, and the passport clerk
  and the cashier look at the bribe queues, which are always empty, when the
  first half of their test does not decide.  Where everybody that is served has
  got in line, and the test is made for somebody in line and decides, the counts
  match the queues.
Trusted boundary: none
Main exports: CountsMatch, FrontIsThere, counts_match_iff, FromLine,
  counts_match, idle_clerk_is_popped
-/
import Nachos.Office.Waiting

namespace Nachos.Office

/-- The counts of a desk are the lengths of its queues. -/
structure Desk.Matches (m : Kind) (desk : Desk) : Prop where
  lineCount : desk.clerkLineCount = desk.clientSSNs.length
  bribeLineCount : desk.clerkBribeLineCount = desk.bribeClientSSNs.length
  lineCount_nonneg : 0 ≤ desk.clerkLineCount
  bribeLineCount_nonneg : 0 ≤ desk.clerkBribeLineCount
  reqs : m = .passport ∨ m = .cashier →
    desk.clerkLineCount = desk.reqs.length ∧
    desk.clerkBribeLineCount = desk.bribeReqs.length

/-- All counts match, and no `front()` or `pop()` was executed on an empty
queue. -/
structure CountsMatch (office : Office) : Prop where
  desks : ∀ m i, (office.desks m i).Matches m
  accesses : .emptyAccess ∉ office.log

/-- A customer that leaves a line does so while its count is positive. -/
def Client.FrontIsThere (rand : Nat) (desks : Desks) (c : Client) : Prop :=
  match c.pc with
  | .join m (.served i) =>
      (m = .picture ∧ rand % 2 = 0) ∨ 0 < (desks m i).clerkLineCount
  | _ => True

/-- The passport clerk tests a customer in line whose requirements are not
met, and the cashier one who is certified: otherwise the test goes on to the
bribe queue. -/
def Clerk.FrontIsThere (m : Kind) (desks : Desks) (clerk : Clerk) : Prop :=
  match m, clerk.pc with
  | .passport, .serve => (desks .passport clerk.myLine).reqs.head? = some false
  | .cashier, .serve => (desks .cashier clerk.myLine).reqs.head? = some true
  | _, _ => True

/-- What the step takes from a queue is there. -/
def FrontIsThere (office : Office) : Move → Prop
  | .exec rand _ =>
      match office.kernel.currentThread with
      | .customer n => (office.clients n).FrontIsThere rand office.desks
      | .clerk m n => (office.clerks m n).FrontIsThere m office.desks
      | _ => True
  | .system _ => True

/-! ### Desks that match -/

/-- Where nobody pays bribes, a matching desk looks like this. -/
structure Desk.Neat (m : Kind) (desk : Desk) : Prop where
  lineCount : desk.clerkLineCount = desk.clientSSNs.length
  reqs : m = .passport ∨ m = .cashier →
    desk.reqs.length = desk.clientSSNs.length

theorem Desk.Neat.desk_matches {m : Kind} {desk : Desk} (neat : desk.Neat m)
    (unbribed : desk.Unbribed) : desk.Matches m where
  lineCount := neat.lineCount
  bribeLineCount := by simp [unbribed.lineCount, unbribed.clientSSNs]
  lineCount_nonneg := by simp [neat.lineCount]
  bribeLineCount_nonneg := by simp [unbribed.lineCount]
  reqs checked := by
    simp [neat.lineCount, neat.reqs checked, unbribed.lineCount, unbribed.reqs]

/-- A count is positive exactly when there is something to pop. -/
theorem Desk.Neat.pos_iff {m : Kind} {desk : Desk} (neat : desk.Neat m) :
    0 < desk.clerkLineCount ↔ desk.clientSSNs ≠ [] := by
  rw [neat.lineCount]
  cases desk.clientSSNs with
  | nil => simp
  | cons ssn rest => simp

/-- An empty access is an access to an empty queue. -/
theorem emptyAccess_mem_accessed {α : Type} {queue : List α} :
    .emptyAccess ∈ accessed queue ↔ queue = [] := by
  cases queue with
  | nil => simp [accessed]
  | cons x rest => simp [accessed]

theorem Client.queueUp_neat {m : Kind} {c : Client} {desk : Desk}
    (neat : desk.Neat m) (honest : c.bribed = false) :
    (c.queueUp m desk).Neat m := by
  have lineCount := neat.lineCount
  have reqs := neat.reqs
  cases m with
  | application | picture =>
      exact ⟨by simp [queueUp, Desk.joinLine, honest, lineCount], by simp⟩
  | passport | cashier =>
      exact ⟨by simp [queueUp, Desk.joinLine, Desk.giveReqs, honest, lineCount],
        by simp [queueUp, Desk.joinLine, Desk.giveReqs, honest, reqs]⟩

/-- Leaving a line that has somebody in it. -/
theorem Client.quit_neat {m : Kind} {desk : Desk} (neat : desk.Neat m)
    (positive : 0 < desk.clerkLineCount) :
    (quit m desk).1.Neat m ∧ (quit m desk).2 = [] := by
  have filled := neat.pos_iff.mp positive
  have lineCount := neat.lineCount
  have reqs := neat.reqs
  cases contents : desk.clientSSNs with
  | nil => exact absurd contents filled
  | cons ssn rest =>
      rw [contents] at lineCount reqs
      cases m with
      | application | picture =>
          exact ⟨⟨by simp [quit, Desk.leaveLine, contents, lineCount], by simp⟩,
            by simp [quit, Desk.leaveLine, contents, accessed]⟩
      | passport | cashier =>
          have length : desk.reqs.length = rest.length + 1 := by simpa using reqs
          cases pending : desk.reqs with
          | nil => simp [pending] at length
          | cons req later =>
              rw [pending, List.length_cons] at length
              refine ⟨⟨?_, fun _ => ?_⟩, ?_⟩
              · simp [quit, Desk.leaveLine, Desk.popReqs, contents, lineCount]
              · simpa [quit, Desk.leaveLine, Desk.popReqs, contents, pending]
                  using length
              · simp [quit, Desk.leaveLine, Desk.popReqs, contents, pending,
                  accessed]

/-- Leaving an empty line pops an empty queue. -/
theorem Client.quit_emptyAccess {m : Kind} {desk : Desk} (neat : desk.Neat m)
    (nobody : ¬ 0 < desk.clerkLineCount) : .emptyAccess ∈ (quit m desk).2 := by
  have empty : desk.clientSSNs = [] := by
    by_contra filled
    exact nobody (neat.pos_iff.mpr filled)
  cases m <;> simp [quit, Desk.leaveLine, empty, accessed]

/-- Exactly then a clerk's test looks at an empty queue. -/
theorem Clerk.test_emptyAccess {m : Kind} {desks : Desks} {clerk : Clerk}
    (neat : (desks m clerk.myLine).Neat m)
    (unbribed : (desks m clerk.myLine).Unbribed) (pc : clerk.pc = .serve) :
    .emptyAccess ∈ (test m (desks m clerk.myLine)).2 ↔
      ¬ clerk.FrontIsThere m desks := by
  have bribeReqs := unbribed.reqs
  have reqs := neat.reqs
  cases m with
  | application | picture => simp [test, Clerk.FrontIsThere]
  | passport =>
      cases pending : (desks .passport clerk.myLine).reqs with
      | nil => simp [test, Clerk.FrontIsThere, pc, pending, lacksReqs, accessed]
      | cons req later =>
          cases req <;> simp [test, Clerk.FrontIsThere, pc, pending, lacksReqs,
            accessed, bribeReqs]
  | cashier =>
      cases pending : (desks .cashier clerk.myLine).reqs with
      | nil =>
          simp [test, Clerk.FrontIsThere, pc, pending, isCertified, accessed]
      | cons req later =>
          have filled : (desks .cashier clerk.myLine).clientSSNs ≠ [] := by
            intro empty
            simp [pending, empty] at reqs
          cases req <;> simp [test, Clerk.FrontIsThere, pc, pending, isCertified,
            accessed, bribeReqs, filled]

/-! ### One segment -/

/-- What a segment must keep: neat desks and no empty access. -/
structure Tidy (desks : Desks) (remarks : List Remark) : Prop where
  neat : ∀ m i, (desks m i).Neat m
  quiet : .emptyAccess ∉ remarks

theorem Client.Does.tidy {numClerks : Kind → Nat} {ssnCount : Int}
    {rand pick : Nat} {desks : Desks} {c : Client} {segment : Segment Client}
    (does : c.Does numClerks ssnCount rand pick desks segment)
    (neat : ∀ m i, (desks m i).Neat m) (honest : c.bribed = false)
    (there : c.FrontIsThere rand desks) : Tidy segment.desks segment.remarks := by
  have set : ∀ {m i desk}, desk.Neat m → ∀ m' i',
      (desks.set m i desk m' i').Neat m' := fun this =>
    Desks.set_all (P := fun m desk => desk.Neat m) neat this
  cases does with
  | queueUp m i pc smallest busy =>
      exact ⟨set (queueUp_neat (neat m i) honest), by simp⟩
  | take m i pc =>
      exact ⟨set ⟨(neat m i).lineCount, (neat m i).reqs⟩, by simp⟩
  | greet m i pc =>
      refine ⟨set ?_, by simp⟩
      cases m <;> exact ⟨(neat _ i).lineCount, (neat _ i).reqs⟩
  | served m i pc satisfied =>
      have positive : 0 < (desks m i).clerkLineCount := by
        simp only [Client.FrontIsThere, pc] at there
        refine there.resolve_left ?_
        rintro ⟨rfl, dislikes⟩
        exact satisfied dislikes
      obtain ⟨neat', popped⟩ := quit_neat (neat m i) positive
      refine ⟨set neat', ?_⟩
      rw [popped]
      cases m <;> simp [recorded]
  | tooSoon m i n pc checked unsatisfied =>
      have positive : 0 < (desks m i).clerkLineCount := by
        simp only [Client.FrontIsThere, pc] at there
        refine there.resolve_left ?_
        rintro ⟨rfl, -⟩
        simp at checked
      obtain ⟨neat', popped⟩ := quit_neat (neat m i) positive
      exact ⟨set neat', by simp [popped]⟩
  | _ => exact ⟨neat, by simp⟩

theorem Client.Does.emptyAccess {numClerks : Kind → Nat} {ssnCount : Int}
    {rand pick : Nat} {desks : Desks} {c : Client} {segment : Segment Client}
    (does : c.Does numClerks ssnCount rand pick desks segment)
    (neat : ∀ m i, (desks m i).Neat m) (nobody : ¬ c.FrontIsThere rand desks) :
    .emptyAccess ∈ segment.remarks := by
  cases does with
  | served m i pc satisfied =>
      simp only [Client.FrontIsThere, pc, not_or] at nobody
      exact List.mem_append_right _ (quit_emptyAccess (neat m i) nobody.2)
  | tooSoon m i n pc checked unsatisfied =>
      simp only [Client.FrontIsThere, pc, not_or] at nobody
      exact quit_emptyAccess (neat m i) nobody.2
  | retake i pc dislikes => simp [Client.FrontIsThere, pc, dislikes] at nobody
  | create pc | finish pc | choose _ pc | pass pc | leaving pc | enter _ pc
  | queueUp _ _ pc | walkUp _ _ pc | take _ _ pc | lock _ _ pc | greet _ _ pc
  | await _ _ pc | yield _ _ _ pc | goodbye _ _ pc | leave _ _ pc =>
      simp [Client.FrontIsThere, pc] at nobody

theorem Clerk.Does.tidy {m : Kind} {clerkID pick : Nat} {desks : Desks}
    {clerk : Clerk} {segment : Segment Clerk}
    (does : clerk.Does m clerkID pick desks segment)
    (neat : ∀ m i, (desks m i).Neat m)
    (unbribed : (desks m clerk.myLine).Unbribed)
    (there : clerk.FrontIsThere m desks) : Tidy segment.desks segment.remarks := by
  have set : ∀ state m' i', (desks.set m clerk.myLine
      { desks m clerk.myLine with clerkState := state } m' i').Neat m' :=
    fun state => Desks.set_all (P := fun m desk => desk.Neat m) neat
      ⟨(neat m clerk.myLine).lineCount, (neat m clerk.myLine).reqs⟩
  have quiet : clerk.pc = .serve →
      .emptyAccess ∉ (test m (desks m clerk.myLine)).2 := fun pc access =>
    (test_emptyAccess (neat m clerk.myLine) unbribed pc).mp access there
  cases does with
  | callCustomer pc filled =>
      have front := (neat m clerk.myLine).pos_iff.mp filled
      exact ⟨neat, fun access => front (emptyAccess_mem_accessed.mp access)⟩
  | goOnBreak pc nobody other => exact ⟨set .onBreak, by simp⟩
  | goOnPictureBreak pc nobody picture => exact ⟨set .onBreak, by simp⟩
  | markBusy pc => exact ⟨set .busy, by simp⟩
  | startWork n pc passes =>
      rcases pc with pc | ⟨rfl, -⟩
      · exact ⟨neat, quiet pc⟩
      · exact ⟨neat, by simp [test]⟩
  | refuse pc checked fails => exact ⟨neat, quiet pc⟩
  | _ => exact ⟨neat, by simp⟩

theorem Clerk.Does.emptyAccess {m : Kind} {clerkID pick : Nat} {desks : Desks}
    {clerk : Clerk} {segment : Segment Clerk}
    (does : clerk.Does m clerkID pick desks segment)
    (neat : ∀ m i, (desks m i).Neat m)
    (unbribed : (desks m clerk.myLine).Unbribed)
    (nobody : ¬ clerk.FrontIsThere m desks) : .emptyAccess ∈ segment.remarks := by
  have serves : clerk.pc = .serve := by
    by_contra elsewhere
    apply nobody
    unfold Clerk.FrontIsThere
    split
    · exact absurd ‹_› elsewhere
    · exact absurd ‹_› elsewhere
    · trivial
  have access := (test_emptyAccess (neat m clerk.myLine) unbribed serves).mpr nobody
  cases does with
  | startWork n pc passes => exact access
  | refuse pc checked fails => exact access
  | present pc picture =>
      subst picture
      simp [test] at access
  | create pc | enter pc | callCustomer pc | goOnBreak pc | goOnPictureBreak pc
  | markBusy pc | takeLine pc | openMonitor pc | await pc | awaitOpinion pc
  | yield _ pc | finishWork pc | finishPicture pc | awaitLeave pc | close pc =>
      rw [serves] at pc
      cases pc

/-! ### Whole runs -/

/-- The counts match, and nobody has paid a bribe. -/
structure Orderly (office : Office) : Prop where
  unbribed : office.Unbribed
  neat : ∀ m i, (office.desks m i).Neat m
  quiet : .emptyAccess ∉ office.log

theorem Orderly.countsMatch {office : Office} (orderly : office.Orderly) :
    CountsMatch office where
  desks m i := (orderly.neat m i).desk_matches (orderly.unbribed.desks m i)
  accesses := orderly.quiet

theorem Orderly.of_kernel {office : Office} (orderly : office.Orderly)
    (kernel : Kernel Who Empty LockName CvName) :
    Orderly { office with kernel := kernel } :=
  ⟨⟨orderly.unbribed.desks, orderly.unbribed.clients, orderly.unbribed.clerks⟩,
    orderly.neat, orderly.quiet⟩

theorem Orderly.runs {setup : Setup} {rand pick : Nat} {office after : Office}
    {who : Who} {call : Option Call} (orderly : office.Orderly)
    (current : office.kernel.currentThread = who)
    (there : FrontIsThere office (.exec rand pick))
    (runs : Runs setup rand pick office who after call) : after.Orderly := by
  have unbribed := orderly.unbribed.runs runs
  simp only [FrontIsThere, current] at there
  cases runs with
  | clerk m n segment does =>
      obtain ⟨neat, quiet⟩ := does.tidy orderly.neat (orderly.unbribed.desks m _) there
      exact ⟨unbribed, neat, by simp [quiet, orderly.quiet]⟩
  | customer n segment does =>
      obtain ⟨neat, quiet⟩ := does.tidy orderly.neat (orderly.unbribed.clients n) there
      exact ⟨unbribed, neat, by simp [quiet, orderly.quiet]⟩
  | _ => exact ⟨unbribed, orderly.neat, orderly.quiet⟩

theorem Orderly.runs_emptyAccess {setup : Setup} {rand pick : Nat}
    {office after : Office} {who : Who} {call : Option Call}
    (orderly : office.Orderly) (current : office.kernel.currentThread = who)
    (nobody : ¬ FrontIsThere office (.exec rand pick))
    (runs : Runs setup rand pick office who after call) :
    .emptyAccess ∈ after.log := by
  simp only [FrontIsThere, current] at nobody
  cases runs with
  | clerk m n segment does =>
      exact List.mem_append_left _
        (does.emptyAccess orderly.neat (orderly.unbribed.desks m _) nobody)
  | customer n segment does =>
      exact List.mem_append_left _ (does.emptyAccess orderly.neat nobody)
  | _ => exact absurd trivial nobody

theorem Orderly.step {setup : Setup} {d : Discipline} {office office' : Office}
    {move : Move} (orderly : office.Orderly) (there : FrontIsThere office move)
    (step : office.step setup d move = some office') : office'.Orderly := by
  cases orderly.unbribed.moves step with
  | silent rand pick after running runs => exact orderly.runs rfl there runs
  | call rand pick after op kernel running runs calls called =>
      exact (orderly.runs rfl there runs).of_kernel kernel
  | system action kernel notCall stepped => exact orderly.of_kernel kernel

theorem Orderly.step_emptyAccess {setup : Setup} {d : Discipline}
    {office office' : Office} {move : Move} (orderly : office.Orderly)
    (nobody : ¬ FrontIsThere office move)
    (step : office.step setup d move = some office') :
    .emptyAccess ∈ office'.log := by
  cases orderly.unbribed.moves step with
  | silent rand pick after running runs =>
      exact orderly.runs_emptyAccess rfl nobody runs
  | call rand pick after op kernel running runs calls called =>
      have access := orderly.runs_emptyAccess rfl nobody runs
      exact access
  | system action kernel notCall stepped => exact absurd trivial nobody

theorem boot_orderly (setup : Setup) : (boot setup).Orderly where
  unbribed := boot_unbribed setup
  neat _ _ := ⟨rfl, fun _ => rfl⟩
  quiet := List.not_mem_nil

/-- In every run, the counts match the queues in every state and no empty
queue is looked at, exactly when every step finds what it takes: a customer
is served only while its line has somebody in it, the passport clerk tests
only customers in line whose requirements are not met, and the cashier only
customers in line who are certified. -/
theorem counts_match_iff {setup : Setup} {d : Discipline} {office : Office}
    {moves : List Move}
    (run : (officeMachine setup d).exec (boot setup) moves = some office) :
    (officeMachine setup d).Along CountsMatch (boot setup) moves ↔
      (officeMachine setup d).Steps FrontIsThere (boot setup) moves := by
  refine Lib.Machine.along_iff_steps (I := Orderly) (A := fun _ _ => True)
    ?_ (fun _ orderly => orderly.countsMatch) ?_ (boot_orderly setup) ?_ run
  · intro before move after orderly _ there step
    exact orderly.step there step
  · intro before move after orderly _ nobody step counts
    exact counts.accesses (orderly.step_emptyAccess nobody step)
  · exact Lib.Machine.steps_true _ _

/-! ### Who is served has got in line -/

/-- A customer that is served, and at the picture counter likes its picture, has
got in that line. -/
def CustomerFromLine (office : Office) (rand n : Nat) : Prop :=
  match (office.clients n).pc with
  | .join m (.served i) => (m = .picture ∧ rand % 2 = 0) ∨ office.InLine m i n
  | _ => True

/-- The passport clerk and the cashier make their test while somebody that has
got in their line is still to be served, and not where it goes on to the bribe
queue: the requirements at the front are not met, or the certification at the
front is there. -/
def ClerkFromLine (setup : Setup) (office : Office) (m : Kind) (k : Nat) : Prop :=
  match m, (office.clerks m k).pc with
  | .passport, .serve =>
      (∃ n < setup.numCustomers, office.InLine .passport (office.clerks m k).myLine n) ∧
        (office.desks .passport (office.clerks m k).myLine).reqs.head? ≠ some true
  | .cashier, .serve =>
      (∃ n < setup.numCustomers, office.InLine .cashier (office.clerks m k).myLine n) ∧
        (office.desks .cashier (office.clerks m k).myLine).reqs.head? ≠ some false
  | _, _ => True

/-- What is popped or tested in this step has been pushed. -/
def FromLine (setup : Setup) (office : Office) : Move → Prop
  | .exec rand _ =>
      match office.kernel.currentThread with
      | .customer n => office.CustomerFromLine rand n
      | .clerk m k => office.ClerkFromLine setup m k
      | _ => True
  | .system _ => True

/-- Every SSN queue is as long as there are customers in its line. -/
structure Tallied (office : Office) : Prop where
  orderly : office.Orderly
  registered : office.Registered
  tally : ∀ m i, ∃ waiting, office.Members m i waiting ∧
    waiting.length = (office.desks m i).clientSSNs.length

theorem Tallied.of_kernel {office : Office} (tallied : office.Tallied)
    (kernel : Kernel Who Empty LockName CvName) :
    Tallied { office with kernel := kernel } where
  orderly := tallied.orderly.of_kernel kernel
  registered := ⟨tallied.registered.bound, tallied.registered.distinct⟩
  tally m i := by
    obtain ⟨waiting, members, length⟩ := tallied.tally m i
    exact ⟨waiting, members.of_kernel kernel, length⟩

/-- Somebody in line is somebody in the queue. -/
theorem Tallied.pos {office : Office} (tallied : office.Tallied) {m : Kind} {i n : Nat}
    (inLine : office.InLine m i n) : 0 < (office.desks m i).clerkLineCount := by
  obtain ⟨waiting, members, length⟩ := tallied.tally m i
  rw [(tallied.orderly.neat m i).lineCount, ← length]
  have some := List.length_pos_of_mem ((members.mem_iff n).mpr inLine)
  omega

/-- Where everything comes from the line, what a step takes is there. -/
theorem Tallied.frontIsThere {setup : Setup} {office : Office} {move : Move}
    (tallied : office.Tallied) (fromLine : FromLine setup office move) :
    FrontIsThere office move := by
  have pending : ∀ {m i n}, m = .passport ∨ m = .cashier → office.InLine m i n →
      (office.desks m i).reqs ≠ [] := by
    intro m i n checked inLine empty
    have neat := tallied.orderly.neat m i
    have length := neat.reqs checked
    have filled := neat.pos_iff.mp (tallied.pos inLine)
    rw [empty] at length
    exact filled (List.length_eq_zero_iff.mp length.symm)
  cases move with
  | system action => trivial
  | exec rand pick =>
      simp only [FromLine] at fromLine
      simp only [FrontIsThere]
      split <;> rename_i current
      · rename_i n
        simp only [current] at fromLine
        unfold CustomerFromLine at fromLine
        unfold Client.FrontIsThere
        split
        · rename_i m i pc
          simp only [pc] at fromLine
          exact fromLine.imp_right tallied.pos
        · trivial
      · rename_i m k
        simp only [current] at fromLine
        unfold ClerkFromLine at fromLine
        unfold Clerk.FrontIsThere
        split <;> rename_i pc
        · simp only [pc] at fromLine
          obtain ⟨⟨n, -, inLine⟩, decides⟩ := fromLine
          cases contents : (office.desks .passport (office.clerks .passport k).myLine).reqs with
          | nil => exact absurd contents (pending (.inl rfl) inLine)
          | cons req later =>
              cases req with
              | false => rfl
              | true => simp [contents] at decides
        · simp only [pc] at fromLine
          obtain ⟨⟨n, -, inLine⟩, decides⟩ := fromLine
          cases contents : (office.desks .cashier (office.clerks .cashier k).myLine).reqs with
          | nil => exact absurd contents (pending (.inr rfl) inLine)
          | cons req later =>
              cases req with
              | false => simp [contents] at decides
              | true => rfl
        · trivial
      · trivial

/-- A customer that dislikes its picture stays at the counter. -/
theorem Client.Does.dislikes {numClerks : Kind → Nat} {ssnCount : Int}
    {rand pick : Nat} {desks : Desks} {c : Client} {segment : Segment Client}
    (does : c.Does numClerks ssnCount rand pick desks segment) {i : Nat}
    (pc : c.pc = .join .picture (.served i)) (even : rand % 2 = 0) :
    segment.next.AtLine .picture i := by
  cases does with
  | retake i' pc' dislikes =>
      rw [pc] at pc'
      cases pc'
      exact ⟨rfl, rfl⟩
  | served m i' pc' satisfied =>
      rw [pc] at pc'
      cases pc'
      exact absurd even satisfied
  | tooSoon m i' n pc' checked unsatisfied =>
      rw [pc] at pc'
      cases pc'
      simp at checked
  | create pc' | finish pc' | choose _ pc' | pass pc' | leaving pc' | enter _ pc'
  | queueUp _ _ pc' | walkUp _ _ pc' | take _ _ pc' | lock _ _ pc' | greet _ _ pc'
  | await _ _ pc' | yield _ _ _ pc' | goodbye _ _ pc' | leave _ _ pc' =>
      rw [pc] at pc'
      cases pc'

/-- A segment of a customer: who gets in line pushes, and who has been in line
pops. -/
theorem Tallied.tally_afterClient {setup : Setup} {office : Office} {n rand pick : Nat}
    {segment : Segment Client} (tallied : office.Tallied)
    (fromLine : office.CustomerFromLine rand n)
    (does : (office.clients n).Does setup.numClerks (office.createCustomer n) rand
      pick office.desks segment) (m : Kind) (i : Nat) :
    ∃ waiting, (office.afterClient n segment).Members m i waiting ∧
      waiting.length = (segment.desks m i).clientSSNs.length := by
  obtain ⟨waiting, members, length⟩ := tallied.tally m i
  have registered := tallied.registered
  cases does.lineChange m i with
  | queues pc next desk call remarks =>
      have before : ¬ office.InLine m i n := by
        simp [InLine, Client.InLine, Client.AtLine, pc]
      have after : (office.afterClient n segment).InLine m i n := by
        simp [InLine, Client.InLine, Client.AtLine, next, remarks, queuedIn]
      refine ⟨waiting ++ [n], members.queues registered does before after, ?_⟩
      have honest := tallied.orderly.unbribed.clients n
      rw [desk, List.length_append, length]
      cases m <;> simp [Client.queueUp, Desk.joinLine, Desk.giveReqs, honest]
  | quits pc gone desk =>
      have inLine : office.InLine m i n := by
        simp only [CustomerFromLine, pc] at fromLine
        refine fromLine.resolve_left ?_
        rintro ⟨rfl, even⟩
        exact gone _ _ (does.dislikes pc even)
      have member := (members.mem_iff n).mpr inLine
      refine ⟨waiting.erase n, members.quits registered does ?_, ?_⟩
      · rintro ⟨atLine, -⟩
        rw [afterClient_self] at atLine
        exact gone m i atLine
      · rw [desk, List.length_erase_of_mem member, length]
        cases m <;> simp [Client.quit, Desk.leaveLine, Desk.popReqs]
  | keeps sameLine same =>
      refine ⟨waiting, members.keeps registered does ?_, ?_⟩
      · have log := same office.log
        simpa [InLine] using log
      · rw [length, sameLine.clientSSNs]

theorem Tallied.runs {setup : Setup} {rand pick : Nat} {office after : Office}
    {who : Who} {call : Option Call} (tallied : office.Tallied)
    (current : office.kernel.currentThread = who)
    (fromLine : FromLine setup office (.exec rand pick))
    (runs : Runs setup rand pick office who after call) : after.Tallied := by
  have orderly := tallied.orderly.runs current (tallied.frontIsThere fromLine) runs
  simp only [FromLine, current] at fromLine
  cases runs with
  | clerk m k segment does =>
      refine ⟨orderly, ⟨tallied.registered.bound, tallied.registered.distinct⟩,
        fun m' i => ?_⟩
      obtain ⟨waiting, members, length⟩ := tallied.tally m' i
      refine ⟨waiting, members.afterClerk does, ?_⟩
      rw [length, afterClerk_desks, (does.sameLine m' i).clientSSNs]
  | customer n segment does =>
      exact ⟨orderly, tallied.registered.afterClient does,
        tallied.tally_afterClient fromLine does⟩
  | _ =>
      exact ⟨orderly, ⟨tallied.registered.bound, tallied.registered.distinct⟩,
        fun m i => (tallied.tally m i).imp fun waiting tally =>
          ⟨tally.1.congr fun _ => Iff.rfl, tally.2⟩⟩

theorem Tallied.step {setup : Setup} {d : Discipline} {office office' : Office}
    {move : Move} (tallied : office.Tallied) (fromLine : FromLine setup office move)
    (step : office.step setup d move = some office') : office'.Tallied := by
  cases tallied.orderly.unbribed.moves step with
  | silent rand pick after running runs => exact tallied.runs rfl fromLine runs
  | call rand pick after op kernel running runs calls called =>
      exact (tallied.runs rfl fromLine runs).of_kernel kernel
  | system action kernel notCall stepped => exact tallied.of_kernel kernel

theorem boot_tallied (setup : Setup) : (boot setup).Tallied where
  orderly := boot_orderly setup
  registered := boot_registered setup
  tally m i := ⟨[], Members.boot setup m i, rfl⟩

/-- In every run in which each customer that is served has got in that line, and
the passport clerk and the cashier make their test only for somebody in line and
where the front of their queue decides it, the counts match the queues in every
state, and no empty queue is looked at. -/
theorem counts_match {setup : Setup} {d : Discipline} {office : Office}
    {moves : List Move}
    (run : (officeMachine setup d).exec (boot setup) moves = some office)
    (fromLine : (officeMachine setup d).Steps (FromLine setup) (boot setup) moves) :
    (officeMachine setup d).Along CountsMatch (boot setup) moves := by
  have tallied : (officeMachine setup d).Along Tallied (boot setup) moves :=
    Lib.Machine.along_of_guarded
      (fun before move after tallied fromLine step => tallied.step fromLine step)
      (boot_tallied setup) fromLine
  have there : (officeMachine setup d).Steps FrontIsThere (boot setup) moves :=
    tallied.steps fromLine fun _ _ tallied fromLine => tallied.frontIsThere fromLine
  exact (counts_match_iff run).mpr there

instance (office : Office) (rand n : Nat) : Decidable (office.CustomerFromLine rand n) := by
  unfold CustomerFromLine
  split <;> infer_instance

instance (setup : Setup) (office : Office) (m : Kind) (k : Nat) :
    Decidable (office.ClerkFromLine setup m k) := by
  unfold ClerkFromLine
  split <;> infer_instance

instance (setup : Setup) (office : Office) :
    (move : Move) → Decidable (FromLine setup office move)
  | .system _ => inferInstanceAs (Decidable True)
  | .exec _ _ => by
      dsimp only [FromLine]
      exact Who.casesOn office.kernel.currentThread inferInstance
        (fun _ _ => inferInstance) inferInstance (fun _ => inferInstance)
        fun _ => inferInstance

/-- The first of two customers walks up to the passport clerk, which has not
started, and is not given the CPU again.  The second one gets in line, is called,
tested and refused, and leaves the line. -/
def refusedInTurn : List Move := List.flatten [
  calls 4, [.exec 0 0, .system (.dispatch 0)], pass 2,
  -- customer 0 finds the clerk available
  [.exec 0 0, .exec 2 0], calls 1, [.exec 0 0, .exec 0 0], pass 1,
  -- customer 1 finds it busy, and waits in line
  [.exec 0 0, .exec 2 0], calls 1, [.exec 0 0, .system (.dispatch 0), .system .endTick],
  -- the clerk calls customer 1, tests its requirements and closes the counter
  [.exec 0 0], calls 7, [.exec 0 0], pass 3,
  -- customer 1 comes to the counter, where its `Wait` is refused
  calls 4, [.exec 0 0]]

/-- In this run somebody gets in line, is called and tested, and is popped. -/
theorem counts_match_in_turn :
    ∃ office,
      (officeMachine (oneClerk .passport 2) .fifo).exec
        (boot (oneClerk .passport 2)) refusedInTurn = some office ∧
      (office.clients 1).pc = .join .passport (.tooSoon 0 100) ∧
      .queues 1 .passport 0 ∈ office.log ∧
      (office.desks .passport 0).clerkLineCount = 0 ∧
      (officeMachine (oneClerk .passport 2) .fifo).Along CountsMatch
        (boot (oneClerk .passport 2)) refusedInTurn := by
  obtain ⟨office, run, ends⟩ : ∃ office,
      (officeMachine (oneClerk .passport 2) .fifo).exec
        (boot (oneClerk .passport 2)) refusedInTurn = some office ∧
      ((office.clients 1).pc, decide (.queues 1 .passport 0 ∈ office.log),
        (office.desks .passport 0).clerkLineCount) =
          (.join .passport (.tooSoon 0 100), true, 0) :=
    Option.map_eq_some_iff.mp (by decide +kernel)
  simp only [Prod.mk.injEq, decide_eq_true_eq] at ends
  exact ⟨office, run, ends.1, ends.2.1, ends.2.2, counts_match run (by decide +kernel)⟩

/-- The only customer finds the clerk on its break, is not in line, and pops
the empty queue when it has been served. -/
theorem idle_clerk_is_popped :
    ∃ office,
      (officeMachine (oneClerk .application 1) .fifo).exec
        (boot (oneClerk .application 1)) (oneVisit ++ [.exec 0 0]) = some office ∧
      (office.desks .application 0).clerkLineCount = -1 ∧
      .emptyAccess ∈ office.log ∧ ¬ CountsMatch office := by
  obtain ⟨office, run, ends⟩ : ∃ office,
      (officeMachine (oneClerk .application 1) .fifo).exec
        (boot (oneClerk .application 1)) (oneVisit ++ [.exec 0 0]) = some office ∧
      ((office.desks .application 0).clerkLineCount,
        decide (.emptyAccess ∈ office.log)) = (-1, true) :=
    Option.map_eq_some_iff.mp (by decide +kernel)
  simp only [Prod.mk.injEq, decide_eq_true_eq] at ends
  exact ⟨office, run, ends.1, ends.2, fun counts => counts.accesses ends.2⟩

end Nachos.Office
