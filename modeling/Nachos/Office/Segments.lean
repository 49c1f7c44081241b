/-
Module: Nachos.Office.Segments
Purpose: Everything a segment of a customer or of a clerk can do, once.  No
  customer ever pays a bribe, since nothing calls `moveUpInLine`: the bribe
  lines stay as the constructors left them, and the relations below have no
  cases for them.
Trusted boundary: none
Main exports: Client.Does, Client.step_does, Clerk.Does, Clerk.step_does,
  Unbribed, unbribed_exec
-/
import Nachos.Office.System

namespace Nachos.Office

open LockName CvName

/-- Nobody has got in the bribe line of this desk. -/
structure Desk.Unbribed (desk : Desk) : Prop where
  lineCount : desk.clerkBribeLineCount = 0
  clientSSNs : desk.bribeClientSSNs = []
  reqs : desk.bribeReqs = []

/-! ### Customers -/

namespace Client

/-- What the customer does to the desk when it arrives at the counter. -/
def arrive (m : Kind) (desk : Desk) : Desk :=
  match m with
  | .picture => { desk with picturesTaken := false }
  | _ => desk

/-- The customer likes its picture, or has what the clerk asks for. -/
def Satisfied (m : Kind) (rand : Nat) (c : Client) : Prop :=
  match m with
  | .application => True
  | .picture => rand % 2 ≠ 0
  | .passport => (c.applicationAccepted && c.pictureTaken) = true
  | .cashier => c.certified = true

/-- The flag that the customer sets when it has been served. -/
def stamp (m : Kind) (c : Client) : Client :=
  match m with
  | .application => { c with applicationAccepted := true }
  | .picture => { c with pictureTaken := true }
  | .passport => { c with certified := true }
  | .cashier => { c with done := true }

def recorded (m : Kind) (i : Nat) (c : Client) : List Remark :=
  if m = .picture then [] else [.records c.ssn m i]

/-- What a customer that has paid no bribe pops when it has been served. -/
def quit (m : Kind) (desk : Desk) : Desk × List Remark :=
  match m with
  | .application => desk.leaveLine false
  | .picture => ({ desk with picturesTaken := true } : Desk).leaveLine false
  | .passport | .cashier =>
      (((desk.leaveLine false).1.popReqs false).1,
        ((desk.leaveLine false).1.popReqs false).2 ++ (desk.leaveLine false).2)

theorem arrive_line (m : Kind) (desk : Desk) :
    (arrive m desk).clerkState = desk.clerkState ∧
      (arrive m desk).clerkLineCount = desk.clerkLineCount := by
  cases m <;> exact ⟨rfl, rfl⟩

theorem queueUp_line {c : Client} (honest : c.bribed = false) (m : Kind)
    (desk : Desk) :
    (c.queueUp m desk).clerkState = desk.clerkState ∧
      (c.queueUp m desk).clerkLineCount = desk.clerkLineCount + 1 := by
  cases m <;> simp [queueUp, Desk.joinLine, Desk.giveReqs, honest]

theorem quit_line (m : Kind) (desk : Desk) :
    (quit m desk).1.clerkState = desk.clerkState ∧
      (quit m desk).1.clerkLineCount = desk.clerkLineCount - 1 := by
  cases m <;> simp [quit, Desk.leaveLine, Desk.popReqs]

/-- Everything a customer that has paid no bribe can do in one segment. -/
inductive Does (numClerks : Kind → Nat) (ssnCount : Int) (rand pick : Nat)
    (desks : Desks) (c : Client) : Segment Client → Prop where
  | create (pc : c.pc = .create) :
      Does numClerks ssnCount rand pick desks c
        ⟨construct ssnCount, desks, none, []⟩
  | finish (pc : c.pc = .choose) (done : c.done = true) :
      Does numClerks ssnCount rand pick desks c
        ⟨{ c with pc := .gone }, desks, some .finish, []⟩
  | choose (m : Kind) (pc : c.pc = .choose) (notDone : c.done = false)
      (chosen : c.chooseLine rand = some m) :
      Does numClerks ssnCount rand pick desks c
        ⟨{ c with pc := .join m .enter }, desks, none, []⟩
  | pass (pc : c.pc = .choose) (notDone : c.done = false)
      (chosen : c.chooseLine rand = none) :
      Does numClerks ssnCount rand pick desks c
        ⟨{ c with pc := .leaving }, desks, none, []⟩
  | leaving (pc : c.pc = .leaving) :
      Does numClerks ssnCount rand pick desks c
        ⟨{ c with pc := .choose }, desks, none, [.leaves c.ssn]⟩
  | enter (m : Kind) (pc : c.pc = .join m .enter) :
      Does numClerks ssnCount rand pick desks c
        ⟨{ c with pc := .join m .look }, desks,
          some (.acquire (monitorLock m)), []⟩
  | queueUp (m : Kind) (i : Nat) (pc : c.pc = .join m .look)
      (smallest : getSmallestLine m (numClerks m) (desks m) = some i)
      (busy : (desks m i).clerkState = .busy) :
      Does numClerks ssnCount rand pick desks c
        ⟨{ c with pc := .join m (.take i) },
          desks.set m i (c.queueUp m (desks m i)),
          some (.wait (clerkLineCV m i) (some (monitorLock m))),
          [.queues c.ssn m i, .joins c.ssn m i]⟩
  | walkUp (m : Kind) (i : Nat) (pc : c.pc = .join m .look)
      (smallest : getSmallestLine m (numClerks m) (desks m) = some i)
      (idle : (desks m i).clerkState ≠ .busy) :
      Does numClerks ssnCount rand pick desks c
        ⟨{ c with pc := .join m (.take i) }, desks, none, [.joins c.ssn m i]⟩
  | take (m : Kind) (i : Nat) (pc : c.pc = .join m (.take i)) :
      Does numClerks ssnCount rand pick desks c
        ⟨{ c with pc := .join m (.lock i) },
          desks.set m i { desks m i with clerkState := .busy },
          some (.release (monitorLock m)), []⟩
  | lock (m : Kind) (i : Nat) (pc : c.pc = .join m (.lock i)) :
      Does numClerks ssnCount rand pick desks c
        ⟨{ c with pc := .join m (.greet i) }, desks,
          some (.acquire (clerkLineLocks m i)), []⟩
  | greet (m : Kind) (i : Nat) (pc : c.pc = .join m (.greet i)) :
      Does numClerks ssnCount rand pick desks c
        ⟨{ c with pc := .join m (.await i) },
          desks.set m i (arrive m (desks m i)),
          some (.signal (clerkLineCV m i) (some (clerkLineLocks m i))), []⟩
  | await (m : Kind) (i : Nat) (pc : c.pc = .join m (.await i)) :
      Does numClerks ssnCount rand pick desks c
        ⟨{ c with pc := .join m (.served i) }, desks,
          some (.wait (clerkLineCV m i) (some (clerkLineLocks m i))), []⟩
  | retake (i : Nat) (pc : c.pc = .join .picture (.served i))
      (dislikes : rand % 2 = 0) :
      Does numClerks ssnCount rand pick desks c
        ⟨{ c with pc := .join .picture (.await i) }, desks,
          some (.signal (clerkLineCV .picture i)
            (some (clerkLineLocks .picture i))), []⟩
  | served (m : Kind) (i : Nat) (pc : c.pc = .join m (.served i))
      (satisfied : c.Satisfied m rand) :
      Does numClerks ssnCount rand pick desks c
        ⟨{ c.stamp m with pc := .join m (.leave i) },
          desks.set m i (quit m (desks m i)).1,
          some (.signal (clerkLineCV m i) (some (clerkLineLocks m i))),
          c.recorded m i ++ (quit m (desks m i)).2⟩
  | tooSoon (m : Kind) (i n : Nat) (pc : c.pc = .join m (.served i))
      (checked : m = .passport ∨ m = .cashier)
      (unsatisfied : ¬ c.Satisfied m rand) :
      Does numClerks ssnCount rand pick desks c
        ⟨{ c with pc := .join m (.tooSoon i n) },
          desks.set m i (quit m (desks m i)).1, none, (quit m (desks m i)).2⟩
  | yield (m : Kind) (i n : Nat) (pc : c.pc = .join m (.tooSoon i (n + 1))) :
      Does numClerks ssnCount rand pick desks c
        ⟨{ c with pc := .join m (.tooSoon i n) }, desks, some (.yield pick), []⟩
  | goodbye (m : Kind) (i : Nat) (pc : c.pc = .join m (.tooSoon i 0)) :
      Does numClerks ssnCount rand pick desks c
        ⟨{ c with pc := .join m (.leave i) }, desks,
          some (.signal (clerkLineCV m i) (some (clerkLineLocks m i))), []⟩
  | leave (m : Kind) (i : Nat) (pc : c.pc = .join m (.leave i)) :
      Does numClerks ssnCount rand pick desks c
        ⟨{ c with pc := .leaving }, desks,
          some (.release (clerkLineLocks m i)), []⟩

section

variable {numClerks : Kind → Nat} {ssnCount : Int} {rand pick : Nat}
variable {desks : Desks} {c : Client} {segment : Segment Client}

/-- What the four `join*Line` methods have in common. -/
theorem joinLine_does {m : Kind} {arrives : Desk → Desk}
    {serves : Nat → Nat → Desks → Client → Segment Client} {stage : Stage}
    (pc : c.pc = .join m stage) (arrival : arrives = arrive m)
    (service : ∀ i, stage = .served i →
      Does numClerks ssnCount rand pick desks c (serves i rand desks c))
    (joined : joinLine m arrives serves (numClerks m) rand pick desks c stage =
      some segment) :
    Does numClerks ssnCount rand pick desks c segment := by
  subst arrival
  cases stage with
  | enter =>
      cases joined
      exact .enter m pc
  | look =>
      obtain ⟨i, smallest, rfl⟩ := Option.map_eq_some_iff.mp joined
      split
      · exact .queueUp m i pc smallest ‹_›
      · exact .walkUp m i pc smallest ‹_›
  | take i =>
      cases joined
      exact .take m i pc
  | lock i =>
      cases joined
      exact .lock m i pc
  | greet i =>
      cases joined
      exact .greet m i pc
  | await i =>
      cases joined
      exact .await m i pc
  | served i =>
      cases joined
      exact service i rfl
  | tooSoon i yieldCalls =>
      cases yieldCalls with
      | zero =>
          cases joined
          exact .goodbye m i pc
      | succ n =>
          cases joined
          exact .yield m i n pc
  | leave i =>
      cases joined
      exact .leave m i pc

theorem applicationServed_does {i : Nat} (honest : c.bribed = false)
    (pc : c.pc = .join .application (.served i)) :
    Does numClerks ssnCount rand pick desks c (applicationServed i rand desks c) := by
  cases c
  cases honest
  exact .served .application i pc trivial

theorem pictureServed_does {i : Nat} (honest : c.bribed = false)
    (pc : c.pc = .join .picture (.served i)) :
    Does numClerks ssnCount rand pick desks c (pictureServed i rand desks c) := by
  cases c
  cases honest
  unfold pictureServed
  split
  · exact .retake i pc ‹_›
  · exact .served .picture i pc ‹_›

theorem passportServed_does {i : Nat} (honest : c.bribed = false)
    (pc : c.pc = .join .passport (.served i)) :
    Does numClerks ssnCount rand pick desks c (passportServed i rand desks c) := by
  cases c
  cases honest
  simp only [passportServed]
  split
  · exact .served .passport i pc ‹_›
  · exact .tooSoon .passport i _ pc (.inl rfl) ‹_›

theorem cashierServed_does {i : Nat} (honest : c.bribed = false)
    (pc : c.pc = .join .cashier (.served i)) :
    Does numClerks ssnCount rand pick desks c (cashierServed i rand desks c) := by
  cases c
  cases honest
  simp only [cashierServed]
  split
  · exact .served .cashier i pc ‹_›
  · exact .tooSoon .cashier i _ pc (.inr rfl) ‹_›

/-- A segment of a customer is one of the cases above. -/
theorem step_does (honest : c.bribed = false)
    (step : c.step numClerks ssnCount rand pick desks = some segment) :
    Does numClerks ssnCount rand pick desks c segment := by
  unfold Client.step at step
  split at step
  · cases step
    exact .create ‹_›
  · rename_i pc
    split at step
    · cases step
      exact .finish pc ‹_›
    · rename_i notDone
      cases step
      cases chosen : c.chooseLine rand with
      | none => exact .pass pc (by simpa using notDone) chosen
      | some m => exact .choose m pc (by simpa using notDone) chosen
  · rename_i m stage pc
    cases m with
    | application =>
        refine joinLine_does pc rfl ?_ step
        rintro i rfl
        exact applicationServed_does honest pc
    | picture =>
        refine joinLine_does pc rfl ?_ step
        rintro i rfl
        exact pictureServed_does honest pc
    | passport =>
        refine joinLine_does pc rfl ?_ step
        rintro i rfl
        exact passportServed_does honest pc
    | cashier =>
        refine joinLine_does pc rfl ?_ step
        rintro i rfl
        exact cashierServed_does honest pc
  · cases step
    exact .leaving ‹_›
  · cases step

end

end Client

/-! ### Clerks -/

namespace Clerk

/-- A clerk that has called no briber is at one of the points of its own
`run` method. -/
structure Regular (m : Kind) (clerk : Clerk) : Prop where
  honest : clerk.bribed = false
  lookRegular : clerk.pc ≠ .lookRegular
  pictures : m ≠ .picture →
    clerk.pc ≠ .takeLine ∧ clerk.pc ≠ .develop ∧ clerk.pc ≠ .awaitOpinion

/-- What a clerk looks at when its customer has come, and whether it goes to
work then. -/
def test (m : Kind) (desk : Desk) : Bool × List Remark :=
  match m with
  | .application => (true, [])
  | .picture => (desk.picturesTaken, [])
  | .passport => (!(lacksReqs desk false).1, (lacksReqs desk false).2)
  | .cashier => ((isCertified desk false).1,
      (isCertified desk false).2 ++ accessed desk.clientSSNs)

/-- Everything such a clerk can do in one segment. -/
inductive Does (m : Kind) (clerkID pick : Nat) (desks : Desks) (clerk : Clerk) :
    Segment Clerk → Prop where
  | create (pc : clerk.pc = .create) :
      Does m clerkID pick desks clerk
        ⟨{ clerk with myLine := clerkID, pc := .enter }, desks, none, []⟩
  | enter (pc : clerk.pc = .enter) :
      Does m clerkID pick desks clerk
        ⟨{ clerk with pc := .look }, desks, some (.acquire (monitorLock m)), []⟩
  | callCustomer (pc : clerk.pc = .look)
      (filled : 0 < (desks m clerk.myLine).clerkLineCount) :
      Does m clerkID pick desks clerk
        ⟨{ clerk with
            frontSSN := (desks m clerk.myLine).clientSSNs.head?
            bribed := false
            pc := .markBusy },
          desks,
          some (.signal (clerkLineCV m clerk.myLine) (some (monitorLock m))),
          accessed (desks m clerk.myLine).clientSSNs⟩
  | goOnBreak (pc : clerk.pc = .look)
      (nobody : ¬ 0 < (desks m clerk.myLine).clerkLineCount)
      (other : m ≠ .picture) :
      Does m clerkID pick desks clerk
        ⟨{ clerk.newRound with pc := .openMonitor },
          desks.set m clerk.myLine
            { desks m clerk.myLine with clerkState := .onBreak },
          some (.acquire (clerkLineLocks m clerk.myLine)), []⟩
  | goOnPictureBreak (pc : clerk.pc = .look)
      (nobody : ¬ 0 < (desks m clerk.myLine).clerkLineCount)
      (picture : m = .picture) :
      Does m clerkID pick desks clerk
        ⟨{ clerk.newRound with pc := .takeLine },
          desks.set m clerk.myLine
            { desks m clerk.myLine with clerkState := .onBreak },
          some (.wait (clerkLineCV m clerk.myLine)
            (some (clerkLineLocks m clerk.myLine))), []⟩
  | markBusy (pc : clerk.pc = .markBusy) :
      Does m clerkID pick desks clerk
        ⟨{ clerk with pc := .openMonitor },
          desks.set m clerk.myLine
            { desks m clerk.myLine with clerkState := .busy },
          some (.acquire (clerkLineLocks m clerk.myLine)), []⟩
  | takeLine (pc : clerk.pc = .takeLine) :
      Does m clerkID pick desks clerk
        ⟨{ clerk with pc := .openMonitor }, desks,
          some (.acquire (clerkLineLocks m clerk.myLine)), []⟩
  | openMonitor (pc : clerk.pc = .openMonitor) :
      Does m clerkID pick desks clerk
        ⟨{ clerk with pc := .await }, desks, some (.release (monitorLock m)), []⟩
  | await (pc : clerk.pc = .await) :
      Does m clerkID pick desks clerk
        ⟨{ clerk with pc := .serve }, desks,
          some (.wait (clerkLineCV m clerk.myLine)
            (some (clerkLineLocks m clerk.myLine))), []⟩
  | startWork (n : Nat)
      (pc : clerk.pc = .serve ∨ (m = .picture ∧ clerk.pc = .develop))
      (passes : (test m (desks m clerk.myLine)).1 = true) :
      Does m clerkID pick desks clerk
        ⟨{ clerk with pc := .working n }, desks, none,
          (test m (desks m clerk.myLine)).2⟩
  | refuse (pc : clerk.pc = .serve) (checked : m = .passport ∨ m = .cashier)
      (fails : (test m (desks m clerk.myLine)).1 = false) :
      Does m clerkID pick desks clerk
        ⟨{ clerk with pc := .awaitLeave }, desks,
          some (.signal (clerkLineCV m clerk.myLine)
            (some (clerkLineLocks m clerk.myLine))),
          (test m (desks m clerk.myLine)).2⟩
  | present (pc : clerk.pc = .serve ∨ clerk.pc = .develop)
      (picture : m = .picture) :
      Does m clerkID pick desks clerk
        ⟨{ clerk with pc := .awaitOpinion }, desks,
          some (.signal (clerkLineCV m clerk.myLine)
            (some (clerkLineLocks m clerk.myLine))), []⟩
  | awaitOpinion (pc : clerk.pc = .awaitOpinion) :
      Does m clerkID pick desks clerk
        ⟨{ clerk with pc := .develop }, desks,
          some (.wait (clerkLineCV m clerk.myLine)
            (some (clerkLineLocks m clerk.myLine))), []⟩
  | yield (n : Nat) (pc : clerk.pc = .working (n + 1)) :
      Does m clerkID pick desks clerk
        ⟨{ clerk with pc := .working n }, desks, some (.yield pick), []⟩
  | finishWork (pc : clerk.pc = .working 0) (other : m ≠ .picture) :
      Does m clerkID pick desks clerk
        ⟨{ clerk with pc := .awaitLeave }, desks,
          some (.signal (clerkLineCV m clerk.myLine)
            (some (clerkLineLocks m clerk.myLine))),
          [.works m clerk.myLine clerk.frontSSN]⟩
  | finishPicture (pc : clerk.pc = .working 0) (picture : m = .picture) :
      Does m clerkID pick desks clerk
        ⟨{ clerk with pc := .enter }, desks,
          some (.release (clerkLineLocks m clerk.myLine)), []⟩
  | awaitLeave (pc : clerk.pc = .awaitLeave) :
      Does m clerkID pick desks clerk
        ⟨{ clerk with pc := .close }, desks,
          some (.wait (clerkLineCV m clerk.myLine)
            (some (clerkLineLocks m clerk.myLine))), []⟩
  | close (pc : clerk.pc = .close) :
      Does m clerkID pick desks clerk
        ⟨{ clerk with pc := .enter }, desks,
          some (.release (clerkLineLocks m clerk.myLine)), []⟩

section

variable {m : Kind} {clerkID rand pick : Nat} {desks : Desks} {clerk : Clerk}

/-- The tests of the counts, where the bribe line is empty. -/
theorem look_does {onBreak : Desks → Clerk → Segment Clerk}
    (unbribed : (desks m clerk.myLine).Unbribed) (pc : clerk.pc = .look)
    (rests : ¬ 0 < (desks m clerk.myLine).clerkLineCount →
      Does m clerkID pick desks clerk (onBreak desks clerk.newRound)) :
    Does m clerkID pick desks clerk (look m onBreak desks clerk.newRound) := by
  have noBriber : ¬ (desks m clerk.newRound.myLine).clerkBribeLineCount > 0 := by
    simp [newRound, unbribed.lineCount]
  rw [look, if_neg noBriber]
  split
  · exact .callCustomer pc ‹_›
  · exact rests ‹_›

theorem program_look_does (unbribed : (desks m clerk.myLine).Unbribed)
    (pc : clerk.pc = .look) :
    Does m clerkID pick desks clerk ((clerkProgram m).look desks clerk.newRound) := by
  cases m with
  | application =>
      exact look_does unbribed pc fun nobody => .goOnBreak pc nobody (by simp)
  | picture =>
      exact look_does unbribed pc fun nobody => .goOnPictureBreak pc nobody rfl
  | passport =>
      exact look_does unbribed pc fun nobody => .goOnBreak pc nobody (by simp)
  | cashier =>
      have noBriber : ¬ (desks .cashier clerk.newRound.myLine).clerkBribeLineCount > 0 := by
        simp [newRound, unbribed.lineCount]
      have does : Does .cashier clerkID pick desks clerk
          (clerk.newRound.cashierLookRegular desks) := by
        unfold cashierLookRegular
        split
        · exact .callCustomer pc ‹_›
        · exact .goOnBreak pc ‹_› (by simp)
      simpa only [clerkProgram, cashier, cashierLook, if_neg noBriber] using does

theorem develop_does (pc : clerk.pc = .serve ∨ clerk.pc = .develop) :
    Does .picture clerkID pick desks clerk (clerk.develop rand desks) := by
  unfold develop
  split
  · exact .startWork _ (pc.imp_right fun pc => ⟨rfl, pc⟩) ‹_›
  · exact .present pc rfl

theorem program_serve_does (honest : clerk.bribed = false) (pc : clerk.pc = .serve) :
    Does m clerkID pick desks clerk ((clerkProgram m).serve rand desks clerk) := by
  cases m with
  | application => exact .startWork _ (.inl pc) rfl
  | picture => exact develop_does (.inl pc)
  | passport =>
      simp only [clerkProgram, passportClerk, passportServe, honest]
      split
      · rename_i lacks
        exact .refuse pc (.inl rfl) (by simp [test, lacks])
      · rename_i lacks
        exact .startWork _ (.inl pc) (by simpa [test] using lacks)
  | cashier =>
      simp only [clerkProgram, cashier, cashierServe, honest]
      split
      · rename_i certified
        exact .startWork _ (.inl pc) (by simpa [test] using certified)
      · rename_i certified
        exact .refuse pc (.inr rfl) (by simpa [test] using certified)

theorem program_finishWork_does (pc : clerk.pc = .working 0) :
    Does m clerkID pick desks clerk ((clerkProgram m).finishWork desks clerk) := by
  cases m with
  | picture => exact .finishPicture pc rfl
  | _ => exact .finishWork pc (by simp)

/-- A segment of a regular clerk is one of the cases above. -/
theorem step_does (regular : clerk.Regular m)
    (unbribed : (desks m clerk.myLine).Unbribed) :
    Does m clerkID pick desks clerk (clerk.step m clerkID rand pick desks) := by
  unfold Clerk.step
  split
  · exact .create ‹_›
  · exact .enter ‹_›
  · exact program_look_does unbribed ‹_›
  · exact absurd ‹_› regular.lookRegular
  · exact .markBusy ‹_›
  · exact .takeLine ‹_›
  · exact .openMonitor ‹_›
  · exact .await ‹_›
  · exact program_serve_does regular.honest ‹_›
  · rename_i pc
    by_cases picture : m = .picture
    · subst picture
      exact develop_does (.inr pc)
    · exact absurd pc (regular.pictures picture).2.1
  · exact .awaitOpinion ‹_›
  · exact .yield _ ‹_›
  · exact program_finishWork_does ‹_›
  · exact .awaitLeave ‹_›
  · exact .close ‹_›

end

end Clerk

/-! ### The counts of the lines -/

theorem Desks.set_count (desks : Desks) (m m' : Kind) (i i' : Nat) (desk : Desk) :
    (desks.set m' i' desk m i).clerkLineCount = (desks m i).clerkLineCount +
      if m' = m ∧ i' = i then desk.clerkLineCount - (desks m' i').clerkLineCount
      else 0 := by
  by_cases same : m' = m ∧ i' = i
  · obtain ⟨rfl, rfl⟩ := same
    rw [Desks.set_self, if_pos ⟨rfl, rfl⟩]
    omega
  · have other : ¬ (m = m' ∧ i = i') := fun ⟨kind, line⟩ => same ⟨kind.symm, line.symm⟩
    simp [Desks.set_of_ne other, same]

/-- A clerk leaves every count as it is. -/
theorem Clerk.Does.lineCount {m : Kind} {clerkID pick : Nat} {desks : Desks}
    {clerk : Clerk} {segment : Segment Clerk}
    (does : clerk.Does m clerkID pick desks segment) (m' : Kind) (i : Nat) :
    (segment.desks m' i).clerkLineCount = (desks m' i).clerkLineCount := by
  cases does with
  | goOnBreak pc nobody other | goOnPictureBreak pc nobody picture | markBusy pc =>
      simp [Desks.set_count]
  | _ => rfl

/-! ### The segment of the running thread -/

/-- The office after a segment of customer `n`. -/
@[simps] def afterClient (office : Office) (n : Nat) (segment : Segment Client) :
    Office :=
  { office with
    clients := Function.update office.clients n segment.next
    ssnCount := office.createCustomer n
    desks := segment.desks
    log := segment.remarks ++ office.log }

/-- The office after a segment of clerk `n` of kind `m`. -/
@[simps] def afterClerk (office : Office) (m : Kind) (n : Nat)
    (segment : Segment Clerk) : Office :=
  { office with
    clerks := Function.update office.clerks m
      (Function.update (office.clerks m) n segment.next)
    clerkID := office.createClerk m n
    desks := segment.desks
    log := segment.remarks ++ office.log }

theorem afterClerk_other (office : Office) {m m' : Kind} {n n' : Nat}
    (segment : Segment Clerk) (other : ¬ (m' = m ∧ n' = n)) :
    (office.afterClerk m n segment).clerks m' n' = office.clerks m' n' := by
  by_cases kind : m' = m
  · subst kind
    have different : n' ≠ n := fun same => other ⟨rfl, same⟩
    simp [different]
  · simp [kind]

/-- The office after a segment of the manager, which only looks. -/
@[simps] def afterManager (office : Office) (next : ManagerPc) : Office :=
  { office with manager := next }

/-- Everything the segment of a thread can do, where nobody pays bribes. -/
inductive Runs (setup : Setup) (rand pick : Nat) (office : Office) :
    Who → Office → Option Call → Prop where
  | fork (t : Who) (rest : List Who) (pending : office.toFork = t :: rest) :
      Runs setup rand pick office .main { office with toFork := rest }
        (some (.fork t))
  | finish (none : office.toFork = []) :
      Runs setup rand pick office .main office (some .finish)
  | senator (n : Nat) :
      Runs setup rand pick office (.senator n) office (some .finish)
  | manager :
      Runs setup rand pick office .manager
        (office.afterManager (office.manager.step setup.numClerks office.desks).next)
        (office.manager.step setup.numClerks office.desks).call
  | clerk (m : Kind) (n : Nat) (segment : Segment Clerk)
      (does : (office.clerks m n).Does m (office.clerkID m) pick office.desks
        segment) :
      Runs setup rand pick office (.clerk m n) (office.afterClerk m n segment)
        segment.call
  | customer (n : Nat) (segment : Segment Client)
      (does : (office.clients n).Does setup.numClerks (office.createCustomer n)
        rand pick office.desks segment) :
      Runs setup rand pick office (.customer n) (office.afterClient n segment)
        segment.call

theorem ManagerPc.step_desks (numClerks : Kind → Nat) (desks : Desks)
    (pc : ManagerPc) :
    (pc.step numClerks desks).desks = desks ∧
      (pc.step numClerks desks).remarks = [] := by
  cases pc with
  | enter m => exact ⟨rfl, rfl⟩
  | scan m i =>
      simp only [ManagerPc.step]
      split <;> exact ⟨rfl, rfl⟩

/-- Nobody has paid a bribe. -/
structure Unbribed (office : Office) : Prop where
  desks : ∀ m i, (office.desks m i).Unbribed
  clients : ∀ n, (office.clients n).bribed = false
  clerks : ∀ m n, (office.clerks m n).Regular m

theorem Unbribed.program {setup : Setup} {rand pick : Nat}
    {office after : Office} {who : Who} {call : Option Call}
    (unbribed : office.Unbribed)
    (ran : office.program setup rand pick who = some (after, call)) :
    Runs setup rand pick office who after call := by
  cases who with
  | main =>
      simp only [Office.program] at ran
      split at ran
      · cases ran
        exact .finish ‹_›
      · cases ran
        exact .fork _ _ ‹_›
  | clerk m n =>
      cases ran
      exact .clerk m n _ (Clerk.step_does (unbribed.clerks m n) (unbribed.desks m _))
  | manager =>
      obtain ⟨desks, remarks⟩ :=
        ManagerPc.step_desks setup.numClerks office.desks office.manager
      simp only [Office.program, desks, remarks, List.nil_append] at ran
      cases ran
      exact .manager
  | senator n =>
      cases ran
      exact .senator n
  | customer n =>
      obtain ⟨segment, stepped, same⟩ := Option.map_eq_some_iff.mp ran
      cases same
      exact .customer n segment (Client.step_does (unbribed.clients n) stepped)

/-! ### Nobody pays a bribe -/

/-- A property of all desks after one of them was set. -/
theorem Desks.set_all {P : Kind → Desk → Prop} {desks : Desks}
    (all : ∀ m i, P m (desks m i)) {m : Kind} {i : Nat} {desk : Desk}
    (this : P m desk) (m' : Kind) (i' : Nat) : P m' (desks.set m i desk m' i') := by
  by_cases same : m' = m ∧ i' = i
  · obtain ⟨rfl, rfl⟩ := same
    rwa [Desks.set_self]
  · rw [Desks.set_of_ne same]
    exact all m' i'

theorem Client.Does.unbribed {numClerks : Kind → Nat} {ssnCount : Int}
    {rand pick : Nat} {desks : Desks} {c : Client} {segment : Segment Client}
    (does : c.Does numClerks ssnCount rand pick desks segment)
    (clean : ∀ m i, (desks m i).Unbribed) (honest : c.bribed = false) :
    (∀ m i, (segment.desks m i).Unbribed) ∧ segment.next.bribed = false := by
  have set : ∀ {m i desk}, desk.Unbribed → ∀ m' i',
      (desks.set m i desk m' i').Unbribed := fun this =>
    Desks.set_all (P := fun _ desk => desk.Unbribed) clean this
  have quit : ∀ m i, (Client.quit m (desks m i)).1.Unbribed := by
    intro m i
    obtain ⟨lineCount, clientSSNs, reqs⟩ := clean m i
    cases m <;> exact ⟨lineCount, clientSSNs, reqs⟩
  cases does with
  | create pc => exact ⟨clean, rfl⟩
  | queueUp m i pc smallest busy =>
      refine ⟨set ?_, honest⟩
      obtain ⟨lineCount, clientSSNs, reqs⟩ := clean m i
      cases m <;> simp only [Client.queueUp, Desk.joinLine, Desk.giveReqs, honest] <;>
        exact ⟨lineCount, clientSSNs, reqs⟩
  | take m i pc =>
      obtain ⟨lineCount, clientSSNs, reqs⟩ := clean m i
      exact ⟨set ⟨lineCount, clientSSNs, reqs⟩, honest⟩
  | greet m i pc =>
      refine ⟨set ?_, honest⟩
      obtain ⟨lineCount, clientSSNs, reqs⟩ := clean m i
      cases m <;> exact ⟨lineCount, clientSSNs, reqs⟩
  | served m i pc satisfied => exact ⟨set (quit m i), by cases m <;> exact honest⟩
  | tooSoon m i n pc checked unsatisfied => exact ⟨set (quit m i), honest⟩
  | _ => exact ⟨clean, honest⟩

theorem Clerk.Does.unbribed {m : Kind} {clerkID pick : Nat} {desks : Desks}
    {clerk : Clerk} {segment : Segment Clerk}
    (does : clerk.Does m clerkID pick desks segment)
    (clean : ∀ m i, (desks m i).Unbribed) (regular : clerk.Regular m) :
    (∀ m i, (segment.desks m i).Unbribed) ∧ segment.next.Regular m := by
  have set : ∀ state m' i', (desks.set m clerk.myLine
      { desks m clerk.myLine with clerkState := state } m' i').Unbribed := by
    intro state
    obtain ⟨lineCount, clientSSNs, reqs⟩ := clean m clerk.myLine
    exact Desks.set_all (P := fun _ desk => desk.Unbribed) clean
      ⟨lineCount, clientSSNs, reqs⟩
  have honest := regular.honest
  cases does with
  | callCustomer pc filled => exact ⟨clean, rfl, by simp, by simp⟩
  | goOnBreak pc nobody other => exact ⟨set .onBreak, rfl, by simp, by simp⟩
  | goOnPictureBreak pc nobody picture =>
      exact ⟨set .onBreak, rfl, by simp, fun other => absurd picture other⟩
  | markBusy pc => exact ⟨set .busy, honest, by simp, by simp⟩
  | present pc picture =>
      exact ⟨clean, honest, by simp, fun other => absurd picture other⟩
  | awaitOpinion pc =>
      refine ⟨clean, honest, by simp, fun other => ?_⟩
      exact absurd pc (regular.pictures other).2.2
  | _ => exact ⟨clean, honest, by simp, by simp⟩

theorem Unbribed.runs {setup : Setup} {rand pick : Nat} {office after : Office}
    {who : Who} {call : Option Call} (unbribed : office.Unbribed)
    (runs : Runs setup rand pick office who after call) : after.Unbribed := by
  cases runs with
  | fork t rest pending => exact ⟨unbribed.desks, unbribed.clients, unbribed.clerks⟩
  | finish none => exact unbribed
  | senator n => exact unbribed
  | manager => exact ⟨unbribed.desks, unbribed.clients, unbribed.clerks⟩
  | clerk m n segment does =>
      obtain ⟨desks, regular⟩ := does.unbribed unbribed.desks (unbribed.clerks m n)
      refine ⟨desks, unbribed.clients, fun m' n' => ?_⟩
      by_cases same : m' = m ∧ n' = n
      · obtain ⟨rfl, rfl⟩ := same
        simpa using regular
      · rw [office.afterClerk_other segment same]
        exact unbribed.clerks m' n'
  | customer n segment does =>
      obtain ⟨desks, honest⟩ := does.unbribed unbribed.desks (unbribed.clients n)
      refine ⟨desks, fun n' => ?_, unbribed.clerks⟩
      by_cases same : n' = n
      · subst same
        simpa using honest
      · simpa [same] using unbribed.clients n'

theorem boot_unbribed (setup : Setup) : (boot setup).Unbribed where
  desks _ _ := ⟨rfl, rfl, rfl⟩
  clients _ := rfl
  clerks _ _ := ⟨rfl, by simp [boot, Clerk.fresh], by simp [boot, Clerk.fresh]⟩

/-! ### Whole steps -/

/-- The step of the thread system that a move makes, if it makes one. -/
def kernelAction (setup : Setup) (office : Office) :
    Move → Option (Action Who Empty LockName CvName)
  | .exec rand pick =>
      (office.program setup rand pick office.kernel.currentThread).bind
        fun (_, call) => call.map .call
  | .system action => some action

/-- Everything a step can do, where nobody pays bribes. -/
inductive Moves (setup : Setup) (d : Discipline) (office : Office) :
    Move → Office → Prop where
  | silent (rand pick : Nat) (after : Office)
      (running : office.kernel.phase = .running)
      (runs : Runs setup rand pick office office.kernel.currentThread after none) :
      Moves setup d office (.exec rand pick) after
  | call (rand pick : Nat) (after : Office) (op : Call)
      (kernel : Kernel Who Empty LockName CvName)
      (running : office.kernel.phase = .running)
      (runs : Runs setup rand pick office office.kernel.currentThread after
        (some op))
      (calls : office.kernelAction setup (.exec rand pick) = some (.call op))
      (called : office.kernel.step d (.call op) = some kernel) :
      Moves setup d office (.exec rand pick) { after with kernel := kernel }
  | system (action : Action Who Empty LockName CvName)
      (kernel : Kernel Who Empty LockName CvName)
      (notCall : ∀ op, action ≠ .call op)
      (stepped : office.kernel.step d action = some kernel) :
      Moves setup d office (.system action) { office with kernel := kernel }

theorem Unbribed.moves {setup : Setup} {d : Discipline} {office office' : Office}
    {move : Move} (unbribed : office.Unbribed)
    (step : office.step setup d move = some office') :
    Moves setup d office move office' := by
  rcases step_cases step with ⟨rand, pick, mid, call, rfl, running, ran, ends⟩ |
    ⟨action, kernel, rfl, notCall, stepped, rfl⟩
  · have runs := unbribed.program ran
    rcases ends with ⟨rfl, rfl⟩ | ⟨op, kernel, rfl, called, rfl⟩
    · exact .silent rand pick _ running runs
    · exact .call rand pick mid op kernel running runs (by simp [kernelAction, ran])
        called
  · exact .system action kernel notCall stepped

theorem Runs.kernel_eq {setup : Setup} {rand pick : Nat} {office after : Office}
    {who : Who} {call : Option Call}
    (runs : Runs setup rand pick office who after call) :
    after.kernel = office.kernel := by
  cases runs <;> rfl

theorem Unbribed.of_kernel {office : Office} (unbribed : office.Unbribed)
    (kernel : Kernel Who Empty LockName CvName) :
    Unbribed { office with kernel := kernel } :=
  ⟨unbribed.desks, unbribed.clients, unbribed.clerks⟩

theorem Unbribed.step {setup : Setup} {d : Discipline} {office office' : Office}
    {move : Move} (unbribed : office.Unbribed)
    (step : office.step setup d move = some office') : office'.Unbribed := by
  cases unbribed.moves step with
  | silent rand pick after running runs => exact unbribed.runs runs
  | call rand pick after op kernel running runs calls called =>
      exact (unbribed.runs runs).of_kernel kernel
  | system action kernel notCall stepped => exact unbribed.of_kernel kernel

end Nachos.Office
