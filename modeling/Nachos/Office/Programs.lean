/-
Module: Nachos.Office.Programs
Purpose: The programs of the threads in threadtest.cc: `Client`, the four
  clerks and the `Manager`.  A program counter names the point after which a
  thread continues, and a segment is the code from there to the next call of
  the thread system.
Trusted boundary: printing, money and the vectors of objects are left out,
  since no modelled decision reads them.
Main exports: Client, Client.step, Clerk, ClerkProgram, Clerk.step, ManagerPc,
  ManagerPc.step
-/
import Nachos.Office.Monitors

namespace Nachos.Office

open LockName CvName

/-! ### Customers -/

/-- The points of a `join*Line` method, with `myLine` where it is known. -/
inductive Stage where
  /-- at `MonitorLock->Acquire` -/
  | enter
  /-- at `getSmallestLine` -/
  | look
  /-- at `clerkState[myLine] = 1` -/
  | take (i : Nat)
  /-- at `clerkLineLocks[myLine]->Acquire` -/
  | lock (i : Nat)
  /-- at the `Signal` to the clerk -/
  | greet (i : Nat)
  /-- at the `Wait` for the clerk -/
  | await (i : Nat)
  /-- after that `Wait` -/
  | served (i : Nat)
  /-- in the loop of `Yield`s of a customer that came too soon -/
  | tooSoon (i : Nat) (yieldCalls : Nat)
  /-- at the final `clerkLineLocks[myLine]->Release` -/
  | leave (i : Nat)
deriving DecidableEq, Repr

inductive ClientPc where
  /-- at the beginning of `createCustomer` -/
  | create
  /-- at the head of the while loop -/
  | choose
  | join (m : Kind) (stage : Stage)
  /-- at the end of the body of the while loop -/
  | leaving
  /-- the thread function has returned -/
  | gone
deriving DecidableEq, Repr

/-- The fields of class `Client`; `id` and `ssn` are the same number. -/
structure Client where
  ssn : Int
  applicationAccepted : Bool
  pictureTaken : Bool
  bribed : Bool
  certified : Bool
  done : Bool
  pc : ClientPc
deriving DecidableEq, Repr

namespace Client

/-- The constructor of `Client` up to its while loop. -/
def construct (ssn : Int) : Client where
  ssn := ssn
  applicationAccepted := false
  pictureTaken := false
  bribed := false
  certified := false
  done := false
  pc := .choose

/-- A client before its thread runs for the first time. -/
def fresh : Client := { construct 0 with pc := .create }

/-- Signal the clerk and go on to leave the counter. -/
def goodbye (m : Kind) (i : Nat) (desks : Desks) (remarks : List Remark)
    (c : Client) : Segment Client where
  next := { c with pc := .join m (.leave i) }
  desks := desks
  call := some (.signal (clerkLineCV m i) (some (clerkLineLocks m i)))
  remarks := remarks

/-- What a customer pushes when it gets in line. -/
def queueUp (m : Kind) (c : Client) (desk : Desk) : Desk :=
  match m with
  | .application | .picture => desk.joinLine c.bribed c.ssn
  | .passport =>
      (desk.joinLine c.bribed c.ssn).giveReqs c.bribed
        (c.applicationAccepted && c.pictureTaken)
  | .cashier =>
      (desk.joinLine c.bribed c.ssn).giveReqs c.bribed c.certified

/-- What the four `join*Line` methods have in common.  They differ in what the
customer does to the desk when it arrives and in what it does when it is
served. -/
def joinLine (m : Kind) (arrive : Desk → Desk)
    (served : Nat → Nat → Desks → Client → Segment Client)
    (numClerks rand pick : Nat) (desks : Desks) (c : Client) :
    Stage → Option (Segment Client)
  | .enter => some
      { next := { c with pc := .join m .look }
        desks := desks
        call := some (.acquire (monitorLock m))
        remarks := [] }
  | .look =>
      (getSmallestLine m numClerks (desks m)).map fun myLine =>
        if (desks m myLine).clerkState = .busy then
          { next := { c with pc := .join m (.take myLine) }
            desks := desks.set m myLine (c.queueUp m (desks m myLine))
            call := some (.wait (clerkLineCV m myLine) (some (monitorLock m)))
            remarks := [.queues c.ssn m myLine, .joins c.ssn m myLine] }
        else
          { next := { c with pc := .join m (.take myLine) }
            desks := desks
            call := none
            remarks := [.joins c.ssn m myLine] }
  | .take i => some
      { next := { c with pc := .join m (.lock i) }
        desks := desks.set m i { desks m i with clerkState := .busy }
        call := some (.release (monitorLock m))
        remarks := [] }
  | .lock i => some
      { next := { c with pc := .join m (.greet i) }
        desks := desks
        call := some (.acquire (clerkLineLocks m i))
        remarks := [] }
  | .greet i => some
      { next := { c with pc := .join m (.await i) }
        desks := desks.set m i (arrive (desks m i))
        call := some (.signal (clerkLineCV m i) (some (clerkLineLocks m i)))
        remarks := [] }
  | .await i => some
      { next := { c with pc := .join m (.served i) }
        desks := desks
        call := some (.wait (clerkLineCV m i) (some (clerkLineLocks m i)))
        remarks := [] }
  | .served i => some (served i rand desks c)
  | .tooSoon i (n + 1) => some
      { next := { c with pc := .join m (.tooSoon i n) }
        desks := desks
        call := some (.yield pick)
        remarks := [] }
  | .tooSoon i 0 => some (c.goodbye m i desks [])
  | .leave i => some
      { next := { c with pc := .leaving }
        desks := desks
        call := some (.release (clerkLineLocks m i))
        remarks := [] }

def applicationServed (i _rand : Nat) (desks : Desks) (c : Client) :
    Segment Client :=
  let (desk, popped) :=
    (desks .application i).leaveApplicationLine c.bribed
  goodbye .application i (desks.set .application i desk)
    (.records c.ssn .application i :: popped)
    { c with applicationAccepted := true }

/-- `Client::joinApplicationLine`. -/
def joinApplicationLine (numClerks rand pick : Nat) (desks : Desks) (c : Client)
    (stage : Stage) : Option (Segment Client) :=
  joinLine .application id applicationServed numClerks rand pick desks c stage

/-- The customer repeats `Signal` and `Wait` until it likes its picture. -/
def pictureServed (i rand : Nat) (desks : Desks) (c : Client) :
    Segment Client :=
  if rand % 2 = 0 then
    { next := { c with pc := .join .picture (.await i) }
      desks := desks
      call := some (.signal (clerkLineCV .picture i)
        (some (clerkLineLocks .picture i)))
      remarks := [] }
  else
    let (desk, popped) :=
      ({ desks .picture i with picturesTaken := true } : Desk).leaveLine c.bribed
    goodbye .picture i (desks.set .picture i desk) popped
      { c with pictureTaken := true }

/-- `Client::joinPictureLine`. -/
def joinPictureLine (numClerks rand pick : Nat) (desks : Desks) (c : Client)
    (stage : Stage) : Option (Segment Client) :=
  joinLine .picture (fun desk => { desk with picturesTaken := false })
    pictureServed numClerks rand pick desks c stage

def passportServed (i rand : Nat) (desks : Desks) (c : Client) :
    Segment Client :=
  let (desk, poppedSSN) := (desks .passport i).leaveLine c.bribed
  let (desk, poppedReq) := desk.popReqs c.bribed
  let popped := poppedReq ++ poppedSSN
  if c.applicationAccepted && c.pictureTaken then
    goodbye .passport i (desks.set .passport i desk)
      (.records c.ssn .passport i :: popped) { c with certified := true }
  else
    { next := { c with pc := .join .passport (.tooSoon i (100 + rand % 999)) }
      desks := desks.set .passport i desk
      call := none
      remarks := popped }

/-- `Client::joinPassportLine`. -/
def joinPassportLine (numClerks rand pick : Nat) (desks : Desks) (c : Client)
    (stage : Stage) : Option (Segment Client) :=
  joinLine .passport id passportServed numClerks rand pick desks c stage

def cashierServed (i rand : Nat) (desks : Desks) (c : Client) :
    Segment Client :=
  let (desk, poppedSSN) := (desks .cashier i).leaveLine c.bribed
  let (desk, poppedReq) := desk.popReqs c.bribed
  let popped := poppedReq ++ poppedSSN
  if c.certified then
    goodbye .cashier i (desks.set .cashier i desk)
      (.records c.ssn .cashier i :: popped) { c with done := true }
  else
    { next := { c with pc := .join .cashier (.tooSoon i (100 + rand % 901)) }
      desks := desks.set .cashier i desk
      call := none
      remarks := popped }

/-- `Client::joinCashierLine`. -/
def joinCashierLine (numClerks rand pick : Nat) (desks : Desks) (c : Client)
    (stage : Stage) : Option (Segment Client) :=
  joinLine .cashier id cashierServed numClerks rand pick desks c stage

def joinLineOf (m : Kind) (numClerks rand pick : Nat) (desks : Desks)
    (c : Client) (stage : Stage) : Option (Segment Client) :=
  match m with
  | .application => c.joinApplicationLine numClerks rand pick desks stage
  | .picture => c.joinPictureLine numClerks rand pick desks stage
  | .passport => c.joinPassportLine numClerks rand pick desks stage
  | .cashier => c.joinCashierLine numClerks rand pick desks stage

/-- The line that the switch of the while loop leads to, if any. -/
def chooseLine (rand : Nat) (c : Client) : Option Kind :=
  match rand % 4 with
  | 0 => if c.applicationAccepted then none else some .application
  | 1 => if c.pictureTaken then none else some .picture
  | 2 => if c.certified then none else some .passport
  | _ => some .cashier

/-- `createCustomer` after `ssnCount++`, and the constructor `Client::Client`
with its while loop. -/
def step (numClerks : Kind → Nat) (ssnCount : Int) (rand pick : Nat)
    (desks : Desks) (c : Client) : Option (Segment Client) :=
  match c.pc with
  | .create => some
      { next := construct ssnCount, desks := desks, call := none, remarks := [] }
  | .choose =>
      if c.done then some
        { next := { c with pc := .gone }
          desks := desks
          call := some .finish
          remarks := [] }
      else some
        { next := { c with
            pc := (c.chooseLine rand).elim .leaving fun m => .join m .enter }
          desks := desks
          call := none
          remarks := [] }
  | .join m stage => c.joinLineOf m (numClerks m) rand pick desks stage
  | .leaving => some
      { next := { c with pc := .choose }
        desks := desks
        call := none
        remarks := [.leaves c.ssn] }
  | .gone => none

end Client

/-! ### Clerks -/

/-- The points of the `run` methods of the clerks. -/
inductive ClerkPc where
  /-- at the beginning of the forked `create*` function -/
  | create
  /-- at `MonitorLock->Acquire` -/
  | enter
  /-- at the tests of the line counts -/
  | look
  /-- after the `Signal` to a bribing customer, in `Cashier::run` -/
  | lookRegular
  /-- at `clerkState[myLine] = 1` after the `Signal` -/
  | markBusy
  /-- at `clerkLineLocks[myLine]->Acquire` after a break -/
  | takeLine
  /-- at `MonitorLock->Release` -/
  | openMonitor
  /-- at the `Wait` for a customer -/
  | await
  /-- after that `Wait` -/
  | serve
  /-- at the head of the loop over the pictures -/
  | develop
  /-- at the `Wait` in that loop -/
  | awaitOpinion
  /-- in the loop of `Yield`s -/
  | working (yieldCalls : Nat)
  /-- at the `Wait` for the customer to leave -/
  | awaitLeave
  /-- at `clerkLineLocks[myLine]->Release` -/
  | close
deriving DecidableEq, Repr

/-- The fields and local variables of a clerk.  `frontSSN = none` is the
uninitialised variable. -/
structure Clerk where
  myLine : Nat
  frontSSN : Option Int
  bribed : Bool
  pc : ClerkPc
deriving DecidableEq, Repr

namespace Clerk

/-- A clerk before its thread runs for the first time. -/
def fresh : Clerk where
  myLine := 0
  frontSSN := none
  bribed := false
  pc := .create

/-- `clerkState[myLine] = 2`, and then on to the counter. -/
def goOnBreak (m : Kind) (desks : Desks) (clerk : Clerk) : Segment Clerk where
  next := { clerk with pc := .openMonitor }
  desks := desks.set m clerk.myLine
    { desks m clerk.myLine with clerkState := .onBreak }
  call := some (.acquire (clerkLineLocks m clerk.myLine))
  remarks := []

/-- The break of `PictureClerk::run` has a `Wait` in it. -/
def goOnPictureBreak (desks : Desks) (clerk : Clerk) : Segment Clerk where
  next := { clerk with pc := .takeLine }
  desks := desks.set .picture clerk.myLine
    { desks .picture clerk.myLine with clerkState := .onBreak }
  call := some (.wait (clerkLineCV .picture clerk.myLine)
    (some (clerkLineLocks .picture clerk.myLine)))
  remarks := []

/-- `frontSSN = bribeClientSSNs[myLine].front()` and the `Signal`. -/
def callBriber (m : Kind) (pc : ClerkPc) (desks : Desks) (clerk : Clerk) :
    Segment Clerk where
  next := { clerk with
    frontSSN := (desks m clerk.myLine).bribeClientSSNs.head?
    bribed := true
    pc := pc }
  desks := desks
  call := some (.signal (clerkBribeLineCV m clerk.myLine) (some (monitorLock m)))
  remarks := accessed (desks m clerk.myLine).bribeClientSSNs

/-- `frontSSN = clientSSNs[myLine].front()` and the `Signal`. -/
def callCustomer (m : Kind) (desks : Desks) (clerk : Clerk) : Segment Clerk where
  next := { clerk with
    frontSSN := (desks m clerk.myLine).clientSSNs.head?
    bribed := false
    pc := .markBusy }
  desks := desks
  call := some (.signal (clerkLineCV m clerk.myLine) (some (monitorLock m)))
  remarks := accessed (desks m clerk.myLine).clientSSNs

/-- `int frontSSN; bool bribed = false;` at the head of a round. -/
def newRound (clerk : Clerk) : Clerk :=
  { clerk with frontSSN := none, bribed := false }

/-- The tests of the counts in the application, picture and passport clerks. -/
def look (m : Kind) (onBreak : Desks → Clerk → Segment Clerk) (desks : Desks)
    (clerk : Clerk) : Segment Clerk :=
  if (desks m clerk.myLine).clerkBribeLineCount > 0 then
    clerk.callBriber m .markBusy desks
  else if (desks m clerk.myLine).clerkLineCount > 0 then
    clerk.callCustomer m desks
  else
    onBreak desks clerk

/-- The second `if` of `Cashier::run`. -/
def cashierLookRegular (desks : Desks) (clerk : Clerk) : Segment Clerk :=
  if (desks .cashier clerk.myLine).clerkLineCount > 0 then
    clerk.callCustomer .cashier desks
  else
    clerk.goOnBreak .cashier desks

/-- `Cashier::run` tests the regular line also after the bribe line. -/
def cashierLook (desks : Desks) (clerk : Clerk) : Segment Clerk :=
  if (desks .cashier clerk.myLine).clerkBribeLineCount > 0 then
    clerk.callBriber .cashier .lookRegular desks
  else
    clerk.cashierLookRegular desks

/-- Signal the customer that the work is done. -/
def report (m : Kind) (desks : Desks) (remarks : List Remark) (clerk : Clerk) :
    Segment Clerk where
  next := { clerk with pc := .awaitLeave }
  desks := desks
  call := some (.signal (clerkLineCV m clerk.myLine)
    (some (clerkLineLocks m clerk.myLine)))
  remarks := remarks

/-- Go into the loop of `Yield`s. -/
def startWork (rand : Nat) (desks : Desks) (remarks : List Remark)
    (clerk : Clerk) : Segment Clerk where
  next := { clerk with pc := .working (20 + rand % 81) }
  desks := desks
  call := none
  remarks := remarks

/-- The condition of the if in `PassportClerk::run`, with the queues it
reads: `||` and `&&` do not evaluate their second operand when the first one
decides. -/
def lacksReqs (desk : Desk) (bribed : Bool) : Bool × List Remark :=
  let front := desk.reqs.head?.getD false
  let bribeFront := desk.bribeReqs.head?.getD false
  if !front && !bribed then (true, accessed desk.reqs)
  else (!bribeFront && bribed, accessed desk.reqs ++ accessed desk.bribeReqs)

def passportServe (rand : Nat) (desks : Desks) (clerk : Clerk) :
    Segment Clerk :=
  let (lacks, remarks) := lacksReqs (desks .passport clerk.myLine) clerk.bribed
  if lacks then clerk.report .passport desks remarks
  else clerk.startWork rand desks remarks

/-- The condition of the if in `Cashier::run`. -/
def isCertified (desk : Desk) (bribed : Bool) : Bool × List Remark :=
  let front := desk.reqs.head?.getD false
  let bribeFront := desk.bribeReqs.head?.getD false
  if front && !bribed then (true, accessed desk.reqs)
  else (bribeFront && bribed, accessed desk.reqs ++ accessed desk.bribeReqs)

/-- `Cashier::run` also prints `clientSSNs[myLine].front()`. -/
def cashierServe (rand : Nat) (desks : Desks) (clerk : Clerk) :
    Segment Clerk :=
  let (certified, remarks) := isCertified (desks .cashier clerk.myLine) clerk.bribed
  let remarks := remarks ++ accessed (desks .cashier clerk.myLine).clientSSNs
  if certified then clerk.startWork rand desks remarks
  else clerk.report .cashier desks remarks

/-- The while loop of `PictureClerk::run`. -/
def develop (rand : Nat) (desks : Desks) (clerk : Clerk) : Segment Clerk :=
  if (desks .picture clerk.myLine).picturesTaken then
    clerk.startWork rand desks []
  else
    { next := { clerk with pc := .awaitOpinion }
      desks := desks
      call := some (.signal (clerkLineCV .picture clerk.myLine)
        (some (clerkLineLocks .picture clerk.myLine)))
      remarks := [] }

/-- Give up the counter and begin the next round. -/
def nextRound (m : Kind) (desks : Desks) (clerk : Clerk) : Segment Clerk where
  next := { clerk with pc := .enter }
  desks := desks
  call := some (.release (clerkLineLocks m clerk.myLine))
  remarks := []

/-- The end of the work: a report to the customer, with whose SSN it was
done. -/
def finishWork (m : Kind) (desks : Desks) (clerk : Clerk) : Segment Clerk :=
  clerk.report m desks [.works m clerk.myLine clerk.frontSSN]

end Clerk

/-- What the `run` methods of the four clerks do in their own way. -/
structure ClerkProgram where
  look : Desks → Clerk → Segment Clerk
  serve : Nat → Desks → Clerk → Segment Clerk
  finishWork : Desks → Clerk → Segment Clerk

/-- `ApplicationClerk::run`. -/
def applicationClerk : ClerkProgram where
  look := Clerk.look .application (fun desks clerk => clerk.goOnBreak .application desks)
  serve rand desks clerk := clerk.startWork rand desks []
  finishWork desks clerk := clerk.finishWork .application desks

/-- `PictureClerk::run`. -/
def pictureClerk : ClerkProgram where
  look := Clerk.look .picture fun desks clerk => clerk.goOnPictureBreak desks
  serve rand desks clerk := clerk.develop rand desks
  finishWork desks clerk := clerk.nextRound .picture desks

/-- `PassportClerk::run`. -/
def passportClerk : ClerkProgram where
  look := Clerk.look .passport (fun desks clerk => clerk.goOnBreak .passport desks)
  serve rand desks clerk := clerk.passportServe rand desks
  finishWork desks clerk := clerk.finishWork .passport desks

/-- `Cashier::run`. -/
def cashier : ClerkProgram where
  look desks clerk := clerk.cashierLook desks
  serve rand desks clerk := clerk.cashierServe rand desks
  finishWork desks clerk := clerk.finishWork .cashier desks

def clerkProgram : Kind → ClerkProgram
  | .application => applicationClerk
  | .picture => pictureClerk
  | .passport => passportClerk
  | .cashier => cashier

namespace Clerk

/-- The forked `create*` function with the given value of the clerk counter,
and the `run` method it ends in. -/
def step (m : Kind) (clerkID rand pick : Nat) (desks : Desks) (clerk : Clerk) :
    Segment Clerk :=
  match clerk.pc with
  | .create =>
      { next := { clerk with myLine := clerkID, pc := .enter }
        desks := desks
        call := none
        remarks := [] }
  | .enter =>
      { next := { clerk with pc := .look }
        desks := desks
        call := some (.acquire (monitorLock m))
        remarks := [] }
  | .look => (clerkProgram m).look desks clerk.newRound
  | .lookRegular =>
      clerk.cashierLookRegular (desks.set .cashier clerk.myLine
        { desks .cashier clerk.myLine with clerkState := .busy })
  | .markBusy =>
      { next := { clerk with pc := .openMonitor }
        desks := desks.set m clerk.myLine
          { desks m clerk.myLine with clerkState := .busy }
        call := some (.acquire (clerkLineLocks m clerk.myLine))
        remarks := [] }
  | .takeLine =>
      { next := { clerk with pc := .openMonitor }
        desks := desks
        call := some (.acquire (clerkLineLocks m clerk.myLine))
        remarks := [] }
  | .openMonitor =>
      { next := { clerk with pc := .await }
        desks := desks
        call := some (.release (monitorLock m))
        remarks := [] }
  | .await =>
      { next := { clerk with pc := .serve }
        desks := desks
        call := some (.wait (clerkLineCV m clerk.myLine)
          (some (clerkLineLocks m clerk.myLine)))
        remarks := [] }
  | .serve => (clerkProgram m).serve rand desks clerk
  | .develop => clerk.develop rand desks
  | .awaitOpinion =>
      { next := { clerk with pc := .develop }
        desks := desks
        call := some (.wait (clerkLineCV m clerk.myLine)
          (some (clerkLineLocks m clerk.myLine)))
        remarks := [] }
  | .working (n + 1) =>
      { next := { clerk with pc := .working n }
        desks := desks
        call := some (.yield pick)
        remarks := [] }
  | .working 0 => (clerkProgram m).finishWork desks clerk
  | .awaitLeave =>
      { next := { clerk with pc := .close }
        desks := desks
        call := some (.wait (clerkLineCV m clerk.myLine)
          (some (clerkLineLocks m clerk.myLine)))
        remarks := [] }
  | .close => clerk.nextRound m desks

end Clerk

/-! ### The manager -/

/-- The points of `Manager::wakeupClerks`, which `Manager::run` repeats. -/
inductive ManagerPc where
  /-- at `MonitorLock->Acquire` of the given monitor -/
  | enter (m : Kind)
  /-- in the loop over its clerks, at index `i` -/
  | scan (m : Kind) (i : Nat)
deriving DecidableEq, Repr

/-- The order in which the manager visits the monitors. -/
def Kind.next : Kind → Kind
  | .application => .picture
  | .picture => .passport
  | .passport => .cashier
  | .cashier => .application

def ManagerPc.step (numClerks : Kind → Nat) (desks : Desks) :
    ManagerPc → Segment ManagerPc
  | .enter m =>
      { next := .scan m 0
        desks := desks
        call := some (.acquire (monitorLock m))
        remarks := [] }
  | .scan m i =>
      if i < numClerks m then
        { next := .scan m (i + 1)
          desks := desks
          call :=
            if (desks m i).clerkLineCount ≥ 3 ∧ (desks m i).clerkState = .onBreak
            then some (.signal (clerkLineCV m i) (some (clerkLineLocks m i)))
            else none
          remarks := [] }
      else
        { next := .enter m.next
          desks := desks
          call := some (.release (monitorLock m))
          remarks := [] }

/-! ### Only main forks -/

theorem Clerk.step_call_ne_fork (m : Kind) (clerkID rand pick : Nat)
    (desks : Desks) (clerk : Clerk) (t : Who) :
    (clerk.step m clerkID rand pick desks).call ≠ some (.fork t) := by
  unfold Clerk.step
  split
  case h_3 =>
    cases m <;>
      simp only [clerkProgram, applicationClerk, pictureClerk, passportClerk,
        cashier, look, cashierLook, cashierLookRegular, callBriber, callCustomer,
        goOnBreak, goOnPictureBreak] <;>
      repeat' split
    all_goals simp
  case h_4 =>
    simp only [cashierLookRegular, callCustomer, goOnBreak]
    split <;> simp
  case h_9 =>
    cases m <;>
      simp only [clerkProgram, applicationClerk, pictureClerk, passportClerk,
        cashier, startWork, develop, passportServe, cashierServe, report] <;>
      repeat' split
    all_goals simp
  case h_10 =>
    simp only [develop, startWork]
    split <;> simp
  case h_13 =>
    cases m <;> simp [clerkProgram, applicationClerk, pictureClerk, passportClerk,
      cashier, finishWork, nextRound, report]
  all_goals simp [nextRound]

theorem Client.step_call_ne_fork {numClerks : Kind → Nat} {ssnCount : Int}
    {rand pick : Nat} {desks : Desks} {c : Client} {segment : Segment Client}
    (step : c.step numClerks ssnCount rand pick desks = some segment) (t : Who) :
    segment.call ≠ some (.fork t) := by
  have joins : ∀ {m : Kind} {arrive : Desk → Desk}
      {served : Nat → Nat → Desks → Client → Segment Client} {stage : Stage},
      (∀ i, (served i rand desks c).call ≠ some (.fork t)) →
      joinLine m arrive served (numClerks m) rand pick desks c stage = some segment →
      segment.call ≠ some (.fork t) := by
    intro m arrive served stage quiet joined
    cases stage with
    | look =>
        obtain ⟨myLine, -, rfl⟩ := Option.map_eq_some_iff.mp joined
        split <;> simp
    | served i =>
        cases joined
        exact quiet i
    | tooSoon i yieldCalls =>
        cases yieldCalls <;> cases joined <;> simp [goodbye]
    | _ =>
        cases joined
        simp
  unfold Client.step at step
  split at step
  · cases step
    simp
  · split at step <;> cases step <;> simp
  · rename_i m stage pc
    cases m with
    | application =>
        refine joins (fun i => ?_) step
        simp [applicationServed, goodbye]
    | picture =>
        have joined : joinLine .picture
            (fun desk => { desk with picturesTaken := false }) pictureServed
            (numClerks .picture) rand pick desks c stage = some segment := step
        refine joins (fun i => ?_) joined
        unfold pictureServed
        split <;> simp [goodbye]
    | passport =>
        refine joins (fun i => ?_) step
        simp only [passportServed, goodbye]
        split <;> simp
    | cashier =>
        refine joins (fun i => ?_) step
        simp only [cashierServed, goodbye]
        split <;> simp
  · cases step
    simp
  · cases step

theorem ManagerPc.step_call_ne_fork (numClerks : Kind → Nat) (desks : Desks)
    (pc : ManagerPc) (t : Who) :
    (pc.step numClerks desks).call ≠ some (.fork t) := by
  cases pc with
  | enter m => simp [ManagerPc.step]
  | scan m i =>
      simp only [ManagerPc.step]
      split
      · split <;> simp
      · simp

end Nachos.Office
