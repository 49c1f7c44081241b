/-
Module: Nachos.Office.Monitors
Purpose: The data of the passport office in threadtest.cc: the four monitors
  with one desk for every clerk, the names of the locks and condition
  variables, and the queue operations of the monitors.
Trusted boundary: `front()` and `pop()` on an empty `std::queue` are undefined
  in C++.  They are recorded as an `emptyAccess`; the model goes on with a
  default value and an empty queue.
Main exports: Kind, Who, LockName, CvName, Desk, Remark, Segment,
  getSmallestLine
-/
import Nachos.Threads.Kernel

namespace Nachos.Office

/-- The four monitors `AMonitor`, `PMonitor`, `PPMonitor` and `CMonitor`, and
the four kinds of clerks. -/
inductive Kind where
  | application
  | picture
  | passport
  | cashier
deriving DecidableEq, Repr

/-- The threads of the simulation.  Clerks, senators and customers are
numbered in the order in which `Problem2` forks them. -/
inductive Who where
  | main
  | clerk (m : Kind) (n : Nat)
  | manager
  | senator (n : Nat)
  | customer (n : Nat)
deriving DecidableEq, Repr

inductive LockName where
  /-- `AMonitorLock`, `PMonitorLock`, `MonitorLock` -/
  | monitorLock (m : Kind)
  | clerkLineLocks (m : Kind) (i : Nat)
deriving DecidableEq, Repr

inductive CvName where
  | clerkLineCV (m : Kind) (i : Nat)
  | clerkBribeLineCV (m : Kind) (i : Nat)
deriving DecidableEq, Repr

/-- The calls that the simulation makes to the thread system. -/
abbrev Call := Op Who Empty LockName CvName

/-- The values 0, 1 and 2 of `clerkState`. -/
inductive ClerkState where
  | available
  | busy
  | onBreak
deriving DecidableEq, Repr

/-- What the arrays of one monitor hold for one clerk.  `reqs` is `clientReqs`
of the passport monitor and `customerCertifications` of the cashier monitor;
`picturesTaken` belongs to the picture monitor. -/
structure Desk where
  clerkLineCount : Int
  clerkBribeLineCount : Int
  clerkState : ClerkState
  clientSSNs : List Int
  bribeClientSSNs : List Int
  reqs : List Bool
  bribeReqs : List Bool
  picturesTaken : Bool
deriving DecidableEq, Repr

/-- The monitor constructors; `picturesTaken` is allocated and not set. -/
def Desk.construct (picturesTaken : Bool) : Desk where
  clerkLineCount := 0
  clerkBribeLineCount := 0
  clerkState := .available
  clientSSNs := []
  bribeClientSSNs := []
  reqs := []
  bribeReqs := []
  picturesTaken := picturesTaken

abbrev Desks := Kind → Nat → Desk

def Desks.set (desks : Desks) (m : Kind) (i : Nat) (desk : Desk) : Desks :=
  fun m' i' => if m' = m ∧ i' = i then desk else desks m' i'

@[simp] theorem Desks.set_self (desks : Desks) (m : Kind) (i : Nat)
    (desk : Desk) : desks.set m i desk m i = desk := by
  simp [Desks.set]

theorem Desks.set_of_ne {desks : Desks} {m m' : Kind} {i i' : Nat} {desk : Desk}
    (other : ¬ (m' = m ∧ i' = i)) : desks.set m i desk m' i' = desks m' i' := by
  simp [Desks.set, other]

/-- What the simulation does, for stating properties of whole runs. -/
inductive Remark where
  /-- `front()` or `pop()` on an empty queue -/
  | emptyAccess
  /-- a customer has chosen line `i` of monitor `m` -/
  | joins (ssn : Int) (m : Kind) (i : Nat)
  /-- a customer has got in line `i` of monitor `m` -/
  | queues (ssn : Int) (m : Kind) (i : Nat)
  /-- a customer sets `applicationAccepted`, `certified` or `done` -/
  | records (ssn : Int) (m : Kind) (i : Nat)
  /-- clerk `i` has done its work with the given `frontSSN` -/
  | works (m : Kind) (i : Nat) (frontSSN : Option Int)
  /-- a customer prints that it is leaving the Passport Office -/
  | leaves (ssn : Int)
deriving DecidableEq, Repr

/-- The remark about a `front()` or `pop()` on this queue. -/
def accessed {α : Type} (queue : List α) : List Remark :=
  if queue.isEmpty then [.emptyAccess] else []

/-! ### Lines -/

/-- The loop of `getSmallestLine` over the given clerk indices. -/
def smallestLoop (clerkLineCount : Nat → Int) :
    List Nat → Int → Option Nat → Option Nat
  | [], _, smallestIndex => smallestIndex
  | i :: rest, smallest, smallestIndex =>
      if clerkLineCount i < smallest then
        smallestLoop clerkLineCount rest (clerkLineCount i) (some i)
      else
        smallestLoop clerkLineCount rest smallest smallestIndex

/-- `getSmallestLine` of the four monitors; `none` is the index -1.  The
cashier monitor starts with index 0 instead. -/
def getSmallestLine (m : Kind) (numClerks : Nat) (desks : Nat → Desk) :
    Option Nat :=
  smallestLoop (fun i => (desks i).clerkLineCount) (List.range numClerks) 50
    (if m = .cashier then some 0 else none)

namespace Desk

/-- The count is raised and the SSN is pushed, in the line for which the
customer has paid. -/
def joinLine (bribed : Bool) (ssn : Int) (desk : Desk) : Desk :=
  if bribed then
    { desk with
      clerkBribeLineCount := desk.clerkBribeLineCount + 1
      bribeClientSSNs := desk.bribeClientSSNs ++ [ssn] }
  else
    { desk with
      clerkLineCount := desk.clerkLineCount + 1
      clientSSNs := desk.clientSSNs ++ [ssn] }

/-- `giveReqs`, `giveCertification` and the pushes to the bribe queues. -/
def giveReqs (bribed : Bool) (completed : Bool) (desk : Desk) : Desk :=
  if bribed then { desk with bribeReqs := desk.bribeReqs ++ [completed] }
  else { desk with reqs := desk.reqs ++ [completed] }

/-- The count is lowered and the SSN queue is popped. -/
def leaveLine (bribed : Bool) (desk : Desk) : Desk × List Remark :=
  if bribed then
    ({ desk with
        clerkBribeLineCount := desk.clerkBribeLineCount - 1
        bribeClientSSNs := desk.bribeClientSSNs.tail },
      accessed desk.bribeClientSSNs)
  else
    ({ desk with
        clerkLineCount := desk.clerkLineCount - 1
        clientSSNs := desk.clientSSNs.tail },
      accessed desk.clientSSNs)

/-- The same in `joinApplicationLine`, which pops `clientSSNs` also for a
customer of the bribe line. -/
def leaveApplicationLine (bribed : Bool) (desk : Desk) : Desk × List Remark :=
  if bribed then
    ({ desk with
        clerkBribeLineCount := desk.clerkBribeLineCount - 1
        clientSSNs := desk.clientSSNs.tail },
      accessed desk.clientSSNs)
  else
    desk.leaveLine false

/-- The queue of requirements or certifications is popped. -/
def popReqs (bribed : Bool) (desk : Desk) : Desk × List Remark :=
  if bribed then
    ({ desk with bribeReqs := desk.bribeReqs.tail }, accessed desk.bribeReqs)
  else
    ({ desk with reqs := desk.reqs.tail }, accessed desk.reqs)

end Desk

/-! ### Segments -/

/-- The result of running a thread with variables `σ` up to its next call, or
up to the next point at which it draws a random number. -/
structure Segment (σ : Type) where
  next : σ
  desks : Desks
  call : Option Call
  remarks : List Remark

end Nachos.Office
