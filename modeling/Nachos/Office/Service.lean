/-
Module: Nachos.Office.Service
Purpose: A line whose condition is used under the lock of the monitor, and how
  far its clerk is with the customer it has called.  The customers of the line
  are the one that has been called and those asleep behind it, in the order of
  the queues; the one that has been called comes to the counter when the clerk
  has done its work for it or has refused it.
Trusted boundary: none
Main exports: VisitAgrees, Client.requirement, Lineup, Attended, Service,
  Aside, Followed, LineInOrder
-/
import Nachos.Office.Leaving
import Nachos.Office.Locking
import Nachos.Office.Waiting

namespace Nachos.Office

open LockName CvName

/-! ### Visits in the log -/

/-- Since the customer last chose a line, which was line `i` of monitor `m`, the
log tells of `between`. -/
def Visit (ssn : Int) (m : Kind) (i : Nat) (between log : List Remark) : Prop :=
  (∃ before, log = between ++ .joins ssn m i :: before) ∧
    ∀ m' i', .joins ssn m' i' ∉ between

/-- Since the customer chose its line, which was line `i` of monitor `m`, clerk
`i` has done its work for it. -/
def VisitAgrees (ssn : Int) (m : Kind) (i : Nat) (log : List Remark) : Prop :=
  ∃ between, Visit ssn m i between log ∧ .works m i (some ssn) ∈ between

/-- The remark begins a visit of this customer, or tells of the work that this
visit is for. -/
def Remark.Touches (ssn : Int) (m : Kind) (i : Nat) : Remark → Prop
  | .joins ssn' _ _ => ssn' = ssn
  | .works m' i' front => m' = m ∧ i' = i ∧ front = some ssn
  | _ => False

section

variable {ssn : Int} {m : Kind} {i : Nat} {remarks log : List Remark}

theorem Visit.append (stays : ∀ m' i', .joins ssn m' i' ∉ remarks)
    {between : List Remark} (visit : Visit ssn m i between log) :
    Visit ssn m i (remarks ++ between) (remarks ++ log) := by
  obtain ⟨⟨before, rfl⟩, fresh⟩ := visit
  refine ⟨⟨before, (List.append_assoc ..).symm⟩, fun m' i' member => ?_⟩
  exact (List.mem_append.mp member).elim (stays m' i') (fresh m' i')

/-- Remarks about others make no difference. -/
theorem visitAgrees_append (others : ∀ remark ∈ remarks, ¬ remark.Touches ssn m i) :
    VisitAgrees ssn m i (remarks ++ log) ↔ VisitAgrees ssn m i log := by
  constructor
  · intro agrees
    induction remarks with
    | nil => exact agrees
    | cons remark remarks inductionHypothesis =>
        have first := others remark (by simp)
        apply inductionHypothesis fun r member => others r (by simp [member])
        obtain ⟨between, ⟨⟨before, same⟩, fresh⟩, works⟩ := agrees
        cases between with
        | nil => cases works
        | cons top between =>
            simp only [List.cons_append, List.cons.injEq] at same
            obtain ⟨rfl, rest⟩ := same
            refine ⟨between, ⟨⟨before, rest⟩, fun m' i' member =>
              fresh m' i' (by simp [member])⟩, ?_⟩
            rcases List.mem_cons.mp works with rfl | works
            · exact absurd ⟨rfl, rfl, rfl⟩ first
            · exact works
  · rintro ⟨between, visit, works⟩
    exact ⟨remarks ++ between, visit.append fun m' i' member => others _ member rfl,
      List.mem_append_right _ works⟩

/-- The clerk does its work during the visit. -/
theorem Visit.works {between : List Remark} (visit : Visit ssn m i between log) :
    VisitAgrees ssn m i (.works m i (some ssn) :: log) := by
  obtain ⟨⟨before, rfl⟩, fresh⟩ := visit
  exact ⟨_ :: between, ⟨⟨before, rfl⟩, by simpa using fresh⟩, by simp⟩

/-- A visit begins. -/
theorem visit_queues (ssn : Int) (m : Kind) (i : Nat) (log : List Remark) :
    Visit ssn m i [.queues ssn m i] (.queues ssn m i :: .joins ssn m i :: log) :=
  ⟨⟨log, rfl⟩, by simp⟩

/-- At the beginning of a visit no work has been done. -/
theorem not_visitAgrees_queues :
    ¬ VisitAgrees ssn m i (.queues ssn m i :: .joins ssn m i :: log) := by
  rintro ⟨between, ⟨⟨before, same⟩, fresh⟩, works⟩
  cases between with
  | nil => cases works
  | cons top between =>
      simp only [List.cons_append, List.cons.injEq] at same
      obtain ⟨rfl, rest⟩ := same
      cases between with
      | nil => simp at works
      | cons top between =>
          simp only [List.cons_append, List.cons.injEq] at rest
          exact fresh m i (by simp [← rest.1])

end

/-! ### Requirements -/

/-- What the passport clerk and the cashier ask for. -/
def Client.requirement (m : Kind) (c : Client) : Bool :=
  match m with
  | .passport => c.applicationAccepted && c.pictureTaken
  | .cashier => c.certified
  | _ => true

/-- The clerk's test at the front of a queue of requirements. -/
theorem Clerk.test_of_front {m : Kind} {desk : Desk} {req : Bool}
    (checked : m = .passport ∨ m = .cashier) (front : desk.reqs.head? = some req)
    (unbribed : desk.Unbribed) : (test m desk).1 = req := by
  have bribeReqs := unbribed.reqs
  rcases checked with rfl | rfl <;> cases req <;>
    simp [test, lacksReqs, isCertified, front, bribeReqs]

/-! ### A line under the lock of its monitor -/

/-- The condition of line `i` after a call under the lock of the counter, or
after none: such a call leaves those asleep in the line alone. -/
def Undisturbed (m : Kind) (i : Nat) (before after : Condition Who LockName) : Prop :=
  after = before ∨ (before.waitingLock ≠ some (monitorLock m) ∧
    after.waitingLock = some (clerkLineLocks m i))

theorem Undisturbed.eq_of_bound {m : Kind} {i : Nat}
    {before after : Condition Who LockName} (undisturbed : Undisturbed m i before after)
    (bound : before.waitingLock = some (monitorLock m)) : after = before :=
  undisturbed.resolve_right fun taken => taken.1 bound

theorem Undisturbed.eq_of_free {m : Kind} {i : Nat}
    {before after : Condition Who LockName} (undisturbed : Undisturbed m i before after)
    (free : after.waitingLock ≠ some (clerkLineLocks m i)) : after = before :=
  undisturbed.resolve_right fun taken => free taken.2

/-- Line `i` of monitor `m`: the customer that has been called and not yet
served, if there is one, and those asleep behind it. -/
structure Lineup (office : Office) (m : Kind) (i : Nat) (called : Option Nat)
    (asleep : List Nat) : Prop where
  members : office.Members m i (called.toList ++ asleep)
  clientSSNs : (office.desks m i).clientSSNs =
    (called.toList ++ asleep).map fun n => (office.clients n).ssn
  reqs : m = .passport ∨ m = .cashier → (office.desks m i).reqs =
    (called.toList ++ asleep).map fun n => (office.clients n).requirement m
  count : (office.desks m i).clerkLineCount = (called.toList ++ asleep).length
  bound : called.toList ++ asleep ≠ [] →
    (office.kernel.conditions (clerkLineCV m i)).waitingLock = some (monitorLock m)
  queue : (office.kernel.conditions (clerkLineCV m i)).waitingLock ≠
      some (clerkLineLocks m i) →
    (office.kernel.conditions (clerkLineCV m i)).waitQueue = asleep.map .customer
  visits : ∀ n ∈ called.toList ++ asleep, ∃ between,
    Visit (office.clients n).ssn m i between office.log
  unworked : ∀ n ∈ asleep, ¬ VisitAgrees (office.clients n).ssn m i office.log

/-- The clerk of line `i` has called a customer and is not yet done with it. -/
def Clerk.Attends (i : Nat) (clerk : Clerk) : Prop :=
  clerk.myLine = i ∧ clerk.frontSSN ≠ none ∧
    match clerk.pc with
    | .markBusy | .openMonitor | .await | .serve | .working _ => True
    | _ => False

/-- Clerk `k` has called customer `n`, which is on its way to the counter. -/
structure Attended (office : Office) (m : Kind) (i n k : Nat) : Prop where
  attends : (office.clerks m k).Attends i
  sole : ∀ k', (office.clerks m k').Attends i → k' = k
  front : (office.clerks m k).frontSSN = some (office.clients n).ssn
  comes : (office.clients n).pc = .join m (.take i) ∨
    (office.clients n).pc = .join m (.lock i) ∨ (office.clients n).pc = .join m (.greet i)
  closed : (office.clerks m k).pc = .markBusy ∨ (office.clerks m k).pc = .openMonitor →
    (office.clients n).pc = .join m (.take i)
  awake : (office.clerks m k).pc = .serve →
    ∀ op : Call, pendingCall (office.kernel.stack (.clerk m k)) ≠ some op
  passed : ∀ j, (office.clerks m k).pc = .working j →
    (office.clients n).requirement m = true
  unworked : ¬ VisitAgrees (office.clients n).ssn m i office.log

/-- How far the clerks of line `i` are with the customer that has been called. -/
inductive Service (office : Office) (m : Kind) (i : Nat) : Option Nat → Prop where
  | nobody (rests : ∀ k, ¬ (office.clerks m k).Attends i) : Service office m i none
  | attended (n k : Nat) (attended : office.Attended m i n k) : Service office m i (some n)
  /-- the clerk has done its work or has refused to do it -/
  | finished (n : Nat) (rests : ∀ k, ¬ (office.clerks m k).Attends i)
      (agrees : (office.clients n).requirement m = true ↔
        VisitAgrees (office.clients n).ssn m i office.log) :
      Service office m i (some n)

/-! ### What leaves a line as it is -/

section

variable {office after : Office} {m : Kind} {i : Nat} {called : Option Nat}
variable {asleep : List Nat}

/-- A step in which nobody comes to the line or leaves it. -/
theorem Lineup.frame (remarks : List Remark) (lineup : office.Lineup m i called asleep)
    (members : after.Members m i (called.toList ++ asleep))
    (clients : ∀ n ∈ called.toList ++ asleep,
      (after.clients n).ssn = (office.clients n).ssn ∧
        (after.clients n).requirement m = (office.clients n).requirement m)
    (sameLine : (office.desks m i).SameLine (after.desks m i))
    (undisturbed : Undisturbed m i (office.kernel.conditions (clerkLineCV m i))
      (after.kernel.conditions (clerkLineCV m i)))
    (log : after.log = remarks ++ office.log)
    (stays : ∀ n ∈ called.toList ++ asleep, ∀ m' i',
      .joins (office.clients n).ssn m' i' ∉ remarks)
    (others : ∀ n ∈ asleep, ∀ remark ∈ remarks,
      ¬ remark.Touches (office.clients n).ssn m i) :
    after.Lineup m i called asleep where
  members := members
  clientSSNs := by
    rw [sameLine.clientSSNs, lineup.clientSSNs]
    exact List.map_congr_left fun n member => (clients n member).1.symm
  reqs checked := by
    rw [sameLine.reqs, lineup.reqs checked]
    exact List.map_congr_left fun n member => (clients n member).2.symm
  count := sameLine.count.trans lineup.count
  bound filled := by
    rw [undisturbed.eq_of_bound (lineup.bound filled)]
    exact lineup.bound filled
  queue free := by
    have same := undisturbed.eq_of_free free
    rw [same] at free ⊢
    exact lineup.queue free
  visits n member := by
    obtain ⟨between, visit⟩ := lineup.visits n member
    rw [(clients n member).1, log]
    exact ⟨_, visit.append (stays n member)⟩
  unworked n member := by
    rw [(clients n (List.mem_append_right _ member)).1, log,
      visitAgrees_append (others n member)]
    exact lineup.unworked n member

/-- A step of somebody who attends to nobody in this line. -/
theorem Service.frame (service : office.Service m i called)
    (clients : ∀ n, called = some n → after.clients n = office.clients n)
    (clerks : ∀ k, (after.clerks m k).Attends i ∨ (office.clerks m k).Attends i →
      after.clerks m k = office.clerks m k)
    (awake : ∀ k op, (office.clerks m k).Attends i →
      pendingCall (after.kernel.stack (.clerk m k)) = some op →
      pendingCall (office.kernel.stack (.clerk m k)) = some (op : Call))
    (log : ∀ n, called = some n → (VisitAgrees (office.clients n).ssn m i after.log ↔
      VisitAgrees (office.clients n).ssn m i office.log)) :
    after.Service m i called := by
  have rest : ∀ k, (after.clerks m k).Attends i → (office.clerks m k).Attends i := by
    intro k attends
    rwa [← clerks k (.inl attends)]
  cases service with
  | nobody rests => exact .nobody fun k attends => rests k (rest k attends)
  | attended n k attended =>
      obtain ⟨attends, sole, front, comes, closed, stands, passed, unworked⟩ := attended
      have client := clients n rfl
      have clerk := clerks k (.inr attends)
      refine .attended n k ⟨clerk ▸ attends, fun k' attends' => sole k' (rest k' attends'),
        ?_, client ▸ comes, ?_, ?_, ?_, ?_⟩
      · rw [clerk, client]
        exact front
      · rw [clerk, client]
        exact closed
      · rw [clerk]
        exact fun pc op pending => stands pc op (awake k op attends pending)
      · rw [clerk, client]
        exact passed
      · rw [client, log n rfl]
        exact unworked
  | finished n rests agrees =>
      refine .finished n (fun k attends => rests k (rest k attends)) ?_
      rw [clients n rfl, log n rfl]
      exact agrees

end

/-! ### The conditions of the lines -/

/-- The condition of line `i` is not used in this call, or only under the lock of
the counter. -/
def Aside (m : Kind) (i : Nat) (call : Option Call) : Prop :=
  ∀ l, call ≠ some (.broadcast (clerkLineCV m i) l) ∧
    (call = some (.wait (clerkLineCV m i) l) ∨
      call = some (.signal (clerkLineCV m i) l) → l = some (clerkLineLocks m i))

theorem Aside.undisturbed {m : Kind} {i : Nat} {call : Option Call}
    (aside : Aside m i call) (kernel : Kernel Who Empty LockName CvName) :
    Undisturbed m i (kernel.conditions (clerkLineCV m i))
      (afterCall (clerkLineCV m i) kernel call) := by
  cases call with
  | none => exact .inl rfl
  | some op =>
      rw [afterCall]
      unfold Kernel.conditionAfter
      split
      · rename_i c l same
        cases same
        split
        · rename_i accepted
          obtain ⟨rfl, accepts⟩ := accepted
          cases (aside (some l)).2 (.inl rfl)
          refine .inr ⟨?_, rfl⟩
          rcases accepts with bound | free
          · simp [bound]
          · simp [free]
        · exact .inl rfl
      · rename_i c conditionLock same
        cases same
        split
        · rename_i effect
          obtain ⟨rfl, bound⟩ := effect
          cases (aside conditionLock).2 (.inr rfl)
          exact .inr ⟨by simp [bound], bound⟩
        · exact .inl rfl
      · rename_i c conditionLock same
        cases same
        split
        · rename_i effect
          subst effect
          exact absurd rfl (aside conditionLock).1
        · exact .inl rfl
      · exact .inl rfl

theorem aside_none (m : Kind) (i : Nat) : Aside m i none := by
  simp [Aside]

theorem ManagerPc.step_aside (numClerks : Kind → Nat) (desks : Desks) (pc : ManagerPc)
    (m : Kind) (i : Nat) : Aside m i (pc.step numClerks desks).call := by
  cases pc with
  | enter m' => simp [ManagerPc.step, Aside]
  | scan m' i' =>
      simp only [ManagerPc.step]
      split
      · split
        · simp +contextual [Aside]
        · exact aside_none m i
      · simp [Aside]

/-- Only a clerk that calls a customer signals under the lock of the monitor. -/
theorem Clerk.Does.aside {m m' : Kind} {i clerkID pick : Nat} {desks : Desks}
    {clerk : Clerk} {segment : Segment Clerk}
    (does : clerk.Does m' clerkID pick desks segment)
    (silent : ¬ (m' = m ∧ clerk.myLine = i ∧ clerk.pc = .look ∧
      0 < (desks m' clerk.myLine).clerkLineCount)) : Aside m i segment.call := by
  cases does with
  | callCustomer pc filled =>
      have other : ¬ (m' = m ∧ clerk.myLine = i) := fun ⟨kind, line⟩ =>
        silent ⟨kind, line, pc, filled⟩
      intro l
      simp only [ne_eq, Option.some.injEq, reduceCtorEq, not_false_eq_true, Op.signal.injEq,
        clerkLineCV.injEq, false_or, true_and]
      exact fun used => absurd used.1 other
  | _ => simp +contextual [Aside]

/-- Only a customer that gets in line waits under the lock of the monitor. -/
theorem Client.Does.aside {numClerks : Kind → Nat} {ssnCount : Int} {rand pick : Nat}
    {desks : Desks} {c : Client} {segment : Segment Client}
    (does : c.Does numClerks ssnCount rand pick desks segment) {m : Kind} {i : Nat}
    (stays : c.pc = .join m .look → ¬ segment.next.InLine (segment.remarks ++ []) m i) :
    Aside m i segment.call := by
  cases does with
  | queueUp m' i' pc smallest busy =>
      have other : ¬ (m' = m ∧ i' = i) := by
        rintro ⟨rfl, rfl⟩
        exact stays pc ⟨by simp [AtLine], by simp [queuedIn]⟩
      intro l
      simp only [ne_eq, Option.some.injEq, reduceCtorEq, not_false_eq_true, Op.wait.injEq,
        clerkLineCV.injEq, or_false, true_and]
      exact fun used => absurd used.1 other
  | _ => simp +contextual [Aside]

/-- What the call of the running thread, if there is one, does to the conditions
and to the calls that threads are in. -/
structure Followed (office : Office) (call : Option Call)
    (kernel : Kernel Who Empty LockName CvName) : Prop where
  conditions : ∀ c, kernel.conditions c = afterCall c office.kernel call
  pending : ∀ t (op : Call), pendingCall (kernel.stack t) = some op →
    pendingCall (office.kernel.stack t) = some op ∨
      (t = office.kernel.currentThread ∧ call = some op ∧
        ∀ c l, op = .wait c (some l) → office.kernel.Accepts c l)

theorem Followed.silent (office : Office) : office.Followed none office.kernel where
  conditions _ := rfl
  pending _ _ pending := .inl pending

theorem Followed.call {office : Office} {d : Discipline} {op : Call}
    {kernel : Kernel Who Empty LockName CvName} (wf : office.kernel.WellFormed)
    (called : office.kernel.step d (.call op) = some kernel) :
    office.Followed (some op) kernel where
  conditions := wf.condition_of_step called
  pending t op' pending := by
    rcases wf.pending_of_step called pending with before | ⟨current, same⟩
    · exact .inl before
    · cases same
      subst current
      refine .inr ⟨rfl, rfl, ?_⟩
      rintro c l rfl
      exact wf.accepts_of_pending called pending

theorem Followed.system {office : Office} {d : Discipline}
    {action : Action Who Empty LockName CvName}
    {kernel : Kernel Who Empty LockName CvName} (wf : office.kernel.WellFormed)
    (notCall : ∀ op, action ≠ .call op)
    (stepped : office.kernel.step d action = some kernel) :
    office.Followed none kernel where
  conditions c := by
    rw [wf.condition_of_step stepped]
    cases action with
    | call op => exact absurd rfl (notCall op)
    | _ => rfl
  pending t op pending := by
    rcases wf.pending_of_step stepped pending with before | ⟨-, same⟩
    · exact .inl before
    · exact absurd same (notCall op)

/-- Other threads than the running one come into no call. -/
theorem Followed.pending_other {office : Office} {call : Option Call}
    {kernel : Kernel Who Empty LockName CvName} (followed : office.Followed call kernel)
    {t : Who} (other : t ≠ office.kernel.currentThread) {op : Call}
    (pending : pendingCall (kernel.stack t) = some op) :
    pendingCall (office.kernel.stack t) = some op :=
  (followed.pending t op pending).resolve_right fun current => other current.1

/-! ### The customers of a line -/

/-- Line `i` of monitor `m` is as it should be. -/
def LineInOrder (office : Office) (m : Kind) (i : Nat) : Prop :=
  ∃ called asleep, office.Lineup m i called asleep ∧ office.Service m i called

section

variable {office : Office} {m : Kind} {i n : Nat} {called : Option Nat}
variable {asleep : List Nat}

theorem Lineup.mem_waitQueue (lineup : office.Lineup m i called asleep)
    (member : n ∈ asleep) :
    .customer n ∈ (office.kernel.conditions (clerkLineCV m i)).waitQueue := by
  have bound := lineup.bound (List.ne_nil_of_mem (List.mem_append_right _ member))
  rw [lineup.queue (by simp [bound])]
  exact List.mem_map_of_mem member

/-- Who runs is not asleep in the line. -/
theorem Lineup.awake (lineup : office.Lineup m i called asleep)
    (wf : office.kernel.WellFormed) (running : office.kernel.phase = .running)
    (current : office.kernel.currentThread = .customer n) : n ∉ asleep := by
  intro member
  have blocked := (wf.asleep_in_wait (lineup.mem_waitQueue member)).1
  rw [← current, (wf.awake (.inl running)).1] at blocked
  cases blocked

/-- Who is in line and runs has been called. -/
theorem Lineup.called_of_current (lineup : office.Lineup m i called asleep)
    (wf : office.kernel.WellFormed) (running : office.kernel.phase = .running)
    (current : office.kernel.currentThread = .customer n) (inLine : office.InLine m i n) :
    called = some n := by
  have member := (lineup.members.mem_iff n).mpr inLine
  rcases List.mem_append.mp member with first | member
  · simpa using first
  · exact absurd member (lineup.awake wf running current)

theorem Lineup.inLine_called (lineup : office.Lineup m i (some n) asleep) :
    office.InLine m i n :=
  (lineup.members.mem_iff n).mp (by simp)

/-- Who has been called is not asleep. -/
theorem Lineup.not_asleep_of_called (lineup : office.Lineup m i (some n) asleep) :
    n ∉ asleep := by
  have once := lineup.members.once
  simp only [Option.toList_some, List.singleton_append, List.nodup_cons] at once
  exact once.1

/-- Who is asleep in the line stands after its `Wait` there. -/
theorem Lineup.pc_of_asleep (lineup : office.Lineup m i called asleep)
    (consistent : office.Consistent) (member : n ∈ asleep) :
    (office.clients n).pc = .join m (.take i) := by
  have bound := lineup.bound (List.ne_nil_of_mem (List.mem_append_right _ member))
  obtain ⟨l, blocking, stack⟩ :=
    consistent.coupled.of_asleep consistent.wf (lineup.mem_waitQueue member)
  obtain rfl : monitorLock m = l :=
    Option.some.inj (bound.symm.trans (consistent.under _ _ l stack))
  simp only [blockingCall, Client.blockingCall] at blocking
  split at blocking <;> rename_i pc <;> cases blocking
  exact pc

/-- A clerk with the SSN of a customer in its line has called that one. -/
theorem Service.called_of_front (service : office.Service m i called)
    (lineup : office.Lineup m i called asleep) (registered : office.Registered) {k : Nat}
    (attends : (office.clerks m k).Attends i)
    (front : (office.clerks m k).frontSSN = some (office.clients n).ssn)
    (inLine : office.InLine m i n) : called = some n := by
  cases service with
  | nobody rests => exact absurd attends (rests k)
  | attended n' k' attended =>
      obtain rfl := attended.sole k attends
      have equal : (office.clients n').ssn = (office.clients n).ssn :=
        Option.some.inj (attended.front.symm.trans front)
      rw [registered.distinct n' n (Members.started_of_inLine lineup.inLine_called)
        (Members.started_of_inLine inLine) equal]
  | finished n' rests agrees => exact absurd attends (rests k)

/-- The clerk that attends to somebody attends to the customer that has been
called. -/
theorem Service.attended_of (service : office.Service m i called) {k : Nat}
    (attends : (office.clerks m k).Attends i) :
    ∃ n, called = some n ∧ office.Attended m i n k := by
  cases service with
  | nobody rests => exact absurd attends (rests k)
  | attended n k' attended =>
      obtain rfl := attended.sole k attends
      exact ⟨n, rfl, attended⟩
  | finished n rests agrees => exact absurd attends (rests k)

/-- The customer that is served has been attended to. -/
theorem Service.agrees_of_served (service : office.Service m i (some n))
    (pc : (office.clients n).pc = .join m (.served i)) :
    (∀ k, ¬ (office.clerks m k).Attends i) ∧
      ((office.clients n).requirement m = true ↔
        VisitAgrees (office.clients n).ssn m i office.log) := by
  cases service with
  | attended _ k attended =>
      rcases attended.comes with comes | comes | comes <;> simp [pc] at comes
  | finished _ rests agrees => exact ⟨rests, agrees⟩

end

/-- Nobody in the office moves. -/
theorem LineInOrder.idle {office after : Office} {m : Kind} {i : Nat} {call : Option Call}
    (line : office.LineInOrder m i) {kernel : Kernel Who Empty LockName CvName}
    (followed : office.Followed call kernel) (aside : Aside m i call)
    (notClerk : ∀ k, office.kernel.currentThread = .clerk m k → call = none)
    (clients : after.clients = office.clients) (clerks : after.clerks = office.clerks)
    (desks : after.desks = office.desks) (log : after.log = office.log) :
    LineInOrder { after with kernel := kernel } m i := by
  obtain ⟨called, asleep, lineup, service⟩ := line
  refine ⟨called, asleep, lineup.frame [] ?_ ?_ ?_ ?_ log ?_ ?_,
    service.frame ?_ ?_ ?_ ?_⟩
  · exact lineup.members.congr fun n => by simp [Office.InLine, clients, log]
  · simp [clients]
  · exact .of_eq (by simp [desks])
  · have same : kernel.conditions (clerkLineCV m i) = _ := followed.conditions _
    simpa only [same] using aside.undisturbed office.kernel
  · simp
  · simp
  · simp [clients]
  · simp [clerks]
  · intro k op attends pending
    rcases followed.pending _ op pending with before | ⟨current, called, -⟩
    · exact before
    · rw [notClerk k current.symm] at called
      cases called
  · simp [log]

end Nachos.Office
