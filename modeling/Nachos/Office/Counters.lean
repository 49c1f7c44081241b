/-
Module: Nachos.Office.Counters
Purpose: The counters of the office go through their phases in every run in
  which locks are handed over as they should be, no `Wait` is refused and no
  customer is earlier than the clerk.  At most one customer is then at each
  counter, and a clerk begins its next round when its customer has left.
  Without the last condition two customers can walk up to one clerk.
Trusted boundary: none
Main exports: counter, Ordered, InOrder, OneAtCounter, RoundFollowsLeave,
  one_at_counter, two_customers_at_counter
-/
import Nachos.Office.Lines
import Nachos.Office.Locking
import Nachos.Office.Phases

namespace Nachos.Office

open LockName CvName

/-! ### The view of a counter -/

def Stage.line : Stage → Option Nat
  | .enter | .look => none
  | .take i | .lock i | .greet i | .await i | .served i | .tooSoon i _
  | .leave i => some i

/-- Where a customer is, if it has chosen line `i` of monitor `m`. -/
def Client.stageAt (m : Kind) (i : Nat) (c : Client) : Option Stage :=
  match c.pc with
  | .join m' stage =>
      if m' = m ∧ stage.line = some i then some stage else none
  | _ => none

@[simp] theorem Client.stageAt_join (ssn : Int)
    (applicationAccepted pictureTaken bribed certified done : Bool) (m m' : Kind)
    (i : Nat) (stage : Stage) :
    Client.stageAt m i ⟨ssn, applicationAccepted, pictureTaken, bribed, certified,
      done, .join m' stage⟩ =
      if m' = m ∧ stage.line = some i then some stage else none :=
  rfl

/-- Where a clerk is, if it serves line `i`. -/
def Clerk.pcAt (i : Nat) (clerk : Clerk) : Option ClerkPc :=
  if clerk.pc ≠ .create ∧ clerk.myLine = i then some clerk.pc else none

def counter (office : Office) (m : Kind) (i : Nat) : Counter where
  state := (office.desks m i).clerkState
  count := (office.desks m i).clerkLineCount
  stage n := (office.clients n).stageAt m i
  clerkPc k := (office.clerks m k).pcAt i
  cv := office.kernel.conditions (clerkLineCV m i)

theorem Client.stageAt_eq_some {m : Kind} {i : Nat} {c : Client} {stage : Stage} :
    c.stageAt m i = some stage ↔ c.pc = .join m stage ∧ stage.line = some i := by
  unfold Client.stageAt
  split
  · rename_i m' stage' pc
    rw [pc, Option.ite_none_right_eq_some, Option.some.injEq, ClientPc.join.injEq]
    constructor
    · rintro ⟨⟨rfl, line⟩, rfl⟩
      exact ⟨⟨rfl, rfl⟩, line⟩
    · rintro ⟨⟨rfl, rfl⟩, line⟩
      exact ⟨⟨rfl, line⟩, rfl⟩
  · rename_i other
    simp only [reduceCtorEq, false_iff, not_and]
    intro pc
    exact absurd pc (other m stage)

theorem Clerk.pcAt_eq_some {i : Nat} {clerk : Clerk} {pc : ClerkPc} :
    clerk.pcAt i = some pc ↔
      clerk.pc = pc ∧ clerk.pc ≠ .create ∧ clerk.myLine = i := by
  rw [Clerk.pcAt, Option.ite_none_right_eq_some, Option.some.injEq]
  exact and_comm

/-! ### Who sleeps at a counter -/

theorem Consistent.queued {office : Office} (consistent : office.Consistent)
    (m : Kind) (i : Nat) : (office.counter m i).Queued m i where
  once := consistent.wf.queuedOnce (.condition (clerkLineCV m i))
  inLine n j stage asleep := by
    obtain ⟨l, blocking, stack⟩ := consistent.coupled.of_asleep consistent.wf asleep
    obtain ⟨pc, line⟩ := Client.stageAt_eq_some.mp stage
    cases line
    have under : l = monitorLock m := by
      simpa [blockingCall, Client.blockingCall, pc] using blocking.symm
    rw [← under]
    exact consistent.under _ _ l stack
  atCounter t asleep bound := by
    obtain ⟨l, blocking, stack⟩ := consistent.coupled.of_asleep consistent.wf asleep
    obtain rfl : clerkLineLocks m i = l := by
      have under := consistent.under _ _ l stack
      exact Option.some.inj (bound.symm.trans under)
    cases t with
    | clerk m' k =>
        right
        simp only [blockingCall, Clerk.blockingCall] at blocking
        split at blocking <;> rename_i pc <;> cases blocking
        all_goals exact ⟨k, rfl, by simp [counter, Clerk.pcAt, pc]⟩
    | customer n =>
        left
        simp only [blockingCall, Client.blockingCall] at blocking
        split at blocking <;> rename_i pc <;> cases blocking
        exact ⟨n, i, rfl, Client.stageAt_eq_some.mpr ⟨pc, rfl⟩⟩
    | manager =>
        simp only [blockingCall, ManagerPc.blockingCall] at blocking
        split at blocking <;> cases blocking
    | main => cases blocking
    | senator n => cases blocking

/-! ### The running thread is alone -/

section

variable {office : Office}

theorem awake_of_running (wf : office.kernel.WellFormed)
    (running : office.kernel.phase = .running) (m : Kind) (i : Nat) :
    ¬ (office.counter m i).Asleep office.kernel.currentThread := by
  intro asleep
  have blocked := (wf.asleep_in_wait asleep).1
  rw [(wf.awake (.inl running)).1] at blocked
  cases blocked

/-- Customers in the line that are in their `Wait` are asleep in it. -/
def LineAsleep (office : Office) (m : Kind) (i : Nat) : Prop :=
  ∀ n, (office.clients n).pc = .join m (.take i) → ∀ op : Call,
    pendingCall (office.kernel.stack (.customer n)) = some op →
    (office.counter m i).Asleep (.customer n)

/-- Nobody else is awake inside the monitor of the running thread. -/
theorem Holding.alone_in_monitor (holding : office.Holding)
    (consistent : office.Consistent) (running : office.kernel.phase = .running)
    {m : Kind} {i : Nat} (asleep : office.LineAsleep m i)
    (mine : monitorLock m ∈ office.locksOf office.kernel.currentThread) :
    (∀ v j, (office.counter m i).stage v = some (.take j) →
      .customer v ≠ office.kernel.currentThread →
      (office.counter m i).Asleep (.customer v)) ∧
    ∀ k, .clerk m k ≠ office.kernel.currentThread →
      (office.counter m i).clerkPc k ≠ some .takeLine := by
  refine ⟨fun v j stage other => ?_, fun k other at' => ?_⟩
  · obtain ⟨pc, line⟩ := Client.stageAt_eq_some.mp stage
    cases line
    obtain ⟨op, pending, -, -⟩ := (holding _).pending_of_other consistent running mine
      (by simp [locksOf, Client.locks, pc]) other
    exact asleep v pc op pending
  · obtain ⟨pc, -, -⟩ := Clerk.pcAt_eq_some.mp at'
    obtain ⟨op, -, blocking, ends⟩ := (holding _).pending_of_other consistent running mine
      (by simp [locksOf, Clerk.locks, pc]) other
    simp only [blockingCall, Clerk.blockingCall, pc, Option.some.injEq] at blocking
    subst blocking
    cases ends

/-- Nobody else is awake inside the lock of the running thread's counter. -/
theorem Holding.alone_at_counter (holding : office.Holding)
    (consistent : office.Consistent) (running : office.kernel.phase = .running)
    {m : Kind} {i : Nat}
    (mine : clerkLineLocks m i ∈ office.locksOf office.kernel.currentThread) :
    (∀ v, .customer v ≠ office.kernel.currentThread → ∀ j,
      (office.counter m i).stage v ≠ some (.await j) ∧
      (∀ n, (office.counter m i).stage v ≠ some (.tooSoon j n)) ∧
      (office.counter m i).stage v ≠ some (.leave j)) ∧
    ∀ k, .clerk m k ≠ office.kernel.currentThread →
      (office.counter m i).clerkPc k ≠ some .awaitLeave := by
  have idle : ∀ {v stage}, .customer v ≠ office.kernel.currentThread →
      (office.counter m i).stage v = some stage →
      clerkLineLocks m i ∈ office.locksOf (.customer v) →
      office.blockingCall (.customer v) ≠ none := by
    intro v stage other here inside
    obtain ⟨op, -, blocking, -⟩ :=
      (holding _).pending_of_other consistent running mine inside other
    simp [blocking]
  refine ⟨fun v other j => ⟨fun here => ?_, fun n here => ?_, fun here => ?_⟩,
    fun k other at' => ?_⟩
  · obtain ⟨pc, line⟩ := Client.stageAt_eq_some.mp here
    cases line
    refine idle other here (by simp [locksOf, Client.locks, pc]) ?_
    simp [blockingCall, Client.blockingCall, pc]
  · obtain ⟨pc, line⟩ := Client.stageAt_eq_some.mp here
    cases line
    refine idle other here (by simp [locksOf, Client.locks, pc]) ?_
    simp [blockingCall, Client.blockingCall, pc]
  · obtain ⟨pc, line⟩ := Client.stageAt_eq_some.mp here
    cases line
    refine idle other here (by simp [locksOf, Client.locks, pc]) ?_
    simp [blockingCall, Client.blockingCall, pc]
  · obtain ⟨pc, -, line⟩ := Clerk.pcAt_eq_some.mp at'
    obtain ⟨op, -, blocking, -⟩ := (holding _).pending_of_other consistent running mine
      (by simp [locksOf, Clerk.locks, pc, line]) other
    simp [blockingCall, Clerk.blockingCall, pc] at blocking

end

/-! ### What a segment does at a counter -/

theorem counter_afterClient (office : Office) (n : Nat) (segment : Segment Client)
    (kernel : Kernel Who Empty LockName CvName) (m : Kind) (i : Nat) :
    counter { office.afterClient n segment with kernel := kernel } m i =
      { state := (segment.desks m i).clerkState
        count := (segment.desks m i).clerkLineCount
        stage := Function.update (office.counter m i).stage n
          (segment.next.stageAt m i)
        clerkPc := (office.counter m i).clerkPc
        cv := kernel.conditions (clerkLineCV m i) } := by
  ext1
  case stage =>
    funext n'
    by_cases same : n' = n
    · subst same
      simp [counter]
    · simp [counter, same]
  all_goals rfl

theorem counter_afterClerk (office : Office) (m : Kind) (k : Nat)
    (segment : Segment Clerk) (kernel : Kernel Who Empty LockName CvName) (i : Nat) :
    counter { office.afterClerk m k segment with kernel := kernel } m i =
      { state := (segment.desks m i).clerkState
        count := (segment.desks m i).clerkLineCount
        stage := (office.counter m i).stage
        clerkPc := Function.update (office.counter m i).clerkPc k
          (segment.next.pcAt i)
        cv := kernel.conditions (clerkLineCV m i) } := by
  ext1
  case clerkPc =>
    funext k'
    by_cases same : k' = k
    · subst same
      simp [counter]
    · simp [counter, same]
  all_goals rfl

/-- A customer that is not at this counter does nothing to it. -/
theorem Client.Does.elsewhere {numClerks : Kind → Nat} {ssnCount : Int}
    {rand pick : Nat} {desks : Desks} {c : Client} {segment : Segment Client}
    (does : c.Does numClerks ssnCount rand pick desks segment) {m : Kind} {i : Nat}
    (before : c.stageAt m i = none) (after : segment.next.stageAt m i = none)
    (kernel : Kernel Who Empty LockName CvName) :
    segment.desks m i = desks m i ∧
      afterCall (clerkLineCV m i) kernel segment.call =
        kernel.conditions (clerkLineCV m i) := by
  -- it is enough that the customer's own counter is another one
  have unlike : ∀ {m' : Kind} {i' : Nat}, ¬ (m = m' ∧ i = i') →
      clerkLineCV m' i' ≠ clerkLineCV m i := by
    intro m' i' other same
    cases same
    exact other ⟨rfl, rfl⟩
  cases does with
  | queueUp m' i' pc | walkUp m' i' pc =>
      have other : ¬ (m = m' ∧ i = i') := by
        rintro ⟨rfl, rfl⟩
        simp [Client.stageAt, Stage.line] at after
      simp [Desks.set_of_ne other, afterCall, Kernel.conditionAfter, unlike other]
  | take m' i' pc | lock m' i' pc | greet m' i' pc | await m' i' pc
  | served m' i' pc | tooSoon m' i' n pc | yield m' i' n pc | goodbye m' i' pc
  | leave m' i' pc =>
      have other : ¬ (m = m' ∧ i = i') := by
        rintro ⟨rfl, rfl⟩
        simp [Client.stageAt, Stage.line, pc] at before
      simp [Desks.set_of_ne other, afterCall, Kernel.conditionAfter, unlike other]
  | retake i' pc =>
      have other : ¬ (m = .picture ∧ i = i') := by
        rintro ⟨rfl, rfl⟩
        simp [Client.stageAt, Stage.line, pc] at before
      simp [afterCall, Kernel.conditionAfter, unlike other]
  | _ => exact ⟨rfl, rfl⟩

/-- A clerk that does not serve this counter does nothing to it. -/
theorem Clerk.Does.elsewhere {m m' : Kind} {clerkID pick : Nat} {desks : Desks}
    {clerk : Clerk} {segment : Segment Clerk}
    (does : clerk.Does m' clerkID pick desks segment) {i : Nat}
    (other : clerk.pc = .create ∨ ¬ (m = m' ∧ i = clerk.myLine))
    (kernel : Kernel Who Empty LockName CvName) :
    segment.desks m i = desks m i ∧
      afterCall (clerkLineCV m i) kernel segment.call =
        kernel.conditions (clerkLineCV m i) := by
  have unlike : ¬ (m = m' ∧ i = clerk.myLine) →
      clerkLineCV m' clerk.myLine ≠ clerkLineCV m i := by
    intro other same
    cases same
    exact other ⟨rfl, rfl⟩
  cases does with
  | create pc => exact ⟨rfl, rfl⟩
  | startWork n pc => exact ⟨rfl, rfl⟩
  | present pc =>
      have other := other.resolve_left (by rcases pc with pc | pc <;> simp [pc])
      simp [afterCall, Kernel.conditionAfter, unlike other]
  | enter pc | callCustomer pc | goOnBreak pc | goOnPictureBreak pc | markBusy pc
  | takeLine pc | openMonitor pc | await pc | refuse pc | awaitOpinion pc
  | yield _ pc | finishWork pc | finishPicture pc | awaitLeave pc | close pc =>
      have other := other.resolve_left (by simp [pc])
      simp [Desks.set_of_ne other, afterCall, Kernel.conditionAfter, unlike other]

/-! ### Rounds -/

/-- A clerk past a `Wait` at its counter. -/
def ClerkPc.Waited : ClerkPc → Prop
  | .takeLine | .serve | .develop | .awaitOpinion | .working _ | .awaitLeave
  | .close => True
  | _ => False

/-- Counter `i` of monitor `m` is in one of its phases.  Only the first lock
that its condition is used with can be waited under: that of the monitor when
there is somebody in the line, and that of the counter when the clerk has
waited there. -/
structure Ordered (office : Office) (m : Kind) (i : Nat) : Prop where
  phase : (office.counter m i).Phase m i
  filled : 0 < (office.counter m i).count →
    (office.counter m i).cv.waitingLock = some (monitorLock m)
  bound : ∀ k pc, (office.counter m i).clerkPc k = some pc → pc.Waited →
    (office.counter m i).cv.waitingLock = some (clerkLineLocks m i)
  asleep : office.LineAsleep m i

theorem Counter.Phase.of_eq {m : Kind} {i : Nat} {s s' : Counter}
    (phase : s.Phase m i) (same : s' = s) : s'.Phase m i :=
  same ▸ phase

/-- A customer finds nobody else at the counter it goes to. -/
theorem Client.Does.phase {numClerks : Kind → Nat} {ssnCount : Int}
    {rand pick n : Nat} {office : Office} {segment : Segment Client}
    (does : (office.clients n).Does numClerks ssnCount rand pick office.desks segment)
    (consistent : office.Consistent) (holding : office.Holding)
    (running : office.kernel.phase = .running)
    (current : office.kernel.currentThread = .customer n) {m : Kind} {i : Nat}
    (ordered : office.Ordered m i)
    (accepts : ∀ c l, segment.call = some (.wait c (some l)) →
      office.kernel.Accepts c l)
    (found : (office.clients n).pc = .join m .look →
      getSmallestLine m (numClerks m) (office.desks m) = some i →
      (office.desks m i).clerkState ≠ .available)
    {kernel : Kernel Who Empty LockName CvName}
    (cv : kernel.conditions (clerkLineCV m i) =
      afterCall (clerkLineCV m i) office.kernel segment.call) :
    (counter { office.afterClient n segment with kernel := kernel } m i).Phase m i := by
  have phase := ordered.phase
  have queued := consistent.queued m i
  have awake : ¬ (office.counter m i).Asleep (.customer n) :=
    current ▸ awake_of_running consistent.wf running m i
  rw [counter_afterClient, cv]
  by_cases away : (office.clients n).stageAt m i = none ∧
      segment.next.stageAt m i = none
  · obtain ⟨desk, same⟩ := does.elsewhere away.1 away.2 office.kernel
    refine phase.of_eq ?_
    rw [desk, same, away.2, ← away.1]
    exact Counter.ext rfl rfl (Function.update_eq_self n _) rfl rfl
  · cases does with
    | queueUp m' i' pc smallest busy =>
        obtain ⟨rfl, rfl⟩ : m' = m ∧ i' = i := by
          by_contra other
          exact away (by simp [Client.stageAt, Stage.line, pc, other])
        have accepted := accepts _ _ rfl
        have out : (office.counter m' i').stage n = none := by
          simp [counter, Client.stageAt, Stage.line, pc]
        obtain ⟨state, count⟩ := Client.queueUp_line (consistent.unbribed.clients n) m'
          (office.desks m' i')
        refine (phase.queueUp out busy accepted).of_eq ?_
        ext1 <;> simp [counter, Stage.line, afterCall,
          Kernel.conditionAfter, accepted, current, state, count]
    | walkUp m' i' pc smallest idle =>
        obtain ⟨rfl, rfl⟩ : m' = m ∧ i' = i := by
          by_contra other
          exact away (by simp [Client.stageAt, Stage.line, pc, other])
        have onBreak : (office.counter m' i').state = .onBreak := by
          have known := found pc smallest
          cases state : (office.desks m' i').clerkState with
          | available => exact absurd state known
          | busy => exact absurd state idle
          | onBreak => exact state
        obtain ⟨alone, noBreak⟩ := holding.alone_in_monitor consistent running
          ordered.asleep (by simp [current, locksOf, Client.locks, pc])
        refine (phase.walkUp onBreak awake (fun v j stage => ?_)
          (fun k => noBreak k (by simp [current]))).of_eq ?_
        · refine alone v j stage ?_
          rw [current]
          rintro same
          cases same
          simp [counter, Client.stageAt, Stage.line, pc] at stage
        · ext1 <;> simp [counter, Stage.line, afterCall]
    | take m' i' pc =>
        obtain ⟨rfl, rfl⟩ : m' = m ∧ i' = i := by
          by_contra other
          exact away (by simp [Client.stageAt, Stage.line, pc, other])
        refine (phase.take (Client.stageAt_eq_some.mpr ⟨pc, rfl⟩) awake).of_eq ?_
        ext1 <;> simp [counter, Stage.line, afterCall,
          Kernel.conditionAfter]
    | lock m' i' pc =>
        obtain ⟨rfl, rfl⟩ : m' = m ∧ i' = i := by
          by_contra other
          exact away (by simp [Client.stageAt, Stage.line, pc, other])
        refine (phase.lock (Client.stageAt_eq_some.mpr ⟨pc, rfl⟩)).of_eq ?_
        ext1 <;> simp [counter, Stage.line, afterCall,
          Kernel.conditionAfter]
    | greet m' i' pc =>
        obtain ⟨rfl, rfl⟩ : m' = m ∧ i' = i := by
          by_contra other
          exact away (by simp [Client.stageAt, Stage.line, pc, other])
        obtain ⟨state, count⟩ := Client.arrive_line m' (office.desks m' i')
        refine (phase.greet queued (Client.stageAt_eq_some.mpr ⟨pc, rfl⟩)).of_eq ?_
        ext1 <;> simp [counter, Stage.line, afterCall,
          Kernel.conditionAfter, state, count]
    | await m' i' pc =>
        obtain ⟨rfl, rfl⟩ : m' = m ∧ i' = i := by
          by_contra other
          exact away (by simp [Client.stageAt, Stage.line, pc, other])
        have accepted := accepts _ _ rfl
        refine (phase.await (Client.stageAt_eq_some.mpr ⟨pc, rfl⟩)).of_eq ?_
        ext1 <;> simp [counter, Stage.line, afterCall,
          Kernel.conditionAfter, accepted, current]
    | retake i' pc dislikes =>
        obtain ⟨rfl, rfl⟩ : .picture = m ∧ i' = i := by
          by_contra other
          exact away (by simp [Client.stageAt, Stage.line, pc, other])
        have here : (office.counter .picture i').stage n = some (.served i') :=
          Client.stageAt_eq_some.mpr ⟨pc, rfl⟩
        obtain ⟨k, taken⟩ := phase.of_visits (Counter.visits_of_stage here (by simp))
        exact absurd rfl taken.other
    | served m' i' pc satisfied =>
        obtain ⟨rfl, rfl⟩ : m' = m ∧ i' = i := by
          by_contra other
          exact away (by simp [Client.stageAt, Stage.line, pc, other])
        obtain ⟨-, waits⟩ := holding.alone_at_counter consistent running
          (m := m') (i := i') (by simp [current, locksOf, Client.locks, pc])
        have state := (Client.quit_line m' (office.desks m' i')).1
        refine phase.served (Client.stageAt_eq_some.mpr ⟨pc, rfl⟩) awake
          (fun k => waits k (by simp [current])) (Counter.keeps_of_signal queued ?_)
          ?_ rfl ?_ (.inr rfl)
        · simp [counter, afterCall, Kernel.conditionAfter]
        · simp [Stage.line]
        · simp [counter, state]
    | tooSoon m' i' j pc checked unsatisfied =>
        obtain ⟨rfl, rfl⟩ : m' = m ∧ i' = i := by
          by_contra other
          exact away (by simp [Client.stageAt, Stage.line, pc, other])
        obtain ⟨-, waits⟩ := holding.alone_at_counter consistent running
          (m := m') (i := i') (by simp [current, locksOf, Client.locks, pc])
        have state := (Client.quit_line m' (office.desks m' i')).1
        refine phase.served (Client.stageAt_eq_some.mpr ⟨pc, rfl⟩) awake
          (fun k => waits k (by simp [current])) (Counter.keeps_of_cv rfl)
          ?_ rfl ?_ (.inl ⟨j, rfl⟩)
        · simp [Stage.line]
        · simp [counter, state]
    | yield m' i' j pc =>
        obtain ⟨rfl, rfl⟩ : m' = m ∧ i' = i := by
          by_contra other
          exact away (by simp [Client.stageAt, Stage.line, pc, other])
        refine phase.goes (Client.stageAt_eq_some.mpr ⟨pc, rfl⟩)
          (Counter.keeps_of_cv rfl) ?_ rfl rfl (.inl ⟨j, rfl⟩)
        simp [Stage.line]
    | goodbye m' i' pc =>
        obtain ⟨rfl, rfl⟩ : m' = m ∧ i' = i := by
          by_contra other
          exact away (by simp [Client.stageAt, Stage.line, pc, other])
        refine phase.goes (Client.stageAt_eq_some.mpr ⟨pc, rfl⟩)
          (Counter.keeps_of_signal queued ?_) ?_ rfl rfl (.inr rfl)
        · simp [counter, afterCall, Kernel.conditionAfter]
        · simp [Stage.line]
    | leave m' i' pc =>
        obtain ⟨rfl, rfl⟩ : m' = m ∧ i' = i := by
          by_contra other
          exact away (by simp [Client.stageAt, Stage.line, pc, other])
        refine (phase.leave (Client.stageAt_eq_some.mpr ⟨pc, rfl⟩)
          (fun k close => ordered.bound k _ close trivial)).of_eq ?_
        ext1 <;> simp [counter, Client.stageAt, afterCall, Kernel.conditionAfter]
    | create pc | finish pc | choose _ pc | pass pc | leaving pc | enter _ pc =>
        exact absurd (by simp [Client.stageAt, Stage.line, pc, construct]) away

@[simp] theorem Clerk.pcAt_mk (myLine i : Nat) (frontSSN : Option Int) (bribed : Bool)
    (pc : ClerkPc) :
    Clerk.pcAt i ⟨myLine, frontSSN, bribed, pc⟩ =
      if pc ≠ .create ∧ myLine = i then some pc else none :=
  rfl

theorem Clerk.Does.of_create {m : Kind} {clerkID pick : Nat} {desks : Desks}
    {clerk : Clerk} {segment : Segment Clerk}
    (does : clerk.Does m clerkID pick desks segment) (create : clerk.pc = .create) :
    segment = ⟨{ clerk with myLine := clerkID, pc := .enter }, desks, none, []⟩ := by
  cases does with
  | create pc => rfl
  | startWork n pc => rcases pc with pc | ⟨-, pc⟩ <;> simp [create] at pc
  | present pc => rcases pc with pc | pc <;> simp [create] at pc
  | enter pc | callCustomer pc | goOnBreak pc | goOnPictureBreak pc | markBusy pc
  | takeLine pc | openMonitor pc | await pc | refuse pc | awaitOpinion pc
  | yield _ pc | finishWork pc | finishPicture pc | awaitLeave pc | close pc =>
      simp [create] at pc

theorem Clerk.Does.of_started {m : Kind} {clerkID pick : Nat} {desks : Desks}
    {clerk : Clerk} {segment : Segment Clerk}
    (does : clerk.Does m clerkID pick desks segment) (started : clerk.pc ≠ .create) :
    segment.next.myLine = clerk.myLine := by
  cases does with
  | create pc => exact absurd pc started
  | _ => rfl

/-- A clerk goes on with its round when the phase of its counter is the right
one. -/
theorem Clerk.Does.phase {clerkID pick k : Nat} {office : Office} {m : Kind}
    {segment : Segment Clerk}
    (does : (office.clerks m k).Does m clerkID pick office.desks segment)
    (consistent : office.Consistent) (holding : office.Holding)
    (running : office.kernel.phase = .running)
    (current : office.kernel.currentThread = .clerk m k) {i : Nat}
    (ordered : office.Ordered m i) (sole : (office.counter m i).Sole)
    (accepts : ∀ c l, segment.call = some (.wait c (some l)) →
      office.kernel.Accepts c l)
    {kernel : Kernel Who Empty LockName CvName}
    (cv : kernel.conditions (clerkLineCV m i) =
      afterCall (clerkLineCV m i) office.kernel segment.call)
    (sole' : (counter { office.afterClerk m k segment with kernel := kernel }
      m i).Sole) :
    (counter { office.afterClerk m k segment with kernel := kernel } m i).Phase m i := by
  have phase := ordered.phase
  have queued := consistent.queued m i
  have awake : ¬ (office.counter m i).Asleep (.clerk m k) :=
    current ▸ awake_of_running consistent.wf running m i
  rw [counter_afterClerk] at sole' ⊢
  rw [cv]
  by_cases create : (office.clerks m k).pc = .create
  · have before : (office.counter m i).clerkPc k = none := by
      simp [counter, Clerk.pcAt, create]
    obtain rfl := does.of_create create
    by_cases starts : clerkID = i
    · subst starts
      refine (phase.create (k := k) fun k' => ?_).of_eq ?_
      · by_contra serves
        have other : k' ≠ k := by
          rintro rfl
          exact serves before
        exact other (sole' k' k (by simpa [other] using serves) (by simp))
      · ext1 <;> simp [counter, afterCall]
    · refine phase.of_eq (Counter.ext rfl rfl rfl ?_ rfl)
      rw [Clerk.pcAt_mk, if_neg (by simp [starts]), ← before]
      exact Function.update_eq_self k _
  · by_cases here : (office.clerks m k).myLine = i
    · subst here
      have at' : (office.counter m (office.clerks m k).myLine).clerkPc k =
          some (office.clerks m k).pc := Clerk.pcAt_eq_some.mpr ⟨rfl, create, rfl⟩
      have reached := phase.pc_cases sole at' awake
      have alone := fun mine => (holding.alone_at_counter consistent running
        (m := m) (i := (office.clerks m k).myLine) mine).1
      simp only [current] at alone
      cases does with
      | create pc => exact absurd pc create
      | enter pc =>
          refine (phase.enter sole (pc ▸ at')).of_eq ?_
          ext1 <;> simp [counter, afterCall, Kernel.conditionAfter]
      | callCustomer pc filled =>
          exact absurd filled (phase.line_empty sole (pc ▸ at') ordered.filled)
      | goOnBreak pc nobody other =>
          refine (phase.goOnBreak sole (pc ▸ at') other).of_eq ?_
          ext1 <;> simp [counter, afterCall, Kernel.conditionAfter, newRound]
      | goOnPictureBreak pc nobody picture =>
          have accepted := accepts _ _ rfl
          refine (phase.goOnPictureBreak sole (pc ▸ at') picture).of_eq ?_
          ext1 <;> simp [counter, afterCall, Kernel.conditionAfter, newRound, accepted,
            current]
      | markBusy pc => exact absurd pc reached.1
      | takeLine pc => exact absurd pc reached.2.1
      | openMonitor pc =>
          refine (phase.openMonitor sole (pc ▸ at') awake).of_eq ?_
          ext1 <;> simp [counter, afterCall, Kernel.conditionAfter]
      | await pc =>
          have accepted := accepts _ _ rfl
          refine (phase.awaitCustomer sole (pc ▸ at') awake).of_eq ?_
          ext1 <;> simp [counter, afterCall, Kernel.conditionAfter, accepted, current]
      | startWork n pc passes =>
          have serve : (office.clerks m k).pc = .serve :=
            pc.resolve_right fun both => reached.2.2.1 both.2
          have alone := alone (by simp [locksOf, Clerk.locks, serve])
          refine (phase.work (c := n) sole (serve ▸ at') (.inl rfl) awake
            (fun v j => (alone v (by simp) j).1)).of_eq ?_
          ext1 <;> simp [counter, afterCall]
      | refuse pc checked fails =>
          have alone := alone (by simp [locksOf, Clerk.locks, pc])
          refine (phase.report sole queued (pc ▸ at') (.inl rfl) awake
            (fun v j => (alone v (by simp) j).1)
            (ordered.bound k _ at' (by simp [pc, ClerkPc.Waited]))).of_eq ?_
          ext1 <;> simp [counter, afterCall, Kernel.conditionAfter]
      | present pc picture =>
          rcases reached.2.2.2.2 picture with at' | at' <;>
            rcases pc with pc | pc <;> simp [pc] at at'
      | awaitOpinion pc => exact absurd pc reached.2.2.2.1
      | yield n pc =>
          have alone := alone (by simp [locksOf, Clerk.locks, pc])
          refine (phase.work (c := n) sole (pc ▸ at') (.inr ⟨_, rfl⟩) awake
            (fun v j => (alone v (by simp) j).1)).of_eq ?_
          ext1 <;> simp [counter, afterCall, Kernel.conditionAfter]
      | finishWork pc other =>
          have alone := alone (by simp [locksOf, Clerk.locks, pc])
          refine (phase.report sole queued (pc ▸ at') (.inr ⟨_, rfl⟩) awake
            (fun v j => (alone v (by simp) j).1)
            (ordered.bound k _ at' (by simp [pc, ClerkPc.Waited]))).of_eq ?_
          ext1 <;> simp [counter, afterCall, Kernel.conditionAfter]
      | finishPicture pc picture =>
          rcases reached.2.2.2.2 picture with at' | at' <;> simp [pc] at at'
      | awaitLeave pc =>
          have accepted := accepts _ _ rfl
          refine (phase.awaitLeave sole (pc ▸ at') awake).of_eq ?_
          ext1 <;> simp [counter, afterCall, Kernel.conditionAfter, accepted, current]
      | close pc =>
          have alone := alone (by simp [locksOf, Clerk.locks, pc])
          refine (phase.close sole (pc ▸ at') awake
            (fun v j => (alone v (by simp) j).2)).of_eq ?_
          ext1 <;> simp [counter, afterCall, Kernel.conditionAfter]
    · obtain ⟨desk, same⟩ := does.elsewhere (.inr fun both => here both.2.symm)
        office.kernel (m := m) (i := i)
      refine phase.of_eq ?_
      rw [desk, same]
      have before : (office.counter m i).clerkPc k = none := by
        simp [counter, Clerk.pcAt, here]
      have after : segment.next.pcAt i = none := by
        simp [Clerk.pcAt, does.of_started create, here]
      rw [after, ← before]
      exact Counter.ext rfl rfl rfl (Function.update_eq_self k _) rfl

/-! ### Everything a segment does to the counters -/

/-- A clerk gets past its first `Wait` only by making one. -/
theorem Clerk.Does.waited {m : Kind} {clerkID pick : Nat} {desks : Desks}
    {clerk : Clerk} {segment : Segment Clerk}
    (does : clerk.Does m clerkID pick desks segment)
    (waited : segment.next.pc.Waited) :
    clerk.pc.Waited ∨
      segment.call = some (.wait (clerkLineCV m clerk.myLine)
        (some (clerkLineLocks m clerk.myLine))) := by
  cases does with
  | startWork n pc =>
      rcases pc with pc | ⟨-, pc⟩ <;> simp [pc, ClerkPc.Waited]
  | present pc =>
      rcases pc with pc | pc <;> simp [pc, ClerkPc.Waited]
  | goOnPictureBreak pc | await pc => exact .inr rfl
  | refuse pc | awaitOpinion pc | yield _ pc | finishWork pc | awaitLeave pc =>
      simp [pc, ClerkPc.Waited]
  | create pc | enter pc | callCustomer pc | goOnBreak pc | markBusy pc | takeLine pc
  | openMonitor pc | finishPicture pc | close pc => exact waited.elim

section

variable {setup : Setup} {rand pick : Nat} {office after : Office} {who : Who}
variable {call : Option Call}

theorem Runs.waited (runs : Runs setup rand pick office who after call) {m : Kind}
    {i k : Nat} {pc : ClerkPc} (at' : (after.clerks m k).pcAt i = some pc)
    (waited : pc.Waited) :
    (∃ pc', (office.clerks m k).pcAt i = some pc' ∧ pc'.Waited) ∨
      call = some (.wait (clerkLineCV m i) (some (clerkLineLocks m i))) := by
  cases runs with
  | fork t rest pending | finish none | senator n | manager | customer n segment does =>
      exact .inl ⟨pc, at', waited⟩
  | clerk m' k' segment does =>
      by_cases same : m = m' ∧ k = k'
      · obtain ⟨rfl, rfl⟩ := same
        simp only [afterClerk_clerks, Function.update_self] at at'
        obtain ⟨rfl, -, line⟩ := Clerk.pcAt_eq_some.mp at'
        have started : (office.clerks m k).pc ≠ .create := by
          intro create
          rw [does.of_create create] at waited
          exact waited
        rw [does.of_started started] at line
        subst line
        rcases does.waited waited with before | calls
        · exact .inl ⟨_, Clerk.pcAt_eq_some.mpr ⟨rfl, started, rfl⟩, before⟩
        · exact .inr calls
      · rw [office.afterClerk_other segment same] at at'
        exact .inl ⟨pc, at', waited⟩

/-- A line grows only when a customer gets in it. -/
theorem Runs.lineCount (runs : Runs setup rand pick office who after call)
    (m : Kind) (i : Nat) :
    (after.desks m i).clerkLineCount ≤ (office.desks m i).clerkLineCount ∨
      call = some (.wait (clerkLineCV m i) (some (monitorLock m))) := by
  have set : ∀ {m' i' desk},
      desk.clerkLineCount ≤ (office.desks m' i').clerkLineCount →
      (office.desks.set m' i' desk m i).clerkLineCount ≤
        (office.desks m i).clerkLineCount := by
    intro m' i' desk le
    by_cases same : m = m' ∧ i = i'
    · obtain ⟨rfl, rfl⟩ := same
      rwa [Desks.set_self]
    · simp [Desks.set_of_ne same]
  cases runs with
  | fork t rest pending | finish none | senator n | manager =>
      exact .inl (Int.le_refl _)
  | clerk m' k segment does => exact .inl (Int.le_of_eq (does.lineCount m i))
  | customer n segment does =>
      cases does with
      | queueUp m' i' pc smallest busy =>
          by_cases same : m = m' ∧ i = i'
          · obtain ⟨rfl, rfl⟩ := same
            exact .inr rfl
          · left
            simp [Desks.set_of_ne same]
      | take m' i' pc => exact .inl (set (Int.le_refl _))
      | greet m' i' pc =>
          have count := (Client.arrive_line m' (office.desks m' i')).2
          exact .inl (set (by omega))
      | served m' i' pc satisfied =>
          have count := (Client.quit_line m' (office.desks m' i')).2
          exact .inl (set (by omega))
      | tooSoon m' i' n pc checked unsatisfied =>
          have count := (Client.quit_line m' (office.desks m' i')).2
          exact .inl (set (by omega))
      | _ => exact .inl (Int.le_refl _)

/-- Only a clerk that finds somebody in its line signals under the lock of the
monitor. -/
theorem Runs.signal_inside {c : CvName} {m : Kind}
    (runs : Runs setup rand pick office who after
      (some (.signal c (some (monitorLock m))))) :
    ∃ k, who = .clerk m k ∧ (office.clerks m k).pc = .look ∧
      c = clerkLineCV m (office.clerks m k).myLine ∧
      0 < (office.desks m (office.clerks m k).myLine).clerkLineCount := by
  generalize ended : some (Op.signal c (some (monitorLock m))) = call at runs
  cases runs with
  | fork t rest pending | finish none | senator n => cases ended
  | manager =>
      cases pc : office.manager with
      | enter m' => simp [pc, ManagerPc.step] at ended
      | scan m' i =>
          simp only [pc, ManagerPc.step] at ended
          split at ended
          · split at ended <;> cases ended
          · cases ended
  | clerk m' k segment does =>
      cases does with
      | callCustomer pc filled =>
          cases ended
          exact ⟨k, rfl, pc, rfl, filled⟩
      | _ => cases ended
  | customer n segment does => cases does <;> cases ended

theorem Runs.no_broadcast {c : CvName} {l : Option LockName}
    (runs : Runs setup rand pick office who after call) :
    call ≠ some (.broadcast c l) := by
  intro ended
  cases runs with
  | fork t rest pending | finish none | senator n => cases ended
  | manager =>
      cases pc : office.manager with
      | enter m' => simp [pc, ManagerPc.step] at ended
      | scan m' i =>
          simp only [pc, ManagerPc.step] at ended
          split at ended
          · split at ended <;> cases ended
          · cases ended
  | clerk m' k segment does => cases does <;> cases ended
  | customer n segment does => cases does <;> cases ended

/-- The manager signals only when there is somebody in the line, and then under
a lock that the condition is not bound to. -/
theorem manager_quiet {m : Kind} {i : Nat}
    (filled : 0 < (office.counter m i).count →
      (office.counter m i).cv.waitingLock = some (monitorLock m)) :
    afterCall (clerkLineCV m i) office.kernel
        (office.manager.step setup.numClerks office.desks).call =
      office.kernel.conditions (clerkLineCV m i) := by
  cases office.manager with
  | enter m' => rfl
  | scan m' i' =>
      simp only [ManagerPc.step]
      split
      · split
        · rename_i crowded
          by_cases same : m' = m ∧ i' = i
          · obtain ⟨rfl, rfl⟩ := same
            have bound := filled (by simp only [counter]; omega)
            have unbound : (office.kernel.conditions (clerkLineCV m' i')).waitingLock ≠
                some (clerkLineLocks m' i') := by
              intro same
              exact absurd (bound.symm.trans same) (by simp)
            simp [afterCall, Kernel.conditionAfter, unbound]
          · simp [afterCall, Kernel.conditionAfter, same]
        · rfl
      · rfl

/-- A customer at `getSmallestLine` would choose a line whose clerk has not
come to its counter yet. -/
def FindsAvailable (setup : Setup) (office : Office) : Move → Prop
  | .exec _ _ =>
      match office.kernel.currentThread with
      | .customer n =>
          match (office.clients n).pc with
          | .join m .look =>
              ∃ i ∈ getSmallestLine m (setup.numClerks m) (office.desks m),
                (office.desks m i).clerkState = .available
          | _ => False
      | _ => False
  | .system _ => False

theorem Ordered.phase_of_runs {m : Kind} {i : Nat} (ordered : office.Ordered m i)
    (consistent : office.Consistent) (holding : office.Holding)
    (running : office.kernel.phase = .running)
    (runs : Runs setup rand pick office office.kernel.currentThread after call)
    (accepts : ∀ c l, call = some (.wait c (some l)) → office.kernel.Accepts c l)
    (found : ¬ office.FindsAvailable setup (.exec rand pick))
    {kernel : Kernel Who Empty LockName CvName}
    (cv : kernel.conditions (clerkLineCV m i) =
      afterCall (clerkLineCV m i) office.kernel call)
    (sole : (office.counter m i).Sole)
    (sole' : (counter { after with kernel := kernel } m i).Sole) :
    (counter { after with kernel := kernel } m i).Phase m i := by
  generalize current : office.kernel.currentThread = who at runs
  cases runs with
  | fork t rest pending | finish none | senator n =>
      exact ordered.phase.of_eq (Counter.ext rfl rfl rfl rfl cv)
  | manager =>
      rw [manager_quiet ordered.filled] at cv
      exact ordered.phase.of_eq (Counter.ext rfl rfl rfl rfl cv)
  | clerk m' k segment does =>
      by_cases kind : m = m'
      · subst kind
        exact does.phase consistent holding running current ordered sole accepts cv sole'
      · obtain ⟨desk, same⟩ := does.elsewhere (m := m) (i := i)
          (.inr fun both => kind both.1) office.kernel
        rw [same] at cv
        refine ordered.phase.of_eq (Counter.ext ?_ ?_ rfl ?_ cv)
        · simp [counter, desk]
        · simp [counter, desk]
        · simp [counter, kind]
  | customer n segment does =>
      refine does.phase consistent holding running current ordered accepts ?_ cv
      intro pc smallest available
      refine found ?_
      simp only [FindsAvailable, current, pc]
      exact ⟨i, smallest, available⟩

theorem Runs.client_other {n : Nat}
    (runs : Runs setup rand pick office who after call) (other : .customer n ≠ who) :
    after.clients n = office.clients n := by
  cases runs with
  | customer n' segment does =>
      have different : n ≠ n' := by
        rintro rfl
        exact other rfl
      simp [different]
  | _ => rfl

/-- Nobody in the line is woken: a `Signal` under the lock of the monitor would
come from a clerk that finds somebody in its line. -/
theorem Ordered.keeps_asleep {m : Kind} {i n j : Nat} (ordered : office.Ordered m i)
    (consistent : office.Consistent)
    (runs : Runs setup rand pick office who after call)
    (sole : (office.counter m i).Sole)
    (stage : (office.counter m i).stage n = some (.take j))
    (asleep : (office.counter m i).Asleep (.customer n)) :
    .customer n ∈ (afterCall (clerkLineCV m i) office.kernel call).waitQueue := by
  have under := (consistent.queued m i).inLine n j stage asleep
  cases call with
  | none => exact asleep
  | some op =>
      rw [afterCall]
      unfold Kernel.conditionAfter
      split
      · split
        · exact List.mem_append_left _ asleep
        · exact asleep
      · rename_i c' conditionLock same
        cases same
        split
        · rename_i effect
          obtain ⟨rfl, bound⟩ := effect
          obtain rfl : some (monitorLock m) = conditionLock := under.symm.trans bound
          obtain ⟨k, rfl, pc, line, filled⟩ := runs.signal_inside
          cases line
          have here : (office.counter m (office.clerks m k).myLine).clerkPc k =
              some .look := Clerk.pcAt_eq_some.mpr ⟨pc, by simp [pc], rfl⟩
          exact absurd filled (ordered.phase.line_empty sole here ordered.filled)
        · exact asleep
      · rename_i same
        cases same
        exact absurd rfl runs.no_broadcast
      · exact asleep

theorem Ordered.runs {m : Kind} {i : Nat} (ordered : office.Ordered m i)
    (consistent : office.Consistent) (holding : office.Holding)
    (running : office.kernel.phase = .running)
    (runs : Runs setup rand pick office office.kernel.currentThread after call)
    (accepts : ∀ c l, call = some (.wait c (some l)) → office.kernel.Accepts c l)
    (found : ¬ office.FindsAvailable setup (.exec rand pick))
    {kernel : Kernel Who Empty LockName CvName}
    (cv : kernel.conditions (clerkLineCV m i) =
      afterCall (clerkLineCV m i) office.kernel call)
    (pending : ∀ t (op : Call), pendingCall (kernel.stack t) = some op →
      pendingCall (office.kernel.stack t) = some op ∨
        (t = office.kernel.currentThread ∧ call = some op))
    (sole : (office.counter m i).Sole)
    (sole' : (counter { after with kernel := kernel } m i).Sole) :
    Ordered { after with kernel := kernel } m i where
  phase := ordered.phase_of_runs consistent holding running runs accepts found cv
    sole sole'
  filled := by
    intro filled
    simp only [counter, cv] at filled ⊢
    rcases runs.lineCount m i with le | rfl
    · exact waitingLock_afterCall call
        (ordered.filled (by simp only [counter]; omega))
    · rw [wait_afterCall (accepts _ _ rfl)]
  bound := by
    intro k pc here waited
    simp only [counter, cv] at here ⊢
    rcases runs.waited here waited with ⟨pc', before, waited'⟩ | rfl
    · exact waitingLock_afterCall call (ordered.bound k pc' before waited')
    · rw [wait_afterCall (accepts _ _ rfl)]
  asleep := by
    intro n pc op waits
    simp only [Counter.Asleep, counter, cv]
    rcases pending _ op waits with before | ⟨current, rfl⟩
    · have other : Who.customer n ≠ office.kernel.currentThread := by
        intro current
        rw [current] at before
        exact pendingCall_current consistent.wf running op before
      have unchanged : (office.clients n).pc = .join m (.take i) :=
        runs.client_other other ▸ pc
      exact ordered.keeps_asleep consistent runs sole
        (Client.stageAt_eq_some.mpr ⟨unchanged, rfl⟩)
        (ordered.asleep n unchanged op before)
    · have blocking := runs.fits.1.blocks op rfl (lock_of_pending waits)
      rw [← current] at blocking
      replace pc : (after.clients n).pc = .join m (.take i) := pc
      simp only [blockingCall, Client.blockingCall, pc, Option.some.injEq] at blocking
      subst blocking
      rw [wait_afterCall (accepts _ _ rfl), current]
      simp

end

/-- What the exclusion at the counters rests on, in one step: no thread returns
from `Acquire` without the lock, no `Wait` returns at once, and no customer
walks up to a counter to which the clerk has not come yet. -/
structure InOrder (setup : Setup) (office : Office) (move : Move) : Prop where
  noSleeper : NoSleeperResumes setup office move
  noRefusal : NoWaitRefused setup office move
  noArrival : ¬ office.FindsAvailable setup move

theorem Ordered.step {setup : Setup} {d : Discipline} {office office' : Office}
    {move : Move} {m : Kind} {i : Nat} (ordered : office.Ordered m i)
    (consistent : office.Consistent) (holding : office.Holding)
    (inOrder : InOrder setup office move) (sole : (office.counter m i).Sole)
    (sole' : (office'.counter m i).Sole)
    (step : office.step setup d move = some office') : office'.Ordered m i := by
  have wf := consistent.wf
  cases consistent.unbribed.moves step with
  | silent rand pick after running runs =>
      have same : { office' with kernel := office.kernel } = office' := by
        rw [← runs.kernel_eq]
      rw [← same] at sole' ⊢
      exact ordered.runs consistent holding running runs (by simp) inOrder.noArrival rfl
        (fun t op pending => .inl pending) sole sole'
  | call rand pick after op kernel running runs calls called =>
      refine ordered.runs consistent holding running runs ?_ inOrder.noArrival
        (wf.condition_of_step called _) ?_ sole sole'
      · rintro c l same
        cases same
        exact inOrder.noRefusal c l calls
      · intro t op' pending
        rcases wf.pending_of_step called pending with before | ⟨current, same⟩
        · exact .inl before
        · cases same
          exact .inr ⟨current, rfl⟩
  | system action kernel notCall stepped =>
      have cv : kernel.conditions (clerkLineCV m i) =
          office.kernel.conditions (clerkLineCV m i) := by
        rw [wf.condition_of_step stepped]
        cases action with
        | call op => exact absurd rfl (notCall op)
        | _ => rfl
      have same : counter { office with kernel := kernel } m i = office.counter m i :=
        Counter.ext rfl rfl rfl rfl cv
      refine ⟨same ▸ ordered.phase, same ▸ ordered.filled, same ▸ ordered.bound, ?_⟩
      intro n pc op waits
      rw [same]
      rcases wf.pending_of_step stepped waits with before | ⟨-, called⟩
      · exact ordered.asleep n pc op before
      · exact absurd called (notCall op)

/-! ### Whole runs -/

/-- Customer `c` is between `clerkState[i] = 1` and its final `Release` of
`clerkLineLocks[i]`. -/
def Client.AtDesk (m : Kind) (i : Nat) (c : Client) : Prop :=
  match c.pc with
  | .join m' (.lock i') | .join m' (.greet i') | .join m' (.await i')
  | .join m' (.served i') | .join m' (.tooSoon i' _) | .join m' (.leave i') =>
      m' = m ∧ i' = i
  | _ => False

/-- At every counter of monitor `m` there is at most one customer. -/
def OneAtCounter (m : Kind) (office : Office) : Prop :=
  ∀ i n n', (office.clients n).AtDesk m i → (office.clients n').AtDesk m i → n = n'

/-- A clerk of kind `m` that comes to the beginning of its next round in this
step leaves no customer at its counter. -/
def RoundFollowsLeave (setup : Setup) (d : Discipline) (m : Kind) (office : Office)
    (move : Move) : Prop :=
  ∀ office', office.step setup d move = some office' →
    ∀ k, (office.clerks m k).pc ≠ .create → (office.clerks m k).pc ≠ .enter →
      (office'.clerks m k).pc = .enter →
      ∀ n, ¬ (office'.clients n).AtDesk m (office'.clerks m k).myLine

theorem Client.AtDesk.visits {office : Office} {m : Kind} {i n : Nat}
    (here : (office.clients n).AtDesk m i) : (office.counter m i).Visits n := by
  unfold Client.AtDesk at here
  split at here
  case h_7 => exact here.elim
  all_goals
    obtain ⟨rfl, rfl⟩ := here
    exact Counter.visits_of_stage (Client.stageAt_eq_some.mpr ⟨‹_›, rfl⟩) (by simp)

theorem OneClerkPerLine.sole {setup : Setup} {office : Office} {m : Kind}
    (lines : OneClerkPerLine setup m office) (i : Nat) :
    (office.counter m i).Sole := by
  have serves : ∀ k, (office.counter m i).clerkPc k ≠ none →
      Started office m k ∧ (office.clerks m k).myLine = i := by
    intro k here
    obtain ⟨pc, at'⟩ := Option.ne_none_iff_exists'.mp here
    exact (Clerk.pcAt_eq_some.mp at').2
  intro k k' here here'
  obtain ⟨started, line⟩ := serves k here
  obtain ⟨started', line'⟩ := serves k' here'
  exact lines.distinct k k' started started' (line.trans line'.symm)

/-- What holds in every state of a run whose steps are in order. -/
structure InPhase (setup : Setup) (d : Discipline) (m : Kind) (office : Office) :
    Prop where
  reached : ∃ moves, (officeMachine setup d).exec (boot setup) moves = some office
  consistent : office.Consistent
  holding : office.Holding
  ordered : ∀ i, office.Ordered m i

theorem boot_inPhase {setup : Setup} (d : Discipline) (m : Kind)
    (unowned : ∀ l, (setup.lockMemory l).owner = none) :
    InPhase setup d m (boot setup) where
  reached := ⟨[], rfl⟩
  consistent := boot_consistent unowned
  holding l t inside := by cases t <;> cases inside
  ordered i := by
    refine ⟨.untouched ⟨rfl, ?_, Int.le_refl _, ?_⟩, ?_, ?_, ?_⟩
    · rintro n ⟨stage, here, -⟩
      cases here
    · intro k pc here
      cases here
    · intro filled
      exact absurd filled (by simp [counter, boot, Desk.construct])
    · intro k pc here
      cases here
    · intro n pc
      cases pc

section

variable {setup : Setup} {d : Discipline} {office office' : Office} {move : Move}
variable {m : Kind}

theorem InPhase.sole (inPhase : InPhase setup d m office)
    (single : m ≠ .application ∨ setup.numClerks .application ≤ 1) (i : Nat) :
    (office.counter m i).Sole := by
  obtain ⟨moves, run⟩ := inPhase.reached
  exact (oneClerkPerLine_exec single run).sole i

theorem InPhase.step (inPhase : InPhase setup d m office)
    (single : m ≠ .application ∨ setup.numClerks .application ≤ 1)
    (inOrder : InOrder setup office move)
    (step : office.step setup d move = some office') : InPhase setup d m office' := by
  obtain ⟨moves, run⟩ := inPhase.reached
  have run' : (officeMachine setup d).exec (boot setup) (moves ++ [move]) =
      some office' := Lib.Machine.exec_snoc_eq_some _ |>.mpr ⟨office, run, step⟩
  refine ⟨⟨_, run'⟩, inPhase.consistent.step step,
    inPhase.holding.step inPhase.consistent inOrder.noSleeper inOrder.noRefusal step,
    fun i => ?_⟩
  exact (inPhase.ordered i).step inPhase.consistent inPhase.holding inOrder
    (inPhase.sole single i) ((oneClerkPerLine_exec single run').sole i) step

theorem InPhase.oneAtCounter (inPhase : InPhase setup d m office) :
    OneAtCounter m office := by
  intro i n n' here here'
  obtain ⟨k, taken⟩ := (inPhase.ordered i).phase.of_visits here.visits
  exact (taken.only n' here'.visits).symm

/-- Nobody is at the counter of a clerk at the beginning of its round. -/
theorem InPhase.nobody_at_enter (inPhase : InPhase setup d m office)
    (single : m ≠ .application ∨ setup.numClerks .application ≤ 1) {k : Nat}
    (pc : (office.clerks m k).pc = .enter) (n : Nat) :
    ¬ (office.clients n).AtDesk m (office.clerks m k).myLine := by
  intro here
  have at' : (office.counter m (office.clerks m k).myLine).clerkPc k = some .enter :=
    Clerk.pcAt_eq_some.mpr ⟨pc, by simp [pc], rfl⟩
  exact (inPhase.ordered _).phase.nobody_between (inPhase.sole single _) (.inl at')
    n here.visits

end

/-- For each of the four lines, that of the application clerks if there is at
most one of these, and where the locks were built in memory that names no owner:
in every run whose steps are in order, at most one customer is at a counter in
every state, and a clerk begins its next round only when its customer has left. -/
theorem one_at_counter {setup : Setup} {d : Discipline} {moves : List Move} (m : Kind)
    (unowned : ∀ l, (setup.lockMemory l).owner = none)
    (single : m ≠ .application ∨ setup.numClerks .application ≤ 1)
    (inOrder : (officeMachine setup d).Steps (InOrder setup) (boot setup) moves) :
    (officeMachine setup d).Along (OneAtCounter m) (boot setup) moves ∧
      (officeMachine setup d).Steps (RoundFollowsLeave setup d m) (boot setup) moves := by
  have along : (officeMachine setup d).Along (InPhase setup d m) (boot setup) moves :=
    Lib.Machine.along_of_guarded
      (fun before move after inPhase inOrder step => inPhase.step single inOrder step)
      (boot_inPhase d m unowned) inOrder
  refine ⟨along.mono fun office inPhase => inPhase.oneAtCounter, ?_⟩
  refine along.steps inOrder ?_
  intro before move inPhase inOrder after step k _ _ pc n
  exact (inPhase.step single inOrder step).nobody_at_enter single pc n

/-- Whether the `Wait` of a step, if it makes one, is accepted. -/
def waitAccepted (setup : Setup) (office : Office) (move : Move) : Bool :=
  match office.kernelAction setup move with
  | some (.call (.wait c (some l))) => decide (office.kernel.Accepts c l)
  | _ => true

theorem noWaitRefused_iff (setup : Setup) (office : Office) (move : Move) :
    office.waitAccepted setup move = true ↔ NoWaitRefused setup office move := by
  unfold waitAccepted NoWaitRefused
  split
  · rename_i c l calls
    simp only [decide_eq_true_eq, calls, Option.some.injEq, Action.call.injEq,
      Op.wait.injEq]
    constructor
    · rintro accepted c' l' ⟨rfl, rfl⟩
      exact accepted
    · intro accepts
      exact accepts c l ⟨rfl, rfl⟩
  · rename_i other
    simpa using fun c l calls => absurd calls (other c l)

instance (setup : Setup) (office : Office) :
    (move : Move) → Decidable (office.FindsAvailable setup move)
  | .system _ => inferInstanceAs (Decidable False)
  | .exec _ _ => by
      dsimp only [FindsAvailable]
      refine Who.casesOn office.kernel.currentThread inferInstance
        (fun _ _ => inferInstance) inferInstance (fun _ => inferInstance) fun n => ?_
      dsimp only
      refine ClientPc.casesOn (office.clients n).pc inferInstance inferInstance
        (fun _ stage => ?_) inferInstance inferInstance
      refine Stage.casesOn stage ?_ ?_ ?_ ?_ ?_ ?_ ?_ ?_ ?_ <;> intros <;> dsimp only <;>
        infer_instance

instance (setup : Setup) (office : Office) (move : Move) :
    Decidable (InOrder setup office move) :=
  decidable_of_iff (office.resumesSleeper setup move = false ∧
      office.waitAccepted setup move = true ∧ ¬ office.FindsAvailable setup move) <| by
    rw [noSleeperResumes_iff, noWaitRefused_iff]
    exact ⟨fun ⟨noSleeper, noRefusal, noArrival⟩ => ⟨noSleeper, noRefusal, noArrival⟩,
      fun inOrder => ⟨inOrder.noSleeper, inOrder.noRefusal, inOrder.noArrival⟩⟩

/-- A customer walks up to the clerk on its break and is served, and the clerk
gets the CPU after the customer has left. -/
def visitOnBreak : List Move := List.flatten [
  -- the customer starts, chooses the line, and waits at the counter
  [.exec 0 0, .exec 0 0], calls 1, [.exec 0 0], calls 3,
  [.exec 0 0, .system (.dispatch 0)], pass 2,
  -- the clerk yields 20 times, reports, and waits for the customer to leave
  [.exec 0 0], (List.replicate 20 (.exec 0 0 :: pass 2)).flatten, calls 1,
  [.exec 0 0, .system (.dispatch 0)], pass 2,
  -- the customer takes note and leaves
  calls 1, [.exec 0 0], pass 3]

/-- Two customers, one after the other; after each of them the clerk begins its
next round. -/
def twoVisits : List Move := List.flatten [
  calls 4, [.exec 0 0, .system (.dispatch 0), .system .endTick],
  -- the clerk starts, goes on its break and waits at the counter
  [.exec 0 0], calls 3, [.exec 0 0, .system (.dispatch 0)], pass 1, visitOnBreak,
  -- it goes on its break again
  calls 4, [.exec 0 0, .system (.dispatch 0)], pass 1, visitOnBreak, [.exec 0 0]]

/-- The steps of these visits are in order. -/
theorem one_at_counter_along_visits :
    ∃ office,
      (officeMachine (oneClerk .application 2) .fifo).exec
        (boot (oneClerk .application 2)) twoVisits = some office ∧
      (office.clerks .application 0).pc = .enter ∧
      .records 0 .application 0 ∈ office.log ∧
      .records 1 .application 0 ∈ office.log ∧
      (officeMachine (oneClerk .application 2) .fifo).Along (OneAtCounter .application)
        (boot (oneClerk .application 2)) twoVisits ∧
      (officeMachine (oneClerk .application 2) .fifo).Steps
        (RoundFollowsLeave (oneClerk .application 2) .fifo .application)
        (boot (oneClerk .application 2)) twoVisits := by
  obtain ⟨office, run, ends⟩ : ∃ office,
      (officeMachine (oneClerk .application 2) .fifo).exec
        (boot (oneClerk .application 2)) twoVisits = some office ∧
      ((office.clerks .application 0).pc,
        decide (.records 0 .application 0 ∈ office.log),
        decide (.records 1 .application 0 ∈ office.log)) = (.enter, true, true) :=
    Option.map_eq_some_iff.mp (by decide +kernel)
  simp only [Prod.mk.injEq, decide_eq_true_eq] at ends
  exact ⟨office, run, ends.1, ends.2.1, ends.2.2,
    one_at_counter .application (fun _ => rfl) (.inr (by decide)) (by decide +kernel)⟩

/-- Customer 0 finds the clerk available and is switched out on its way to the
counter, the clerk finds nobody in its line and goes on its break, and customer
1 walks up as well. -/
def twoWalkUp : List Move := List.flatten [
  calls 4, [.exec 0 0, .system (.dispatch 0)], pass 2,
  [.exec 0 0, .exec 0 0], calls 1, [.exec 0 0, .exec 0 0], pass 2,
  [.exec 0 0], calls 2, [.exec 0 0], pass 3,
  [.exec 0 0, .exec 0 0], calls 1, [.exec 0 0, .exec 0 0]]

/-- Both customers have then set `clerkState[0] = 1` at the same counter. -/
theorem two_customers_at_counter :
    ∃ office,
      (officeMachine (oneClerk .application 2) .fifo).exec
        (boot (oneClerk .application 2)) twoWalkUp = some office ∧
      (office.clients 0).AtDesk .application 0 ∧
      (office.clients 1).AtDesk .application 0 ∧
      ¬ OneAtCounter .application office := by
  obtain ⟨office, run, ends⟩ : ∃ office,
      (officeMachine (oneClerk .application 2) .fifo).exec
        (boot (oneClerk .application 2)) twoWalkUp = some office ∧
      ((office.clients 0).pc, (office.clients 1).pc) =
        (.join .application (.lock 0), .join .application (.lock 0)) :=
    Option.map_eq_some_iff.mp (by decide +kernel)
  simp only [Prod.mk.injEq] at ends
  obtain ⟨pc, pc'⟩ := ends
  have here : (office.clients 0).AtDesk .application 0 := by
    simp [Client.AtDesk, pc]
  have here' : (office.clients 1).AtDesk .application 0 := by
    simp [Client.AtDesk, pc']
  refine ⟨office, run, here, here', fun one => ?_⟩
  cases one 0 0 1 here here'

end Nachos.Office
