/-
Module: Nachos.Office.Serving
Purpose: What the clerks and the customers of a line do to it, segment by
  segment: the clerk calls the customer that has waited longest, goes to the
  counter before it and works or refuses, and the customer leaves the line when
  it has been served.
Trusted boundary: none
Main exports: LineInOrder.clerk, LineInOrder.customer
-/
import Nachos.Office.Service

namespace Nachos.Office

open LockName CvName

/-! ### The clerk of the line -/

section

variable {m m' : Kind} {i clerkID pick : Nat} {desks : Desks} {clerk : Clerk}
variable {segment : Segment Clerk}

/-- A clerk speaks of the customer that it attends to. -/
theorem Clerk.Does.touches (does : clerk.Does m' clerkID pick desks segment)
    {remark : Remark} (member : remark ∈ segment.remarks) {ssn : Int}
    (touches : remark.Touches ssn m i) :
    m = m' ∧ clerk.Attends i ∧ clerk.frontSSN = some ssn := by
  rcases does.remarks with silent | ⟨pc, same⟩
  · obtain rfl := silent remark member
    exact touches.elim
  · rw [same, List.mem_singleton] at member
    subst member
    obtain ⟨rfl, line, front⟩ := touches
    exact ⟨rfl, ⟨line, by simp [front], by simp [pc]⟩, front⟩

/-- A clerk that looks at its line and finds somebody calls the first. -/
theorem Clerk.Does.of_look (does : clerk.Does m clerkID pick desks segment)
    (look : clerk.pc = .look) (filled : 0 < (desks m clerk.myLine).clerkLineCount) :
    segment = ⟨⟨clerk.myLine, (desks m clerk.myLine).clientSSNs.head?, false, .markBusy⟩,
      desks, some (.signal (clerkLineCV m clerk.myLine) (some (monitorLock m))),
      accessed (desks m clerk.myLine).clientSSNs⟩ := by
  cases does with
  | callCustomer pc filled => rfl
  | goOnBreak pc nobody other => exact absurd filled nobody
  | goOnPictureBreak pc nobody picture => exact absurd filled nobody
  | startWork n pc => rcases pc with pc | ⟨-, pc⟩ <;> simp [look] at pc
  | present pc => rcases pc with pc | pc <;> simp [look] at pc
  | create pc | enter pc | markBusy pc | takeLine pc | openMonitor pc | await pc
  | refuse pc | awaitOpinion pc | yield _ pc | finishWork pc | finishPicture pc
  | awaitLeave pc | close pc => simp [look] at pc

/-- A clerk begins to attend to somebody by calling it. -/
theorem Clerk.Does.attends (does : clerk.Does m clerkID pick desks segment)
    (regular : clerk.Regular m) (other : m ≠ .picture) (attends : segment.next.Attends i) :
    clerk.Attends i ∨ (clerk.myLine = i ∧ clerk.pc = .look ∧
      0 < (desks m clerk.myLine).clerkLineCount) := by
  obtain ⟨line, front, at'⟩ := attends
  cases does with
  | callCustomer pc filled => exact .inr ⟨line, pc, filled⟩
  | markBusy pc | openMonitor pc | await pc | yield _ pc =>
      exact .inl ⟨line, front, by simp [pc]⟩
  | startWork n pc passes =>
      have pc := pc.resolve_right fun both => other both.1
      exact .inl ⟨line, front, by simp [pc]⟩
  | goOnBreak pc nobody notPicture => exact absurd rfl front
  | takeLine pc => exact absurd pc (regular.pictures other).1
  | _ => exact at'.elim

end

section

variable {office : Office} {m : Kind} {i n k pick : Nat} {segment : Segment Clerk}
variable {kernel : Kernel Who Empty LockName CvName}

theorem afterClerk_colleague {k' : Nat} (office : Office) (segment : Segment Clerk)
    (other : k' ≠ k) :
    (office.afterClerk m k segment).clerks m k' = office.clerks m k' :=
  office.afterClerk_other segment fun same => other same.2

theorem Attended.goOn (attended : office.Attended m i n k)
    (attends : segment.next.Attends i)
    (front : segment.next.frontSSN = (office.clerks m k).frontSSN)
    (closed : segment.next.pc = .markBusy ∨ segment.next.pc = .openMonitor →
      (office.clients n).pc = .join m (.take i))
    (awake : segment.next.pc = .serve →
      ∀ op : Call, pendingCall (kernel.stack (.clerk m k)) ≠ some op)
    (passed : ∀ j, segment.next.pc = .working j →
      (office.clients n).requirement m = true)
    (silent : Silent segment.remarks) :
    Attended { office.afterClerk m k segment with kernel := kernel } m i n k where
  attends := by simpa using attends
  sole k' attends' := by
    by_contra different
    simp only [office.afterClerk_colleague segment different] at attends'
    exact different (attended.sole k' attends')
  front := by simpa [front] using attended.front
  comes := attended.comes
  closed := by simpa using closed
  awake := by simpa using awake
  passed := by simpa using passed
  unworked := by
    rw [afterClerk_log, afterClerk_clients, visitAgrees_append]
    · exact attended.unworked
    · intro remark member touches
      obtain rfl := silent remark member
      exact touches

/-- The clerk is done with its customer. -/
theorem Attended.finish (attended : office.Attended m i n k)
    (rests : ¬ segment.next.Attends i)
    (agrees : (office.clients n).requirement m = true ↔
      VisitAgrees (office.clients n).ssn m i (segment.remarks ++ office.log)) :
    Service { office.afterClerk m k segment with kernel := kernel } m i (some n) := by
  refine .finished n (fun k' attends' => ?_) agrees
  by_cases same : k' = k
  · subst same
    exact rests (by simpa using attends')
  · simp only [office.afterClerk_colleague segment same] at attends'
    exact same (attended.sole k' attends')

/-- The clerk goes on with the customer it has called: it goes to the counter,
where its `Wait` returns at once, tests what the customer has shown in line,
and works or refuses. -/
theorem Attended.clerk {asleep : List Nat} (attended : office.Attended m i n k)
    (lineup : office.Lineup m i (some n) asleep) (consistent : office.Consistent)
    (running : office.kernel.phase = .running)
    (current : office.kernel.currentThread = .clerk m k)
    (does : (office.clerks m k).Does m (office.clerkID m) pick office.desks segment)
    (other : m ≠ .picture) (followed : office.Followed segment.call kernel) :
    Service { office.afterClerk m k segment with kernel := kernel } m i (some n) := by
  obtain ⟨line, called, at'⟩ := attended.attends
  have front : (office.desks m i).reqs.head? = some ((office.clients n).requirement m) ∨
      m = .application := by
    cases m with
    | application => exact .inr rfl
    | picture => exact absurd rfl other
    | passport =>
        rw [lineup.reqs (.inl rfl)]
        exact .inl rfl
    | cashier =>
        rw [lineup.reqs (.inr rfl)]
        exact .inl rfl
  have unbribed := consistent.unbribed.desks m i
  have appended : ∀ {remarks}, Silent remarks →
      (VisitAgrees (office.clients n).ssn m i (remarks ++ office.log) ↔
        VisitAgrees (office.clients n).ssn m i office.log) := by
    intro remarks silent
    refine visitAgrees_append fun remark member touches => ?_
    obtain rfl := silent remark member
    exact touches
  cases does with
  | markBusy pc =>
      exact .attended n k (attended.goOn ⟨line, called, trivial⟩ rfl
        (fun _ => attended.closed (.inl pc)) (by simp) (by simp) (by simp [Silent]))
  | openMonitor pc =>
      exact .attended n k (attended.goOn ⟨line, called, trivial⟩ rfl (by simp) (by simp)
        (by simp) (by simp [Silent]))
  | await pc =>
      -- the condition is bound to the lock of the monitor
      refine .attended n k (attended.goOn ⟨line, called, trivial⟩ rfl (by simp) ?_ (by simp)
        (by simp [Silent]))
      intro _ op pending
      have bound := lineup.bound (by simp)
      rcases followed.pending _ op pending with before | ⟨-, calls, accepts⟩
      · rw [← current] at before
        exact pendingCall_current consistent.wf running op before
      · rw [line, Option.some.injEq] at calls
        rcases accepts _ _ calls.symm with same | free
        · simp [bound] at same
        · simp [bound] at free
  | startWork j pc passes =>
      refine .attended n k (attended.goOn ⟨line, called, trivial⟩ rfl (by simp) (by simp)
        (fun _ _ => ?_) (Clerk.silent_test _ _))
      rcases front with front | rfl
      · by_cases checked : m = .passport ∨ m = .cashier
        · rw [line, Clerk.test_of_front checked front unbribed] at passes
          exact passes
        · cases m <;> simp [Client.requirement] at checked ⊢
      · rfl
  | refuse pc checked fails =>
      have front := front.resolve_right (by rcases checked with rfl | rfl <;> simp)
      rw [line, Clerk.test_of_front checked front unbribed] at fails
      refine attended.finish (fun attends => attends.2.2) ?_
      rw [fails, appended (Clerk.silent_test _ _)]
      simpa using attended.unworked
  | yield j pc =>
      exact .attended n k (attended.goOn ⟨line, called, trivial⟩ rfl (by simp) (by simp)
        (fun _ _ => attended.passed _ pc) (by simp [Silent]))
  | finishWork pc notPicture =>
      refine attended.finish (fun attends => attends.2.2) ?_
      obtain ⟨between, visit⟩ := lineup.visits n (by simp)
      rw [attended.passed 0 pc, line, attended.front]
      simpa using visit.works
  | present pc picture | finishPicture pc picture => exact absurd picture other
  | create pc | enter pc | callCustomer pc | goOnBreak pc | goOnPictureBreak pc
  | takeLine pc | awaitOpinion pc | awaitLeave pc | close pc =>
      simp [pc] at at'

/-- The clerk calls the customer that has waited longest. -/
theorem Lineup.callCustomer {asleep : List Nat} (lineup : office.Lineup m i none asleep)
    (service : office.Service m i none) (consistent : office.Consistent)
    (filled : 0 < (office.desks m i).clerkLineCount)
    (next : segment.next = ⟨i, (office.desks m i).clientSSNs.head?, false, .markBusy⟩)
    (desks : segment.desks = office.desks) (silent : Silent segment.remarks)
    (members : (office.afterClerk m k segment).Members m i asleep)
    (signalled : kernel.conditions (clerkLineCV m i) =
      afterCall (clerkLineCV m i) office.kernel
        (some (.signal (clerkLineCV m i) (some (monitorLock m))))) :
    LineInOrder { office.afterClerk m k segment with kernel := kernel } m i := by
  have stands : ∀ n ∈ asleep, (office.clients n).pc = .join m (.take i) :=
    fun n => lineup.pc_of_asleep consistent
  obtain ⟨-, clientSSNs, reqs, count, bound, queue, visits, unworked⟩ := lineup
  cases asleep with
  | nil => simp [count] at filled
  | cons n rest =>
      have bound := bound (by simp)
      have signalled : kernel.conditions (clerkLineCV m i) =
          ⟨rest.map .customer, some (monitorLock m)⟩ := by
        have queue := queue (by simp [bound])
        simp [signalled, afterCall, Kernel.conditionAfter, bound, queue]
      have rests : ∀ k', ¬ (office.clerks m k').Attends i := by
        cases service with
        | nobody rests => exact rests
      have appended : ∀ n', (VisitAgrees (office.clients n').ssn m i
          (segment.remarks ++ office.log) ↔
          VisitAgrees (office.clients n').ssn m i office.log) := by
        intro n'
        refine visitAgrees_append fun remark member touches => ?_
        obtain rfl := silent remark member
        exact touches
      refine ⟨some n, rest, ⟨members.of_kernel kernel, ?_, ?_, ?_, ?_, ?_, ?_, ?_⟩,
        .attended n k ⟨?_, ?_, ?_, ?_, ?_, ?_, ?_, ?_⟩⟩
      · rw [afterClerk_desks, desks]
        exact clientSSNs
      · rw [afterClerk_desks, desks]
        exact reqs
      · rw [afterClerk_desks, desks]
        exact count
      · simp [signalled]
      · simp [signalled]
      · intro n' member
        obtain ⟨between, visit⟩ := visits n' member
        refine ⟨_, visit.append fun m' i' joins => ?_⟩
        cases silent _ joins
      · intro n' member
        rw [afterClerk_log, afterClerk_clients, appended]
        exact unworked n' (List.mem_cons_of_mem _ member)
      · simp [next, clientSSNs, Clerk.Attends]
      · intro k' attends
        by_contra different
        simp only [office.afterClerk_colleague segment different] at attends
        exact rests k' attends
      · simp [next, clientSSNs]
      · exact .inl (stands n (by simp))
      · exact fun _ => stands n (by simp)
      · simp [next]
      · simp [next]
      · rw [afterClerk_log, afterClerk_clients, appended]
        exact unworked n (by simp)

/-- A clerk leaves a line as it should be, where it calls nobody unless
everybody in its line is asleep there. -/
theorem LineInOrder.clerk {m' : Kind} (line : office.LineInOrder m i)
    (consistent : office.Consistent) (registered : office.Registered)
    (running : office.kernel.phase = .running)
    (current : office.kernel.currentThread = .clerk m' k)
    (does : (office.clerks m' k).Does m' (office.clerkID m') pick office.desks segment)
    (other : m ≠ .picture) (followed : office.Followed segment.call kernel)
    (found : m' = m → (office.clerks m' k).pc = .look → (office.clerks m' k).myLine = i →
      ∀ n, office.InLine m i n →
        .customer n ∈ (office.kernel.conditions (clerkLineCV m i)).waitQueue) :
    LineInOrder { office.afterClerk m' k segment with kernel := kernel } m i := by
  obtain ⟨called, asleep, lineup, service⟩ := line
  have members := lineup.members.afterClerk does
  by_cases calls : m' = m ∧ (office.clerks m' k).myLine = i ∧
      (office.clerks m' k).pc = .look ∧
      0 < (office.desks m' (office.clerks m' k).myLine).clerkLineCount
  · obtain ⟨rfl, here, pc, filled⟩ := calls
    subst here
    have none : called = none := by
      cases called with
      | none => rfl
      | some n =>
          have bound := lineup.bound (by simp)
          have waits := found rfl pc rfl n lineup.inLine_called
          rw [lineup.queue (by simp [bound]), List.mem_map] at waits
          obtain ⟨n', member, same⟩ := waits
          cases same
          exact absurd member lineup.not_asleep_of_called
    subst none
    obtain rfl := does.of_look pc filled
    exact lineup.callCustomer service consistent filled rfl rfl
      (silent_accessed _) members (followed.conditions _)
  · refine ⟨called, asleep, lineup.frame segment.remarks
      (members.of_kernel kernel) (fun _ _ => ⟨rfl, rfl⟩) (does.sameLine m i) ?_ rfl ?_ ?_, ?_⟩
    · have same := followed.conditions (clerkLineCV m i)
      simpa only [same] using (does.aside calls).undisturbed office.kernel
    · exact fun n member m₁ i₁ joins => does.concerns _ _ joins rfl
    · intro n member remark remarked touches
      obtain ⟨rfl, attends, front⟩ := does.touches remarked touches
      have inLine := (lineup.members.mem_iff n).mp (List.mem_append_right _ member)
      obtain rfl := service.called_of_front lineup registered attends front inLine
      exact lineup.not_asleep_of_called member
    · by_cases attends : m' = m ∧ (office.clerks m' k).Attends i
      · obtain ⟨rfl, attends⟩ := attends
        obtain ⟨n, rfl, attended⟩ := service.attended_of attends
        exact attended.clerk lineup consistent running current does other followed
      · have away : ∀ k', (office.clerks m k').Attends i → ¬ (m = m' ∧ k' = k) := by
          rintro k' attends' ⟨rfl, rfl⟩
          exact attends ⟨rfl, attends'⟩
        refine service.frame (fun _ _ => rfl) ?_ ?_ ?_
        · intro k' attends'
          by_cases same : m = m' ∧ k' = k
          · obtain ⟨rfl, rfl⟩ := same
            rcases attends' with after | before
            · have regular := consistent.unbribed.clerks m k'
              rcases does.attends regular other (by simpa using after) with before | look
              · exact absurd ⟨rfl, before⟩ attends
              · exact absurd ⟨rfl, look⟩ calls
            · exact absurd ⟨rfl, before⟩ attends
          · exact office.afterClerk_other segment same
        · intro k' op attends' pending
          refine followed.pending_other ?_ pending
          rw [current]
          rintro same
          cases same
          exact away _ attends' ⟨rfl, rfl⟩
        · intro n called
          refine visitAgrees_append fun remark remarked touches => ?_
          obtain ⟨rfl, attends', -⟩ := does.touches remarked touches
          exact attends ⟨rfl, attends'⟩

end

/-! ### The customers of the line -/

section

variable {numClerks : Kind → Nat} {ssnCount : Int} {rand pick : Nat} {desks : Desks}
variable {c : Client} {segment : Segment Client} {m : Kind} {i : Nat}

/-- A customer speaks of its own choices. -/
theorem Client.Does.touches (does : c.Does numClerks ssnCount rand pick desks segment)
    {remark : Remark} (member : remark ∈ segment.remarks) {ssn : Int}
    (touches : remark.Touches ssn m i) : c.ssn = ssn ∧ c.pc ≠ .create := by
  cases remark with
  | joins ssn' m' i' => exact does.concerns member touches
  | works m' i' front =>
      exfalso
      cases does with
      | served m₁ i₁ pc satisfied =>
          rcases List.mem_append.mp member with recorded | popped
          · unfold Client.recorded at recorded
            split at recorded <;> simp at recorded
          · cases silent_quit m₁ (desks m₁ i₁) _ popped
      | tooSoon m₁ i₁ n pc checked unsatisfied =>
          cases silent_quit m₁ (desks m₁ i₁) _ member
      | _ => simp at member
  | _ => exact touches.elim

end

section

variable {setup : Setup} {office : Office} {m : Kind} {i n rand pick : Nat}
variable {called : Option Nat} {asleep : List Nat} {segment : Segment Client}
variable {kernel : Kernel Who Empty LockName CvName}

/-- What a segment of another customer says of one in the line. -/
theorem Client.Does.untouched {n' : Nat} (does : (office.clients n).Does setup.numClerks
      (office.createCustomer n) rand pick office.desks segment)
    (registered : office.Registered) (other : n' ≠ n) (inLine : office.InLine m i n') :
    ∀ remark ∈ segment.remarks, ¬ remark.Touches (office.clients n').ssn m i := by
  intro remark member touches
  obtain ⟨same, started⟩ := does.touches member touches
  exact other (registered.distinct n' n (Members.started_of_inLine inLine) started same.symm)

/-- Nobody comes to the line or leaves it. -/
theorem Lineup.afterClient (lineup : office.Lineup m i called asleep)
    (registered : office.Registered)
    (does : (office.clients n).Does setup.numClerks (office.createCustomer n) rand pick
      office.desks segment)
    (followed : office.Followed segment.call kernel)
    (sameLine : (office.desks m i).SameLine (segment.desks m i))
    (same : ∀ log, segment.next.InLine (segment.remarks ++ log) m i ↔
      (office.clients n).InLine log m i)
    (awake : n ∉ asleep)
    (kept : called = some n → segment.next.ssn = (office.clients n).ssn ∧
      segment.next.requirement m = (office.clients n).requirement m ∧
      segment.remarks = []) :
    Lineup { office.afterClient n segment with kernel := kernel } m i called asleep := by
  have inLine : (office.afterClient n segment).InLine m i n ↔ office.InLine m i n := by
    unfold InLine
    rw [afterClient_self, afterClient_log]
    exact same office.log
  have untouched : ∀ n' ∈ called.toList ++ asleep, ∀ remark ∈ segment.remarks,
      ¬ remark.Touches (office.clients n').ssn m i := by
    intro n' member remark remarked
    by_cases self : n' = n
    · subst self
      have first : called = some n' := by
        simpa using (List.mem_append.mp member).resolve_right awake
      rw [(kept first).2.2] at remarked
      cases remarked
    · exact does.untouched registered self ((lineup.members.mem_iff n').mp member) remark
        remarked
  refine lineup.frame segment.remarks
    ((lineup.members.keeps registered does inLine).of_kernel kernel) ?_ sameLine ?_ rfl ?_ ?_
  · intro n' member
    by_cases self : n' = n
    · subst self
      have first : called = some n' := by
        simpa using (List.mem_append.mp member).resolve_right awake
      simpa using ⟨(kept first).1, (kept first).2.1⟩
    · simp [self]
  · have condition := followed.conditions (clerkLineCV m i)
    have stays : (office.clients n).pc = .join m .look →
        ¬ segment.next.InLine (segment.remarks ++ []) m i := by
      intro pc inLine
      have before := (same []).mp inLine
      simp [Client.InLine, Client.AtLine, pc] at before
    simpa only [condition] using (does.aside stays).undisturbed office.kernel
  · exact fun n' member m' i' joins => untouched n' member _ joins rfl
  · exact fun n' member => untouched n' (List.mem_append_right _ member)

/-- A customer that has not been called does not change what the clerks of the
line do. -/
theorem Service.afterClient (service : office.Service m i called)
    (lineup : office.Lineup m i called asleep) (registered : office.Registered)
    (current : office.kernel.currentThread = .customer n)
    (does : (office.clients n).Does setup.numClerks (office.createCustomer n) rand pick
      office.desks segment)
    (followed : office.Followed segment.call kernel) (other : called ≠ some n) :
    Service { office.afterClient n segment with kernel := kernel } m i called := by
  have different : ∀ n', called = some n' → n' ≠ n := by
    rintro n' first rfl
    exact other first
  refine service.frame ?_ (fun _ _ => rfl) ?_ ?_
  · exact fun n' first => office.afterClient_other segment (different n' first)
  · intro k op attends pending
    exact followed.pending_other (by simp [current]) pending
  · intro n' first
    have inLine := (lineup.members.mem_iff n').mp (by simp [first])
    exact visitAgrees_append (does.untouched registered (different n' first) inLine)

/-- The customer that has been called moves on, before its clerk is done with it
only as far as it may. -/
theorem Service.moves {stage : Stage} {desks : Desks} {call : Option Call}
    (service : office.Service m i (some n))
    (current : office.kernel.currentThread = .customer n)
    (followed : office.Followed call kernel)
    (comes : ∀ k, office.Attended m i n k →
      (stage = .take i ∨ stage = .lock i ∨ stage = .greet i) ∧
        ((office.clerks m k).pc = .markBusy ∨ (office.clerks m k).pc = .openMonitor →
          stage = .take i)) :
    Service { office.afterClient n
        ⟨{ office.clients n with pc := .join m stage }, desks, call, []⟩ with
      kernel := kernel } m i (some n) := by
  have requirement : Client.requirement m { office.clients n with pc := .join m stage } =
      (office.clients n).requirement m := by
    cases m <;> rfl
  cases service with
  | attended _ k attended =>
      obtain ⟨place, closed⟩ := comes k attended
      obtain ⟨attends, sole, front, -, -, awake, passed, unworked⟩ := attended
      refine .attended n k ⟨attends, sole, ?_, ?_, ?_, ?_, ?_, ?_⟩
      · simpa using front
      · simpa using place
      · simpa using closed
      · intro pc op pending
        exact awake pc op (followed.pending_other (by simp [current]) pending)
      · simpa [requirement] using passed
      · simpa using unworked
  | finished _ rests agrees =>
      exact .finished n rests (by simpa [requirement] using agrees)

/-- The clerk of the line is not at work inside a lock of the running customer. -/
theorem Attended.outside {k : Nat} {l : LockName} (attended : office.Attended m i n k)
    (held : office.HeldInside l) (consistent : office.Consistent)
    (running : office.kernel.phase = .running)
    (current : office.kernel.currentThread = .customer n)
    (mine : l ∈ office.locksOf (.customer n)) (inside : l ∈ office.locksOf (.clerk m k)) :
    (office.clerks m k).pc = .openMonitor ∧ l = clerkLineLocks m i := by
  obtain ⟨op, pending, blocking, ends⟩ :=
    held.pending_of_other consistent running (current ▸ mine) inside (by simp [current])
  obtain ⟨line, -, at'⟩ := attended.attends
  simp only [blockingCall, Clerk.blockingCall] at blocking
  split at blocking <;> rename_i pc <;> cases blocking <;> cases ends
  · simp [pc] at at'
  · exact ⟨pc, by rw [line]⟩
  all_goals first
    | simp [pc] at at'; done
    | exact absurd pending (attended.awake pc _)

/-- The customer that has been called takes the line before its clerk gives the
monitor free, and greets the clerk only when that is done with it. -/
theorem Service.onTheWay (service : office.Service m i (some n))
    (consistent : office.Consistent) (monitor : office.HeldInside (monitorLock m))
    (counter : office.HeldInside (clerkLineLocks m i))
    (running : office.kernel.phase = .running)
    (current : office.kernel.currentThread = .customer n)
    (does : (office.clients n).Does setup.numClerks (office.createCustomer n) rand pick
      office.desks segment)
    (other : m ≠ .picture) (followed : office.Followed segment.call kernel)
    (atLine : (office.clients n).AtLine m i) (stays : segment.next.AtLine m i) :
    (segment.next.ssn = (office.clients n).ssn ∧
      segment.next.requirement m = (office.clients n).requirement m ∧
      segment.remarks = []) ∧
    Service { office.afterClient n segment with kernel := kernel } m i (some n) := by
  have kept : ∀ stage, Client.requirement m { office.clients n with pc := .join m stage } =
      (office.clients n).requirement m := by
    intro stage
    cases m <;> rfl
  cases does with
  | take m' i' pc =>
      obtain ⟨rfl, rfl⟩ : m' = m ∧ i' = i := by simpa [Client.AtLine, pc] using atLine
      refine ⟨⟨rfl, kept _, rfl⟩, service.moves current followed fun k attended => ?_⟩
      refine ⟨by simp, fun closed => ?_⟩
      have outside := attended.outside monitor consistent running current
        (by simp [locksOf, Client.locks, pc])
        (by rcases closed with closed | closed <;> simp [locksOf, Clerk.locks, closed])
      cases outside.2
  | lock m' i' pc =>
      obtain ⟨rfl, rfl⟩ : m' = m ∧ i' = i := by simpa [Client.AtLine, pc] using atLine
      refine ⟨⟨rfl, kept _, rfl⟩, service.moves current followed fun k attended => ?_⟩
      refine ⟨by simp, fun closed => ?_⟩
      have stands := attended.closed closed
      simp [pc] at stands
  | greet m' i' pc =>
      obtain ⟨rfl, rfl⟩ : m' = m ∧ i' = i := by simpa [Client.AtLine, pc] using atLine
      refine ⟨⟨rfl, kept _, rfl⟩, service.moves current followed fun k attended => ?_⟩
      -- the clerk has come to the counter, and is awake there
      have here : ¬ ((office.clerks m' k).pc = .markBusy ∨
          (office.clerks m' k).pc = .openMonitor) := by
        intro closed
        have stands := attended.closed closed
        simp [pc] at stands
      obtain ⟨line, -, at'⟩ := attended.attends
      have inside : clerkLineLocks m' i' ∈ office.locksOf (.clerk m' k) := by
        simp only [locksOf, Clerk.locks]
        split at at' <;> simp_all
      have outside := attended.outside counter consistent running current
        (by simp [locksOf, Client.locks, pc]) inside
      exact absurd (.inr outside.1) here
  | await m' i' pc =>
      obtain ⟨rfl, rfl⟩ : m' = m ∧ i' = i := by simpa [Client.AtLine, pc] using atLine
      refine ⟨⟨rfl, kept _, rfl⟩, service.moves current followed fun k attended => ?_⟩
      rcases attended.comes with comes | comes | comes <;> simp [pc] at comes
  | retake i' pc dislikes =>
      obtain ⟨rfl, -⟩ : .picture = m ∧ i' = i := by simpa [Client.AtLine, pc] using atLine
      exact absurd rfl other
  | served m' i' pc satisfied => simp [Client.AtLine] at stays
  | tooSoon m' i' j pc checked unsatisfied => simp [Client.AtLine] at stays
  | create pc | finish pc | choose _ pc | pass pc | leaving pc | enter _ pc | queueUp _ _ pc
  | walkUp _ _ pc | yield _ _ _ pc | goodbye _ _ pc | leave _ _ pc =>
      simp [Client.AtLine, pc] at atLine

/-- The visits of the others in the line go on. -/
theorem Lineup.visits_of_other {n' : Nat} (lineup : office.Lineup m i called asleep)
    (member : n' ∈ called.toList ++ asleep) (other : n' ≠ n)
    (untouched : ∀ remark ∈ segment.remarks,
      ¬ remark.Touches (office.clients n').ssn m i) :
    ∃ between, Visit ((office.afterClient n segment).clients n').ssn m i between
      (office.afterClient n segment).log := by
  obtain ⟨between, visit⟩ := lineup.visits n' member
  rw [office.afterClient_other segment other, afterClient_log]
  exact ⟨_, visit.append fun m' i' joins => untouched _ joins rfl⟩

theorem Lineup.unworked_of_other {n' : Nat} (lineup : office.Lineup m i called asleep)
    (member : n' ∈ asleep) (other : n' ≠ n)
    (untouched : ∀ remark ∈ segment.remarks,
      ¬ remark.Touches (office.clients n').ssn m i) :
    ¬ VisitAgrees ((office.afterClient n segment).clients n').ssn m i
      (office.afterClient n segment).log := by
  rw [office.afterClient_other segment other, afterClient_log,
    visitAgrees_append untouched]
  exact lineup.unworked n' member

/-- A customer gets in line behind the others. -/
theorem Lineup.queues (lineup : office.Lineup m i called asleep)
    (consistent : office.Consistent) (registered : office.Registered)
    (current : office.kernel.currentThread = .customer n)
    (does : (office.clients n).Does setup.numClerks (office.createCustomer n) rand pick
      office.desks segment)
    (followed : office.Followed segment.call kernel)
    (pc : (office.clients n).pc = .join m .look)
    (next : segment.next = { office.clients n with pc := .join m (.take i) })
    (desk : segment.desks m i = (office.clients n).queueUp m (office.desks m i))
    (call : segment.call = some (.wait (clerkLineCV m i) (some (monitorLock m))))
    (remarks : segment.remarks =
      [.queues (office.clients n).ssn m i, .joins (office.clients n).ssn m i])
    (accepts : office.kernel.Accepts (clerkLineCV m i) (monitorLock m)) :
    Lineup { office.afterClient n segment with kernel := kernel } m i called
      (asleep ++ [n]) := by
  have requirement : segment.next.requirement m = (office.clients n).requirement m := by
    rw [next]
    cases m <;> rfl
  have ssn : segment.next.ssn = (office.clients n).ssn := by rw [next]
  have outside : ¬ office.InLine m i n := by
    simp [InLine, Client.InLine, Client.AtLine, pc]
  have inside : (office.afterClient n segment).InLine m i n := by
    unfold InLine
    rw [afterClient_self, afterClient_log, next, remarks]
    exact ⟨by simp [Client.AtLine], by simp [queuedIn]⟩
  have others : ∀ n' ∈ called.toList ++ asleep, n' ≠ n := by
    rintro n' member rfl
    exact outside ((lineup.members.mem_iff n').mp member)
  have untouched : ∀ n' ∈ called.toList ++ asleep, ∀ remark ∈ segment.remarks,
      ¬ remark.Touches (office.clients n').ssn m i := fun n' member =>
    does.untouched registered (others n' member) ((lineup.members.mem_iff n').mp member)
  have honest := consistent.unbribed.clients n
  have waits : kernel.conditions (clerkLineCV m i) =
      ⟨asleep.map .customer ++ [.customer n], some (monitorLock m)⟩ := by
    have free : (office.kernel.conditions (clerkLineCV m i)).waitingLock ≠
        some (clerkLineLocks m i) := by
      rcases accepts with bound | free
      · simp [bound]
      · simp [free]
    rw [followed.conditions, call, wait_afterCall accepts, lineup.queue free, current]
  have clients : ∀ {α : Type} (f : Client → α), f segment.next = f (office.clients n) →
      ((called.toList ++ (asleep ++ [n])).map fun n' =>
        f ((office.afterClient n segment).clients n')) =
      ((called.toList ++ asleep).map fun n' => f (office.clients n')) ++
        [f (office.clients n)] := by
    intro α f same
    rw [← List.append_assoc, List.map_append, List.map_singleton, afterClient_self, same]
    refine congrArg (· ++ _) (List.map_congr_left fun n' member => ?_)
    rw [office.afterClient_other segment (others n' member)]
  refine ⟨?_, ?_, ?_, ?_, ?_, ?_, ?_, ?_⟩
  · rw [← List.append_assoc]
    exact (lineup.members.queues registered does outside inside).of_kernel kernel
  · refine Eq.trans ?_ (clients Client.ssn ssn).symm
    rw [afterClient_desks, desk, ← lineup.clientSSNs]
    cases m <;> simp [Client.queueUp, Desk.joinLine, Desk.giveReqs, honest]
  · intro checked
    refine Eq.trans ?_ (clients (Client.requirement m) requirement).symm
    rw [afterClient_desks, desk, ← lineup.reqs checked]
    rcases checked with rfl | rfl <;>
      simp [Client.queueUp, Desk.joinLine, Desk.giveReqs, honest, Client.requirement]
  · have count := lineup.count
    rw [afterClient_desks, desk, (Client.queueUp_line honest m _).2, count]
    simp
    omega
  · simp [waits]
  · simp [waits]
  · intro n' member
    rw [← List.append_assoc, List.mem_append, List.mem_singleton] at member
    rcases member with member | rfl
    · exact lineup.visits_of_other member (others n' member) (untouched n' member)
    · rw [afterClient_clients, Function.update_self, afterClient_log, ssn, remarks]
      exact ⟨_, visit_queues _ m i office.log⟩
  · intro n' member
    rw [List.mem_append, List.mem_singleton] at member
    rcases member with member | rfl
    · have member' := List.mem_append_right called.toList member
      exact lineup.unworked_of_other member (others n' member') (untouched n' member')
    · rw [afterClient_clients, Function.update_self, afterClient_log, ssn, remarks]
      exact not_visitAgrees_queues

/-- The customer that is served leaves the line. -/
theorem Lineup.quits (lineup : office.Lineup m i (some n) asleep)
    (registered : office.Registered)
    (does : (office.clients n).Does setup.numClerks (office.createCustomer n) rand pick
      office.desks segment)
    (followed : office.Followed segment.call kernel)
    (gone : ∀ m' i', ¬ segment.next.AtLine m' i')
    (desk : segment.desks m i = (Client.quit m (office.desks m i)).1)
    (aside : Aside m i segment.call) :
    Lineup { office.afterClient n segment with kernel := kernel } m i none asleep := by
  have absent := lineup.not_asleep_of_called
  have others : ∀ n' ∈ asleep, n' ≠ n := by
    rintro n' member rfl
    exact absent member
  have untouched : ∀ n' ∈ asleep, ∀ remark ∈ segment.remarks,
      ¬ remark.Touches (office.clients n').ssn m i := fun n' member =>
    does.untouched registered (others n' member)
      ((lineup.members.mem_iff n').mp (List.mem_append_right _ member))
  have outside : ¬ (office.afterClient n segment).InLine m i n := by
    unfold InLine
    rw [afterClient_self]
    exact fun inLine => gone m i inLine.1
  have clients : ∀ {α : Type} (f : Client → α),
      (asleep.map fun n' => f ((office.afterClient n segment).clients n')) =
      asleep.map fun n' => f (office.clients n') := by
    intro α f
    refine List.map_congr_left fun n' member => ?_
    rw [office.afterClient_other segment (others n' member)]
  have members := lineup.members.quits registered does outside
  rw [Option.toList_some, List.singleton_append, List.erase_cons_head] at members
  have bound := lineup.bound (by simp)
  have same : kernel.conditions (clerkLineCV m i) = _ :=
    (followed.conditions _).trans ((aside.undisturbed office.kernel).eq_of_bound bound)
  refine ⟨members.of_kernel kernel, ?_, ?_, ?_, ?_, ?_, ?_, ?_⟩
  · refine Eq.trans ?_ (clients Client.ssn).symm
    rw [afterClient_desks, desk]
    cases m <;> simp [Client.quit, Desk.leaveLine, Desk.popReqs, lineup.clientSSNs]
  · intro checked
    refine Eq.trans ?_ (clients (Client.requirement m)).symm
    rw [afterClient_desks, desk]
    rcases checked with rfl | rfl
    · simp [Client.quit, Desk.leaveLine, Desk.popReqs, lineup.reqs (.inl rfl)]
    · simp [Client.quit, Desk.leaveLine, Desk.popReqs, lineup.reqs (.inr rfl)]
  · rw [afterClient_desks, desk, (Client.quit_line m _).2, lineup.count]
    simp
  · intro _
    rw [same, bound]
  · rw [same]
    exact lineup.queue
  · intro n' member
    exact lineup.visits_of_other (List.mem_append_right _ member) (others n' member)
      (untouched n' member)
  · intro n' member
    exact lineup.unworked_of_other member (others n' member) (untouched n' member)

/-- A customer leaves a line as it should be, where a `Wait` in the line is not
refused and only customers that have got in the line are served. -/
theorem LineInOrder.customer (line : office.LineInOrder m i)
    (consistent : office.Consistent) (registered : office.Registered)
    (monitor : office.HeldInside (monitorLock m))
    (counter : office.HeldInside (clerkLineLocks m i))
    (running : office.kernel.phase = .running)
    (current : office.kernel.currentThread = .customer n)
    (does : (office.clients n).Does setup.numClerks (office.createCustomer n) rand pick
      office.desks segment)
    (other : m ≠ .picture) (followed : office.Followed segment.call kernel)
    (accepts : segment.call = some (.wait (clerkLineCV m i) (some (monitorLock m))) →
      office.kernel.Accepts (clerkLineCV m i) (monitorLock m))
    (arrived : (office.clients n).pc = .join m (.served i) → office.InLine m i n) :
    LineInOrder { office.afterClient n segment with kernel := kernel } m i := by
  obtain ⟨called, asleep, lineup, service⟩ := line
  have awake := lineup.awake consistent.wf running current
  cases does.lineChange m i with
  | queues pc next desk call remarks =>
      have outside : called ≠ some n := by
        rintro rfl
        have atLine := lineup.inLine_called.1
        simp [Client.AtLine, pc] at atLine
      exact ⟨called, asleep ++ [n], lineup.queues consistent registered current does followed pc
        next desk call remarks (accepts call),
        service.afterClient lineup registered current does followed outside⟩
  | quits pc gone desk =>
      obtain rfl := lineup.called_of_current consistent.wf running current (arrived pc)
      have aside := does.aside (m := m) (i := i) (by simp [pc])
      exact ⟨none, asleep, lineup.quits registered does followed gone desk aside,
        .nobody (service.agrees_of_served pc).1⟩
  | keeps sameLine same =>
      by_cases first : called = some n
      · subst first
        have inLine := lineup.inLine_called
        have stays := (same office.log).mpr inLine
        obtain ⟨kept, service⟩ := service.onTheWay consistent monitor counter running current
          does other followed inLine.1 stays.1
        exact ⟨some n, asleep, lineup.afterClient registered does followed sameLine same awake
          fun _ => kept, service⟩
      · exact ⟨called, asleep, lineup.afterClient registered does followed sameLine same awake
          fun called => absurd called first,
          service.afterClient lineup registered current does followed first⟩

end

end Nachos.Office
