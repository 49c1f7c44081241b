/-
Module: Nachos.Office.Lines
Purpose: Which line each clerk serves.  A clerk thread reads a shared counter
  when it starts, and the counter is raised in the same segment, except for
  application clerks: their constructor runs the clerk and never comes back
  to the increment, so that all of them serve line 0.
Trusted boundary: none
Main exports: Started, OneClerkPerLine, one_clerk_per_line_iff,
  two_application_clerks_share_a_line
-/
import Mathlib.Data.List.Nodup
import Mathlib.Data.List.Perm.Subperm
import Nachos.Office.System

namespace Nachos.Office

/-- Clerk thread `n` of kind `m` has read its line index. -/
def Started (office : Office) (m : Kind) (n : Nat) : Prop :=
  (office.clerks m n).pc ≠ .create

/-- The clerks that have started serve different lines among those there are,
and when all have started every line has exactly one clerk. -/
structure OneClerkPerLine (setup : Setup) (m : Kind) (office : Office) : Prop where
  inRange : ∀ n, Started office m n →
    (office.clerks m n).myLine < setup.numClerks m
  distinct : ∀ n n', Started office m n → Started office m n' →
    (office.clerks m n).myLine = (office.clerks m n').myLine → n = n'
  covered : (∀ n < setup.numClerks m, Started office m n) →
    ∀ i < setup.numClerks m,
      ∃! n, Started office m n ∧ (office.clerks m n).myLine = i

/-! ### One segment of a clerk -/

/-- The segment of the `create*` function. -/
theorem Clerk.step_create (m : Kind) (clerkID rand pick : Nat) (desks : Desks)
    {clerk : Clerk} (create : clerk.pc = .create) :
    (clerk.step m clerkID rand pick desks).next =
      { clerk with myLine := clerkID, pc := .enter } := by
  simp [Clerk.step, create]

/-- After that a clerk keeps its line. -/
theorem Clerk.step_myLine (m : Kind) (clerkID rand pick : Nat) (desks : Desks)
    {clerk : Clerk} (started : clerk.pc ≠ .create) :
    (clerk.step m clerkID rand pick desks).next.myLine = clerk.myLine ∧
      (clerk.step m clerkID rand pick desks).next.pc ≠ .create := by
  unfold Clerk.step
  split
  case h_1 create => exact absurd create started
  case h_3 =>
    cases m <;>
      simp only [clerkProgram, applicationClerk, pictureClerk, passportClerk,
        cashier, look, cashierLook, cashierLookRegular, callBriber, callCustomer,
        goOnBreak, goOnPictureBreak, newRound] <;>
      repeat' split
    all_goals simp
  case h_4 =>
    simp only [cashierLookRegular, callCustomer, goOnBreak]
    split <;> simp
  case h_9 =>
    cases m <;>
      simp only [clerkProgram, applicationClerk, pictureClerk, passportClerk,
        cashier, startWork, develop, passportServe, cashierServe, report] <;>
      repeat' split
    all_goals simp
  case h_10 =>
    simp only [develop, startWork]
    split <;> simp
  case h_13 =>
    cases m <;> simp [clerkProgram, applicationClerk, pictureClerk, passportClerk,
      cashier, finishWork, nextRound, report]
  all_goals simp [nextRound]

/-- What a segment does to the clerks of kind `m` and to their counter. -/
theorem program_clerks {setup : Setup} {rand pick : Nat} {office after : Office}
    {who : Who} {call : Option Call}
    (ran : office.program setup rand pick who = some (after, call)) (m : Kind) :
    (after.clerks m = office.clerks m ∧ after.clerkID m = office.clerkID m) ∨
    ∃ n, who = .clerk m n ∧
      after.clerks m = Function.update (office.clerks m) n
        ((office.clerks m n).step m (office.clerkID m) rand pick
          office.desks).next ∧
      after.clerkID m = if (office.clerks m n).pc = .create ∧ m ≠ .application
        then office.clerkID m + 1 else office.clerkID m := by
  cases who with
  | main =>
      simp only [program] at ran
      split at ran <;> cases ran <;> exact .inl ⟨rfl, rfl⟩
  | clerk m' n =>
      cases ran
      by_cases same : m = m'
      · subst same
        refine .inr ⟨n, rfl, by simp, ?_⟩
        simp only [createClerk]
        split <;> simp
      · refine .inl ⟨by simp [same], ?_⟩
        simp only [createClerk]
        split <;> simp [same]
  | manager =>
      cases ran
      exact .inl ⟨rfl, rfl⟩
  | senator n =>
      cases ran
      exact .inl ⟨rfl, rfl⟩
  | customer n =>
      obtain ⟨segment, -, same⟩ := Option.map_eq_some_iff.mp ran
      cases same
      exact .inl ⟨rfl, rfl⟩

/-! ### The order in which the clerks start -/

/-- The clerks of a kind with a counter, in the order in which they started:
the line of each is its position. -/
structure Numbered (m : Kind) (order : List Nat) (office : Office) : Prop where
  once : order.Nodup
  started : ∀ n, Started office m n ↔ n ∈ order
  line : ∀ (j : Nat) (bound : j < order.length),
    (office.clerks m order[j]).myLine = j
  counter : office.clerkID m = order.length

/-- A segment keeps the numbering, or adds its clerk at the end. -/
theorem Numbered.program {setup : Setup} {rand pick : Nat}
    {office after : Office} {who : Who} {call : Option Call} {m : Kind}
    {order : List Nat} (counted : m ≠ .application)
    (numbered : Numbered m order office)
    (ran : office.program setup rand pick who = some (after, call)) :
    ∃ order', Numbered m order' after := by
  rcases program_clerks ran m with ⟨clerks, clerkID⟩ | ⟨n, -, clerks, clerkID⟩
  · refine ⟨order, numbered.once, ?_, ?_, ?_⟩
    · simpa [Started, clerks] using numbered.started
    · simpa [clerks] using numbered.line
    · rw [clerkID]
      exact numbered.counter
  · by_cases create : (office.clerks m n).pc = .create
    · have absent : n ∉ order := fun member =>
        (numbered.started n).mpr member create
      have next := Clerk.step_create m (office.clerkID m) rand pick office.desks
        create
      refine ⟨order ++ [n], ?_, fun n' => ?_, fun j bound => ?_, ?_⟩
      · refine List.nodup_append.mpr ⟨numbered.once, by simp, ?_⟩
        rintro n' member n'' last rfl
        exact absent (List.mem_singleton.mp last ▸ member)
      · by_cases same : n' = n
        · subst same
          simp [Started, clerks, next]
        · have before := numbered.started n'
          simpa [Started, clerks, same] using before
      · by_cases old : j < order.length
        · have other : order[j] ≠ n := by
            rintro rfl
            exact absent (List.getElem_mem old)
          rw [List.getElem_append_left old, clerks,
            Function.update_of_ne other]
          exact numbered.line j old
        · have last : j = order.length := by
            simp only [List.length_append, List.length_singleton] at bound
            omega
          subst last
          have at_last : (order ++ [n])[order.length] = n := by simp
          rw [at_last, clerks, Function.update_self, next]
          exact numbered.counter
      · rw [clerkID, if_pos ⟨create, counted⟩, numbered.counter]
        simp
    · obtain ⟨line, started⟩ :=
        Clerk.step_myLine m (office.clerkID m) rand pick office.desks create
      refine ⟨order, numbered.once, fun n' => ?_, fun j bound => ?_, ?_⟩
      · have before := numbered.started n'
        by_cases same : n' = n
        · subst same
          have member := before.mp create
          simp [Started, clerks, started, member]
        · simpa [Started, clerks, same] using before
      · have before := numbered.line j bound
        by_cases same : order[j] = n
        · rw [clerks, same, Function.update_self, line, ← same]
          exact before
        · rw [clerks, Function.update_of_ne same]
          exact before
      · rw [clerkID, if_neg (fun both => create both.1)]
        exact numbered.counter

/-- Only forked clerks have started. -/
def StartedAreForked (setup : Setup) (m : Kind) (office : Office) : Prop :=
  ∀ n, Started office m n → n < setup.numClerks m

theorem StartedAreForked.program {setup : Setup} {rand pick : Nat}
    {office after : Office} {who : Who} {call : Option Call} {m : Kind}
    (forked : StartedAreForked setup m office)
    (current : who = .main ∨ who ∈ setup.forks)
    (ran : office.program setup rand pick who = some (after, call)) :
    StartedAreForked setup m after := by
  intro n started
  rcases program_clerks ran m with ⟨clerks, -⟩ | ⟨n', rfl, clerks, -⟩
  · exact forked n (by simpa [Started, clerks] using started)
  · by_cases same : n = n'
    · subst same
      rcases current with isMain | member
      · cases isMain
      · exact mem_forks_clerk.mp member
    · exact forked n (by simpa [Started, clerks, same] using started)

/-- A kind with a counter has one clerk for each line. -/
theorem Numbered.oneClerkPerLine {setup : Setup} {m : Kind} {order : List Nat}
    {office : Office} (numbered : Numbered m order office)
    (forked : StartedAreForked setup m office) :
    OneClerkPerLine setup m office := by
  have subset : order ⊆ List.range (setup.numClerks m) := by
    intro n member
    exact List.mem_range.mpr (forked n ((numbered.started n).mpr member))
  have fits : order.length ≤ setup.numClerks m := by
    have bound := (numbered.once.subperm subset).length_le
    rwa [List.length_range] at bound
  have position : ∀ n, Started office m n →
      ∃ (j : Nat) (bound : j < order.length), order[j] = n ∧
        (office.clerks m n).myLine = j := by
    intro n started
    obtain ⟨j, bound, at_j⟩ :=
      List.getElem_of_mem ((numbered.started n).mp started)
    refine ⟨j, bound, at_j, ?_⟩
    rw [← at_j]
    exact numbered.line j bound
  have distinct : ∀ n n', Started office m n → Started office m n' →
      (office.clerks m n).myLine = (office.clerks m n').myLine → n = n' := by
    intro n n' started started' same
    obtain ⟨j, bound, at_j, line⟩ := position n started
    obtain ⟨j', bound', at_j', line'⟩ := position n' started'
    obtain rfl : j = j' := by rw [← line, ← line', same]
    exact at_j.symm.trans at_j'
  refine ⟨fun n started => ?_, distinct, fun all i inRange => ?_⟩
  · obtain ⟨j, bound, -, line⟩ := position n started
    omega
  · have full : i < order.length := by
      have everybody : List.range (setup.numClerks m) ⊆ order := by
        intro n member
        exact (numbered.started n).mp (all n (List.mem_range.mp member))
      have bound := (List.nodup_range.subperm everybody).length_le
      rw [List.length_range] at bound
      omega
    have started : Started office m order[i] :=
      (numbered.started _).mpr (List.getElem_mem full)
    refine ⟨order[i], ⟨started, numbered.line i full⟩, ?_⟩
    rintro n ⟨started', line'⟩
    exact distinct n _ started' started (line'.trans (numbered.line i full).symm)

/-- All application clerks serve line 0. -/
structure LineZero (office : Office) : Prop where
  counter : office.clerkID .application = 0
  line : ∀ n, Started office .application n →
    (office.clerks .application n).myLine = 0

theorem LineZero.program {setup : Setup} {rand pick : Nat}
    {office after : Office} {who : Who} {call : Option Call}
    (zero : LineZero office)
    (ran : office.program setup rand pick who = some (after, call)) :
    LineZero after := by
  rcases program_clerks ran .application with
    ⟨clerks, clerkID⟩ | ⟨n, -, clerks, clerkID⟩
  · refine ⟨clerkID.trans zero.counter, ?_⟩
    simpa [Started, clerks] using zero.line
  · refine ⟨?_, fun n' started => ?_⟩
    · rw [clerkID, if_neg (by simp)]
      exact zero.counter
    · rw [clerks]
      by_cases same : n' = n
      · subst same
        rw [Function.update_self]
        by_cases create : (office.clerks .application n').pc = .create
        · rw [Clerk.step_create .application _ rand pick office.desks create]
          exact zero.counter
        · rw [(Clerk.step_myLine .application _ rand pick office.desks create).1]
          exact zero.line n' create
      · rw [Function.update_of_ne same]
        exact zero.line n' (by simpa [Started, clerks, same] using started)

theorem LineZero.oneClerkPerLine {setup : Setup} {office : Office}
    (zero : LineZero office)
    (forked : StartedAreForked setup .application office)
    (single : setup.numClerks .application ≤ 1) :
    OneClerkPerLine setup .application office := by
  refine ⟨fun n started => ?_, fun n n' started started' _ => ?_,
    fun all i inRange => ?_⟩
  · rw [zero.line n started]
    have bound := forked n started
    omega
  · have bound := forked n started
    have bound' := forked n' started'
    omega
  · have started : Started office .application i := all i inRange
    refine ⟨i, ⟨started, ?_⟩, ?_⟩
    · rw [zero.line i started]
      omega
    · rintro n ⟨started', -⟩
      have bound := forked n started'
      omega

/-! ### Whole runs -/

/-- What no segment of a forked thread breaks holds in every state. -/
theorem invariant_of_program {setup : Setup} {d : Discipline} {I : Office → Prop}
    (preserved : ∀ office after rand pick call who,
      who = .main ∨ who ∈ setup.forks → I office →
      office.program setup rand pick who = some (after, call) → I after)
    (blind : ∀ office kernel, I office → I { office with kernel := kernel })
    {office : Office} {moves : List Move} (start : I (boot setup))
    (run : (officeMachine setup d).exec (boot setup) moves = some office) :
    I office := by
  have both : office.Forked setup ∧ I office := by
    refine invariant_exec (I := fun o => o.Forked setup ∧ I o) ?_
      ⟨boot_forked setup, start⟩ run
    rintro before move after wf ⟨forked, holds⟩ step
    refine ⟨forked.step wf step, ?_⟩
    rcases step_cases step with ⟨rand, pick, mid, call, -, running, ran, ends⟩ |
      ⟨action, kernel, -, -, -, rfl⟩
    · have next := preserved before mid rand pick call _
        (forked.current wf running) holds ran
      rcases ends with ⟨-, rfl⟩ | ⟨op, kernel, -, -, rfl⟩
      · exact next
      · exact blind mid kernel next
    · exact blind before kernel holds
  exact both.2

/-- The schedule in which `Problem2` forks two application clerks and is then
switched out, and so is the first clerk at its first call. -/
def twoClerksStart : List Move :=
  [.exec 0 0, .system .endTick, .exec 0 0, .system (.timeSlice 0),
    .system .endTick, .exec 0 0, .exec 0 0, .system (.timeSlice 0),
    .system .endTick, .exec 0 0]

/-- Whatever the memory held in which the monitor lock was allocated, both
clerks have then started on line 0. -/
theorem exec_twoClerksStart {setup : Setup} {rest : List Who} (d : Discipline)
    (forks : setup.forks =
      .clerk .application 0 :: .clerk .application 1 :: rest) :
    ((officeMachine setup d).exec (boot setup) twoClerksStart).map (fun office =>
        ((office.clerks .application 0).pc, (office.clerks .application 1).pc,
          (office.clerks .application 0).myLine,
          (office.clerks .application 1).myLine)) =
      some (.look, .enter, 0, 0) := by
  have allowed : d.allows 0 = true := by cases d <;> rfl
  by_cases held : (setup.lockMemory (.monitorLock .application)).owner =
      some (.clerk .application 0)
  all_goals
    unfold twoClerksStart boot
    rw [forks]
    -- one step after the other, so that each is evaluated in a known state
    iterate 10
      rw [Lib.Machine.exec_cons_of_step (by
        simp [officeMachine, Office.step, program, Kernel.boot, Kernel.step,
          Kernel.Callable, Kernel.perform, Kernel.fork, Kernel.setLevel,
          Kernel.readyToRun, Kernel.oneTick, Kernel.resume, Kernel.yield,
          Kernel.yieldBody, Kernel.findNextToRun, Kernel.run, Kernel.switch,
          Kernel.push, Kernel.returnInto, Kernel.deleteCarcass, Kernel.acquire,
          Kernel.acquireBody, Kernel.isHeldByCurrentThread, Kernel.enter,
          Kernel.takeLock, Lock.construct, Clerk.step, Clerk.fresh, createClerk,
          allowed, held]
        rfl)]
    simp

theorem startedAreForked_exec {setup : Setup} {d : Discipline} {office : Office}
    {moves : List Move} (m : Kind)
    (run : (officeMachine setup d).exec (boot setup) moves = some office) :
    StartedAreForked setup m office := by
  refine invariant_of_program (I := StartedAreForked setup m) ?_
    (fun _ _ holds => holds) (fun n started => absurd rfl started) run
  intro before after rand pick call who current forked ran
  exact forked.program current ran

theorem lineZero_exec {setup : Setup} {d : Discipline} {office : Office}
    {moves : List Move}
    (run : (officeMachine setup d).exec (boot setup) moves = some office) :
    LineZero office := by
  refine invariant_of_program (I := LineZero) ?_
    (fun _ _ holds => ⟨holds.counter, holds.line⟩)
    ⟨rfl, fun n started => absurd rfl started⟩ run
  intro before after rand pick call who _ zero ran
  exact zero.program ran

theorem numbered_exec {setup : Setup} {d : Discipline} {office : Office}
    {moves : List Move} {m : Kind} (counted : m ≠ .application)
    (run : (officeMachine setup d).exec (boot setup) moves = some office) :
    ∃ order, Numbered m order office := by
  refine invariant_of_program (I := fun o => ∃ order, Numbered m order o) ?_
    ?_ ⟨[], List.nodup_nil, ?_, ?_, rfl⟩ run
  · rintro before after rand pick call who - ⟨order, numbered⟩ ran
    exact numbered.program counted ran
  · rintro before kernel ⟨order, numbered⟩
    exact ⟨order, numbered.once, numbered.started, numbered.line, numbered.counter⟩
  · intro n
    simp [Started, boot, Clerk.fresh]
  · intro j bound
    cases bound

/-- The lines that are served by one clerk each, in every state of every run. -/
theorem oneClerkPerLine_exec {setup : Setup} {d : Discipline} {office : Office}
    {moves : List Move} {m : Kind}
    (condition : m ≠ .application ∨ setup.numClerks .application ≤ 1)
    (run : (officeMachine setup d).exec (boot setup) moves = some office) :
    OneClerkPerLine setup m office := by
  have forkedOnly := startedAreForked_exec m run
  by_cases counted : m = .application
  · subst counted
    exact (lineZero_exec run).oneClerkPerLine forkedOnly
      (condition.resolve_left (not_not.mpr rfl))
  · obtain ⟨order, numbered⟩ := numbered_exec counted run
    exact numbered.oneClerkPerLine forkedOnly

/-- Over every office run, a kind of clerks has one clerk for each line if and
only if its counter is raised or there is no second clerk to read it. -/
theorem one_clerk_per_line_iff (setup : Setup) (d : Discipline) (m : Kind) :
    (∀ moves office,
      (officeMachine setup d).exec (boot setup) moves = some office →
      OneClerkPerLine setup m office) ↔
    m ≠ .application ∨ setup.numClerks .application ≤ 1 := by
  constructor
  · intro always
    by_contra neither
    obtain ⟨application, several⟩ := not_or.mp neither
    obtain rfl : m = .application := not_not.mp application
    obtain ⟨rest, forks⟩ : ∃ rest, setup.forks =
        .clerk .application 0 :: .clerk .application 1 :: rest := by
      obtain ⟨k, count⟩ : ∃ k, setup.numClerks .application = k + 2 :=
        ⟨setup.numClerks .application - 2, by omega⟩
      unfold Setup.forks
      rw [count, List.range_succ_eq_map, List.range_succ_eq_map]
      simp only [List.map_cons, List.cons_append]
      exact ⟨_, rfl⟩
    obtain ⟨office, run, ends⟩ :=
      Option.map_eq_some_iff.mp (exec_twoClerksStart d forks)
    simp only [Prod.mk.injEq] at ends
    obtain ⟨pc, pc', line, line'⟩ := ends
    have same := (always twoClerksStart office run).distinct 0 1
      (by simp [Started, pc]) (by simp [Started, pc']) (line.trans line'.symm)
    cases same
  · intro condition moves office run
    exact oneClerkPerLine_exec condition run

/-- An office with two clerks of each kind and freshly cleared memory. -/
def twoOfEach : Setup where
  numClerks := fun _ => 2
  numSenators := 1
  numCustomers := 2
  lockMemory := fun _ => ⟨false, none, []⟩
  conditionMemory := fun _ => ⟨[], none⟩
  picturesTaken := fun _ => false

/-- Both application clerks of this office can end up on line 0. -/
theorem two_application_clerks_share_a_line :
    ¬ ∀ (m : Kind) (moves : List Move) (office : Office),
      (officeMachine twoOfEach .fifo).exec (boot twoOfEach) moves = some office →
      OneClerkPerLine twoOfEach m office := by
  intro always
  obtain ⟨office, run, ends⟩ : ∃ office,
      (officeMachine twoOfEach .fifo).exec (boot twoOfEach) twoClerksStart =
        some office ∧
      ((office.clerks .application 0).pc, (office.clerks .application 1).pc,
        (office.clerks .application 0).myLine,
        (office.clerks .application 1).myLine) = (.look, .enter, 0, 0) :=
    Option.map_eq_some_iff.mp (by decide +kernel)
  simp only [Prod.mk.injEq] at ends
  obtain ⟨pc, pc', line, line'⟩ := ends
  have same := (always .application twoClerksStart office run).distinct 0 1
    (by simp [Started, pc]) (by simp [Started, pc']) (line.trans line'.symm)
  cases same

end Nachos.Office
