/-
Module: Nachos.Office.Smallest
Purpose: `getSmallestLine` finds a line.  A count is raised only by a customer
  that gets in line, and is lowered again before the customer leaves, so that
  no count exceeds the number of customers between the two.  The customer that
  calls is not one of them, and the bound 50 at which the search starts is
  never reached.
Trusted boundary: none
Main exports: Client.share, crowd, Counted, IsSmallestLine, smallest_line_found
-/
import Mathlib.Algebra.BigOperators.Group.Finset.Piecewise
import Mathlib.Algebra.Order.BigOperators.Group.Finset
import Mathlib.Algebra.Order.Ring.Int
import Mathlib.Data.List.MinMax
import Nachos.Office.Lines
import Nachos.Office.Segments

namespace Nachos.Office

/-! ### The search -/

/-- The least index of a clerk whose line is smallest. -/
structure IsSmallestLine (numClerks : Nat) (desks : Nat → Desk) (i : Nat) : Prop where
  inRange : i < numClerks
  smallest : ∀ j < numClerks, (desks i).clerkLineCount ≤ (desks j).clerkLineCount
  first : ∀ j < i, (desks i).clerkLineCount < (desks j).clerkLineCount

/-- From the first candidate on, the loop keeps the smallest one. -/
theorem smallestLoop_eq_foldl (clerkLineCount : Nat → Int) (indices : List Nat)
    (i : Nat) :
    smallestLoop clerkLineCount indices (clerkLineCount i) (some i) =
      indices.foldl
        (List.argAux fun j k => clerkLineCount j < clerkLineCount k) (some i) := by
  induction indices generalizing i with
  | nil => rfl
  | cons j rest inductionHypothesis =>
      by_cases less : clerkLineCount j < clerkLineCount i
      · simpa [smallestLoop, List.argAux, less] using inductionHypothesis j
      · simpa [smallestLoop, List.argAux, less] using inductionHypothesis i

/-- The first index at which a function is smallest. -/
theorem least_of_argmin {α : Type*} [LinearOrder α] {f : Nat → α} {n i : Nat}
    (found : (List.range n).argmin f = some i) :
    i < n ∧ (∀ j < n, f i ≤ f j) ∧ ∀ j < i, f i < f j := by
  have position : ∀ j < n, (List.range n).idxOf j = j := by
    intro j inRange
    have bound : j < (List.range n).length := by simpa using inRange
    simpa using List.nodup_range.idxOf_getElem j bound
  obtain ⟨member, smallest, least⟩ := List.argmin_eq_some_iff.mp found
  have inRange : i < n := List.mem_range.mp member
  refine ⟨inRange, fun j bound => smallest j (List.mem_range.mpr bound), ?_⟩
  intro j before
  by_contra notLess
  have bound : j < n := before.trans inRange
  have le := least j (List.mem_range.mpr bound) (not_lt.mp notLess)
  rw [position i inRange, position j bound] at le
  omega

/-- If the first line has fewer than 50 customers, the search has a candidate. -/
theorem getSmallestLine_spec (m : Kind) {numClerks : Nat} {desks : Nat → Desk}
    (clerks : 1 ≤ numClerks) (below : (desks 0).clerkLineCount < 50) :
    ∃ i, getSmallestLine m numClerks desks = some i ∧ IsSmallestLine numClerks desks i := by
  have search : getSmallestLine m numClerks desks =
      (List.range numClerks).argmin fun i => (desks i).clerkLineCount := by
    obtain ⟨n, rfl⟩ := Nat.exists_eq_add_of_le' clerks
    rw [getSmallestLine, List.range_succ_eq_map, smallestLoop, if_pos below]
    exact smallestLoop_eq_foldl (fun i => (desks i).clerkLineCount) _ 0
  rw [search]
  cases found : (List.range numClerks).argmin fun i => (desks i).clerkLineCount with
  | none =>
      have empty := List.range_eq_nil.mp (List.argmin_eq_none.mp found)
      omega
  | some i =>
      obtain ⟨inRange, smallest, first⟩ := least_of_argmin found
      exact ⟨i, rfl, inRange, smallest, first⟩

/-! ### Who is counted -/

/-- The line in which a customer is, from the choice of the line to the point
at which it takes itself off the count. -/
def Stage.counted : Stage → Option Nat
  | .take i | .lock i | .greet i | .await i | .served i => some i
  | .enter | .look | .tooSoon _ _ | .leave _ => none

/-- What a customer can have added to the count of line `i` of monitor `m`. -/
def Client.share (m : Kind) (i : Nat) (c : Client) : Int :=
  match c.pc with
  | .join m' stage => if m' = m ∧ stage.counted = some i then 1 else 0
  | _ => 0

theorem Client.share_join {m m' : Kind} {i : Nat} {c : Client} {stage : Stage}
    (pc : c.pc = .join m' stage) :
    c.share m i = if m' = m ∧ stage.counted = some i then 1 else 0 := by
  rw [Client.share, pc]

theorem Client.share_le_one (m : Kind) (i : Nat) (c : Client) : c.share m i ≤ 1 := by
  unfold Client.share
  split
  · split <;> decide
  · decide

/-- A segment of a customer raises a count by at most what it adds to the
customer's share of it. -/
theorem Client.Does.share {numClerks : Kind → Nat} {ssnCount : Int} {rand pick : Nat}
    {desks : Desks} {c : Client} {segment : Segment Client}
    (does : c.Does numClerks ssnCount rand pick desks segment)
    (honest : c.bribed = false) (m : Kind) (i : Nat) :
    (segment.desks m i).clerkLineCount + c.share m i ≤
      (desks m i).clerkLineCount + segment.next.share m i := by
  cases does with
  | queueUp m' i' pc smallest busy =>
      rw [Desks.set_count, (c.queueUp_line honest m' (desks m' i')).2,
        share_join pc, share_join rfl]
      simp only [Stage.counted, reduceCtorEq, and_false, if_false, Option.some.injEq]
      split <;> omega
  | walkUp m' i' pc smallest idle =>
      rw [share_join pc, share_join rfl]
      simp only [Stage.counted, reduceCtorEq, and_false, if_false, Option.some.injEq]
      split <;> omega
  | take m' i' pc =>
      rw [Desks.set_count, share_join pc, share_join rfl]
      simp [Stage.counted]
  | greet m' i' pc =>
      rw [Desks.set_count, (arrive_line m' (desks m' i')).2, share_join pc, share_join rfl]
      simp [Stage.counted]
  | served m' i' pc satisfied =>
      have leaves : ({ c.stamp m' with pc := .join m' (.leave i') } : Client).share m i = 0 := by
        rw [share_join rfl]
        simp [Stage.counted]
      rw [Desks.set_count, (quit_line m' (desks m' i')).2, share_join pc, leaves]
      simp only [Stage.counted, Option.some.injEq]
      split <;> omega
  | tooSoon m' i' n pc checked unsatisfied =>
      rw [Desks.set_count, (quit_line m' (desks m' i')).2, share_join pc, share_join rfl]
      simp only [Stage.counted, reduceCtorEq, and_false, if_false, Option.some.injEq]
      split <;> omega
  | create pc | finish pc done | choose m' pc notDone chosen | pass pc notDone chosen
  | leaving pc =>
      simp [Client.share, Client.construct, Stage.counted, pc]
  | enter m' pc | lock m' i' pc | await m' i' pc | retake i' pc | yield m' i' n pc
  | goodbye m' i' pc | leave m' i' pc =>
      simp [Client.share, Stage.counted, pc]

/-! ### The crowd -/

/-- The customers that are in line `i` of monitor `m`. -/
def crowd (setup : Setup) (office : Office) (m : Kind) (i : Nat) : Int :=
  ∑ n ∈ Finset.range setup.numCustomers, (office.clients n).share m i

theorem crowd_afterClient {setup : Setup} (office : Office) {n : Nat}
    (segment : Segment Client) (m : Kind) (i : Nat) (known : n < setup.numCustomers) :
    (office.afterClient n segment).crowd setup m i =
      office.crowd setup m i - (office.clients n).share m i +
        segment.next.share m i := by
  have member : n ∈ Finset.range setup.numCustomers := Finset.mem_range.mpr known
  have shares : (fun k => ((office.afterClient n segment).clients k).share m i) =
      Function.update (fun k => (office.clients k).share m i) n
        (segment.next.share m i) :=
    Function.comp_update (Client.share m i) office.clients n segment.next
  have before := Finset.add_sum_erase _ (fun k => (office.clients k).share m i) member
  rw [crowd, crowd, shares, Finset.sum_update_of_mem member,
    Finset.sdiff_singleton_eq_erase, ← before]
  omega

/-- A customer that is in no line is not in the crowd. -/
theorem crowd_lt {setup : Setup} {office : Office} {m : Kind} {i n : Nat}
    (known : n < setup.numCustomers) (absent : (office.clients n).share m i = 0) :
    office.crowd setup m i < setup.numCustomers := by
  have less : office.crowd setup m i < ∑ _n ∈ Finset.range setup.numCustomers, (1 : Int) := by
    refine Finset.sum_lt_sum (fun k _ => Client.share_le_one m i _) ?_
    exact ⟨n, Finset.mem_range.mpr known, by rw [absent]; decide⟩
  simpa using less

/-- No count exceeds the crowd, and nobody has come from elsewhere. -/
structure Counted (setup : Setup) (office : Office) : Prop where
  unbribed : office.Unbribed
  forked : office.Forked setup
  strangers : ∀ n, setup.numCustomers ≤ n → (office.clients n).pc = .create
  lineCount : ∀ m i, (office.desks m i).clerkLineCount ≤ office.crowd setup m i

theorem boot_counted (setup : Setup) : (boot setup).Counted setup where
  unbribed := boot_unbribed setup
  forked := boot_forked setup
  strangers _ _ := rfl
  lineCount m i := by
    simp [crowd, boot, Desk.construct, Client.share, Client.fresh]

/-- The two conditions that a segment of a thread has to keep. -/
theorem Counted.runs {setup : Setup} {rand pick : Nat} {office after : Office}
    {who : Who} {call : Option Call} (counted : Counted setup office)
    (current : who = .main ∨ who ∈ setup.forks)
    (runs : Runs setup rand pick office who after call) :
    (∀ n, setup.numCustomers ≤ n → (after.clients n).pc = .create) ∧
      ∀ m i, (after.desks m i).clerkLineCount ≤ after.crowd setup m i := by
  cases runs with
  | fork t rest pending => exact ⟨counted.strangers, counted.lineCount⟩
  | finish none => exact ⟨counted.strangers, counted.lineCount⟩
  | senator n => exact ⟨counted.strangers, counted.lineCount⟩
  | manager => exact ⟨counted.strangers, counted.lineCount⟩
  | clerk m n segment does =>
      refine ⟨counted.strangers, fun m' i => ?_⟩
      rw [afterClerk_desks, does.lineCount]
      exact counted.lineCount m' i
  | customer n segment does =>
      have known : n < setup.numCustomers :=
        mem_forks_customer.mp (current.resolve_left (by simp))
      refine ⟨fun k stranger => ?_, fun m i => ?_⟩
      · have other : k ≠ n := by omega
        rw [afterClient_clients, Function.update_of_ne other]
        exact counted.strangers k stranger
      · have le := counted.lineCount m i
        have share := does.share (counted.unbribed.clients n) m i
        rw [crowd_afterClient office segment m i known, afterClient_desks]
        omega

theorem Counted.step {setup : Setup} {d : Discipline} {office office' : Office}
    {move : Move} (wf : office.kernel.WellFormed) (counted : Counted setup office)
    (step : office.step setup d move = some office') : Counted setup office' := by
  have unbribed := counted.unbribed.step step
  have forked := counted.forked.step wf step
  cases counted.unbribed.moves step with
  | silent rand pick after running runs =>
      obtain ⟨strangers, lineCount⟩ :=
        counted.runs (counted.forked.current wf running) runs
      exact ⟨unbribed, forked, strangers, lineCount⟩
  | call rand pick after op kernel running runs calls called =>
      obtain ⟨strangers, lineCount⟩ :=
        counted.runs (counted.forked.current wf running) runs
      exact ⟨unbribed, forked, strangers, lineCount⟩
  | system action kernel notCall stepped =>
      exact ⟨unbribed, forked, counted.strangers, counted.lineCount⟩

theorem counted_exec {setup : Setup} {d : Discipline} {office : Office}
    {moves : List Move}
    (run : (officeMachine setup d).exec (boot setup) moves = some office) :
    Counted setup office :=
  invariant_exec (fun _ _ _ wf counted step => counted.step wf step)
    (boot_counted setup) run

/-- A customer that looks for a line finds all of them shorter than 50. -/
theorem Counted.below {setup : Setup} {office : Office} {m : Kind} {n : Nat}
    (counted : Counted setup office) (customers : setup.numCustomers ≤ 50)
    (looks : (office.clients n).pc = .join m .look) (i : Nat) :
    (office.desks m i).clerkLineCount < 50 := by
  have known : n < setup.numCustomers := by
    by_contra stranger
    have fresh := counted.strangers n (not_lt.mp stranger)
    rw [looks] at fresh
    cases fresh
  have absent : (office.clients n).share m i = 0 := by
    rw [Client.share_join looks]
    simp [Stage.counted]
  have le := counted.lineCount m i
  have less := crowd_lt known absent
  omega

/-- With at most 50 customers and a clerk of each kind, a customer at
`getSmallestLine` finds the least index of a smallest line, in every run. -/
theorem smallest_line_found {setup : Setup} {d : Discipline} {office : Office}
    {moves : List Move} {m : Kind} {n : Nat} (customers : setup.numCustomers ≤ 50)
    (clerks : ∀ m, 1 ≤ setup.numClerks m)
    (run : (officeMachine setup d).exec (boot setup) moves = some office)
    (looks : (office.clients n).pc = .join m .look) :
    ∃ i, getSmallestLine m (setup.numClerks m) (office.desks m) = some i ∧
      IsSmallestLine (setup.numClerks m) (office.desks m) i :=
  getSmallestLine_spec m (clerks m) ((counted_exec run).below customers looks 0)

/-- Two clerks of each kind and three customers. -/
def threeCustomers : Setup := { twoOfEach with numCustomers := 3 }

/-- Customer 0 finds clerk 0 available, customer 1 finds it busy and gets in
line, and customer 2 is about to look. -/
def thirdLooks : List Move := List.flatten [
  calls 13, [.exec 0 0, .system (.dispatch 0)], pass 10,
  [.exec 0 0, .exec 0 0], calls 1, [.exec 0 0, .exec 0 0], pass 1,
  [.exec 0 0, .exec 0 0], calls 1, [.exec 0 0, .system (.dispatch 0), .system .endTick],
  [.exec 0 0, .exec 0 0], calls 1]

/-- Customer 2 finds the line of clerk 1. -/
theorem smallest_line_found_by_third :
    ∃ office,
      (officeMachine threeCustomers .fifo).exec (boot threeCustomers) thirdLooks =
        some office ∧
      getSmallestLine .application 2 (office.desks .application) = some 1 ∧
      IsSmallestLine 2 (office.desks .application) 1 := by
  obtain ⟨office, run, ends⟩ : ∃ office,
      (officeMachine threeCustomers .fifo).exec (boot threeCustomers) thirdLooks =
        some office ∧
      ((office.clients 2).pc,
        getSmallestLine .application 2 (office.desks .application)) =
        (.join .application .look, some 1) :=
    Option.map_eq_some_iff.mp (by decide +kernel)
  simp only [Prod.mk.injEq] at ends
  obtain ⟨looks, one⟩ := ends
  obtain ⟨i, found, smallest⟩ :=
    smallest_line_found (by decide) (by simp [threeCustomers, twoOfEach]) run looks
  cases Option.some.inj (one.symm.trans found)
  exact ⟨office, run, one, smallest⟩

end Nachos.Office
