/-
Module: Nachos.Machine.Ties
Purpose: Interrupts for the same time.  `CheckIfDue(FALSE)` takes the first
  pending interrupt off the list and, when it has to wait, puts it back with
  `SortedInsert`: behind every other one for the same time.
Trusted boundary: none
Main exports: Interrupt.WaitsUntied, Interrupt.KeepsTies, Interrupt.ServedInTurn,
  Interrupt.InTurn, sortedInsert_first_iff, checks_keep_order_iff,
  tied_interrupts_change_places
-/
import Nachos.Machine.Clock

namespace Nachos

/-! ### Putting the first element back -/

section

variable {α : Type}

theorem insertElement_first_iff {first : ListElement α} {rest : List (ListElement α)}
    (sorted : Sorted (first :: rest)) :
    insertElement first rest = first :: rest ↔
      ∀ other ∈ rest, other.key = first.key → other = first := by
  induction rest with
  | nil => simp [insertElement]
  | cons ptr rest inductionHypothesis =>
      obtain ⟨smallest, sortedRest⟩ := List.pairwise_cons.mp sorted
      have withoutPtr : Sorted (first :: rest) :=
        List.pairwise_cons.mpr ⟨fun other member => smallest other (.tail _ member),
          Sorted.tail sortedRest⟩
      have ordered : first.key ≤ ptr.key := smallest ptr (.head _)
      rw [insertElement]
      split
      · rename_i smaller
        refine ⟨fun _ other member tied => ?_, fun _ => rfl⟩
        have above := Sorted.first_le sortedRest member
        omega
      · rename_i larger
        have tied : ptr.key = first.key := by omega
        rw [List.cons.injEq, List.forall_mem_cons]
        constructor
        · rintro ⟨rfl, same⟩
          exact ⟨fun _ => rfl, (inductionHypothesis withoutPtr).mp same⟩
        · rintro ⟨here, behind⟩
          obtain rfl := here tied
          exact ⟨rfl, (inductionHypothesis withoutPtr).mpr behind⟩

/-- The first element of a sorted list comes back to its place exactly when no
other element has its key. -/
theorem sortedInsert_first_iff {first : ListElement α} {rest : List (ListElement α)}
    (sorted : Sorted (first :: rest)) :
    sortedInsert first.item first.key rest = first :: rest ↔
      ∀ other ∈ rest, other.key = first.key → other = first :=
  insertElement_first_iff sorted

/-- An element that is related to by all others keeps a list ordered among equal
keys, since it goes behind them. -/
theorem pairwise_insertElement {related : ListElement α → ListElement α → Prop}
    {element : ListElement α} {elements : List (ListElement α)}
    (sorted : Sorted elements)
    (ordered : elements.Pairwise fun first second =>
      first.key = second.key → related first second)
    (last : ∀ other ∈ elements, related other element) :
    (insertElement element elements).Pairwise fun first second =>
      first.key = second.key → related first second := by
  induction elements with
  | nil => exact List.pairwise_singleton _ _
  | cons ptr rest inductionHypothesis =>
      obtain ⟨orderedFirst, orderedRest⟩ := List.pairwise_cons.mp ordered
      rw [insertElement]
      split
      · rename_i smaller
        refine List.pairwise_cons.mpr ⟨fun other member tied => ?_, ordered⟩
        have above := sorted.first_le member
        omega
      · refine List.pairwise_cons.mpr ⟨fun other member tied => ?_,
          inductionHypothesis sorted.tail orderedRest
            fun other member => last other (.tail _ member)⟩
        rcases List.mem_cons.mp ((insertElement_perm element rest).mem_iff.mp member)
          with rfl | behind
        · exact last ptr (.head _)
        · exact orderedFirst other behind tied

end

namespace Interrupt

variable {H : Type}

/-! ### One check -/

/-- When the first pending interrupt has to wait, no other one is for the same
time. -/
def WaitsUntied (s : Interrupt H) : Prop :=
  ∀ first ∈ s.pending.head?, s.totalTicks < first.key →
    ∀ other ∈ s.pending.tail, other.key = first.key → other = first

instance [DecidableEq H] (s : Interrupt H) : Decidable s.WaitsUntied :=
  inferInstanceAs (Decidable (∀ first ∈ s.pending.head?, _))

/-- A `CheckIfDue(FALSE)` that fires no handler leaves the list as it is exactly
when the first interrupt is not tied. -/
theorem checkIfDue_keeps_iff {s s' : Interrupt H} (sorted : Sorted s.pending)
    (returns : s.checkIfDue false = .returnsFalse s') :
    s'.pending = s.pending ↔ s.WaitsUntied := by
  cases checkIfDue_cases returns with
  | empty contents => simp [WaitsUntied, contents]
  | waits first rest contents stands future =>
      rw [contents] at sorted
      simp only [sortedInsert_first_iff sorted, WaitsUntied, contents, List.head?_cons,
        List.tail_cons, Option.mem_some_iff, forall_eq', future, forall_const]
  | lone first contents idle timer due =>
      refine ⟨fun _ other head _ => ?_, fun _ => contents.symm⟩
      simp [contents]

/-- A check that returns FALSE leaves the clock alone. -/
theorem checkIfDue_keeps_clock {s s' : Interrupt H}
    (returns : s.checkIfDue false = .returnsFalse s') : s'.totalTicks = s.totalTicks := by
  have same := checkIfDue_false_counters s
  rw [returns] at same
  exact congrArg Counters.totalTicks same

/-! ### Steps -/

/-- The machine is at the head of `while (CheckIfDue(FALSE))`. -/
def AtLoop : Control H → Prop
  | .atLoop _ => True
  | _ => False

instance : DecidablePred (AtLoop : Control H → Prop)
  | .atLoop _ => isTrue trivial
  | .outside | .idleEntry | .inHandler _ _ _ | .halted => isFalse id

/-- The step is no check of a loop whose first interrupt has to wait and is
tied. -/
def KeepsTies (s : Interrupt H) (call : InterruptCall H) : Prop :=
  call = .checkIfDue → AtLoop s.control → s.WaitsUntied

instance [DecidableEq H] (s : Interrupt H) (call : InterruptCall H) :
    Decidable (s.KeepsTies call) :=
  inferInstanceAs (Decidable (_ → _ → _))

/-- A check that calls a handler enters it among the delivered ones. -/
theorem checkIfDue_delivers {s s' : Interrupt H} {advanceClock : Bool}
    {toOccur : PendingInterrupt H} (calls : s.checkIfDue advanceClock = .calls toOccur s') :
    s'.delivered ≠ s.delivered := by
  cases checkIfDue_cases calls with
  | fires first rest contents works due => simp

/-- `CheckIfDue(TRUE)` puts back an interrupt only into the empty list. -/
theorem checkIfDue_true_keeps {s s' : Interrupt H}
    (returns : s.checkIfDue true = .returnsFalse s') : s'.pending = s.pending := by
  cases checkIfDue_cases returns with
  | empty contents => rfl
  | waits first rest contents stands future => cases stands
  | lone first contents idle timer due => exact contents.symm

theorem afterCheck_keeps {s : Interrupt H} {advanceClock : Bool} {old : MachineStatus}
    {loop : Loop} {ended : Interrupt H → Interrupt H}
    (keeps : ∀ s', s.checkIfDue advanceClock = .returnsFalse s' → s'.pending = s.pending)
    (quiet : ∀ s' : Interrupt H, (ended s').pending = s'.pending)
    (undelivered : (afterCheck old loop ended (s.checkIfDue advanceClock)).delivered =
      s.delivered) :
    (afterCheck old loop ended (s.checkIfDue advanceClock)).pending = s.pending := by
  cases checked : s.checkIfDue advanceClock with
  | returnsFalse s' => exact (quiet s').trans (keeps s' checked)
  | calls toOccur s' =>
      have enters := checkIfDue_delivers checked
      rw [checked] at undelivered
      exact absurd undelivered enters

/-- A step that meets the condition, and neither schedules nor delivers, leaves
the list as it is. -/
theorem step_keeps_pending {s s' : Interrupt H} {call : InterruptCall H}
    (sorted : Sorted s.pending) (untied : s.KeepsTies call)
    (step : s.step call = some s') (unscheduled : s'.scheduled = s.scheduled)
    (undelivered : s'.delivered = s.delivered) : s'.pending = s.pending := by
  have waits : ∀ loop, s.control = .atLoop loop → call = .checkIfDue →
      ∀ returned, s.checkIfDue false = .returnsFalse returned →
        returned.pending = s.pending := by
    intro loop atLoop check returned returns
    exact (checkIfDue_keeps_iff sorted returns).mpr
      (untied check (by rw [atLoop]; trivial))
  cases step_cases step with
  | schedule scheduled =>
      obtain ⟨toOccur, -, -, -, rfl⟩ := schedule_cases scheduled
      simp at unscheduled
  | setLevel place set => exact setLevel_pending set
  | oneTick outside => exact oneTick_pending s
  | checkEntry disabled entry =>
      exact afterCheck_keeps (fun _ => checkIfDue_true_keeps) (fun _ => rfl) undelivered
  | checkIdle disabled atLoop =>
      exact afterCheck_keeps (waits _ atLoop rfl) (fun _ => rfl) undelivered
  | checkTick disabled atLoop =>
      exact afterCheck_keeps (waits _ atLoop rfl) (fun s' => (endTick_quiet _ s').1)
        undelivered
  | idle _ | yieldOnReturn _ | endHandler _ | endYield _ _ | setStatus _ _ => rfl

/-! ### Runs -/

/-- Of two interrupts for the same time, the one that was scheduled first was
delivered first. -/
def ServedInTurn (delivered : List (PendingInterrupt H × Int)) : Prop :=
  delivered.Pairwise fun later earlier =>
    later.1.when = earlier.1.when → earlier.1.serial < later.1.serial

/-- Interrupts for the same time are pending, and were delivered, in the order in
which they were scheduled. -/
structure InTurn (s : Interrupt H) : Prop where
  waiting : s.pending.Pairwise fun first second =>
    first.key = second.key → first.item.serial < second.item.serial
  served : ServedInTurn s.delivered
  between : ∀ delivery ∈ s.delivered, ∀ element ∈ s.pending,
    element.item.when = delivery.1.when → delivery.1.serial < element.item.serial

theorem construct_inTurn : (construct : Interrupt H).InTurn where
  waiting := List.Pairwise.nil
  served := List.Pairwise.nil
  between _ member := by cases member

/-- A scheduled interrupt is younger than all that were scheduled before. -/
theorem Accounts.older {s : Interrupt H} (accounts : s.Accounts) :
    (∀ element ∈ s.pending, element.item.serial < s.scheduled.length) ∧
      ∀ delivery ∈ s.delivered, delivery.1.serial < s.scheduled.length := by
  have entered := fun toOccur => accounts.balanced.mem_iff (a := toOccur)
  constructor
  · intro element member
    refine accounts.serials _ ((entered _).mp (List.mem_append_left _ ?_))
    exact List.mem_map_of_mem member
  · intro delivery member
    refine accounts.serials _ ((entered _).mp (List.mem_append_right _ ?_))
    exact List.mem_map_of_mem member

theorem InTurn.step {s s' : Interrupt H} {call : InterruptCall H} (inTurn : s.InTurn)
    (accounts : s.Accounts) (untied : s.KeepsTies call)
    (step : s.step call = some s') : s'.InTurn := by
  cases step_books step with
  | keeps perm sorted clock scheduled delivered =>
      have pending := step_keeps_pending accounts.sorted untied step scheduled delivered
      obtain ⟨waiting, served, between⟩ := inTurn
      exact ⟨pending ▸ waiting, delivered ▸ served, pending ▸ delivered ▸ between⟩
  | enters toOccur future fresh pending clock scheduled delivered =>
      obtain ⟨olderPending, olderDelivered⟩ := accounts.older
      refine ⟨?_, delivered ▸ inTurn.served, ?_⟩
      · rw [pending]
        refine pairwise_insertElement accounts.sorted inTurn.waiting fun other member => ?_
        exact fresh ▸ olderPending other member
      · rw [delivered, pending]
        intro delivery member element waiting
        rcases mem_sortedInsert.mp waiting with rfl | old
        · intro _
          exact fresh ▸ olderDelivered delivery member
        · exact inTurn.between delivery member element old
  | delivers element pending clock due scheduled delivered =>
      have waiting := inTurn.waiting
      have keyed := accounts.keyed
      have between := inTurn.between
      rw [pending] at waiting keyed between
      obtain ⟨first, rest⟩ := List.pairwise_cons.mp waiting
      refine ⟨rest, ?_, ?_⟩
      · rw [delivered]
        refine List.pairwise_cons.mpr ⟨fun earlier member => ?_, inTurn.served⟩
        exact between earlier member element (.head _)
      · rw [delivered]
        intro delivery member other behind sameTime
        rcases List.mem_cons.mp member with rfl | old
        · apply first other behind
          rw [keyed element (.head _), keyed other (.tail _ behind)]
          exact sameTime.symm
        · exact between delivery old other (.tail _ behind) sameTime

theorem inTurn_of_run {s : Interrupt H} {calls : List (InterruptCall H)}
    (run : (interruptMachine H).exec construct calls = some s)
    (untied : (interruptMachine H).Steps KeepsTies construct calls) : s.InTurn := by
  have along := Lib.Machine.along_of_guarded (M := interruptMachine H)
    (I := fun s => s.Accounts ∧ s.InTurn) (C := KeepsTies)
    (fun s call s' both keeps step =>
      ⟨both.1.step step, both.2.step both.1 keeps step⟩)
    ⟨construct_accounts, construct_inTurn⟩ untied
  exact (along.finish run).2

end Interrupt

open Interrupt

/-- For every sorted list and every clock, a `CheckIfDue(FALSE)` that fires no
handler leaves list and clock as they are exactly when the first interrupt, if it
has to wait, is not tied; and in every run whose checks meet that condition,
interrupts for the same time are delivered in the order of their scheduling. -/
theorem checks_keep_order_iff {H : Type} :
    (∀ s s' : Interrupt H, Sorted s.pending → s.checkIfDue false = .returnsFalse s' →
      (s'.pending = s.pending ∧ s'.totalTicks = s.totalTicks ↔ s.WaitsUntied)) ∧
      ∀ (s : Interrupt H) (calls : List (InterruptCall H)),
        (interruptMachine H).exec construct calls = some s →
        (interruptMachine H).Steps KeepsTies construct calls → ServedInTurn s.delivered := by
  constructor
  · intro s s' sorted returns
    rw [and_iff_left (checkIfDue_keeps_clock returns)]
    exact checkIfDue_keeps_iff sorted returns
  · intro s calls run untied
    exact (inTurn_of_run run untied).served

/-- Two interrupts are scheduled for tick 15; `OneTick` looks at them at tick 10
and calls their handlers at tick 20. -/
def tiedCalls : List (InterruptCall Unit) :=
  [.schedule () 0 15 .consoleReadInt, .schedule () 0 15 .networkRecvInt,
    .setLevel .intOn, .checkIfDue, .oneTick, .checkIfDue, .endHandler, .checkIfDue]

/-- Looking at the first of two tied interrupts puts it behind the other one, and
the second one is delivered first. -/
theorem tied_interrupts_change_places :
    (¬ ∀ s s' : Interrupt Unit, Sorted s.pending → s.checkIfDue false = .returnsFalse s' →
      s'.pending = s.pending ∧ s'.totalTicks = s.totalTicks) ∧
      ¬ ∀ (s : Interrupt Unit) (calls : List (InterruptCall Unit)),
        (interruptMachine Unit).exec construct calls = some s →
        ServedInTurn s.delivered := by
  constructor
  · intro claim
    obtain ⟨s, run⟩ : ∃ s : Interrupt Unit,
        (interruptMachine Unit).exec construct (tiedCalls.take 3) = some s := ⟨_, rfl⟩
    have sorted : Sorted s.pending := (reached run).1.sorted
    cases run
    have kept := claim _ _ sorted rfl
    exact absurd kept.1 (by decide)
  · intro claim
    have served := claim _ tiedCalls rfl
    exact absurd (List.pairwise_cons.mp served).1 (by decide)

/-- The second interrupt is for a later time than the first one; then a third is
scheduled for the time of the second. -/
def untiedCalls : List (InterruptCall Unit) :=
  [.schedule () 0 15 .consoleReadInt, .schedule () 0 20 .networkRecvInt,
    .setLevel .intOn, .checkIfDue, .schedule () 0 10 .diskInt, .oneTick,
    .checkIfDue, .endHandler, .checkIfDue, .endHandler, .checkIfDue, .endHandler]

theorem untied_interrupts_in_turn :
    ∃ s, (interruptMachine Unit).exec construct untiedCalls = some s ∧
      s.delivered.map (·.1.serial) = [2, 1, 0] ∧ ServedInTurn s.delivered := by
  obtain ⟨s, run, serials⟩ : ∃ s,
      (interruptMachine Unit).exec construct untiedCalls = some s ∧
        s.delivered.map (·.1.serial) = [2, 1, 0] := ⟨_, rfl, rfl⟩
  have untied : (interruptMachine Unit).Steps KeepsTies construct untiedCalls := by decide
  exact ⟨s, run, serials, checks_keep_order_iff.2 s untiedCalls run untied⟩

end Nachos
