/-
Module: Nachos.Machine.Clock
Purpose: The simulated time.  The four counters of the statistics move in three
  ways only: `OneTick` adds a tick for system or for user mode, and `Idle` goes
  to the time of the earliest interrupt.  Each way keeps the total the sum of
  the others.
Trusted boundary: the 64-bit counters do not overflow.
Main exports: Counters, Counters.Balanced, Interrupt.Ticks, Interrupt.IdlesUntil,
  Interrupt.ClockStep, Interrupt.step_clock, Interrupt.exec_clock_le,
  clock_adds_up
-/
import Nachos.Machine.Deliveries

namespace Nachos

/-! ### The counters -/

/-- The counters of `class Statistics` that tell the time. -/
structure Counters where
  totalTicks : Int
  idleTicks : Int
  systemTicks : Int
  userTicks : Int
deriving DecidableEq, Repr

namespace Counters

/-- The total is the time spent idle, in the system and in user mode. -/
def Balanced (counters : Counters) : Prop :=
  counters.totalTicks = counters.idleTicks + counters.systemTicks + counters.userTicks

/-- One tick in system mode. -/
def tickSystem (counters : Counters) : Counters :=
  { counters with
    totalTicks := counters.totalTicks + systemTick
    systemTicks := counters.systemTicks + systemTick }

/-- One tick in user mode. -/
def tickUser (counters : Counters) : Counters :=
  { counters with
    totalTicks := counters.totalTicks + userTick
    userTicks := counters.userTicks + userTick }

/-- Nothing is done until a time in the future. -/
def idleUntil (when : Int) (counters : Counters) : Counters :=
  { counters with
    totalTicks := when
    idleTicks := counters.idleTicks + (when - counters.totalTicks) }

theorem Balanced.tickSystem {counters : Counters} (balanced : counters.Balanced) :
    counters.tickSystem.Balanced := by
  simp only [Balanced, Counters.tickSystem] at *
  omega

theorem Balanced.tickUser {counters : Counters} (balanced : counters.Balanced) :
    counters.tickUser.Balanced := by
  simp only [Balanced, Counters.tickUser] at *
  omega

theorem Balanced.idleUntil {counters : Counters} (balanced : counters.Balanced)
    (when : Int) : (counters.idleUntil when).Balanced := by
  simp only [Balanced, Counters.idleUntil] at *
  omega

end Counters

namespace Interrupt

variable {H : Type}

/-- The counters in a state of the simulation. -/
def counters (s : Interrupt H) : Counters where
  totalTicks := s.totalTicks
  idleTicks := s.idleTicks
  systemTicks := s.systemTicks
  userTicks := s.userTicks

/-! ### The ways of the clock -/

/-- A call runs `OneTick`: by itself, or because it enables interrupts. -/
def Ticks (s : Interrupt H) : InterruptCall H → Prop
  | .oneTick => True
  | .setLevel now => now = .intOn ∧ s.level = .intOff
  | _ => False

/-- No pending interrupt is due before this one. -/
def Earliest (first : PendingInterrupt H) (s : Interrupt H) : Prop :=
  first ∈ s.pending.map (·.item) ∧
    ∀ other ∈ s.pending.map (·.item), first.when ≤ other.when

/-- A call is the `CheckIfDue(TRUE)` of `Idle`, and the earliest interrupt lies
in the future. -/
def IdlesUntil (first : PendingInterrupt H) (s : Interrupt H)
    (call : InterruptCall H) : Prop :=
  call = .checkIfDue ∧ s.control = .idleEntry ∧ s.status = .idleMode ∧
    s.Earliest first ∧ s.totalTicks < first.when

/-- What a step does to the counters. -/
inductive ClockStep (s : Interrupt H) (call : InterruptCall H) (s' : Interrupt H) :
    Prop where
  | system (ticks : s.Ticks call) (mode : s.status = .systemMode)
      (moves : s'.counters = s.counters.tickSystem)
  | user (ticks : s.Ticks call) (mode : s.status = .userMode)
      (moves : s'.counters = s.counters.tickUser)
  | idle (first : PendingInterrupt H) (idles : s.IdlesUntil first call)
      (moves : s'.counters = s.counters.idleUntil first.when)
  | stands (works : ¬ s.Ticks call) (busy : ∀ first, ¬ s.IdlesUntil first call)
      (same : s'.counters = s.counters)

theorem ClockStep.balanced {s s' : Interrupt H} {call : InterruptCall H}
    (clock : ClockStep s call s') (balanced : s.counters.Balanced) :
    s'.counters.Balanced := by
  cases clock with
  | system ticks mode moves => exact moves ▸ balanced.tickSystem
  | user ticks mode moves => exact moves ▸ balanced.tickUser
  | idle first idles moves => exact moves ▸ balanced.idleUntil first.when
  | stands works busy same => exact same ▸ balanced

/-! ### The routines -/

theorem endTick_counters (old : MachineStatus) (s : Interrupt H) :
    (s.endTick old).counters = s.counters := by
  unfold endTick
  split <;> rfl

/-- `CheckIfDue(FALSE)` looks at the clock only. -/
theorem checkIfDue_false_counters (s : Interrupt H) :
    (s.checkIfDue false).state.counters = s.counters := by
  have stands : ∀ when rest, (s.takeFirst false when rest).counters = s.counters := by
    intro when rest
    simp [takeFirst, timeOfCheck, counters]
  generalize checked : s.checkIfDue false = check
  cases checkIfDue_cases checked with
  | empty _ | waits _ _ _ _ _ => rfl
  | lone first contents idle timer due => exact stands first.key [first]
  | fires first rest contents works due => exact stands first.key rest

/-- `CheckIfDue(TRUE)` goes to the time of the first interrupt, also when it
then puts it back. -/
theorem checkIfDue_true_counters {s : Interrupt H}
    {first : ListElement (PendingInterrupt H)}
    {rest : List (ListElement (PendingInterrupt H))}
    (contents : s.pending = first :: rest) :
    (s.checkIfDue true).state.counters =
      if s.totalTicks < first.key then s.counters.idleUntil first.key
      else s.counters := by
  have goesOn : ∀ rest, (s.takeFirst true first.key rest).counters =
      if s.totalTicks < first.key then s.counters.idleUntil first.key
      else s.counters := by
    intro rest
    simp only [takeFirst, timeOfCheck, if_true, counters, Counters.idleUntil]
    split
    · rw [Int.max_eq_right (by omega)]
    · rw [Int.max_eq_left (by omega)]
      simp
  generalize checked : s.checkIfDue true = check
  cases checkIfDue_cases checked with
  | empty empty => cases empty.symm.trans contents
  | waits _ _ _ stands _ => cases stands
  | lone other alone idle timer due =>
      obtain ⟨rfl, -⟩ := List.cons.inj (alone.symm.trans contents)
      exact goesOn [other]
  | fires other others pending works due =>
      obtain ⟨rfl, rfl⟩ := List.cons.inj (pending.symm.trans contents)
      exact goesOn others

theorem afterCheck_counters {old : MachineStatus} {loop : Loop}
    {ended : Interrupt H → Interrupt H} (check : Check H)
    (quiet : ∀ s' : Interrupt H, (ended s').counters = s'.counters) :
    (afterCheck old loop ended check).counters = check.state.counters := by
  cases check with
  | returnsFalse s' => exact quiet s'
  | calls toOccur s' => rfl

/-- The first of the pending list is the earliest interrupt. -/
theorem Accounts.earliest {s : Interrupt H} (accounts : s.Accounts)
    {first : ListElement (PendingInterrupt H)}
    {rest : List (ListElement (PendingInterrupt H))}
    (contents : s.pending = first :: rest) : s.Earliest first.item := by
  have sorted := accounts.sorted
  have keyed := accounts.keyed
  rw [contents] at sorted keyed
  unfold Earliest
  rw [contents]
  refine ⟨by simp, ?_⟩
  intro other member
  obtain ⟨element, waiting, rfl⟩ := List.mem_map.mp member
  rw [← keyed first (by simp), ← keyed element waiting]
  exact sorted.first_le waiting

/-! ### Steps -/

theorem oneTick_clock {s : Interrupt H} {call : InterruptCall H} (ticks : s.Ticks call)
    (busy : s.status ≠ .idleMode) : ClockStep s call s.oneTick := by
  cases mode : s.status with
  | idleMode => exact absurd mode busy
  | systemMode =>
      refine .system ticks mode ?_
      simp only [oneTick, mode, if_true]
      rfl
  | userMode =>
      refine .user ticks mode ?_
      simp [oneTick, mode, counters, Counters.tickUser]

/-- `SetLevel` ticks when it enables interrupts, which no handler does. -/
theorem setLevel_clock {s s' : Interrupt H} {now : IntStatus}
    (busy : s.inHandler = false → s.status ≠ .idleMode)
    (set : s.setLevel now = some s') : ClockStep s (.setLevel now) s' := by
  cases setLevel_cases set with
  | ticks enables free => exact oneTick_clock enables (busy free)
  | sets keeps allowed => exact .stands keeps (fun _ idles => nomatch idles.1) rfl

/-- The `CheckIfDue(TRUE)` of `Idle`. -/
theorem checkEntry_clock {s : Interrupt H} {ended : Interrupt H → Interrupt H}
    (accounts : s.Accounts) (entry : s.control = .idleEntry)
    (idle : s.status = .idleMode)
    (quiet : ∀ s' : Interrupt H, (ended s').counters = s'.counters) :
    ClockStep s .checkIfDue (afterCheck s.status .inIdle ended (s.checkIfDue true)) := by
  cases contents : s.pending with
  | nil =>
      refine .stands (fun ticks => ticks) ?_ ?_
      · rintro first ⟨-, -, -, ⟨member, -⟩, -⟩
        simp [contents] at member
      · rw [afterCheck_counters _ quiet]
        simp [checkIfDue, contents, sortedRemove, Check.state]
  | cons first rest =>
      have earliest := accounts.earliest contents
      have keyed : first.key = first.item.when :=
        accounts.keyed first (by simp [contents])
      have moves := checkIfDue_true_counters contents
      rw [keyed] at moves
      by_cases future : s.totalTicks < first.item.when
      · rw [if_pos future] at moves
        refine .idle first.item ⟨rfl, entry, idle, earliest, future⟩ ?_
        rw [afterCheck_counters _ quiet, moves]
      · rw [if_neg future] at moves
        refine .stands (fun ticks => ticks) ?_ ?_
        · rintro other ⟨-, -, -, ⟨-, least⟩, later⟩
          exact future (Int.lt_of_lt_of_le later (least first.item earliest.1))
        · rw [afterCheck_counters _ quiet, moves]

/-- A check of one of the loops. -/
theorem checkLoop_clock {s : Interrupt H} {ended : Interrupt H → Interrupt H}
    {loop : Loop} (inLoop : s.control ≠ .idleEntry)
    (quiet : ∀ s' : Interrupt H, (ended s').counters = s'.counters) :
    ClockStep s .checkIfDue (afterCheck s.status loop ended (s.checkIfDue false)) := by
  refine .stands (fun ticks => ticks) ?_ ?_
  · rintro first ⟨-, entry, -⟩
    exact inLoop entry
  · rw [afterCheck_counters _ quiet, checkIfDue_false_counters]

/-- Every step moves the counters in one of the ways, or leaves them. -/
theorem step_clock {s s' : Interrupt H} {call : InterruptCall H}
    (accounts : s.Accounts) (moded : s.Moded) (step : s.step call = some s') :
    ClockStep s call s' := by
  have mode := moded.mode
  cases step_cases step with
  | schedule scheduled =>
      obtain ⟨toOccur, -, -, -, rfl⟩ := schedule_cases scheduled
      exact .stands (fun ticks => ticks) (fun _ idles => nomatch idles.1) rfl
  | setLevel place set =>
      refine setLevel_clock (fun free => ?_) set
      rcases place with outside | ⟨toOccur, old, loop, inside⟩
      · rw [outside] at mode
        exact mode
      · rw [moded.handling toOccur old loop inside] at free
        cases free
  | oneTick outside =>
      rw [outside] at mode
      exact oneTick_clock trivial mode
  | checkEntry disabled entry =>
      rw [entry] at mode
      exact checkEntry_clock accounts entry mode fun _ => rfl
  | checkIdle disabled atLoop =>
      exact checkLoop_clock (by simp [atLoop]) fun _ => rfl
  | checkTick disabled atLoop =>
      exact checkLoop_clock (by simp [atLoop]) (endTick_counters _)
  | idle _ | yieldOnReturn _ | endHandler _ | endYield _ _ | setStatus _ _ =>
      exact .stands (fun ticks => ticks) (fun _ idles => nomatch idles.1) rfl

/-- No step turns the clock back. -/
theorem step_clock_le {s s' : Interrupt H} {call : InterruptCall H}
    (step : s.step call = some s') : s.totalTicks ≤ s'.totalTicks := by
  cases step_books step with
  | keeps pending sorted clock scheduled delivered => exact clock
  | enters toOccur future fresh pending clock scheduled delivered =>
      exact Int.le_of_eq clock.symm
  | delivers element pending clock due scheduled delivered => exact clock

/-- No run turns the clock back. -/
theorem exec_clock_le {s s' : Interrupt H} {calls : List (InterruptCall H)}
    (run : (interruptMachine H).exec s calls = some s') :
    s.totalTicks ≤ s'.totalTicks :=
  Lib.Machine.invariant (M := interruptMachine H)
    (I := fun later => s.totalTicks ≤ later.totalTicks)
    (fun _ _ _ before step => Int.le_trans before (step_clock_le step))
    (Int.le_refl _) run

/-- What is known of every state that a run reaches. -/
theorem reached {s : Interrupt H} {calls : List (InterruptCall H)}
    (run : (interruptMachine H).exec construct calls = some s) :
    s.Accounts ∧ s.Moded ∧ s.counters.Balanced :=
  Lib.Machine.invariant (M := interruptMachine H)
    (I := fun s => s.Accounts ∧ s.Moded ∧ s.counters.Balanced)
    (fun _ _ _ ⟨accounts, moded, balanced⟩ step =>
      ⟨accounts.step step, moded.step step,
        (step_clock accounts moded step).balanced balanced⟩)
    ⟨construct_accounts, construct_moded, rfl⟩ run

end Interrupt

open Interrupt

/-- In every run, whatever the handlers do: the clock never goes back, it is the
sum of the idle, the system and the user ticks, and it moves only in `OneTick`,
by the tick of the mode, and in the `CheckIfDue(TRUE)` of `Idle`, exactly to the
time of the earliest pending interrupt when that lies in the future. -/
theorem clock_adds_up {H : Type} {s : Interrupt H} {calls : List (InterruptCall H)}
    (run : (interruptMachine H).exec construct calls = some s) :
    s.totalTicks = s.idleTicks + s.systemTicks + s.userTicks ∧
      (∀ later s', (interruptMachine H).exec s later = some s' →
        s.totalTicks ≤ s'.totalTicks) ∧
      ∀ call s', s.step call = some s' → ClockStep s call s' := by
  obtain ⟨accounts, moded, balanced⟩ := reached run
  refine ⟨balanced, ?_, ?_⟩
  · intro later s' rest
    exact exec_clock_le rest
  · intro call s' step
    exact step_clock accounts moded step

/-- A disk interrupt is scheduled, interrupts are enabled, a user instruction is
executed, and the machine idles until the disk is done. -/
def tickThenIdle : List (InterruptCall Unit) :=
  [.schedule () 0 30 .diskInt, .setLevel .intOn, .checkIfDue, .setStatus .userMode,
    .oneTick, .checkIfDue, .setStatus .systemMode, .setLevel .intOff, .idle]

theorem clock_adds_up_to_idling :
    ∃ s, (interruptMachine Unit).exec construct tickThenIdle = some s ∧
      s.counters = { totalTicks := 11, idleTicks := 0, systemTicks := 10, userTicks := 1 } ∧
      s.totalTicks = s.idleTicks + s.systemTicks + s.userTicks ∧
      ∃ s', s.step .checkIfDue = some s' ∧ ClockStep s .checkIfDue s' ∧
        s'.counters =
          { totalTicks := 30, idleTicks := 19, systemTicks := 10, userTicks := 1 } := by
  obtain ⟨s, s', run, counted, step, idled⟩ : ∃ s s',
      (interruptMachine Unit).exec construct tickThenIdle = some s ∧
      s.counters = { totalTicks := 11, idleTicks := 0, systemTicks := 10, userTicks := 1 } ∧
      s.step .checkIfDue = some s' ∧ s'.counters =
        { totalTicks := 30, idleTicks := 19, systemTicks := 10, userTicks := 1 } :=
    ⟨_, _, rfl, rfl, rfl, rfl⟩
  obtain ⟨balanced, -, moves⟩ := clock_adds_up run
  exact ⟨s, run, counted, balanced, s', step, moves _ _ step, idled⟩

end Nachos
