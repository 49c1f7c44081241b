/-
Module: Nachos.Machine.Loops
Purpose: The loops `while (CheckIfDue(FALSE))` of `OneTick` and `Idle`.  A
  handler may schedule interrupts, but only for the future, so that the number
  of pending interrupts whose time has come falls with every round.
Trusted boundary: `Random` is not negative.
Main exports: Interrupt.MayCall, Interrupt.whileDue, Interrupt.due,
  Interrupt.AtLoopHead, Interrupt.LoopLeft, Interrupt.whileDue_ends,
  timeOfNextInterrupt, timerExpired, loops_fire_what_is_due
-/
import Nachos.Machine.Clock

namespace Nachos

/-! ### The timer -/

/-- `TimerTicks` of stats.h. -/
def timerTicks : Int := 100

/-- `Timer::TimeOfNextInterrupt`, with what `Random` returns. -/
def timeOfNextInterrupt (randomize : Bool) (random : Int) : Int :=
  if randomize then 1 + random.tmod (timerTicks * 2) else timerTicks

/-- `Timer::TimerExpired`: the timer schedules itself again, then its handler
makes its calls. -/
def timerExpired {H : Type} (timerHandler : H) (this : Int) (randomize : Bool)
    (random : Int) (handlerCalls : List (InterruptCall H)) : List (InterruptCall H) :=
  .schedule timerHandler this (timeOfNextInterrupt randomize random) .timerInt ::
    handlerCalls

theorem timeOfNextInterrupt_pos (randomize : Bool) {random : Int} (nonneg : 0 ≤ random) :
    0 < timeOfNextInterrupt randomize random := by
  have remainder := Int.tmod_nonneg (timerTicks * 2) nonneg
  unfold timeOfNextInterrupt
  split
  · omega
  · decide

namespace Interrupt

variable {H : Type}

/-! ### Handlers -/

/-- What a handler may call: it schedules for the future, asks for a yield, or
sees to it that interrupts are off. -/
def MayCall : InterruptCall H → Prop
  | .schedule _ _ fromNow _ => 0 < fromNow
  | .setLevel now => now = .intOff
  | .yieldOnReturn => True
  | _ => False

/-- The timer is a handler that may be called. -/
theorem timerExpired_mayCall (timerHandler : H) (this : Int) (randomize : Bool)
    {random : Int} (nonneg : 0 ≤ random) {handlerCalls : List (InterruptCall H)}
    (polite : ∀ call ∈ handlerCalls, MayCall call) :
    ∀ call ∈ timerExpired timerHandler this randomize random handlerCalls,
      MayCall call := by
  intro call member
  rcases List.mem_cons.mp member with rfl | later
  · exact timeOfNextInterrupt_pos randomize nonneg
  · exact polite call later

/-- `while (CheckIfDue(FALSE));` and what follows it up to the end of the routine.
`handlers` tells which calls the handler of an interrupt makes in a state. -/
def whileDue (handlers : PendingInterrupt H → Interrupt H → List (InterruptCall H)) :
    Nat → Interrupt H → Option (Interrupt H)
  | 0, _ => none
  | fuel + 1, s =>
      (s.step .checkIfDue).bind fun s' =>
        match s'.control with
        | .inHandler toOccur _ _ =>
            ((interruptMachine H).exec s' (handlers toOccur s' ++ [.endHandler])).bind
              (whileDue handlers fuel)
        | _ => some s'

/-- The pending interrupts whose time has come. -/
def due (s : Interrupt H) : List (PendingInterrupt H) :=
  (s.pending.map (·.item)).filter fun toOccur => toOccur.when ≤ s.totalTicks

/-- The keys of the pending list are the times of its interrupts. -/
def Keyed (pending : List (ListElement (PendingInterrupt H))) : Prop :=
  ∀ element ∈ pending, element.key = element.item.when

/-- What the calls of a handler leave as it was: the clock, what has been
delivered, and which interrupts are due. -/
structure Handled (s s' : Interrupt H) : Prop where
  control : s'.control = s.control
  handling : s'.inHandler = s.inHandler
  disabled : s.level = .intOff → s'.level = .intOff
  clock : s'.totalTicks = s.totalTicks
  delivered : s'.delivered = s.delivered
  sorted : Sorted s.pending → Sorted s'.pending
  keyed : Keyed s.pending → Keyed s'.pending
  due : s'.due = s.due

theorem Handled.refl (s : Interrupt H) : Handled s s :=
  ⟨rfl, rfl, id, rfl, rfl, id, id, rfl⟩

theorem Handled.trans {s s' s'' : Interrupt H} (first : Handled s s')
    (second : Handled s' s'') : Handled s s'' where
  control := second.control.trans first.control
  handling := second.handling.trans first.handling
  disabled := second.disabled ∘ first.disabled
  clock := second.clock.trans first.clock
  delivered := second.delivered.trans first.delivered
  sorted := second.sorted ∘ first.sorted
  keyed := second.keyed ∘ first.keyed
  due := second.due.trans first.due

theorem filter_insertElement {α : Type} {keep : α → Bool} {element : ListElement α}
    (dropped : keep element.item = false) (elements : List (ListElement α)) :
    ((insertElement element elements).map (·.item)).filter keep =
      (elements.map (·.item)).filter keep := by
  induction elements with
  | nil => simp [insertElement, dropped]
  | cons ptr rest inductionHypothesis =>
      rw [insertElement]
      split
      · simp [dropped]
      · simp only [List.map_cons, List.filter_cons, inductionHypothesis]

theorem schedule_handled {s : Interrupt H} {handler : H} {arg fromNow : Int}
    {type : IntType} (future : 0 < fromNow) :
    ∃ s', s.schedule handler arg fromNow type = some s' ∧ Handled s s' := by
  simp only [schedule, if_pos future]
  refine ⟨_, rfl, rfl, rfl, id, rfl, rfl, fun sorted => sorted.sortedInsert _ _, ?_, ?_⟩
  · intro keyed element member
    rcases mem_sortedInsert.mp member with rfl | old
    · rfl
    · exact keyed element old
  · apply filter_insertElement
    simp only [decide_eq_false_iff_not]
    omega

/-- A call that a handler may make does not fail. -/
theorem handler_step {s : Interrupt H} {call : InterruptCall H}
    {toOccur : PendingInterrupt H} {old : MachineStatus} {loop : Loop}
    (inside : s.control = .inHandler toOccur old loop) (handling : s.inHandler = true)
    (may : MayCall call) : ∃ s', s.step call = some s' ∧ Handled s s' := by
  cases call with
  | schedule handler arg fromNow type =>
      simp only [step, inside]
      exact schedule_handled may
  | setLevel now =>
      obtain rfl : now = .intOff := may
      refine ⟨{ s with level := .intOff }, ?_, rfl, rfl, fun _ => rfl, rfl, rfl, id, id, rfl⟩
      simp [step, inside, setLevel]
  | yieldOnReturn =>
      refine ⟨{ s with yieldOnReturn := true }, ?_, rfl, rfl, id, rfl, rfl, id, id, rfl⟩
      simp [step, handling]
  | oneTick | idle | checkIfDue | endHandler | endYield _ | setStatus _ => cases may

/-- A handler returns. -/
theorem handler_run {s : Interrupt H} {calls : List (InterruptCall H)}
    {toOccur : PendingInterrupt H} {old : MachineStatus} {loop : Loop}
    (inside : s.control = .inHandler toOccur old loop) (handling : s.inHandler = true)
    (polite : ∀ call ∈ calls, MayCall call) :
    ∃ s', (interruptMachine H).exec s calls = some s' ∧ Handled s s' := by
  induction calls generalizing s with
  | nil => exact ⟨s, rfl, .refl s⟩
  | cons call calls inductionHypothesis =>
      obtain ⟨next, step, handled⟩ := handler_step inside handling (polite call (.head _))
      obtain ⟨last, run, rest⟩ := inductionHypothesis (handled.control.trans inside)
        (handled.handling.trans handling) fun other member => polite other (.tail _ member)
      exact ⟨last, ((interruptMachine H).exec_cons_eq_some).mpr ⟨next, step, run⟩,
        handled.trans rest⟩

/-! ### The loop -/

/-- The machine comes to the head of a loop, interrupts being off. -/
structure AtLoopHead (loop : Loop) (s : Interrupt H) : Prop where
  control : s.control = .atLoop loop
  disabled : s.level = .intOff
  sorted : Sorted s.pending
  keyed : Keyed s.pending
  mode : s.status = .idleMode ↔ loop = .inIdle

/-- What a routine does after its loop. -/
def leave : Loop → Interrupt H → Interrupt H
  | .inOneTick old => endTick old
  | .inIdle => endIdle

theorem leave_spec (loop : Loop) (s : Interrupt H) :
    (leave loop s).control = .outside ∧ (leave loop s).pending = s.pending ∧
      (leave loop s).totalTicks = s.totalTicks ∧
      (leave loop s).delivered = s.delivered := by
  cases loop with
  | inIdle => exact ⟨rfl, rfl, rfl, rfl⟩
  | inOneTick old =>
      simp only [leave, endTick]
      split <;> exact ⟨rfl, rfl, rfl, rfl⟩

theorem AtLoopHead.step {loop : Loop} {s : Interrupt H} (atHead : s.AtLoopHead loop) :
    s.step .checkIfDue =
      some (afterCheck s.status loop (leave loop) (s.checkIfDue false)) := by
  cases loop with
  | inIdle => simp [Interrupt.step, atHead.control, atHead.disabled, leave]
  | inOneTick old => simp [Interrupt.step, atHead.control, atHead.disabled, leave]

/-- The first of the list is due, or nothing is. -/
theorem AtLoopHead.due_cons {loop : Loop} {s : Interrupt H} (atHead : s.AtLoopHead loop)
    {first : ListElement (PendingInterrupt H)}
    {rest : List (ListElement (PendingInterrupt H))}
    (contents : s.pending = first :: rest) :
    s.due = if s.totalTicks < first.key then []
      else first.item :: due { s with pending := rest } := by
  have sorted := atHead.sorted
  have keyed := atHead.keyed
  rw [contents] at sorted keyed
  have time := keyed first (.head _)
  simp only [due, contents]
  split
  · rename_i future
    rw [List.filter_eq_nil_iff]
    intro toOccur member
    obtain ⟨element, waiting, rfl⟩ := List.mem_map.mp member
    have later := sorted.first_le waiting
    rw [keyed element waiting] at later
    simp only [decide_eq_true_eq]
    omega
  · rw [List.map_cons, List.filter_cons_of_pos]
    simp only [decide_eq_true_eq]
    omega

/-- The handler of an interrupt has returned to the head of the loop. -/
structure RoundDone (loop : Loop) (toOccur : PendingInterrupt H) (s s' : Interrupt H) :
    Prop where
  atHead : s'.AtLoopHead loop
  clock : s'.totalTicks = s.totalTicks
  delivered : s'.delivered = (toOccur, s.totalTicks) :: s.delivered
  due : s.due = toOccur :: s'.due

/-- The loop has been left after it has fired some interrupts. -/
structure LoopLeft (loop : Loop) (fired : List (PendingInterrupt H))
    (s s' : Interrupt H) : Prop where
  left : s'.control = .outside
  clock : s'.totalTicks = s.totalTicks
  delivered : s'.delivered =
    (fired.map fun toOccur => (toOccur, s.totalTicks)).reverse ++ s.delivered
  exactly : fired = s.due ∨ loop = .inIdle ∧ ∃ lone, lone.type = .timerInt ∧
    s.due = fired ++ [lone] ∧ s'.pending.map (·.item) = [lone]

theorem LoopLeft.round {loop : Loop} {toOccur : PendingInterrupt H}
    {fired : List (PendingInterrupt H)} {s next s' : Interrupt H}
    (round : RoundDone loop toOccur s next) (rest : LoopLeft loop fired next s') :
    LoopLeft loop (toOccur :: fired) s s' where
  left := rest.left
  clock := rest.clock.trans round.clock
  delivered := by
    rw [rest.delivered, round.delivered, round.clock]
    simp
  exactly := by
    rw [round.due]
    rcases rest.exactly with all | ⟨idle, lone, timer, butOne, waiting⟩
    · exact .inl (by rw [all])
    · exact .inr ⟨idle, lone, timer, by rw [butOne, List.cons_append], waiting⟩

variable {handlers : PendingInterrupt H → Interrupt H → List (InterruptCall H)}

/-- A round of the loop: the first interrupt is due, and its handler is called. -/
theorem AtLoopHead.round {loop : Loop} {s : Interrupt H} (atHead : s.AtLoopHead loop)
    (polite : ∀ toOccur s, ∀ call ∈ handlers toOccur s, MayCall call)
    {first : ListElement (PendingInterrupt H)}
    {rest : List (ListElement (PendingInterrupt H))}
    (contents : s.pending = first :: rest) (past : ¬ s.totalTicks < first.key)
    (works : ¬ (s.status = .idleMode ∧ first.item.type = .timerInt ∧ rest = [])) :
    ∃ next, RoundDone loop first.item s next ∧
      ∀ fuel, whileDue handlers (fuel + 1) s = whileDue handlers fuel next := by
  let called : Interrupt H :=
    { s with
      pending := rest
      inHandler := true
      status := .systemMode
      delivered := (first.item, s.totalTicks) :: s.delivered
      control := .inHandler first.item s.status loop }
  have fires : s.step .checkIfDue = some called := by
    rw [atHead.step]
    simp [checkIfDue, contents, sortedRemove, past, fireUnlessDone, works, afterCheck,
      called]
  obtain ⟨handled, run, keeps⟩ := handler_run (s := called) rfl rfl
    (polite first.item called)
  have inside : handled.control = .inHandler first.item s.status loop := keeps.control
  have returns : (interruptMachine H).exec called
      (handlers first.item called ++ [.endHandler]) =
        some (handled.endHandler s.status loop) := by
    refine ((interruptMachine H).exec_snoc_eq_some).mpr ⟨handled, run, ?_⟩
    simp [interruptMachine, Interrupt.step, inside]
  have sorted := atHead.sorted
  have keyed := atHead.keyed
  rw [contents] at sorted keyed
  refine ⟨handled.endHandler s.status loop, ⟨⟨rfl, ?_, ?_, ?_, atHead.mode⟩, ?_, ?_, ?_⟩, ?_⟩
  · exact keeps.disabled atHead.disabled
  · exact keeps.sorted sorted.tail
  · exact keeps.keyed fun element member => keyed element (.tail _ member)
  · exact keeps.clock
  · exact keeps.delivered
  · rw [atHead.due_cons contents, if_neg past]
    exact congrArg _ keeps.due.symm
  · intro fuel
    rw [whileDue, fires, Option.bind_some]
    show ((interruptMachine H).exec called
      (handlers first.item called ++ [.endHandler])).bind (whileDue handlers fuel) = _
    rw [returns, Option.bind_some]

/-- The loop ends when `CheckIfDue` returns FALSE. -/
theorem AtLoopHead.whileDue_leaves {loop : Loop} {s s' : Interrupt H}
    (atHead : s.AtLoopHead loop) (returns : s.checkIfDue false = .returnsFalse s')
    (fuel : Nat) : whileDue handlers (fuel + 1) s = some (leave loop s') := by
  have outside := (leave_spec loop s').1
  simp only [whileDue, atHead.step, returns, afterCheck, Option.bind_some, outside]

/-- When nothing is due, `CheckIfDue` returns FALSE. -/
theorem AtLoopHead.nothing_due {loop : Loop} {s : Interrupt H}
    (atHead : s.AtLoopHead loop) (none : s.due = []) :
    ∃ s', s.checkIfDue false = .returnsFalse s' ∧ s'.totalTicks = s.totalTicks ∧
      s'.delivered = s.delivered := by
  cases contents : s.pending with
  | nil => exact ⟨s, by simp [checkIfDue, contents, sortedRemove], rfl, rfl⟩
  | cons first rest =>
      have future : s.totalTicks < first.key := by
        by_contra past
        rw [atHead.due_cons contents, if_neg past] at none
        cases none
      refine ⟨{ s with pending := sortedInsert first.item first.key rest }, ?_, rfl, rfl⟩
      simp only [checkIfDue, contents, sortedRemove, Bool.false_eq_true, if_false,
        if_pos future]

/-- In `Idle` a timer interrupt that is alone is put back. -/
theorem checkIfDue_lone_timer {s : Interrupt H} {first : ListElement (PendingInterrupt H)}
    (alone : s.pending = [first]) (past : ¬ s.totalTicks < first.key)
    (idle : s.status = .idleMode) (timer : first.item.type = .timerInt) :
    s.checkIfDue false = .returnsFalse { s with pending := [first] } := by
  simp only [checkIfDue, alone, sortedRemove, Bool.false_eq_true, if_false, if_neg past,
    fireUnlessDone]
  rw [if_pos ⟨idle, timer, trivial⟩]
  rfl

/-- With fuel for every interrupt that is due the loop comes to its end. -/
theorem whileDue_ends (polite : ∀ toOccur s, ∀ call ∈ handlers toOccur s, MayCall call)
    {loop : Loop} {s : Interrupt H} (atHead : s.AtLoopHead loop) :
    ∃ s' fired, LoopLeft loop fired s s' ∧
      ∀ fuel, s.due.length < fuel → whileDue handlers fuel s = some s' := by
  generalize size : s.due.length = count
  induction count generalizing s with
  | zero =>
      have none : s.due = [] := List.eq_nil_of_length_eq_zero size
      obtain ⟨s', returns, clock, delivered⟩ := atHead.nothing_due none
      obtain ⟨left, pending, sameClock, sameDelivered⟩ := leave_spec loop s'
      refine ⟨leave loop s', [], ⟨left, sameClock.trans clock, ?_, .inl none.symm⟩, ?_⟩
      · exact sameDelivered.trans delivered
      · intro fuel enough
        obtain ⟨rest, rfl⟩ := Nat.exists_eq_add_one.mpr (Nat.zero_lt_of_lt enough)
        exact atHead.whileDue_leaves returns rest
  | succ count inductionHypothesis =>
      cases contents : s.pending with
      | nil => simp [Interrupt.due, contents] at size
      | cons first rest =>
          have past : ¬ s.totalTicks < first.key := by
            intro future
            rw [atHead.due_cons contents, if_pos future] at size
            cases size
          by_cases done : s.status = .idleMode ∧ first.item.type = .timerInt ∧ rest = []
          · obtain ⟨idle, timer, rfl⟩ := done
            have returns := checkIfDue_lone_timer contents past idle timer
            obtain ⟨left, pending, clock, delivered⟩ :=
              leave_spec loop { s with pending := [first] }
            have lone : s.due = [first.item] := by
              rw [atHead.due_cons contents, if_neg past]
              rfl
            refine ⟨leave loop { s with pending := [first] }, [],
              ⟨left, clock, delivered, .inr ?_⟩, ?_⟩
            · exact ⟨atHead.mode.mp idle, first.item, timer, lone, by rw [pending]; rfl⟩
            · intro fuel enough
              obtain ⟨rest, rfl⟩ := Nat.exists_eq_add_one.mpr (Nat.zero_lt_of_lt enough)
              exact atHead.whileDue_leaves returns rest
          · obtain ⟨next, round, unfolds⟩ := atHead.round polite contents past done
            have fewer : next.due.length = count := by
              rw [round.due, List.length_cons] at size
              omega
            obtain ⟨s', fired, left, ends⟩ := inductionHypothesis round.atHead fewer
            refine ⟨s', first.item :: fired, left.round round, ?_⟩
            intro fuel enough
            obtain ⟨rest, rfl⟩ := Nat.exists_eq_add_one.mpr (Nat.zero_lt_of_lt enough)
            rw [unfolds]
            exact ends rest (by omega)

/-! ### Interrupts are off in the loops -/

/-- In the loops and in handlers interrupts are off. -/
def RunsDisabled (s : Interrupt H) : Prop :=
  match s.control with
  | .atLoop _ | .inHandler _ _ _ => s.level = .intOff
  | _ => True

/-- A check calls a handler with interrupts off, or leaves its routine. -/
theorem afterCheck_disabled {s : Interrupt H} {advanceClock : Bool} {loop : Loop}
    {ended : Interrupt H → Interrupt H} (disabled : s.level = .intOff)
    (leaves : ∀ s', (ended s').control = .outside ∨ (ended s').control = .halted) :
    (afterCheck s.status loop ended (s.checkIfDue advanceClock)).RunsDisabled := by
  cases checked : s.checkIfDue advanceClock with
  | returnsFalse s' =>
      unfold RunsDisabled
      rcases leaves s' with outside | halted
      · simp only [afterCheck, outside]
      · simp only [afterCheck, halted]
  | calls toOccur s' =>
      cases checkIfDue_cases checked with
      | fires first rest contents works due => exact disabled

theorem RunsDisabled.step {s s' : Interrupt H} {call : InterruptCall H}
    (disabled : s.RunsDisabled) (moded : s.Moded) (step : s.step call = some s') :
    s'.RunsDisabled := by
  have ticks : s.oneTick.RunsDisabled := by
    simp [RunsDisabled]
  cases step_cases step with
  | schedule scheduled =>
      obtain ⟨toOccur, -, -, -, rfl⟩ := schedule_cases scheduled
      exact disabled
  | setLevel place set =>
      cases setLevel_cases set with
      | ticks enables free => exact ticks
      | sets keeps allowed =>
          unfold RunsDisabled
          rcases place with outside | ⟨toOccur, old, loop, inside⟩
          · simp only [outside]
          · simp only [inside]
            have handling := moded.handling toOccur old loop inside
            simpa [handling] using allowed
  | oneTick outside => exact ticks
  | idle outside => trivial
  | checkEntry off entry => exact afterCheck_disabled off fun _ => .inr rfl
  | checkIdle off atLoop => exact afterCheck_disabled off fun _ => .inl rfl
  | @checkTick off old atLoop =>
      exact afterCheck_disabled off fun s' => .inl (leave_spec (.inOneTick old) s').1
  | yieldOnReturn _ | endYield _ _ | setStatus _ _ => exact disabled
  | endHandler inside =>
      unfold RunsDisabled at disabled
      rw [inside] at disabled
      exact disabled

/-- Every run that comes to a loop comes to it with interrupts off. -/
theorem atLoopHead_of_run {s : Interrupt H} {calls : List (InterruptCall H)}
    {loop : Loop} (run : (interruptMachine H).exec construct calls = some s)
    (atLoop : s.control = .atLoop loop) : s.AtLoopHead loop := by
  obtain ⟨accounts, moded, disabled⟩ := Lib.Machine.invariant (M := interruptMachine H)
    (I := fun s => s.Accounts ∧ s.Moded ∧ s.RunsDisabled)
    (fun _ _ _ ⟨accounts, moded, disabled⟩ step =>
      ⟨accounts.step step, moded.step step, disabled.step moded step⟩)
    ⟨construct_accounts, construct_moded, trivial⟩ run
  have mode := moded.mode
  unfold RunsDisabled at disabled
  rw [atLoop] at mode disabled
  refine ⟨atLoop, disabled, accounts.sorted, accounts.keyed, ?_⟩
  cases loop with
  | inOneTick old => simpa using mode.1
  | inIdle => exact ⟨fun _ => rfl, fun _ => mode⟩

end Interrupt

open Interrupt

/-- Whatever the handlers do that schedule for the future only, and whatever is
pending: the loops of `OneTick` and `Idle` end, within a round for every interrupt
that is due and one check more, at the same time, after they have fired exactly
the interrupts that were due, each once and in their order; in `Idle` all but the
last, when that is a timer interrupt which is alone in the end.  Every run comes
to its loops as is assumed here. -/
theorem loops_fire_what_is_due {H : Type} :
    (∀ (handlers : PendingInterrupt H → Interrupt H → List (InterruptCall H))
      (loop : Loop) (s : Interrupt H),
      (∀ toOccur s, ∀ call ∈ handlers toOccur s, MayCall call) → s.AtLoopHead loop →
      ∃ s' fired, LoopLeft loop fired s s' ∧
        ∀ fuel, s.due.length < fuel → whileDue handlers fuel s = some s') ∧
      ∀ (s : Interrupt H) (calls : List (InterruptCall H)) (loop : Loop),
        (interruptMachine H).exec construct calls = some s →
        s.control = .atLoop loop → s.AtLoopHead loop := by
  constructor
  · intro handlers loop s polite atHead
    exact whileDue_ends polite atHead
  · intro s calls loop run atLoop
    exact atLoopHead_of_run run atLoop

/-- The handler of the timer schedules it again; the others do nothing. -/
def timerHandlers (toOccur : PendingInterrupt Unit) (_ : Interrupt Unit) :
    List (InterruptCall Unit) :=
  if toOccur.type = .timerInt then timerExpired () toOccur.arg true 250 [.yieldOnReturn]
  else []

/-- A timer and a disk interrupt are due when a user instruction has been
executed. -/
def dueCalls : List (InterruptCall Unit) :=
  [.schedule () 0 1 .timerInt, .schedule () 1 1 .diskInt, .schedule () 1 90 .diskInt,
    .setStatus .userMode, .oneTick]

theorem timer_and_disk_are_fired :
    ∃ s s' fired, (interruptMachine Unit).exec construct dueCalls = some s ∧
      s.due.length = 2 ∧ LoopLeft (.inOneTick .userMode) fired s s' ∧
      whileDue timerHandlers 3 s = some s' := by
  obtain ⟨s, run, atLoop, two⟩ : ∃ s,
      (interruptMachine Unit).exec construct dueCalls = some s ∧
        s.control = .atLoop (.inOneTick .userMode) ∧ s.due.length = 2 :=
    ⟨_, rfl, rfl, rfl⟩
  have polite : ∀ toOccur s, ∀ call ∈ timerHandlers toOccur s, MayCall call := by
    intro toOccur s
    unfold timerHandlers
    split
    · exact timerExpired_mayCall () toOccur.arg true (by decide) (by simp [MayCall])
    · simp
  obtain ⟨ends, comes⟩ := loops_fire_what_is_due (H := Unit)
  obtain ⟨s', fired, left, returns⟩ := ends timerHandlers _ s polite
    (comes s dueCalls _ run atLoop)
  exact ⟨s, s', fired, run, two, left, returns 3 (by omega)⟩

end Nachos
