/-
Module: Nachos.Machine.Interrupt
Purpose: The interrupt simulation of interrupt.cc.  The routines are cut at
  the points where handlers are called and return, so that a handler can be any
  sequence of calls: between the cuts the machine is inside `OneTick`, `Idle`
  or a handler, which is recorded as its control state.
Trusted boundary: the 64-bit clock does not overflow.
Main exports: PendingInterrupt, Control, Interrupt, Interrupt.schedule,
  Interrupt.setLevel, Interrupt.oneTick, Interrupt.idle,
  Interrupt.checkIfDue, InterruptCall, Interrupt.Step, Interrupt.CheckCase,
  interruptMachine
-/
import Nachos.Threads.Kernel
import Nachos.Threads.SortedList

namespace Nachos

/-! ### Data model -/

/-- `enum MachineStatus` of interrupt.h. -/
inductive MachineStatus where
  | idleMode
  | systemMode
  | userMode
deriving DecidableEq, Repr

/-- `enum IntType` of interrupt.h. -/
inductive IntType where
  | timerInt
  | diskInt
  | consoleWriteInt
  | consoleReadInt
  | networkSendInt
  | networkRecvInt
deriving DecidableEq, Repr

/-- `class PendingInterrupt`, for handlers of type `H`.  `serial` stands for
the address of the object: every `new` gets another one. -/
structure PendingInterrupt (H : Type) where
  handler : H
  arg : Int
  when : Int
  type : IntType
  serial : Nat
deriving DecidableEq, Repr

/-- The loops that call `CheckIfDue`; `OneTick` keeps the status it was called
in as `old`. -/
inductive Loop where
  | inOneTick (old : MachineStatus)
  | inIdle
deriving DecidableEq, Repr

/-- Where the machine is in interrupt.cc. -/
inductive Control (H : Type) where
  /-- in no routine of interrupt.cc -/
  | outside
  /-- in `Idle`, at `CheckIfDue(TRUE)` -/
  | idleEntry
  /-- at the head of `while (CheckIfDue(FALSE))` -/
  | atLoop (loop : Loop)
  /-- in the handler that `CheckIfDue` has called, `old` being the status that
  it will restore, on the way to the head of the loop -/
  | inHandler (toOccur : PendingInterrupt H) (old : MachineStatus) (loop : Loop)
  /-- in `Halt` -/
  | halted
deriving DecidableEq, Repr

/-- `class Interrupt`, with the clock of `class Statistics`. -/
structure Interrupt (H : Type) where
  level : IntStatus
  pending : List (ListElement (PendingInterrupt H))
  inHandler : Bool
  yieldOnReturn : Bool
  status : MachineStatus
  totalTicks : Int
  idleTicks : Int
  systemTicks : Int
  userTicks : Int
  control : Control H
  /-- the `old` of every `OneTick` that is in its `Yield` -/
  yielding : List MachineStatus
  /-- every interrupt scheduled so far, newest first; no routine reads it -/
  scheduled : List (PendingInterrupt H)
  /-- every interrupt whose handler was called, with the time of the call,
  newest first; no routine reads it -/
  delivered : List (PendingInterrupt H × Int)

/-- `SystemTick` and `UserTick` of stats.h. -/
def systemTick : Int := 10

def userTick : Int := 1

namespace Interrupt

variable {H : Type}

/-- `Interrupt::Interrupt`, the clock standing at 0. -/
def construct : Interrupt H where
  level := .intOff
  pending := []
  inHandler := false
  yieldOnReturn := false
  status := .systemMode
  totalTicks := 0
  idleTicks := 0
  systemTicks := 0
  userTicks := 0
  control := .outside
  yielding := []
  scheduled := []
  delivered := []

/-! ### Routines -/

/-- `Interrupt::Schedule`; `none` when its assertion fails. -/
def schedule (handler : H) (arg fromNow : Int) (type : IntType)
    (s : Interrupt H) : Option (Interrupt H) :=
  let toOccur : PendingInterrupt H :=
    { handler, arg, when := s.totalTicks + fromNow, type,
      serial := s.scheduled.length }
  if 0 < fromNow then
    some { s with
      pending := sortedInsert toOccur toOccur.when s.pending
      scheduled := toOccur :: s.scheduled }
  else none

/-- `Interrupt::OneTick` up to the head of its while loop. -/
def oneTick (s : Interrupt H) : Interrupt H :=
  let ticked :=
    if s.status = .systemMode then
      { s with
        totalTicks := s.totalTicks + systemTick
        systemTicks := s.systemTicks + systemTick }
    else
      { s with
        totalTicks := s.totalTicks + userTick
        userTicks := s.userTicks + userTick }
  { ticked with level := .intOff, control := .atLoop (.inOneTick s.status) }

/-- `Interrupt::OneTick` after its while loop, up to the `Yield`. -/
def endTick (old : MachineStatus) (s : Interrupt H) : Interrupt H :=
  let enabled := { s with level := .intOn, control := .outside }
  if s.yieldOnReturn then
    { enabled with
      yieldOnReturn := false
      status := .systemMode
      yielding := old :: s.yielding }
  else enabled

/-- `Interrupt::SetLevel`; `none` when its assertion fails. -/
def setLevel (now : IntStatus) (s : Interrupt H) : Option (Interrupt H) :=
  if now = .intOff ∨ s.inHandler = false then
    if now = .intOn ∧ s.level = .intOff then
      some (oneTick { s with level := now })
    else
      some { s with level := now }
  else none

/-- `Interrupt::Idle` up to `CheckIfDue(TRUE)`. -/
def idle (s : Interrupt H) : Interrupt H :=
  { s with status := .idleMode, control := .idleEntry }

/-- `Interrupt::Idle` after its while loop. -/
def endIdle (s : Interrupt H) : Interrupt H :=
  { s with yieldOnReturn := false, status := .systemMode, control := .outside }

/-- How `CheckIfDue` goes on: it returns FALSE, or calls a handler. -/
inductive Check (H : Type) where
  | returnsFalse (s : Interrupt H)
  | calls (toOccur : PendingInterrupt H) (s : Interrupt H)

/-- The clock in `CheckIfDue(TRUE)`. -/
def advanceTo (when : Int) (s : Interrupt H) : Interrupt H :=
  if s.totalTicks < when then
    { s with
      idleTicks := s.idleTicks + (when - s.totalTicks)
      totalTicks := when }
  else s

/-- `Interrupt::CheckIfDue` once the first interrupt is taken off the list and
its time has come. -/
def fireUnlessDone (toOccur : PendingInterrupt H) (when : Int)
    (s : Interrupt H) : Check H :=
  if s.status = .idleMode ∧ toOccur.type = .timerInt ∧ s.pending = [] then
    .returnsFalse { s with pending := sortedInsert toOccur when s.pending }
  else
    .calls toOccur { s with
      inHandler := true
      status := .systemMode
      delivered := (toOccur, s.totalTicks) :: s.delivered }

/-- `Interrupt::CheckIfDue` up to the call of a handler. -/
def checkIfDue (advanceClock : Bool) (s : Interrupt H) : Check H :=
  match sortedRemove s.pending with
  | none => .returnsFalse s
  | some (toOccur, when, rest) =>
      let taken := { s with pending := rest }
      if advanceClock then
        fireUnlessDone toOccur when (taken.advanceTo when)
      else if s.totalTicks < when then
        .returnsFalse { taken with pending := sortedInsert toOccur when rest }
      else
        fireUnlessDone toOccur when taken

/-- `Interrupt::CheckIfDue` after the handler has returned. -/
def endHandler (old : MachineStatus) (loop : Loop) (s : Interrupt H) :
    Interrupt H :=
  { s with status := old, inHandler := false, control := .atLoop loop }

end Interrupt

/-! ### Steps of the machine -/

/-- What can happen next. -/
inductive InterruptCall (H : Type) where
  /-- a device, or a handler, calls `Schedule` -/
  | schedule (handler : H) (arg fromNow : Int) (type : IntType)
  | setLevel (now : IntStatus)
  | oneTick
  | idle
  /-- the routine that is running calls `CheckIfDue` -/
  | checkIfDue
  /-- a handler calls `YieldOnReturn` -/
  | yieldOnReturn
  | endHandler
  /-- the `Yield` of a `OneTick` returns, and `status = old` -/
  | endYield (old : MachineStatus)
  /-- the machine simulation enters or leaves user mode -/
  | setStatus (st : MachineStatus)
deriving DecidableEq, Repr

namespace Interrupt

variable {H : Type}

/-- A call of `CheckIfDue` is over, or in a handler. -/
def afterCheck (old : MachineStatus) (loop : Loop)
    (ended : Interrupt H → Interrupt H) : Check H → Interrupt H
  | .returnsFalse s => ended s
  | .calls toOccur s => { s with control := .inHandler toOccur old loop }

/-- One step; `none` where the call is not possible or an assertion fails.
Handlers call `Schedule`, `YieldOnReturn` and `SetLevel`; they do not sleep. -/
def step (s : Interrupt H) : InterruptCall H → Option (Interrupt H)
  | .schedule handler arg fromNow type =>
      match s.control with
      | .outside | .inHandler _ _ _ => s.schedule handler arg fromNow type
      | _ => none
  | .setLevel now =>
      match s.control with
      | .outside | .inHandler _ _ _ => s.setLevel now
      | _ => none
  | .oneTick =>
      match s.control with
      | .outside => some s.oneTick
      | _ => none
  | .idle =>
      match s.control with
      | .outside => some s.idle
      | _ => none
  | .checkIfDue =>
      if s.level = .intOff then
        match s.control with
        | .idleEntry =>
            some (afterCheck s.status .inIdle
              (fun s' => { s' with control := .halted }) (s.checkIfDue true))
        | .atLoop .inIdle =>
            some (afterCheck s.status .inIdle endIdle (s.checkIfDue false))
        | .atLoop (.inOneTick old) =>
            some (afterCheck s.status (.inOneTick old) (endTick old)
              (s.checkIfDue false))
        | _ => none
      else none
  | .yieldOnReturn =>
      if s.inHandler then some { s with yieldOnReturn := true } else none
  | .endHandler =>
      match s.control with
      | .inHandler _ old loop => some (s.endHandler old loop)
      | _ => none
  | .endYield old =>
      match s.control with
      | .outside =>
          if old ∈ s.yielding then
            some { s with status := old, yielding := s.yielding.erase old }
          else none
      | _ => none
  | .setStatus st =>
      match s.control with
      | .outside =>
          if st ≠ .idleMode then some { s with status := st } else none
      | _ => none

/-- All that a step can do, and when. -/
inductive Step (s : Interrupt H) : InterruptCall H → Interrupt H → Prop where
  | schedule {handler : H} {arg fromNow : Int} {type : IntType} {s' : Interrupt H}
      (scheduled : s.schedule handler arg fromNow type = some s') :
      Step s (.schedule handler arg fromNow type) s'
  | setLevel {now : IntStatus} {s' : Interrupt H}
      (place : s.control = .outside ∨
        ∃ toOccur old loop, s.control = .inHandler toOccur old loop)
      (set : s.setLevel now = some s') : Step s (.setLevel now) s'
  | oneTick (outside : s.control = .outside) : Step s .oneTick s.oneTick
  | idle (outside : s.control = .outside) : Step s .idle s.idle
  | checkEntry (disabled : s.level = .intOff) (entry : s.control = .idleEntry) :
      Step s .checkIfDue (afterCheck s.status .inIdle
        (fun s' => { s' with control := .halted }) (s.checkIfDue true))
  | checkIdle (disabled : s.level = .intOff) (atLoop : s.control = .atLoop .inIdle) :
      Step s .checkIfDue (afterCheck s.status .inIdle endIdle (s.checkIfDue false))
  | checkTick (disabled : s.level = .intOff) {old : MachineStatus}
      (atLoop : s.control = .atLoop (.inOneTick old)) :
      Step s .checkIfDue
        (afterCheck s.status (.inOneTick old) (endTick old) (s.checkIfDue false))
  | yieldOnReturn (handling : s.inHandler = true) :
      Step s .yieldOnReturn { s with yieldOnReturn := true }
  | endHandler {toOccur : PendingInterrupt H} {old : MachineStatus} {loop : Loop}
      (inside : s.control = .inHandler toOccur old loop) :
      Step s .endHandler (s.endHandler old loop)
  | endYield {old : MachineStatus} (outside : s.control = .outside)
      (member : old ∈ s.yielding) :
      Step s (.endYield old) { s with status := old, yielding := s.yielding.erase old }
  | setStatus {st : MachineStatus} (outside : s.control = .outside)
      (busy : st ≠ .idleMode) : Step s (.setStatus st) { s with status := st }

theorem step_cases {s s' : Interrupt H} {call : InterruptCall H}
    (performed : s.step call = some s') : Step s call s' := by
  cases call with
  | schedule handler arg fromNow type =>
      simp only [step] at performed
      split at performed
      · exact Step.schedule performed
      · exact Step.schedule performed
      · cases performed
  | setLevel now =>
      simp only [step] at performed
      split at performed
      · rename_i outside
        exact Step.setLevel (Or.inl outside) performed
      · rename_i inside
        exact Step.setLevel (Or.inr ⟨_, _, _, inside⟩) performed
      · cases performed
  | oneTick =>
      simp only [step] at performed
      split at performed
      · rename_i outside
        cases performed
        exact Step.oneTick outside
      · cases performed
  | idle =>
      simp only [step] at performed
      split at performed
      · rename_i outside
        cases performed
        exact Step.idle outside
      · cases performed
  | checkIfDue =>
      simp only [step] at performed
      split at performed
      · rename_i disabled
        split at performed
        · rename_i entry
          cases performed
          exact Step.checkEntry disabled entry
        · rename_i atLoop
          cases performed
          exact Step.checkIdle disabled atLoop
        · rename_i atLoop
          cases performed
          exact Step.checkTick disabled atLoop
        · cases performed
      · cases performed
  | yieldOnReturn =>
      simp only [step] at performed
      split at performed
      · rename_i handling
        cases performed
        exact Step.yieldOnReturn handling
      · cases performed
  | endHandler =>
      simp only [step] at performed
      split at performed
      · rename_i inside
        cases performed
        exact Step.endHandler inside
      · cases performed
  | endYield old =>
      simp only [step] at performed
      split at performed
      · rename_i outside
        split at performed
        · rename_i member
          cases performed
          exact Step.endYield outside member
        · cases performed
      · cases performed
  | setStatus st =>
      simp only [step] at performed
      split at performed
      · rename_i outside
        split at performed
        · rename_i busy
          cases performed
          exact Step.setStatus outside busy
        · cases performed
      · cases performed

/-- `Schedule` puts a new interrupt into the list, for the future. -/
theorem schedule_cases {s s' : Interrupt H} {handler : H} {arg fromNow : Int}
    {type : IntType} (scheduled : s.schedule handler arg fromNow type = some s') :
    ∃ toOccur : PendingInterrupt H, toOccur.handler = handler ∧
      s.totalTicks < toOccur.when ∧ toOccur.serial = s.scheduled.length ∧
      s' = { s with
        pending := sortedInsert toOccur toOccur.when s.pending
        scheduled := toOccur :: s.scheduled } := by
  simp only [schedule] at scheduled
  split at scheduled
  · rename_i positive
    cases scheduled
    exact ⟨_, rfl, by simp only; omega, rfl, rfl⟩
  · cases scheduled

@[simp] theorem oneTick_pending (s : Interrupt H) : s.oneTick.pending = s.pending := by
  unfold oneTick
  split <;> rfl

@[simp] theorem oneTick_level (s : Interrupt H) : s.oneTick.level = .intOff := rfl

@[simp] theorem oneTick_control (s : Interrupt H) :
    s.oneTick.control = .atLoop (.inOneTick s.status) := by
  unfold oneTick
  split <;> rfl

/-- `OneTick` does not look at the level. -/
theorem oneTick_of_level (now : IntStatus) (s : Interrupt H) :
    ({ s with level := now } : Interrupt H).oneTick = s.oneTick := by
  unfold oneTick
  by_cases mode : s.status = .systemMode <;> simp [mode]

/-- All that `SetLevel` can do, and when: what enables interrupts runs `OneTick`. -/
inductive LevelCase (now : IntStatus) (s : Interrupt H) : Interrupt H → Prop where
  | ticks (enables : now = .intOn ∧ s.level = .intOff) (free : s.inHandler = false) :
      LevelCase now s s.oneTick
  | sets (keeps : ¬ (now = .intOn ∧ s.level = .intOff))
      (allowed : now = .intOff ∨ s.inHandler = false) : LevelCase now s { s with level := now }

theorem setLevel_cases {s s' : Interrupt H} {now : IntStatus}
    (set : s.setLevel now = some s') : LevelCase now s s' := by
  unfold setLevel at set
  split at set
  · rename_i allowed
    split at set
    · rename_i enables
      cases set
      rw [oneTick_of_level]
      exact LevelCase.ticks enables (by simpa [enables.1] using allowed)
    · rename_i keeps
      cases set
      exact LevelCase.sets keeps allowed
  · cases set

theorem setLevel_pending {s s' : Interrupt H} {now : IntStatus}
    (set : s.setLevel now = some s') : s'.pending = s.pending := by
  cases setLevel_cases set with
  | ticks enables free => exact oneTick_pending s
  | sets keeps allowed => rfl

/-- The time at which a check has taken off an interrupt that is due at `when`. -/
def timeOfCheck (advanceClock : Bool) (when : Int) (s : Interrupt H) : Int :=
  if advanceClock then max s.totalTicks when else s.totalTicks

theorem le_timeOfCheck (advanceClock : Bool) (when : Int) (s : Interrupt H) :
    s.totalTicks ≤ s.timeOfCheck advanceClock when := by
  unfold timeOfCheck
  split <;> omega

/-- The first interrupt is taken off the list, and the clock put forward to its time
in a check that does so. -/
def takeFirst (advanceClock : Bool) (when : Int)
    (rest : List (ListElement (PendingInterrupt H))) (s : Interrupt H) : Interrupt H :=
  { s with
    pending := rest
    idleTicks := s.idleTicks + (s.timeOfCheck advanceClock when - s.totalTicks)
    totalTicks := s.timeOfCheck advanceClock when }

/-- All that a check can do, and when. -/
inductive CheckCase (advanceClock : Bool) (s : Interrupt H) : Check H → Prop where
  | empty (contents : s.pending = []) : CheckCase advanceClock s (.returnsFalse s)
  | waits (first : ListElement (PendingInterrupt H))
      (rest : List (ListElement (PendingInterrupt H))) (contents : s.pending = first :: rest)
      (stands : advanceClock = false) (future : s.totalTicks < first.key) :
      CheckCase advanceClock s
        (.returnsFalse { s with pending := sortedInsert first.item first.key rest })
  | lone (first : ListElement (PendingInterrupt H)) (contents : s.pending = [first])
      (idle : s.status = .idleMode) (timer : first.item.type = .timerInt)
      (due : first.key ≤ s.timeOfCheck advanceClock first.key) :
      CheckCase advanceClock s (.returnsFalse (s.takeFirst advanceClock first.key [first]))
  | fires (first : ListElement (PendingInterrupt H))
      (rest : List (ListElement (PendingInterrupt H))) (contents : s.pending = first :: rest)
      (works : ¬ (s.status = .idleMode ∧ first.item.type = .timerInt ∧ rest = []))
      (due : first.key ≤ s.timeOfCheck advanceClock first.key) :
      CheckCase advanceClock s
        (.calls first.item { s.takeFirst advanceClock first.key rest with
          inHandler := true
          status := .systemMode
          delivered := (first.item, s.timeOfCheck advanceClock first.key) :: s.delivered })

theorem fireUnlessDone_cases {advanceClock : Bool} {s : Interrupt H}
    {first : ListElement (PendingInterrupt H)}
    {rest : List (ListElement (PendingInterrupt H))} (contents : s.pending = first :: rest)
    (due : first.key ≤ s.timeOfCheck advanceClock first.key) :
    CheckCase advanceClock s
      (fireUnlessDone first.item first.key (s.takeFirst advanceClock first.key rest)) := by
  unfold fireUnlessDone
  split
  · rename_i done
    obtain ⟨idle, timer, alone⟩ := done
    obtain rfl : rest = [] := alone
    exact CheckCase.lone first contents idle timer due
  · rename_i works
    exact CheckCase.fires first rest contents works due

theorem checkIfDue_cases {advanceClock : Bool} {s : Interrupt H} {check : Check H}
    (checked : s.checkIfDue advanceClock = check) : CheckCase advanceClock s check := by
  rw [← checked]
  unfold checkIfDue
  cases contents : s.pending with
  | nil => exact CheckCase.empty contents
  | cons first rest =>
      simp only [sortedRemove]
      split
      · rename_i advances
        have taken : advanceTo first.key { s with pending := rest } =
            s.takeFirst advanceClock first.key rest := by
          simp only [advanceTo, takeFirst, timeOfCheck, advances, if_true]
          split
          · rw [Int.max_eq_right (by omega)]
          · rw [Int.max_eq_left (by omega)]
            simp
        rw [taken]
        apply fireUnlessDone_cases contents
        simp only [timeOfCheck, advances, if_true]
        omega
      · rename_i stands
        split
        · rename_i future
          exact CheckCase.waits first rest contents (by simpa using stands) future
        · rename_i past
          have taken : { s with pending := rest } = s.takeFirst advanceClock first.key rest := by
            simp [takeFirst, timeOfCheck, stands]
          rw [taken]
          apply fireUnlessDone_cases contents
          rw [timeOfCheck, if_neg stands]
          exact Int.not_lt.mp past

end Interrupt

/-- The interrupt simulation as a machine. -/
def interruptMachine (H : Type) :
    Lib.Machine (Interrupt H) (InterruptCall H) where
  step := Interrupt.step

end Nachos
