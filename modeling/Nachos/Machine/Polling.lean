/-
Module: Nachos.Machine.Polling
Purpose: The polls of the keyboard and of the socket, which schedule themselves
  anew.  Whatever else happens, each poll is pending exactly once and comes within
  the time of its device, so that `Idle` always finds an interrupt.
Trusted boundary: none
Main exports: Poll, Poll.handler, Poll.time, Poll.type, Devices.Polled,
  Devices.PollsGoOn, polls_go_on
-/
import Nachos.Machine.Clock
import Nachos.Machine.Completions

namespace Nachos

open Lib

/-! ### Polls -/

/-- The devices that are polled. -/
inductive Poll where
  | keyboard
  | socket
deriving DecidableEq, Repr

namespace Poll

/-- What the poll is scheduled with. -/
def handler {K : Type} : Poll → DeviceHandler K
  | .keyboard => .consoleReadPoll
  | .socket => .networkReadPoll

def time : Poll → Int
  | .keyboard => consoleTime
  | .socket => networkTime

def type : Poll → IntType
  | .keyboard => .consoleReadInt
  | .socket => .networkRecvInt

/-- The poll that an interrupt is, if any. -/
def ofHandler {K : Type} : DeviceHandler K → Option Poll
  | .consoleReadPoll => some .keyboard
  | .networkReadPoll => some .socket
  | _ => none

theorem type_ne_timer (poll : Poll) : poll.type ≠ .timerInt := by
  cases poll with
  | keyboard => decide
  | socket => decide

end Poll

/-- The interrupts in a list that are this poll. -/
def pendingPolls {K : Type} (poll : Poll)
    (pending : List (ListElement (PendingInterrupt (DeviceHandler K)))) :
    List (ListElement (PendingInterrupt (DeviceHandler K))) :=
  pending.filter fun element => Poll.ofHandler element.item.handler = some poll

/-- The poll is pending exactly once, and not later than `time` from now. -/
def Devices.Polled {K : Type} (poll : Poll) (s : Devices K) : Prop :=
  ∃ element, pendingPolls poll s.interrupt.pending = [element] ∧
    element.item.type = poll.type ∧ element.item.when ≤ s.interrupt.totalTicks + poll.time

/-- Both polls go on, and `Idle` has found an interrupt whenever it was called. -/
structure Devices.PollsGoOn {K : Type} (s : Devices K) : Prop where
  polled : ∀ poll, s.Polled poll
  idles : s.interrupt.control ≠ .halted

/-! ### What the interrupt simulation does -/

namespace Interrupt

variable {H : Type} {s s' : Interrupt H}

/-- What `Schedule` puts into the list. -/
theorem schedule_item {handler : H} {arg fromNow : Int} {type : IntType}
    (scheduled : s.schedule handler arg fromNow type = some s') :
    ∃ toOccur : PendingInterrupt H, toOccur.handler = handler ∧ toOccur.type = type ∧
      toOccur.when = s.totalTicks + fromNow ∧
      s'.pending.Perm (⟨toOccur, toOccur.when⟩ :: s.pending) ∧
      s'.totalTicks = s.totalTicks ∧ s'.control = s.control := by
  unfold schedule at scheduled
  dsimp only at scheduled
  split at scheduled
  · cases scheduled
    exact ⟨_, rfl, rfl, rfl, sortedInsert_perm _ _ _, rfl, rfl⟩
  · cases scheduled

theorem step_schedule_item {handler : H} {arg fromNow : Int} {type : IntType}
    (step : s.step (.schedule handler arg fromNow type) = some s') :
    ∃ toOccur : PendingInterrupt H, toOccur.handler = handler ∧ toOccur.type = type ∧
      toOccur.when = s.totalTicks + fromNow ∧
      s'.pending.Perm (⟨toOccur, toOccur.when⟩ :: s.pending) ∧
      s'.totalTicks = s.totalTicks ∧ s'.control = s.control := by
  cases step_cases step with
  | schedule scheduled => exact schedule_item scheduled

/-- A check that ends in no handler, in `Idle`, has found no interrupt but that of
the timer. -/
theorem afterCheck_halted {advanceClock : Bool} {old : MachineStatus} {loop : Loop}
    {ended : Interrupt H → Interrupt H}
    (halted : (afterCheck old loop ended (s.checkIfDue advanceClock)).control = .halted)
    (advances : advanceClock = true) :
    s.pending = [] ∨ ∃ first, s.pending = [first] ∧ first.item.type = .timerInt := by
  generalize checked : s.checkIfDue advanceClock = check at halted
  cases checkIfDue_cases checked with
  | empty contents => exact .inl contents
  | waits first rest contents stands future =>
      rw [advances] at stands
      cases stands
  | lone first contents idle timer due => exact .inr ⟨first, contents, timer⟩
  | fires first rest contents works due => cases halted

/-- The simulation halts only in `Idle`, and only without an interrupt to wait for. -/
theorem step_halted {call : InterruptCall H} (step : s.step call = some s')
    (before : s.control ≠ .halted) (halted : s'.control = .halted) :
    s.pending = [] ∨ ∃ first, s.pending = [first] ∧ first.item.type = .timerInt := by
  have calm {loop : Loop} {old : MachineStatus} {ended : Interrupt H → Interrupt H}
      (outside : ∀ t, (ended t).control = .outside) :
      (afterCheck old loop ended (s.checkIfDue false)).control ≠ .halted := by
    cases s.checkIfDue false with
    | returnsFalse t => simp [afterCheck, outside]
    | calls toOccur t => simp [afterCheck]
  cases step_cases step with
  | schedule scheduled =>
      obtain ⟨_, -, -, -, -, -, control⟩ := schedule_item scheduled
      exact absurd (control.symm.trans halted) before
  | setLevel place set =>
      cases setLevel_cases set with
      | ticks enables free => simp at halted
      | sets keeps allowed => exact absurd halted before
  | oneTick outside => simp at halted
  | idle outside => cases halted
  | checkEntry disabled entry => exact afterCheck_halted halted rfl
  | checkIdle disabled atLoop => exact absurd halted (calm fun t => rfl)
  | checkTick disabled atLoop =>
      refine absurd halted (calm fun t => ?_)
      unfold endTick
      split
      · rfl
      · rfl
  | yieldOnReturn handling => exact absurd halted before
  | endHandler inside => cases halted
  | endYield outside member => exact absurd halted before
  | setStatus outside busy => exact absurd halted before

end Interrupt

namespace Devices

variable {K : Type} {s s' : Devices K}

/-! ### What a device schedules -/

/-- A step schedules one interrupt, `fromNow` ticks from now, and makes no check. -/
structure Schedules (handler : DeviceHandler K) (fromNow : Int) (type : IntType)
    (interrupt interrupt' : Interrupt (DeviceHandler K)) : Prop where
  item : ∃ toOccur : PendingInterrupt (DeviceHandler K), toOccur.handler = handler ∧
    toOccur.type = type ∧ toOccur.when = interrupt.totalTicks + fromNow ∧
    interrupt'.pending.Perm (⟨toOccur, toOccur.when⟩ :: interrupt.pending)
  clock : interrupt'.totalTicks = interrupt.totalTicks
  control : interrupt'.control = interrupt.control

theorem schedules_of_schedule {handler : DeviceHandler K} {this fromNow : Int} {type : IntType}
    (scheduled : s.schedule handler this fromNow type = some s') :
    Schedules handler fromNow type s.interrupt s'.interrupt := by
  obtain ⟨interrupt, step, rfl⟩ := Option.map_eq_some_iff.mp scheduled
  obtain ⟨toOccur, isHandler, isType, at_, perm, clock, control⟩ :=
    Interrupt.step_schedule_item step
  exact ⟨⟨toOccur, isHandler, isType, at_, perm⟩, clock, control⟩

/-- The routine of a device schedules its poll anew, or nothing. -/
theorem handle_schedules {handler : DeviceHandler K} {this : Int} {typed : Option Int}
    {packet : Option Memory} (run : s.handle this typed packet handler = some s') :
    (∃ poll, Poll.ofHandler handler = some poll ∧
        Schedules handler poll.time poll.type s.interrupt s'.interrupt) ∨
      (Poll.ofHandler handler = none ∧ s'.interrupt = s.interrupt) := by
  cases handler with
  | diskDone | consoleWriteDone | networkSendDone | other handler =>
      cases run
      exact .inr ⟨rfl, rfl⟩
  | consoleReadPoll =>
      obtain ⟨polled, scheduled, rfl⟩ := Option.map_eq_some_iff.mp run
      refine .inl ⟨.keyboard, rfl, ?_⟩
      have schedules := schedules_of_schedule scheduled
      split
      · exact schedules
      · split
        · exact schedules
        · exact schedules
  | networkReadPoll =>
      obtain ⟨polled, scheduled, read⟩ := Option.bind_eq_some_iff.mp run
      obtain ⟨result, -, rfl⟩ := Option.map_eq_some_iff.mp read
      have schedules := schedules_of_schedule scheduled
      exact .inl ⟨.socket, rfl, schedules.item, schedules.clock, schedules.control⟩

/-- A request schedules a completion, or nothing. -/
theorem request_schedules {call : DeviceCall K}
    (noStep : ∀ c typed packet, call ≠ .interrupt c typed packet)
    (step : s.step call = some s') :
    s'.interrupt = s.interrupt ∨ ∃ handler fromNow type, Poll.ofHandler handler = none ∧
      Schedules handler fromNow type s.interrupt s'.interrupt := by
  cases call with
  | readRequest this sectorNumber data =>
      obtain ⟨⟨_, after⟩, requested, rfl⟩ := Option.map_eq_some_iff.mp step
      unfold readRequest at requested
      dsimp only at requested
      split at requested
      · obtain ⟨_, scheduled, same⟩ := Option.map_eq_some_iff.mp requested
        cases same
        have schedules := schedules_of_schedule scheduled
        exact .inr ⟨_, _, _, rfl, schedules⟩
      · cases requested
  | writeRequest this sectorNumber data =>
      simp only [Devices.step, writeRequest] at step
      split at step
      · have schedules := schedules_of_schedule step
        exact .inr ⟨_, _, _, rfl, schedules⟩
      · cases step
  | putChar this ch =>
      simp only [Devices.step, putChar] at step
      split at step
      · have schedules := schedules_of_schedule step
        exact .inr ⟨_, _, _, rfl, schedules⟩
      · cases step
  | send this hdr data heap =>
      obtain ⟨⟨_, after⟩, sent, rfl⟩ := Option.map_eq_some_iff.mp step
      obtain ⟨result, -, rest⟩ := Option.bind_eq_some_iff.mp sent
      obtain ⟨_, scheduled, same⟩ := Option.map_eq_some_iff.mp rest
      cases same
      have schedules := schedules_of_schedule scheduled
      exact .inr ⟨_, _, _, rfl, schedules⟩
  | getChar | receive data =>
      cases step
      exact .inl rfl
  | interrupt c typed packet => exact absurd rfl (noStep c typed packet)

/-! ### The polls go on -/

theorem pendingPolls_cons (poll : Poll)
    (element : ListElement (PendingInterrupt (DeviceHandler K)))
    (pending : List (ListElement (PendingInterrupt (DeviceHandler K)))) :
    pendingPolls poll (element :: pending) =
      if Poll.ofHandler element.item.handler = some poll then
        element :: pendingPolls poll pending
      else pendingPolls poll pending := by
  simp [pendingPolls, List.filter_cons]

theorem pendingPolls_perm {poll : Poll}
    {pending pending' : List (ListElement (PendingInterrupt (DeviceHandler K)))}
    (same : pending'.Perm pending) :
    (pendingPolls poll pending').Perm (pendingPolls poll pending) :=
  same.filter _

/-- The polls that are pending are the same, and it is not earlier. -/
theorem Polled.later {poll : Poll} (polled : s.Polled poll)
    (same : (pendingPolls poll s'.interrupt.pending).Perm (pendingPolls poll s.interrupt.pending))
    (clock : s.interrupt.totalTicks ≤ s'.interrupt.totalTicks) : s'.Polled poll := by
  obtain ⟨element, only, type, soon⟩ := polled
  rw [only] at same
  exact ⟨element, List.perm_singleton.mp same, type, by omega⟩

/-- Another interrupt is scheduled. -/
theorem Polled.schedules {poll : Poll} {handler : DeviceHandler K} {fromNow : Int}
    {type : IntType} (polled : s.Polled poll) (other : Poll.ofHandler handler ≠ some poll)
    (schedules : Schedules handler fromNow type s.interrupt s'.interrupt) : s'.Polled poll := by
  obtain ⟨toOccur, isHandler, -, -, perm⟩ := schedules.item
  have same : (pendingPolls poll s'.interrupt.pending).Perm _ := pendingPolls_perm perm
  rw [pendingPolls_cons, isHandler, if_neg other] at same
  exact polled.later same (Int.le_of_eq schedules.clock.symm)

/-- The poll is scheduled while it is not pending. -/
theorem polled_of_schedules {poll : Poll} {handler : DeviceHandler K}
    (absent : pendingPolls poll s.interrupt.pending = [])
    (isPoll : Poll.ofHandler handler = some poll)
    (schedules : Schedules handler poll.time poll.type s.interrupt s'.interrupt) :
    s'.Polled poll := by
  obtain ⟨toOccur, isHandler, isType, at_, perm⟩ := schedules.item
  have same : (pendingPolls poll s'.interrupt.pending).Perm _ := pendingPolls_perm perm
  rw [pendingPolls_cons, isHandler, if_pos isPoll, absent] at same
  exact ⟨_, List.perm_singleton.mp same, isType, Int.le_of_eq (by rw [at_, schedules.clock])⟩

/-- The handler of the first interrupt has been called. -/
theorem Polled.handled {poll : Poll} {interrupt : Interrupt (DeviceHandler K)}
    {element : ListElement (PendingInterrupt (DeviceHandler K))} {typed : Option Int}
    {packet : Option Memory} (polled : s.Polled poll)
    (taken : s.interrupt.pending = element :: interrupt.pending)
    (clock : s.interrupt.totalTicks ≤ interrupt.totalTicks)
    (run : ({ s with interrupt := interrupt } : Devices K).handle element.item.arg typed packet
      element.item.handler = some s') :
    s'.Polled poll := by
  have before := polled
  obtain ⟨first, only, type, soon⟩ := before
  rw [taken, pendingPolls_cons] at only
  by_cases mine : Poll.ofHandler element.item.handler = some poll
  · rw [if_pos mine, List.cons.injEq] at only
    rcases handle_schedules run with ⟨again, isPoll, schedules⟩ | ⟨none, -⟩
    · obtain rfl : again = poll := Option.some.inj (isPoll.symm.trans mine)
      exact polled_of_schedules (s := { s with interrupt := interrupt }) only.2 isPoll schedules
    · rw [none] at mine
      cases mine
  · rw [if_neg mine] at only
    have still : Polled poll { s with interrupt := interrupt } :=
      ⟨first, only, type, by dsimp only; omega⟩
    rcases handle_schedules run with ⟨other, isPoll, schedules⟩ | ⟨-, same⟩
    · exact still.schedules mine schedules
    · exact still.later (List.Perm.of_eq (by rw [same])) (Int.le_of_eq (by rw [same]))

/-- No handler but those of the devices polls. -/
theorem Polled.request {poll : Poll} {call : DeviceCall K} (polled : s.Polled poll)
    (noStep : ∀ c typed packet, call ≠ .interrupt c typed packet)
    (step : s.step call = some s') : s'.Polled poll := by
  rcases request_schedules noStep step with same | ⟨handler, fromNow, type, noPoll, schedules⟩
  · exact polled.later (List.Perm.of_eq (by rw [same])) (Int.le_of_eq (by rw [same]))
  · exact polled.schedules (by rw [noPoll]; nofun) schedules

/-- Where no handler has been called, no routine of a device begins. -/
theorem enter_calm {typed : Option Int} {packet : Option Memory}
    {control : Control (DeviceHandler K)}
    (calm : ∀ toOccur old loop, control ≠ .inHandler toOccur old loop) :
    enter typed packet s control = some s := by
  unfold enter
  split
  · exact absurd rfl (calm _ _ _)
  · rfl

/-- A step of the interrupt simulation: a poll that is taken off the list is
scheduled anew by its own handler. -/
theorem Polled.interrupt {poll : Poll} {call : InterruptCall K} {typed : Option Int}
    {packet : Option Memory} (polled : s.Polled poll)
    (step : s.step (.interrupt call typed packet) = some s') : s'.Polled poll := by
  have quiet : (∀ handler arg fromNow type,
      call.ofKernel ≠ .schedule handler arg fromNow type) → call.ofKernel ≠ .checkIfDue →
      (s.interrupt.step call.ofKernel).map (fun interrupt =>
        { s with interrupt := interrupt }) = some s' → s'.Polled poll := by
    intro notSchedule notCheck run
    obtain ⟨interrupt, moved, rfl⟩ := Option.map_eq_some_iff.mp run
    have same := Interrupt.step_quiet notSchedule notCheck moved
    exact polled.later (List.Perm.of_eq (congrArg _ same)) (Interrupt.step_clock_le moved)
  cases call with
  | checkIfDue =>
      obtain ⟨interrupt, checked, entered⟩ := Option.bind_eq_some_iff.mp step
      have clock := Interrupt.step_clock_le checked
      cases Interrupt.step_checkIfDue checked with
      | back pending calm =>
          rw [enter_calm calm, Option.some.injEq] at entered
          rw [← entered]
          exact polled.later (pendingPolls_perm pending) clock
      | called element old loop pending control =>
          rw [control] at entered
          exact polled.handled pending clock entered
  | schedule handler arg fromNow type =>
      exact polled.schedules (by simp [Poll.ofHandler]) (schedules_of_schedule step)
  | setLevel _ | oneTick | idle | yieldOnReturn | endHandler | endYield _ | setStatus _ =>
      exact quiet (by simp [InterruptCall.ofKernel]) (by simp [InterruptCall.ofKernel]) step

/-- With a poll pending, `Idle` finds an interrupt other than that of the timer. -/
theorem Polled.idles {poll : Poll} {call : InterruptCall (DeviceHandler K)}
    {interrupt : Interrupt (DeviceHandler K)} (polled : s.Polled poll)
    (before : s.interrupt.control ≠ .halted) (step : s.interrupt.step call = some interrupt) :
    interrupt.control ≠ .halted := by
  intro halted
  obtain ⟨element, only, type, -⟩ := polled
  rcases Interrupt.step_halted step before halted with empty | ⟨first, lone, timer⟩
  · rw [empty] at only
    cases only
  · have member : element ∈ pendingPolls poll s.interrupt.pending := by simp [only]
    have pending := (List.mem_filter.mp member).1
    rw [lone, List.mem_singleton] at pending
    rw [pending, timer] at type
    exact poll.type_ne_timer type.symm

/-- The routine of a device does not touch where the machine is in interrupt.cc. -/
theorem enter_control {typed : Option Int} {packet : Option Memory}
    (entered : enter typed packet s s.interrupt.control = some s') :
    s'.interrupt.control = s.interrupt.control := by
  unfold enter at entered
  split at entered
  · rcases handle_schedules entered with ⟨_, -, schedules⟩ | ⟨-, same⟩
    · exact schedules.control
    · rw [same]
  · cases entered
    rfl

theorem PollsGoOn.step {call : DeviceCall K} (goOn : s.PollsGoOn)
    (step : s.step call = some s') : s'.PollsGoOn := by
  have idles {c : InterruptCall (DeviceHandler K)} {interrupt : Interrupt (DeviceHandler K)}
      (moved : s.interrupt.step c = some interrupt) : interrupt.control ≠ .halted :=
    (goOn.polled .keyboard).idles goOn.idles moved
  by_cases request : ∃ c typed packet, call = .interrupt c typed packet
  · obtain ⟨c, typed, packet, rfl⟩ := request
    refine ⟨fun poll => (goOn.polled poll).interrupt step, ?_⟩
    cases c with
    | checkIfDue =>
        obtain ⟨interrupt, checked, entered⟩ := Option.bind_eq_some_iff.mp step
        rw [enter_control entered]
        exact idles checked
    | _ =>
        obtain ⟨interrupt, moved, rfl⟩ := Option.map_eq_some_iff.mp step
        exact idles moved
  · have noStep : ∀ c typed packet, call ≠ .interrupt c typed packet :=
      fun c typed packet same => request ⟨c, typed, packet, same⟩
    refine ⟨fun poll => (goOn.polled poll).request noStep step, ?_⟩
    rcases request_schedules noStep step with same | ⟨_, _, _, -, schedules⟩
    · rw [same]
      exact goOn.idles
    · rw [schedules.control]
      exact goOn.idles

/-- The constructors schedule the first polls. -/
theorem construct_pollsGoOn {interrupt : Interrupt (DeviceHandler K)} {sectors : Disk}
    {console network addr : Int} {heap : Network}
    (unused : ∀ poll, pendingPolls poll interrupt.pending = [])
    (running : interrupt.control ≠ .halted)
    (constructed : construct interrupt sectors console network addr heap = some s) :
    s.PollsGoOn := by
  obtain ⟨first, keyboard, socket⟩ := Option.bind_eq_some_iff.mp constructed
  have opened := schedules_of_schedule keyboard
  have joined := schedules_of_schedule socket
  constructor
  · intro poll
    cases poll with
    | keyboard =>
        have polled : first.Polled .keyboard :=
          polled_of_schedules (unused .keyboard) rfl opened
        exact polled.schedules (by simp [Poll.ofHandler]) joined
    | socket =>
        obtain ⟨toOccur, isHandler, -, -, perm⟩ := opened.item
        have same : (pendingPolls .socket first.interrupt.pending).Perm _ :=
          pendingPolls_perm perm
        rw [pendingPolls_cons, isHandler, if_neg (by simp [Poll.ofHandler])] at same
        exact polled_of_schedules (List.Perm.eq_nil (unused .socket ▸ same)) rfl joined
  · rw [joined.control, opened.control]
    exact running

end Devices

/-- From the construction of the devices on, whatever the kernel calls and whatever
its handlers do: the poll of the keyboard and that of the socket are each pending
exactly once, due within `ConsoleTime` and `NetworkTime`, and `Idle` never finds the
list empty and halts. -/
theorem polls_go_on {K : Type} {interrupt : Interrupt (DeviceHandler K)} {sectors : Disk}
    {console network addr : Int} {heap : Network} {s : Devices K}
    (unused : ∀ poll, pendingPolls poll interrupt.pending = [])
    (running : interrupt.control ≠ .halted)
    (constructed : Devices.construct interrupt sectors console network addr heap = some s)
    (calls : List (DeviceCall K)) :
    (deviceMachine K).Along Devices.PollsGoOn s calls :=
  Machine.along_of_guarded (fun _ _ _ goOn _ step => goOn.step step)
    (Devices.construct_pollsGoOn unused running constructed) (Machine.steps_true s calls)

/-- The machine waits, and the first poll of the two comes and goes. -/
def waitingCalls : List (DeviceCall Unit) :=
  [.interrupt .idle none none, .interrupt .checkIfDue none none,
    .interrupt .endHandler none none, .interrupt .checkIfDue none none]

theorem polls_go_on_while_waiting :
    ∃ s : Devices Unit,
      Devices.construct .construct (fun _ _ => 0) 1 2 7 blankNetwork = some s ∧
      (deviceMachine Unit).Along Devices.PollsGoOn s waitingCalls := by
  obtain ⟨s, constructed⟩ : ∃ s : Devices Unit,
      Devices.construct .construct (fun _ _ => 0) 1 2 7 blankNetwork = some s := ⟨_, rfl⟩
  have running : (Interrupt.construct : Interrupt (DeviceHandler Unit)).control ≠ .halted := by
    simp [Interrupt.construct]
  exact ⟨s, constructed, polls_go_on (fun _ => rfl) running constructed waitingCalls⟩

end Nachos
