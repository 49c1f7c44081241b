/-
Module: Nachos.Machine.Completions
Purpose: A device's flag and its completion interrupt.  Disk and console set
  their flag with every request, so that it is set exactly while the completion
  interrupt is pending; `Network::Send` does not set `sendBusy`.
Trusted boundary: none
Main exports: Device, Devices.busy, Devices.outstanding, Devices.Guarded,
  flags_match_iff_nothing_sent, send_leaves_flag_clear
-/
import Nachos.Machine.Devices

namespace Nachos

open Lib

/-! ### Flags and pending completions -/

/-- The devices with asynchronous output. -/
inductive Device where
  | disk
  | console
  | network
deriving DecidableEq, Repr

/-- The device whose request an interrupt completes. -/
def DeviceHandler.completes {K : Type} : DeviceHandler K → Option Device
  | .diskDone => some .disk
  | .consoleWriteDone => some .console
  | .networkSendDone => some .network
  | _ => none

/-- The device that a call makes a request to. -/
def DeviceCall.request {K : Type} : DeviceCall K → Option Device
  | .readRequest _ _ _ => some .disk
  | .writeRequest _ _ _ => some .disk
  | .putChar _ _ => some .console
  | .send _ _ _ _ => some .network
  | _ => none

namespace Devices

variable {K : Type}

/-- The flags `active`, `putBusy` and `sendBusy`. -/
def busy : Device → Devices K → Bool
  | .disk, s => s.disk.active
  | .console, s => s.console.putBusy
  | .network, s => s.network.sendBusy

/-- How many interrupts in a list complete requests to a device. -/
def completions (d : Device)
    (pending : List (ListElement (PendingInterrupt (DeviceHandler K)))) : Nat :=
  pending.countP fun element => decide (element.item.handler.completes = some d)

/-- How many completion interrupts of a device are pending. -/
def outstanding (d : Device) (s : Devices K) : Nat :=
  completions d s.interrupt.pending

/-- The flag of a device is set exactly while one completion interrupt is
pending and none is pending otherwise, and while one is pending an assertion
stops every request. -/
structure Guarded (d : Device) (s : Devices K) : Prop where
  flag : s.outstanding d = if s.busy d = true then 1 else 0
  stopped : 0 < s.outstanding d → ∀ call : DeviceCall K, call.request = some d →
    s.step call = none

end Devices

/-! ### What a step of the interrupt simulation does to the pending list -/

namespace Interrupt

variable {H : Type}

/-- `Schedule` puts one interrupt into the list. -/
theorem step_schedule {s s' : Interrupt H} {handler : H} {arg fromNow : Int}
    {type : IntType} (step : s.step (.schedule handler arg fromNow type) = some s') :
    ∃ element : ListElement (PendingInterrupt H), element.item.handler = handler ∧
      s'.pending.Perm (element :: s.pending) := by
  have scheduled : s.schedule handler arg fromNow type = some s' := by
    cases step_cases step with
    | schedule scheduled => exact scheduled
  obtain ⟨toOccur, isHandler, -, -, rfl⟩ := schedule_cases scheduled
  exact ⟨⟨toOccur, toOccur.when⟩, isHandler, sortedInsert_perm _ _ _⟩

/-- What a step of `CheckIfDue` has done. -/
inductive Checked (s s' : Interrupt H) : Prop where
  | back (pending : s'.pending.Perm s.pending)
      (calm : ∀ toOccur old loop, s'.control ≠ .inHandler toOccur old loop)
  | called (element : ListElement (PendingInterrupt H)) (old : MachineStatus) (loop : Loop)
      (pending : s.pending = element :: s'.pending)
      (control : s'.control = .inHandler element.item old loop)

theorem afterCheck_checked (s : Interrupt H) (advanceClock : Bool) (old : MachineStatus)
    (loop : Loop) {ended : Interrupt H → Interrupt H}
    (quiet : ∀ t, (ended t).pending = t.pending)
    (calm : ∀ t toOccur old loop, (ended t).control ≠ .inHandler toOccur old loop) :
    Checked s (afterCheck old loop ended (s.checkIfDue advanceClock)) := by
  have back : ∀ t : Interrupt H, t.pending.Perm s.pending →
      Checked s (afterCheck old loop ended (.returnsFalse t)) := by
    intro t same
    refine Checked.back ?_ (calm t)
    rw [afterCheck, quiet t]
    exact same
  generalize checked : s.checkIfDue advanceClock = check
  cases checkIfDue_cases checked with
  | empty contents => exact back s (List.Perm.refl _)
  | waits first rest contents stands future =>
      exact back _ (contents ▸ sortedInsert_perm first.item first.key rest)
  | lone first contents idle timer due =>
      exact back _ (List.Perm.of_eq contents.symm)
  | fires first rest contents works due => exact .called first old loop contents rfl

theorem endTick_calm (old : MachineStatus) (s : Interrupt H) (toOccur : PendingInterrupt H)
    (old' : MachineStatus) (loop : Loop) :
    (s.endTick old).control ≠ .inHandler toOccur old' loop := by
  unfold endTick
  split <;> simp

theorem step_checkIfDue {s s' : Interrupt H} (step : s.step .checkIfDue = some s') :
    Checked s s' := by
  cases step_cases step with
  | checkEntry disabled entry =>
      apply afterCheck_checked
      · intro t
        rfl
      · intro t toOccur old loop
        simp
  | checkIdle disabled atLoop =>
      apply afterCheck_checked
      · intro t
        rfl
      · intro t toOccur old loop
        simp [endIdle]
  | checkTick disabled atLoop =>
      apply afterCheck_checked
      · intro t
        exact (endTick_quiet _ t).1
      · intro t
        exact endTick_calm _ t

/-- The other steps leave the list alone. -/
theorem step_quiet {s s' : Interrupt H} {call : InterruptCall H}
    (notSchedule : ∀ handler arg fromNow type, call ≠ .schedule handler arg fromNow type)
    (notCheck : call ≠ .checkIfDue) (step : s.step call = some s') :
    s'.pending = s.pending := by
  cases step_cases step with
  | schedule scheduled => exact absurd rfl (notSchedule _ _ _ _)
  | checkEntry _ _ | checkIdle _ _ | checkTick _ _ => exact absurd rfl notCheck
  | setLevel place set => exact setLevel_pending set
  | oneTick outside => exact oneTick_pending s
  | idle _ | yieldOnReturn _ | endHandler _ | endYield _ _ | setStatus _ _ => rfl

end Interrupt

/-- Polling does not touch the flag. -/
theorem Network.checkPktAvail_sendBusy {net : Network} {packet : Option Memory}
    {result : Network × Bool} (polled : net.checkPktAvail packet = some result) :
    result.1.sendBusy = net.sendBusy := by
  obtain ⟨net', taken⟩ := result
  rcases checkPktAvail_cases polled with ⟨-, rfl⟩ | ⟨buffer, -, -, -, -, rfl⟩
  · rfl
  · rfl

/-! ### What a step does to flags and completions -/

namespace Devices

variable {K : Type} {s s' : Devices K} {d : Device}

/-- The flags agree where the devices do. -/
theorem busy_congr (disk : d = .disk → s'.disk.active = s.disk.active)
    (console : d = .console → s'.console.putBusy = s.console.putBusy)
    (network : d = .network → s'.network.sendBusy = s.network.sendBusy) :
    s'.busy d = s.busy d := by
  cases d with
  | disk => exact disk rfl
  | console => exact console rfl
  | network => exact network rfl

theorem completions_perm {pending pending' : List (ListElement (PendingInterrupt
    (DeviceHandler K)))} (same : pending'.Perm pending) :
    completions d pending' = completions d pending :=
  same.countP_eq _

theorem completions_cons (element : ListElement (PendingInterrupt (DeviceHandler K)))
    (pending : List (ListElement (PendingInterrupt (DeviceHandler K)))) :
    completions d (element :: pending) = completions d pending +
      if element.item.handler.completes = some d then 1 else 0 := by
  unfold completions
  rw [List.countP_cons]
  simp only [decide_eq_true_eq]

/-- Scheduling changes nothing but the pending list. -/
theorem schedule_spec {handler : DeviceHandler K} {this fromNow : Int} {type : IntType}
    (scheduled : s.schedule handler this fromNow type = some s') :
    s'.outstanding d = s.outstanding d + (if handler.completes = some d then 1 else 0) ∧
      s'.busy d = s.busy d := by
  obtain ⟨interrupt, step, rfl⟩ := Option.map_eq_some_iff.mp scheduled
  obtain ⟨element, isHandler, perm⟩ := Interrupt.step_schedule step
  constructor
  · unfold outstanding
    rw [completions_perm perm, completions_cons, isHandler]
  · exact busy_congr (fun _ => rfl) (fun _ => rfl) (fun _ => rfl)

/-- The flag of a device tells how many completions are pending. -/
def Tally (d : Device) (s : Devices K) : Prop :=
  s.outstanding d = if s.busy d = true then 1 else 0

/-- A request sets the flag of its device and schedules a completion. -/
theorem Tally.request {device : Device} {requested : Devices K} {handler : DeviceHandler K}
    {this fromNow : Int} {type : IntType} (tally : s.Tally d)
    (scheduled : requested.schedule handler this fromNow type = some s')
    (completes : handler.completes = some device)
    (interrupt : requested.interrupt = s.interrupt)
    (free : s.busy device = false) (set : requested.busy device = true)
    (others : ∀ other, other ≠ device → requested.busy other = s.busy other) :
    s'.Tally d := by
  obtain ⟨count, flag⟩ := @schedule_spec K requested s' d handler this fromNow type scheduled
  have before : requested.outstanding d = s.outstanding d := by
    unfold outstanding
    rw [interrupt]
  unfold Tally at *
  rw [count, flag, before, tally, completes]
  by_cases mine : d = device
  · rw [mine, free, set]
    simp
  · have different : some device ≠ some d := fun same => mine (Option.some.inj same).symm
    rw [others d mine, if_neg different, Nat.add_zero]

/-- Scheduling an interrupt that completes no request to the device. -/
theorem Tally.schedule {handler : DeviceHandler K} {this fromNow : Int} {type : IntType}
    (tally : s.Tally d) (different : handler.completes ≠ some d)
    (scheduled : s.schedule handler this fromNow type = some s') : s'.Tally d := by
  obtain ⟨count, flag⟩ := schedule_spec scheduled
  unfold Tally at *
  rw [count, flag, if_neg different, Nat.add_zero]
  exact tally

/-- The tally when the list and the flag are as before. -/
theorem Tally.of_eq (tally : s.Tally d) (count : s'.outstanding d = s.outstanding d)
    (flag : s'.busy d = s.busy d) : s'.Tally d := by
  unfold Tally at *
  rw [count, flag]
  exact tally

/-- A completion is taken off the list and clears the flag of its device. -/
theorem Tally.complete {device : Device} {delivered : Devices K} {handler : DeviceHandler K}
    (tally : s.Tally d) (completes : handler.completes = some device)
    (count : s.outstanding d = delivered.outstanding d +
      if handler.completes = some d then 1 else 0)
    (interrupt : s'.interrupt = delivered.interrupt) (cleared : s'.busy device = false)
    (others : ∀ other, other ≠ device → s'.busy other = s.busy other) : s'.Tally d := by
  have after : s'.outstanding d = delivered.outstanding d := by
    unfold outstanding
    rw [interrupt]
  unfold Tally at *
  rw [after]
  rw [count, completes] at tally
  by_cases mine : d = device
  · rw [mine, if_pos rfl] at tally
    rw [mine, cleared]
    split at tally
    · exact Nat.succ.inj tally
    · cases tally
  · have different : some device ≠ some d := fun same => mine (Option.some.inj same).symm
    rw [if_neg different, Nat.add_zero] at tally
    rw [others d mine]
    exact tally

/-- The routine of a device whose interrupt has been taken off the list. -/
theorem Tally.handle {delivered : Devices K} {handler : DeviceHandler K} {this : Int}
    {typed : Option Int} {packet : Option Memory} (tally : s.Tally d)
    (count : s.outstanding d = delivered.outstanding d +
      if handler.completes = some d then 1 else 0)
    (flags : ∀ other, delivered.busy other = s.busy other)
    (run : delivered.handle this typed packet handler = some s') : s'.Tally d := by
  have kept : handler.completes = none → delivered.Tally d := by
    intro plain
    rw [plain] at count
    exact tally.of_eq count.symm (flags d)
  cases handler with
  | diskDone =>
      cases run
      refine @Tally.complete K s _ d .disk delivered .diskDone tally rfl count rfl rfl ?_
      intro other different
      rw [← flags other]
      exact busy_congr (fun here => absurd here different) (fun _ => rfl) (fun _ => rfl)
  | consoleWriteDone =>
      cases run
      refine @Tally.complete K s _ d .console delivered .consoleWriteDone tally rfl count rfl rfl ?_
      intro other different
      rw [← flags other]
      exact busy_congr (fun _ => rfl) (fun here => absurd here different) (fun _ => rfl)
  | networkSendDone =>
      cases run
      refine @Tally.complete K s _ d .network delivered .networkSendDone tally rfl count rfl rfl ?_
      intro other different
      rw [← flags other]
      exact busy_congr (fun _ => rfl) (fun _ => rfl) (fun here => absurd here different)
  | consoleReadPoll =>
      obtain ⟨polled, scheduled, rfl⟩ := Option.map_eq_some_iff.mp run
      have after := (kept rfl).schedule (by simp [DeviceHandler.completes]) scheduled
      split
      · exact after
      · split
        · exact after
        · apply after.of_eq
          · rfl
          · exact busy_congr (fun _ => rfl) (fun _ => rfl) (fun _ => rfl)
  | networkReadPoll =>
      obtain ⟨polled, scheduled, read⟩ := Option.bind_eq_some_iff.mp run
      obtain ⟨result, outcome, rfl⟩ := Option.map_eq_some_iff.mp read
      have after := (kept rfl).schedule (by simp [DeviceHandler.completes]) scheduled
      apply after.of_eq
      · rfl
      · exact busy_congr (fun _ => rfl) (fun _ => rfl)
          (fun _ => Network.checkPktAvail_sendBusy outcome)
  | other handler =>
      cases run
      exact kept rfl

/-- A step of the interrupt simulation. -/
theorem Tally.interrupt {call : InterruptCall K} {typed : Option Int}
    {packet : Option Memory} (tally : s.Tally d)
    (step : s.step (.interrupt call typed packet) = some s') : s'.Tally d := by
  have flags : ∀ (interrupt : Interrupt (DeviceHandler K)) (other : Device),
      ({ s with interrupt := interrupt } : Devices K).busy other = s.busy other := by
    intro interrupt other
    exact busy_congr (fun _ => rfl) (fun _ => rfl) (fun _ => rfl)
  have quiet : (∀ handler arg fromNow type,
      call.ofKernel ≠ .schedule handler arg fromNow type) → call.ofKernel ≠ .checkIfDue →
      (s.interrupt.step call.ofKernel).map (fun interrupt =>
        { s with interrupt := interrupt }) = some s' → s'.Tally d := by
    intro notSchedule notCheck run
    obtain ⟨interrupt, moved, rfl⟩ := Option.map_eq_some_iff.mp run
    have same := Interrupt.step_quiet notSchedule notCheck moved
    apply tally.of_eq _ (flags interrupt d)
    unfold outstanding
    rw [same]
  cases call with
  | checkIfDue =>
      obtain ⟨interrupt, checked, entered⟩ := Option.bind_eq_some_iff.mp step
      cases Interrupt.step_checkIfDue checked with
      | back pending calm =>
          have same : s' = { s with interrupt := interrupt } := by
            unfold enter at entered
            split at entered
            · rename_i control
              exact absurd control (calm _ _ _)
            · exact (Option.some.inj entered).symm
          rw [same]
          exact tally.of_eq (completions_perm pending) (flags interrupt d)
      | called element old loop pending control =>
          rw [control] at entered
          refine @Tally.handle K s s' d { s with interrupt := interrupt } element.item.handler
            _ typed packet tally ?_ (flags interrupt) entered
          unfold outstanding
          rw [pending, completions_cons]
  | schedule handler arg fromNow type =>
      have plain : (DeviceHandler.other handler).completes ≠ some d := by
        simp [DeviceHandler.completes]
      exact tally.schedule plain step
  | setLevel _ | oneTick | idle | yieldOnReturn | endHandler | endYield _ | setStatus _ =>
      exact quiet (fun _ _ _ _ => by simp [InterruptCall.ofKernel]) nofun step

/-- A request to the disk. -/
theorem Tally.diskRequest {sectorNumber ticks this : Int} {disk : DiskDevice}
    (tally : s.Tally d)
    (scheduled : Devices.schedule .diskDone this ticks .diskInt { s with disk := disk } =
      some s') (accepts : s.disk.Accepts sectorNumber) (set : disk.active = true) :
    s'.Tally d := by
  apply tally.request scheduled rfl rfl accepts.1 set
  intro other different
  exact busy_congr (fun here => absurd here different) (fun _ => rfl) (fun _ => rfl)

/-- Every step but `Send` keeps the tally of every device. -/
theorem Tally.step {call : DeviceCall K} (tally : s.Tally d)
    (other : call.request = some .network → d ≠ .network)
    (step : s.step call = some s') : s'.Tally d := by
  cases call with
  | readRequest this sectorNumber data =>
      obtain ⟨⟨_, after⟩, requested, rfl⟩ := Option.map_eq_some_iff.mp step
      unfold readRequest at requested
      dsimp only at requested
      split at requested
      · rename_i accepts
        obtain ⟨_, scheduled, same⟩ := Option.map_eq_some_iff.mp requested
        cases same
        exact tally.diskRequest scheduled accepts rfl
      · cases requested
  | writeRequest this sectorNumber data =>
      simp only [Devices.step, writeRequest] at step
      split at step
      · rename_i accepts
        exact tally.diskRequest step accepts rfl
      · cases step
  | putChar this ch =>
      simp only [Devices.step, putChar] at step
      split at step
      · rename_i free
        apply tally.request step rfl rfl free rfl
        intro other different
        exact busy_congr (fun _ => rfl) (fun here => absurd here different) (fun _ => rfl)
      · cases step
  | getChar =>
      cases step
      apply tally.of_eq
      · rfl
      · exact busy_congr (fun _ => rfl) (fun _ => rfl) (fun _ => rfl)
  | send this hdr data heap =>
      obtain ⟨⟨_, after⟩, sent, rfl⟩ := Option.map_eq_some_iff.mp step
      obtain ⟨⟨net, buffer⟩, accepted, rest⟩ := Option.bind_eq_some_iff.mp sent
      obtain ⟨_, scheduled, same⟩ := Option.map_eq_some_iff.mp rest
      cases same
      obtain ⟨-, unchanged, -⟩ := Network.send_eq_some accepted
      rw [unchanged] at scheduled
      apply tally.schedule _ scheduled
      intro same
      exact other rfl (Option.some.inj same).symm
  | receive data =>
      cases step
      apply tally.of_eq
      · rfl
      · exact busy_congr (fun _ => rfl) (fun _ => rfl) (fun _ => rfl)
  | interrupt call typed packet => exact tally.interrupt step

/-- `Send` leaves the flag clear with a completion pending. -/
theorem not_tally_of_send {this : Int} {hdr : PacketHeader} {data heap : Memory}
    (step : s.step (.send this hdr data heap) = some s') : ¬ s'.Tally .network := by
  obtain ⟨⟨_, after⟩, sent, rfl⟩ := Option.map_eq_some_iff.mp step
  obtain ⟨⟨net, buffer⟩, accepted, rest⟩ := Option.bind_eq_some_iff.mp sent
  obtain ⟨_, scheduled, same⟩ := Option.map_eq_some_iff.mp rest
  cases same
  obtain ⟨free, unchanged, -⟩ := Network.send_eq_some accepted
  rw [← unchanged] at free
  obtain ⟨count, flag⟩ := @schedule_spec K _ _ .network _ _ _ _ scheduled
  have clear : after.busy .network = false := flag.trans free
  unfold Tally
  rw [count, clear]
  simp [DeviceHandler.completes]

/-- While a completion is pending the flag is set, and the assertions stop
requests. -/
theorem Tally.guarded (tally : s.Tally d) : s.Guarded d := by
  refine ⟨tally, ?_⟩
  intro pending call request
  have set : s.busy d = true := by
    by_contra clear
    unfold Tally at tally
    rw [if_neg clear] at tally
    omega
  cases call with
  | readRequest this sectorNumber data =>
      cases request
      have busy : ¬ s.disk.Accepts sectorNumber := fun accepts => by
        have active : s.disk.active = true := set
        rw [accepts.1] at active
        cases active
      simp [Devices.step, readRequest, busy]
  | writeRequest this sectorNumber data =>
      cases request
      have busy : ¬ s.disk.Accepts sectorNumber := fun accepts => by
        have active : s.disk.active = true := set
        rw [accepts.1] at active
        cases active
      simp [Devices.step, writeRequest, busy]
  | putChar this ch =>
      cases request
      have busy : s.console.putBusy = true := set
      simp [Devices.step, putChar, busy]
  | send this hdr data heap =>
      cases request
      have busy : s.network.sendBusy = true := set
      simp [Devices.step, Devices.send, Network.send, busy]
  | getChar => cases request
  | receive data => cases request
  | interrupt call typed packet => cases request

/-- Nothing has been requested of new devices. -/
theorem construct_tally {interrupt : Interrupt (DeviceHandler K)} {sectors : Disk}
    {console network addr : Int} {heap : Network}
    (unused : completions d interrupt.pending = 0)
    (constructed : construct interrupt sectors console network addr heap = some s) :
    s.Tally d := by
  obtain ⟨first, polled, rest⟩ := Option.bind_eq_some_iff.mp constructed
  have start : Tally d ({
      interrupt := interrupt
      disk := { sectors := sectors, lastSector := 0, bufferInit := 0, active := false }
      console := { putBusy := false, incoming := eof, display := [] }
      network := .construct addr heap } : Devices K) := by
    unfold Tally outstanding
    rw [unused]
    cases d with
    | disk => rfl
    | console => rfl
    | network => rfl
  have second := start.schedule (by simp [DeviceHandler.completes]) polled
  exact second.schedule (by simp [DeviceHandler.completes]) rest

end Devices

/-- From the construction of the devices on, along every sequence of calls and
interrupts: the flags of disk and console are set exactly while one completion
interrupt is pending, and then the assertions stop a second request; this is
true of all three devices exactly when nothing is sent over the network. -/
theorem flags_match_iff_nothing_sent {K : Type} {interrupt : Interrupt (DeviceHandler K)}
    {sectors : Disk} {console network addr : Int} {heap : Network} {s s' : Devices K}
    {calls : List (DeviceCall K)}
    (unused : ∀ d, Devices.completions d interrupt.pending = 0)
    (constructed : Devices.construct interrupt sectors console network addr heap = some s)
    (run : (deviceMachine K).exec s calls = some s') :
    (deviceMachine K).Along (fun s => s.Guarded .disk ∧ s.Guarded .console) s calls ∧
      ((deviceMachine K).Along (fun s => ∀ d, s.Guarded d) s calls ↔
        ∀ call ∈ calls, call.request ≠ some .network) := by
  have start : ∀ d, s.Tally d := fun d => Devices.construct_tally (unused d) constructed
  constructor
  · have along : (deviceMachine K).Along (fun s => s.Tally .disk ∧ s.Tally .console) s calls := by
      apply Machine.along_of_guarded _ ⟨start .disk, start .console⟩
        (Machine.steps_true s calls)
      intro s call s' tallies _ step
      exact ⟨tallies.1.step (fun _ => by decide) step, tallies.2.step (fun _ => by decide) step⟩
    exact along.mono fun s tallies => ⟨tallies.1.guarded, tallies.2.guarded⟩
  · have exact_iff := @Machine.along_iff_steps _ _ (deviceMachine K)
      (fun s => ∀ d, s.Tally d) (fun s => ∀ d, s.Guarded d) (fun _ _ => True)
      (fun _ call => call.request ≠ some .network)
      (fun s call s' tallies _ quiet step d =>
        (tallies d).step (fun request => absurd request quiet) step)
      (fun s tallies d => (tallies d).guarded) ?_ s s' calls start
      (Machine.steps_true s calls) run
    · rw [exact_iff]
      constructor
      · exact Machine.forall_of_steps run
      · intro quiet
        exact Machine.steps_of_forall s quiet
    · intro s call s' _ _ sends step guarded
      rw [not_not] at sends
      cases call with
      | send this hdr data heap =>
          exact Devices.not_tally_of_send step (guarded .network).flag
      | _ => cases sends

theorem nothing_requested (d : Device) :
    Devices.completions d (Interrupt.construct : Interrupt (DeviceHandler Unit)).pending = 0 := by
  cases d <;> rfl

/-- A network object before its constructor has run. -/
def blankNetwork : Network where
  ident := 0
  sendBusy := false
  inHdr := { toAddr := 0, fromAddr := 0, length := 0 }
  inbox := fun _ => 0

/-- A character and a sector are written, and the first completion comes. -/
def writingCalls : List (DeviceCall Unit) :=
  [.putChar 1 65, .writeRequest 3 4 (fun _ => 1), .interrupt .idle none none,
    .interrupt .checkIfDue none none]

theorem flags_match_while_writing :
    ∃ s s' : Devices Unit,
      Devices.construct .construct (fun _ _ => 0) 1 2 7 blankNetwork = some s ∧
      (deviceMachine Unit).exec s writingCalls = some s' ∧
      (deviceMachine Unit).Along (fun s => s.Guarded .disk ∧ s.Guarded .console) s
        writingCalls ∧
      ((deviceMachine Unit).Along (fun s => ∀ d, s.Guarded d) s writingCalls ↔
        ∀ call ∈ writingCalls, call.request ≠ some .network) := by
  obtain ⟨s, s', constructed, run⟩ : ∃ s s' : Devices Unit,
      Devices.construct .construct (fun _ _ => 0) 1 2 7 blankNetwork = some s ∧
      (deviceMachine Unit).exec s writingCalls = some s' := ⟨_, _, rfl, rfl⟩
  exact ⟨s, s', constructed, run, flags_match_iff_nothing_sent nothing_requested constructed run⟩

/-- One packet is sent on new devices: its completion is pending and the flag is
clear. -/
theorem send_leaves_flag_clear :
    ¬ ∀ (interrupt : Interrupt (DeviceHandler Unit)) (sectors : Disk)
        (console network addr : Int) (heap : Network) (s s' : Devices Unit)
        (calls : List (DeviceCall Unit)),
      (∀ d, Devices.completions d interrupt.pending = 0) →
      Devices.construct interrupt sectors console network addr heap = some s →
      (deviceMachine Unit).exec s calls = some s' →
      (deviceMachine Unit).Along (fun s => ∀ d, s.Guarded d) s calls := by
  intro claim
  obtain ⟨s, s', constructed, step⟩ : ∃ s s' : Devices Unit,
      Devices.construct .construct (fun _ _ => 0) 1 2 7 blankNetwork = some s ∧
      s.step (.send 2 { toAddr := 8, fromAddr := 7, length := 20 } (fun _ => 0)
        (fun _ => 0)) = some s' := ⟨_, _, rfl, rfl⟩
  have run : (deviceMachine Unit).exec s
      [.send 2 { toAddr := 8, fromAddr := 7, length := 20 } (fun _ => 0) (fun _ => 0)] =
      some s' := Machine.exec_cons_of_step step
  have along := claim _ _ _ _ _ _ s s' _ nothing_requested constructed run
  have guarded := along.finish run
  exact Devices.not_tally_of_send step (guarded .network).flag

end Nachos
