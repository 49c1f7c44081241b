/-
Module: Nachos.Machine.Latency
Purpose: The time that a disk request takes.  `Disk::ComputeLatency` waits for
  the requested sector by the position of the head at the end of the seek; it
  computes that position from a time in an `int`, which is right exactly when
  the ticks lost on the way are whole turns of the disk.
Trusted boundary: the 64-bit clock does not overflow.
Main exports: DiskDevice.seekEnd, nextBoundary, AtStartOf,
  DiskDevice.TransfersOnSector, WholeTurns, transfers_on_sector_iff,
  disk_requests_have_latency
-/
import Nachos.Machine.Clock
import Nachos.Machine.Completions

namespace Nachos

open Lib

/-! ### The head of the disk -/

/-- The number of tracks between two sectors. -/
def trackDistance (newSector lastSector : Int) : Int :=
  ((newSector / sectorsPerTrack - lastSector / sectorsPerTrack).natAbs : Int)

/-- The first time from a given one on at which the head is between two sectors. -/
def nextBoundary (time : Int) : Int :=
  (time + (rotationTime - 1)) / rotationTime * rotationTime

/-- The head is at the start of a sector of its track. -/
def AtStartOf (sector time : Int) : Prop :=
  time % rotationTime = 0 ∧
    (time / rotationTime) % sectorsPerTrack = sector % sectorsPerTrack

instance (sector time : Int) : Decidable (AtStartOf sector time) :=
  inferInstanceAs (Decidable (_ ∧ _))

/-- A number of a sector of the disk. -/
def OnDisk (sector : Int) : Prop :=
  0 ≤ sector ∧ sector < numSectors

instance (sector : Int) : Decidable (OnDisk sector) :=
  inferInstanceAs (Decidable (_ ∧ _))

/-- The time at which the head is over the track of a sector. -/
def DiskDevice.seekEnd (newSector totalTicks : Int) (disk : DiskDevice) : Int :=
  totalTicks + seekTime * trackDistance newSector disk.lastSector

/-- With this latency the transfer, which takes the last `RotationTime` ticks,
starts the first time after the seek that the head is at the start of the
sector. -/
structure DiskDevice.TransfersOnSector (newSector totalTicks latency : Int)
    (disk : DiskDevice) : Prop where
  onSector : AtStartOf newSector (totalTicks + latency - rotationTime)
  afterSeek : disk.seekEnd newSector totalTicks ≤ totalTicks + latency - rotationTime
  soonest : ∀ time, disk.seekEnd newSector totalTicks ≤ time →
    time < totalTicks + latency - rotationTime → ¬ AtStartOf newSector time

/-- The ticks that an `int` loses of a time, with the part of a sector that the
division by `RotationTime` then cuts off, are whole turns of the disk. -/
def WholeTurns (time : Int) : Prop :=
  (time - wrap time + (wrap time).tmod rotationTime) %
    (sectorsPerTrack * rotationTime) = 0

instance (time : Int) : Decidable (WholeTurns time) :=
  inferInstanceAs (Decidable (_ = _))

theorem nextBoundary_spec (time : Int) :
    nextBoundary time % rotationTime = 0 ∧ time ≤ nextBoundary time ∧
      nextBoundary time < time + rotationTime := by
  simp only [nextBoundary, rotationTime]
  omega

/-- A time that fits an `int` is read without loss. -/
theorem wholeTurns_of_fits {time : Int} (boundary : time % rotationTime = 0)
    (low : 0 ≤ time) (high : time < 2 ^ 31) : WholeTurns time := by
  unfold WholeTurns
  rw [wrap_eq_self (by omega) high, Int.tmod_eq_emod_of_nonneg low, boundary]
  simp

/-- 2 ^ 32 ticks are 57 times 128 more than whole turns, up to 125 such parts. -/
theorem overflows_eq (overflows : Int) : ∃ turns,
    2 ^ 32 * overflows = 16000 * turns + 128 * (57 * overflows % 125) :=
  ⟨(33554432 * overflows - 57 * overflows % 125) / 125, by omega⟩

/-- What `RotationTime` cuts off a negative time makes up for three parts of a turn
at most. -/
theorem wholeTurns_of_negative {turns part cut : Int} (first : 0 ≤ part) (last : part < 125)
    (low : -500 < cut) (high : cut ≤ 0) (aligned : (128 * part + cut) % 500 = 0) :
    (16000 * turns + 128 * part + cut) % (32 * 500) = 0 ↔
      part = 0 ∨ part = 1 ∨ part = 2 ∨ part = 3 := by
  omega

/-- What it cuts off a time that is not negative makes up for three parts less than
a whole turn. -/
theorem wholeTurns_of_nonneg {turns part cut : Int} (first : 0 ≤ part) (last : part < 125)
    (low : 0 ≤ cut) (high : cut < 500) (aligned : (128 * part + cut) % 500 = 0) :
    (16000 * turns + 128 * part + cut) % (32 * 500) = 0 ↔
      part = 0 ∨ part = 124 ∨ part = 123 ∨ part = 122 := by
  omega

/-- Which times the `int` still shows at the right place of the disk: it depends
on how often the time has gone past the end of an `int`. -/
theorem wholeTurns_iff {time : Int} (boundary : time % rotationTime = 0) :
    WholeTurns time ↔
      if wrap time < 0 then time.bdiv (2 ^ 32) % 125 ∈ [0, 11, 68, 79]
      else time.bdiv (2 ^ 32) % 125 ∈ [0, 46, 57, 114] := by
  have lost : time - wrap time = 2 ^ 32 * time.bdiv (2 ^ 32) := by
    have parts := Int.bmod_add_bdiv time (2 ^ 32)
    rw [← wrap] at parts
    omega
  obtain ⟨turns, split⟩ := overflows_eq (time.bdiv (2 ^ 32))
  have parts := Int.tmod_add_mul_tdiv (wrap time) rotationTime
  have low := Int.lt_tmod_of_pos (wrap time) (show 0 < rotationTime by decide)
  have high := Int.tmod_lt_of_pos (wrap time) (show 0 < rotationTime by decide)
  have sign : if wrap time < 0 then (wrap time).tmod rotationTime ≤ 0
      else 0 ≤ (wrap time).tmod rotationTime := by
    split
    · have opposite := Int.tmod_nonneg (a := -wrap time) rotationTime (by omega)
      rw [Int.neg_tmod] at opposite
      omega
    · exact Int.tmod_nonneg rotationTime (by omega)
  have aligned : (128 * (57 * time.bdiv (2 ^ 32) % 125) + (wrap time).tmod rotationTime) %
      rotationTime = 0 := by
    simp only [rotationTime] at *
    omega
  unfold WholeTurns
  rw [lost, split]
  clear lost split parts boundary
  simp only [rotationTime, sectorsPerTrack, List.mem_cons, List.not_mem_nil, or_false] at *
  generalize (wrap time).tmod 500 = cut at *
  have range : 0 ≤ 57 * time.bdiv (2 ^ 32) % 125 ∧ 57 * time.bdiv (2 ^ 32) % 125 < 125 := by
    omega
  have residue : time.bdiv (2 ^ 32) % 125 = 68 * (57 * time.bdiv (2 ^ 32) % 125) % 125 := by
    omega
  rw [residue]
  generalize 57 * time.bdiv (2 ^ 32) % 125 = part at *
  split at sign
  · rename_i negative
    rw [if_pos negative]
    rw [wholeTurns_of_negative range.1 range.2 low sign aligned]
    omega
  · rename_i nonneg
    rw [if_neg nonneg]
    rw [wholeTurns_of_nonneg range.1 range.2 sign high aligned]
    omega

namespace DiskDevice

variable {newSector totalTicks : Int} {disk : DiskDevice}

/-! ### The routines -/

theorem trackDistance_le {lastSector : Int} (new : OnDisk newSector)
    (last : OnDisk lastSector) : 0 ≤ trackDistance newSector lastSector ∧
      trackDistance newSector lastSector < sectorsPerTrack := by
  simp only [OnDisk, numSectors, trackDistance, sectorsPerTrack] at *
  omega

/-- `ModuloDiff` is the distance on the track, also from a negative position. -/
theorem moduloDiff_eq {toSector : Int} (nonneg : 0 ≤ toSector) (fromSector : Int) :
    moduloDiff toSector fromSector = (toSector - fromSector) % sectorsPerTrack := by
  have positive : (0 : Int) < sectorsPerTrack := by decide
  have toLow := Int.emod_nonneg toSector (Int.ne_of_gt positive)
  have fromHigh := Int.tmod_lt_of_pos fromSector positive
  have fromSplit := Int.tmod_add_mul_tdiv fromSector sectorsPerTrack
  unfold moduloDiff
  rw [Int.tmod_eq_emod_of_nonneg nonneg, Int.tmod_eq_emod_of_nonneg (by omega)]
  simp only [sectorsPerTrack] at *
  omega

/-- On the disk no `int` of `TimeToSeek` overflows. -/
theorem timeToSeek_eq (clock : 0 ≤ totalTicks) (new : OnDisk newSector)
    (last : OnDisk disk.lastSector) :
    disk.timeToSeek newSector totalTicks =
      (seekTime * trackDistance newSector disk.lastSector,
        nextBoundary (disk.seekEnd newSector totalTicks) -
          disk.seekEnd newSector totalTicks) := by
  obtain ⟨low, high⟩ := trackDistance_le new last
  have seek : wrap (((newSector.tdiv sectorsPerTrack -
      disk.lastSector.tdiv sectorsPerTrack).natAbs : Int) * seekTime) =
      seekTime * trackDistance newSector disk.lastSector := by
    rw [Int.tdiv_eq_ediv_of_nonneg new.1, Int.tdiv_eq_ediv_of_nonneg last.1]
    rw [← trackDistance, Int.mul_comm]
    simp only [seekTime, sectorsPerTrack] at *
    exact wrap_eq_self (by omega) (by omega)
  simp only [timeToSeek, seek]
  rw [← seekEnd]
  have later : 0 ≤ disk.seekEnd newSector totalTicks := by
    simp only [seekEnd, seekTime]
    omega
  rw [Int.tmod_eq_emod_of_nonneg later, Prod.mk.injEq]
  refine ⟨rfl, ?_⟩
  simp only [nextBoundary, rotationTime]
  split <;> omega

/-- The time after the seek, cut to an `int`. -/
theorem timeAfter_eq (clock : 0 ≤ totalTicks) (new : OnDisk newSector)
    (last : OnDisk disk.lastSector) :
    disk.timeAfter newSector totalTicks =
      wrap (nextBoundary (disk.seekEnd newSector totalTicks)) := by
  have together : totalTicks + seekTime * trackDistance newSector disk.lastSector +
      (nextBoundary (disk.seekEnd newSector totalTicks) - disk.seekEnd newSector totalTicks) =
      nextBoundary (disk.seekEnd newSector totalTicks) := by
    rw [← seekEnd]
    omega
  simp only [timeAfter, timeToSeek_eq clock new last, together]

/-- The sectors that pass between the end of the seek and the transfer. -/
def sectorsToWait (newSector totalTicks : Int) (disk : DiskDevice) : Int :=
  (newSector - (wrap (nextBoundary (disk.seekEnd newSector totalTicks))).tdiv rotationTime) %
    sectorsPerTrack

theorem sectorsToWait_range (newSector totalTicks : Int) (disk : DiskDevice) :
    0 ≤ disk.sectorsToWait newSector totalTicks ∧
      disk.sectorsToWait newSector totalTicks < sectorsPerTrack :=
  ⟨Int.emod_nonneg _ (by decide), Int.emod_lt_of_pos _ (by decide)⟩

/-- Without the track buffer the transfer ends one sector after the wait. -/
theorem computeLatency_eq {writing : Bool} (clock : 0 ≤ totalTicks)
    (new : OnDisk newSector) (last : OnDisk disk.lastSector)
    (slow : ¬ disk.TrackBufferApplies newSector writing totalTicks) :
    totalTicks + disk.computeLatency newSector writing totalTicks - rotationTime =
      nextBoundary (disk.seekEnd newSector totalTicks) +
        disk.sectorsToWait newSector totalTicks * rotationTime := by
  obtain ⟨close, far⟩ := trackDistance_le new last
  obtain ⟨none, all⟩ := disk.sectorsToWait_range newSector totalTicks
  obtain ⟨-, after, soon⟩ := nextBoundary_spec (disk.seekEnd newSector totalTicks)
  simp only [computeLatency, if_neg slow]
  rw [timeToSeek_eq clock new last, timeAfter_eq clock new last, moduloDiff_eq new.1,
    ← sectorsToWait]
  generalize disk.sectorsToWait newSector totalTicks = wait at *
  generalize nextBoundary (disk.seekEnd newSector totalTicks) = boundary at *
  simp only [seekEnd, seekTime, rotationTime, sectorsPerTrack] at *
  rw [wrap_eq_self (by omega) (by omega)]
  omega

/-- The transfer starts on the sector exactly when the time lost is whole turns. -/
theorem transfersOnSector_iff {latency : Int}
    (starts : totalTicks + latency - rotationTime =
      nextBoundary (disk.seekEnd newSector totalTicks) +
        disk.sectorsToWait newSector totalTicks * rotationTime) :
    disk.TransfersOnSector newSector totalTicks latency ↔
      WholeTurns (nextBoundary (disk.seekEnd newSector totalTicks)) := by
  obtain ⟨between, after, soon⟩ := nextBoundary_spec (disk.seekEnd newSector totalTicks)
  obtain ⟨none, all⟩ := disk.sectorsToWait_range newSector totalTicks
  have waits : disk.sectorsToWait newSector totalTicks = (newSector -
      (wrap (nextBoundary (disk.seekEnd newSector totalTicks))).tdiv rotationTime) %
        sectorsPerTrack := rfl
  generalize disk.sectorsToWait newSector totalTicks = wait at *
  generalize ended : disk.seekEnd newSector totalTicks = seekEnd at *
  generalize nextBoundary seekEnd = boundary at *
  have parts := Int.tmod_add_mul_tdiv (wrap boundary) rotationTime
  have aligned : AtStartOf newSector (totalTicks + latency - rotationTime) ↔
      WholeTurns boundary := by
    rw [starts]
    simp only [AtStartOf, WholeTurns, rotationTime, sectorsPerTrack] at *
    omega
  constructor
  · intro transfers
    exact aligned.mp transfers.onSector
  · intro turns
    refine ⟨aligned.mpr turns, ?_, ?_⟩
    · rw [starts, ended]
      simp only [rotationTime]
      omega
    · intro time late early atStart
      rw [ended] at late
      have onTime := aligned.mpr turns
      rw [starts] at early onTime
      simp only [AtStartOf, rotationTime, sectorsPerTrack] at *
      omega

/-- The latency is the rotation of one sector at least, and a seek, a rotation to
the next sector and a turn of the disk at most. -/
theorem computeLatency_range (writing : Bool) (clock : 0 ≤ totalTicks)
    (new : OnDisk newSector) (last : OnDisk disk.lastSector) :
    rotationTime ≤ disk.computeLatency newSector writing totalTicks ∧
      disk.computeLatency newSector writing totalTicks ≤
        seekTime * trackDistance newSector disk.lastSector + (rotationTime - 1) +
          sectorsPerTrack * rotationTime := by
  by_cases fast : disk.TrackBufferApplies newSector writing totalTicks
  · obtain ⟨close, far⟩ := trackDistance_le new last
    have latency : disk.computeLatency newSector writing totalTicks = rotationTime := by
      simp only [computeLatency, if_pos fast]
    rw [latency]
    simp only [seekTime, rotationTime, sectorsPerTrack]
    omega
  · have starts := computeLatency_eq clock new last fast
    obtain ⟨none, all⟩ := disk.sectorsToWait_range newSector totalTicks
    obtain ⟨-, after, soon⟩ := nextBoundary_spec (disk.seekEnd newSector totalTicks)
    obtain ⟨close, far⟩ := trackDistance_le new last
    generalize nextBoundary (disk.seekEnd newSector totalTicks) = boundary at *
    simp only [seekEnd, seekTime, rotationTime, sectorsPerTrack] at *
    omega

end DiskDevice

open DiskDevice

/-- Without the track buffer, at every time and wherever the head was: the
transfer starts when the head is at the start of the sector, and as soon as it
can, exactly when what the `int` loses of the time are whole turns. -/
theorem transfers_on_sector_iff {disk : DiskDevice} {newSector totalTicks : Int}
    {writing : Bool} (clock : 0 ≤ totalTicks) (new : OnDisk newSector)
    (last : OnDisk disk.lastSector)
    (slow : ¬ disk.TrackBufferApplies newSector writing totalTicks) :
    disk.TransfersOnSector newSector totalTicks
        (disk.computeLatency newSector writing totalTicks) ↔
      WholeTurns (nextBoundary (disk.seekEnd newSector totalTicks)) :=
  transfersOnSector_iff (computeLatency_eq clock new last slow)

/-- A disk that holds zeros, the head being over a sector. -/
def blankDisk (lastSector : Int) : DiskDevice where
  sectors := fun _ _ => 0
  lastSector := lastSector
  bufferInit := 0
  active := false

/-- A write soon after the start, with a seek over two tracks. -/
theorem early_write_on_sector :
    (blankDisk 5).TransfersOnSector 70 1234
      ((blankDisk 5).computeLatency 70 true 1234) := by
  have slow : ¬ (blankDisk 5).TrackBufferApplies 70 true 1234 := fun fast => nomatch fast.1
  apply (transfers_on_sector_iff (by decide) (by decide) (by decide) slow).mpr
  rw [show nextBoundary ((blankDisk 5).seekEnd 70 1234) = 2500 from rfl]
  exact wholeTurns_of_fits (by decide) (by decide) (by omega)

/-- At 2 ^ 31 ticks a write of sector 0 by a head at sector 0 starts on another
sector. -/
theorem late_write_off_sector :
    ¬ ∀ (disk : DiskDevice) (newSector totalTicks : Int) (writing : Bool),
      0 ≤ totalTicks →
      totalTicks + disk.computeLatency newSector writing totalTicks < 2 ^ 63 →
      OnDisk newSector → OnDisk disk.lastSector →
      -2 ^ 31 ≤ disk.bufferInit ∧ disk.bufferInit < 2 ^ 31 →
      ¬ disk.TrackBufferApplies newSector writing totalTicks →
      disk.TransfersOnSector newSector totalTicks
        (disk.computeLatency newSector writing totalTicks) := by
  intro claim
  have transfers := claim (blankDisk 0) 0 (2 ^ 31) true (by decide) (by decide)
    (by decide) (by decide) (by decide)
    (fun fast => nomatch fast.1)
  exact absurd transfers.onSector (by decide)

/-! ### Runs of the devices -/

namespace Devices

variable {K : Type} {s s' : Devices K}

/-- The clock has not been turned back before 0, and the head is on the disk. -/
def Placed (s : Devices K) : Prop :=
  0 ≤ s.interrupt.totalTicks ∧ OnDisk s.disk.lastSector

/-- The time goes on and the head stays. -/
theorem Placed.goesOn (placed : s.Placed)
    (clock : s.interrupt.totalTicks ≤ s'.interrupt.totalTicks)
    (head : s'.disk.lastSector = s.disk.lastSector) : s'.Placed :=
  ⟨Int.le_trans placed.1 clock, head ▸ placed.2⟩

theorem Placed.schedule {handler : DeviceHandler K} {this fromNow : Int} {type : IntType}
    (placed : s.Placed) (scheduled : s.schedule handler this fromNow type = some s') :
    s'.Placed := by
  obtain ⟨interrupt, step, rfl⟩ := Option.map_eq_some_iff.mp scheduled
  exact placed.goesOn (Interrupt.step_clock_le step) rfl

theorem Placed.handle {handler : DeviceHandler K} {this : Int} {typed : Option Int}
    {packet : Option Memory} (placed : s.Placed)
    (run : s.handle this typed packet handler = some s') : s'.Placed := by
  cases handler with
  | diskDone | consoleWriteDone | networkSendDone | other _ =>
      cases run
      exact placed
  | consoleReadPoll =>
      obtain ⟨polled, scheduled, rfl⟩ := Option.map_eq_some_iff.mp run
      have after := placed.schedule scheduled
      split
      · exact after
      · split <;> exact after
  | networkReadPoll =>
      obtain ⟨polled, scheduled, taken⟩ := Option.bind_eq_some_iff.mp run
      obtain ⟨_, _, rfl⟩ := Option.map_eq_some_iff.mp taken
      have after := placed.schedule scheduled
      exact after

/-- A request leaves the head on the disk, where it is or at the new sector. -/
theorem Placed.request {requested : Devices K} {handler : DeviceHandler K}
    {this fromNow : Int} {type : IntType} (placed : s.Placed)
    (scheduled : requested.schedule handler this fromNow type = some s')
    (interrupt : requested.interrupt = s.interrupt)
    (head : OnDisk requested.disk.lastSector) : s'.Placed :=
  Placed.schedule ⟨interrupt ▸ placed.1, head⟩ scheduled

theorem Placed.interrupt {call : InterruptCall K} {typed : Option Int}
    {packet : Option Memory} (placed : s.Placed)
    (step : s.step (.interrupt call typed packet) = some s') : s'.Placed := by
  cases call with
  | checkIfDue =>
      obtain ⟨interrupt, checked, entered⟩ := Option.bind_eq_some_iff.mp step
      have after : ({ s with interrupt := interrupt } : Devices K).Placed :=
        placed.goesOn (Interrupt.step_clock_le checked) rfl
      unfold enter at entered
      split at entered
      · exact after.handle entered
      · cases entered
        exact after
  | schedule _ _ _ _ | setLevel _ | oneTick | idle | yieldOnReturn | endHandler
  | endYield _ | setStatus _ =>
      obtain ⟨interrupt, moved, rfl⟩ := Option.map_eq_some_iff.mp step
      exact placed.goesOn (Interrupt.step_clock_le moved) rfl

theorem Placed.step {call : DeviceCall K} (placed : s.Placed)
    (step : s.step call = some s') : s'.Placed := by
  cases call with
  | readRequest this sectorNumber data =>
      obtain ⟨⟨_, after⟩, requested, rfl⟩ := Option.map_eq_some_iff.mp step
      simp only [readRequest] at requested
      split at requested
      · rename_i accepts
        obtain ⟨_, scheduled, same⟩ := Option.map_eq_some_iff.mp requested
        cases same
        exact placed.request scheduled rfl accepts.2
      · cases requested
  | writeRequest this sectorNumber data =>
      simp only [Devices.step, writeRequest] at step
      split at step
      · rename_i accepts
        exact placed.request step rfl accepts.2
      · cases step
  | putChar this ch =>
      simp only [Devices.step, putChar] at step
      split at step
      · exact placed.request step rfl placed.2
      · cases step
  | getChar | receive _ =>
      cases step
      exact placed
  | send this hdr data heap =>
      obtain ⟨⟨_, after⟩, sent, rfl⟩ := Option.map_eq_some_iff.mp step
      obtain ⟨⟨net, buffer⟩, accepted, rest⟩ := Option.bind_eq_some_iff.mp sent
      obtain ⟨_, scheduled, same⟩ := Option.map_eq_some_iff.mp rest
      cases same
      exact placed.request scheduled rfl placed.2
  | interrupt call typed packet => exact placed.interrupt step

theorem construct_placed {interrupt : Interrupt (DeviceHandler K)} {sectors : Disk}
    {console network addr : Int} {heap : Network} (clock : 0 ≤ interrupt.totalTicks)
    (constructed : construct interrupt sectors console network addr heap = some s) :
    s.Placed := by
  obtain ⟨first, polled, rest⟩ := Option.bind_eq_some_iff.mp constructed
  have start : first.Placed := Placed.schedule ⟨clock, (by decide : OnDisk 0)⟩ polled
  exact start.schedule rest

end Devices

/-- At every time, for both kinds of request, the latency lies between one sector
and a seek, the rest of a sector and a turn of the disk; so in every run of the
devices `Schedule` accepts the latency of every request for a sector. -/
theorem disk_requests_have_latency :
    (∀ (disk : DiskDevice) (newSector totalTicks : Int) (writing : Bool),
      0 ≤ totalTicks → OnDisk newSector → OnDisk disk.lastSector →
      rotationTime ≤ disk.computeLatency newSector writing totalTicks ∧
        disk.computeLatency newSector writing totalTicks ≤
          seekTime * trackDistance newSector disk.lastSector + (rotationTime - 1) +
            sectorsPerTrack * rotationTime) ∧
      ∀ (K : Type) (interrupt : Interrupt (DeviceHandler K)) (sectors : Disk)
        (console network addr : Int) (heap : Network) (s s' : Devices K)
        (calls : List (DeviceCall K)),
        0 ≤ interrupt.totalTicks →
        Devices.construct interrupt sectors console network addr heap = some s →
        (deviceMachine K).exec s calls = some s' →
        ∀ (this sectorNumber : Int) (writing : Bool), OnDisk sectorNumber →
          (s'.interrupt.schedule .diskDone this
            (s'.disk.computeLatency sectorNumber writing s'.interrupt.totalTicks)
            .diskInt).isSome := by
  constructor
  · intro disk newSector totalTicks writing clock new last
    exact computeLatency_range writing clock new last
  · intro K interrupt sectors console network addr heap s s' calls clock constructed run
      this sectorNumber writing new
    have placed : s'.Placed :=
      Machine.invariant (M := deviceMachine K) (I := Devices.Placed)
        (fun _ _ _ before step => before.step step)
        (Devices.construct_placed clock constructed) run
    obtain ⟨positive, -⟩ : rotationTime ≤
        s'.disk.computeLatency sectorNumber writing s'.interrupt.totalTicks ∧ _ :=
      computeLatency_range writing placed.1 new placed.2
    have future : 0 < s'.disk.computeLatency sectorNumber writing s'.interrupt.totalTicks :=
      Int.lt_of_lt_of_le (by decide) positive
    simp only [Interrupt.schedule, if_pos future, Option.isSome_some]

/-- A sector of another track is written on new devices, and its completion is
awaited. -/
def seekingCalls : List (DeviceCall Unit) :=
  [.writeRequest 3 70 (fun _ => 1), .interrupt .idle none none,
    .interrupt .checkIfDue none none]

theorem seeking_requests_have_latency :
    (rotationTime ≤ (blankDisk 5).computeLatency 70 false (2 ^ 40) ∧
      (blankDisk 5).computeLatency 70 false (2 ^ 40) ≤
        seekTime * trackDistance 70 5 + (rotationTime - 1) +
          sectorsPerTrack * rotationTime) ∧
      ∃ s s' : Devices Unit,
        Devices.construct .construct (fun _ _ => 0) 1 2 7 blankNetwork = some s ∧
        (deviceMachine Unit).exec s seekingCalls = some s' ∧
        (s'.interrupt.schedule .diskDone 3
          (s'.disk.computeLatency 4 false s'.interrupt.totalTicks) .diskInt).isSome := by
  obtain ⟨s, s', constructed, run⟩ : ∃ s s' : Devices Unit,
      Devices.construct .construct (fun _ _ => 0) 1 2 7 blankNetwork = some s ∧
      (deviceMachine Unit).exec s seekingCalls = some s' := ⟨_, _, rfl, rfl⟩
  obtain ⟨bounds, accepts⟩ := disk_requests_have_latency
  refine ⟨bounds (blankDisk 5) 70 (2 ^ 40) false (by decide) (by decide) (by decide),
    s, s', constructed, run, ?_⟩
  exact accepts Unit .construct (fun _ _ => 0) 1 2 7 blankNetwork s s' seekingCalls
    (Int.le_refl 0) constructed run 3 4 false (by decide)

end Nachos
