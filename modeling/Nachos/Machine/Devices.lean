/-
Module: Nachos.Machine.Devices
Purpose: The three devices with asynchronous output, disk.cc, console.cc and
  network.cc, on the interrupt simulation.  A device has a flag that says that
  a request is under way, and a completion interrupt that clears it.
Trusted boundary: the UNIX files behind the devices; the 64-bit clock does not
  overflow.
Main exports: DiskDevice, Console, Devices, Devices.readRequest,
  Devices.writeRequest, Devices.putChar, Devices.send, Devices.handle,
  DeviceCall, deviceMachine, Device, Devices.outstanding, Devices.Guarded
-/
import Nachos.FileSys.OpenFile
import Nachos.Machine.Deliveries
import Nachos.Machine.Network

namespace Nachos

open Lib

/-! ### Data model -/

/-- The routines of the devices that `Schedule` is given; `other` are those of
the rest of the kernel. -/
inductive DeviceHandler (K : Type) where
  | diskDone
  | consoleReadPoll
  | consoleWriteDone
  | networkReadPoll
  | networkSendDone
  | other (handler : K)

/-- `class Disk`, with the file behind it. -/
structure DiskDevice where
  sectors : Disk
  lastSector : Int
  bufferInit : Int
  active : Bool

/-- `EOF`. -/
abbrev eof : Int := -1

/-- `class Console`, with what has been written to the display. -/
structure Console where
  putBusy : Bool
  incoming : Int
  display : List Int

/-- The devices and the interrupt simulation. -/
structure Devices (K : Type) where
  interrupt : Interrupt (DeviceHandler K)
  disk : DiskDevice
  console : Console
  network : Network

/-- `SectorsPerTrack` of disk.h. -/
abbrev sectorsPerTrack : Int := 32

/-- `RotationTime`, `SeekTime`, `ConsoleTime` and `NetworkTime` of stats.h. -/
abbrev rotationTime : Int := 500

abbrev seekTime : Int := 500

abbrev consoleTime : Int := 100

abbrev networkTime : Int := 100

/-! ### The disk -/

namespace DiskDevice

/-- `Disk::TimeToSeek`: the seek time, and the rotation.  The clock has 64
bits; what goes into an `int` is wrapped where it may not fit. -/
def timeToSeek (newSector totalTicks : Int) (disk : DiskDevice) : Int × Int :=
  let newTrack := newSector.tdiv sectorsPerTrack
  let oldTrack := disk.lastSector.tdiv sectorsPerTrack
  let seek := wrap (((newTrack - oldTrack).natAbs : Int) * seekTime)
  let overTicks := (totalTicks + seek).tmod rotationTime
  (seek, if 0 < overTicks then rotationTime - overTicks else 0)

/-- `Disk::ModuloDiff`. -/
def moduloDiff (toSector fromSector : Int) : Int :=
  let toOffset := toSector.tmod sectorsPerTrack
  let fromOffset := fromSector.tmod sectorsPerTrack
  ((toOffset - fromOffset) + sectorsPerTrack).tmod sectorsPerTrack

/-- `timeAfter` of `Disk::ComputeLatency`, an `int`. -/
def timeAfter (newSector totalTicks : Int) (disk : DiskDevice) : Int :=
  let (seek, rotation) := disk.timeToSeek newSector totalTicks
  wrap (totalTicks + seek + rotation)

/-- The check of `Disk::ComputeLatency` "if track buffer applies". -/
def TrackBufferApplies (newSector : Int) (writing : Bool) (totalTicks : Int)
    (disk : DiskDevice) : Prop :=
  writing = false ∧ (disk.timeToSeek newSector totalTicks).1 = 0 ∧
    moduloDiff newSector (disk.bufferInit.tdiv rotationTime) <
      (wrap (disk.timeAfter newSector totalTicks - disk.bufferInit)).tdiv rotationTime

instance (newSector : Int) (writing : Bool) (totalTicks : Int) (disk : DiskDevice) :
    Decidable (disk.TrackBufferApplies newSector writing totalTicks) :=
  inferInstanceAs (Decidable (_ ∧ _ ∧ _))

/-- `Disk::ComputeLatency`. -/
def computeLatency (newSector : Int) (writing : Bool) (totalTicks : Int)
    (disk : DiskDevice) : Int :=
  let (seek, rotation) := disk.timeToSeek newSector totalTicks
  if disk.TrackBufferApplies newSector writing totalTicks then rotationTime
  else
    let sectors :=
      moduloDiff newSector ((disk.timeAfter newSector totalTicks).tdiv rotationTime)
    wrap (seek + (rotation + sectors * rotationTime) + rotationTime)

/-- `Disk::UpdateLast`. -/
def updateLast (newSector totalTicks : Int) (disk : DiskDevice) : DiskDevice :=
  let (seek, rotate) := disk.timeToSeek newSector totalTicks
  { disk with
    bufferInit := if seek ≠ 0 then wrap (totalTicks + seek + rotate) else disk.bufferInit
    lastSector := newSector }

/-- A request for a sector passes the assertions. -/
def Accepts (sectorNumber : Int) (disk : DiskDevice) : Prop :=
  disk.active = false ∧ 0 ≤ sectorNumber ∧ sectorNumber < numSectors

instance (sectorNumber : Int) (disk : DiskDevice) :
    Decidable (disk.Accepts sectorNumber) :=
  inferInstanceAs (Decidable (_ ∧ _ ∧ _))

end DiskDevice

namespace Devices

variable {K : Type}

/-- `interrupt->Schedule(handler, (int) this, fromNow, type)`, from a routine
outside interrupt.cc or from a handler. -/
def schedule (handler : DeviceHandler K) (this fromNow : Int) (type : IntType)
    (s : Devices K) : Option (Devices K) :=
  (s.interrupt.step (.schedule handler this fromNow type)).map fun interrupt =>
    { s with interrupt := interrupt }

/-- `Disk::ReadRequest` into a buffer; `none` when an assertion fails. -/
def readRequest (this sectorNumber : Int) (data : Memory) (s : Devices K) :
    Option (Memory × Devices K) :=
  let ticks := s.disk.computeLatency sectorNumber false s.interrupt.totalTicks
  if s.disk.Accepts sectorNumber then
    let data := s.disk.sectors.readSector sectorNumber data 0
    let disk := { s.disk with active := true }.updateLast sectorNumber s.interrupt.totalTicks
    (schedule .diskDone this ticks .diskInt { s with disk := disk }).map fun s => (data, s)
  else none

/-- `Disk::WriteRequest`. -/
def writeRequest (this sectorNumber : Int) (data : Memory) (s : Devices K) :
    Option (Devices K) :=
  let ticks := s.disk.computeLatency sectorNumber true s.interrupt.totalTicks
  if s.disk.Accepts sectorNumber then
    let sectors := s.disk.sectors.writeSector sectorNumber data 0
    let disk := { s.disk with sectors := sectors, active := true }.updateLast sectorNumber
      s.interrupt.totalTicks
    schedule .diskDone this ticks .diskInt { s with disk := disk }
  else none

/-! ### The console and the network -/

/-- `Console::PutChar`. -/
def putChar (this ch : Int) (s : Devices K) : Option (Devices K) :=
  if s.console.putBusy = false then
    schedule .consoleWriteDone this consoleTime .consoleWriteInt
      { s with console := { s.console with
          putBusy := true
          display := s.console.display ++ [ch] } }
  else none

/-- `Console::GetChar`. -/
def getChar (s : Devices K) : Int × Devices K :=
  (s.console.incoming, { s with console := { s.console with incoming := eof } })

/-- `Console::CheckCharAvail`, `typed` being what can be read. -/
def checkCharAvail (this : Int) (typed : Option Int) (s : Devices K) :
    Option (Devices K) :=
  (schedule .consoleReadPoll this consoleTime .consoleReadInt s).map fun s =>
    if s.console.incoming ≠ eof then s
    else
      match typed with
      | none => s
      | some c => { s with console := { s.console with incoming := c } }

/-- `Network::Send`: the buffer that goes out if it is not lost. -/
def send (this : Int) (hdr : PacketHeader) (data heap : Memory) (s : Devices K) :
    Option (Memory × Devices K) :=
  (s.network.send hdr data heap).bind fun result =>
    (schedule .networkSendDone this networkTime .networkSendInt
      { s with network := result.1 }).map fun s => (result.2, s)

/-- `Network::CheckPktAvail`, `packet` being what can be read. -/
def checkPktAvail (this : Int) (packet : Option Memory) (s : Devices K) :
    Option (Devices K) :=
  (schedule .networkReadPoll this networkTime .networkRecvInt s).bind fun s =>
    (s.network.checkPktAvail packet).map fun result => { s with network := result.1 }

/-- The routine of a device that `CheckIfDue` has called, up to the call of the
handler that the kernel gave it; that handler may make any of the calls of the
machine below. -/
def handle (this : Int) (typed : Option Int) (packet : Option Memory) (s : Devices K) :
    DeviceHandler K → Option (Devices K)
  | .diskDone => some { s with disk := { s.disk with active := false } }
  | .consoleReadPoll => s.checkCharAvail this typed
  | .consoleWriteDone => some { s with console := { s.console with putBusy := false } }
  | .networkReadPoll => s.checkPktAvail this packet
  | .networkSendDone => some { s with network := s.network.sendDone }
  | .other _ => some s

/-- `Disk::Disk`, `Console::Console` and `Network::Network`; `heap` is what the
new network held. -/
def construct (interrupt : Interrupt (DeviceHandler K)) (sectors : Disk)
    (console network addr : Int) (heap : Network) : Option (Devices K) :=
  let s : Devices K :=
    { interrupt := interrupt
      disk := { sectors := sectors, lastSector := 0, bufferInit := 0, active := false }
      console := { putBusy := false, incoming := eof, display := [] }
      network := .construct addr heap }
  (s.schedule .consoleReadPoll console consoleTime .consoleReadInt).bind fun s =>
    s.schedule .networkReadPoll network networkTime .networkRecvInt

end Devices

/-! ### Steps -/

/-- What can happen next.  `this` is the address of the device. -/
inductive DeviceCall (K : Type) where
  | readRequest (this sectorNumber : Int) (data : Memory)
  | writeRequest (this sectorNumber : Int) (data : Memory)
  | putChar (this ch : Int)
  | getChar
  | send (this : Int) (hdr : PacketHeader) (data heap : Memory)
  | receive (data : Memory)
  /-- the interrupt simulation makes a step, with what a poll would read -/
  | interrupt (call : InterruptCall K) (typed : Option Int) (packet : Option Memory)

/-- The handlers of the rest of the kernel among all. -/
def InterruptCall.ofKernel {K : Type} : InterruptCall K → InterruptCall (DeviceHandler K)
  | .schedule handler arg fromNow type => .schedule (.other handler) arg fromNow type
  | .setLevel now => .setLevel now
  | .oneTick => .oneTick
  | .idle => .idle
  | .checkIfDue => .checkIfDue
  | .yieldOnReturn => .yieldOnReturn
  | .endHandler => .endHandler
  | .endYield old => .endYield old
  | .setStatus st => .setStatus st

namespace Devices

variable {K : Type}

/-- A handler that has been called begins with the routine of its device. -/
def enter (typed : Option Int) (packet : Option Memory) (s : Devices K) :
    Control (DeviceHandler K) → Option (Devices K)
  | .inHandler toOccur _ _ => s.handle toOccur.arg typed packet toOccur.handler
  | _ => some s

/-- One step; `none` where the call is not possible or an assertion fails. -/
def step (s : Devices K) : DeviceCall K → Option (Devices K)
  | .readRequest this sectorNumber data =>
      (s.readRequest this sectorNumber data).map Prod.snd
  | .writeRequest this sectorNumber data => s.writeRequest this sectorNumber data
  | .putChar this ch => s.putChar this ch
  | .getChar => some s.getChar.2
  | .send this hdr data heap => (s.send this hdr data heap).map Prod.snd
  | .receive data => some { s with network := (s.network.receive data).2.2 }
  | .interrupt .checkIfDue typed packet =>
      (s.interrupt.step .checkIfDue).bind fun interrupt =>
        enter typed packet { s with interrupt := interrupt } interrupt.control
  | .interrupt call _ _ =>
      (s.interrupt.step call.ofKernel).map fun interrupt =>
        { s with interrupt := interrupt }

end Devices

/-- The devices as a machine. -/
def deviceMachine (K : Type) : Machine (Devices K) (DeviceCall K) where
  step := Devices.step

end Nachos
