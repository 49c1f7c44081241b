/-
Module: Nachos.Machine.Network
Purpose: The network device of network.cc: packets as bytes on the wire, the
  buffer for one packet that has arrived, and the routines that the kernel and
  the interrupt simulation call.
Trusted boundary: the socket; a packet that is sent is the buffer that is given
  to `SendToSocket`, and what `ReadFromSocket` delivers is such a buffer.
Main exports: PacketHeader, PacketHeader.toMemory, PacketHeader.ofMemory,
  Network, Network.wire, Network.send, Network.sendDone,
  Network.checkPktAvail, Network.receive
-/
import Mathlib.Logic.Function.Basic
import Nachos.Lib.Memory

namespace Nachos

open Lib

/-! ### Packets -/

/-- `sizeof(PacketHeader)` and `MaxPacketSize` of network.h. -/
abbrev packetHeaderSize : Nat := 12

abbrev maxPacketSize : Nat := 52

/-- `class PacketHeader`; `toAddr` and `fromAddr` are its `to` and `from`. -/
structure PacketHeader where
  toAddr : Int
  fromAddr : Int
  length : Nat
deriving DecidableEq, Repr

namespace PacketHeader

/-- The words of the object in the order in which they lie in memory. -/
def word (hdr : PacketHeader) (w : Int) : BitVec 32 :=
  if w = 0 then BitVec.ofInt 32 hdr.toAddr
  else if w = 1 then BitVec.ofInt 32 hdr.fromAddr
  else BitVec.ofNat 32 hdr.length

/-- The object as bytes. -/
def toMemory (hdr : PacketHeader) : Memory :=
  Memory.ofWords hdr.word

/-- The object that bytes make up. -/
def ofMemory (bytes : Memory) : PacketHeader where
  toAddr := (bytes.getWord 0).toInt
  fromAddr := (bytes.getWord 4).toInt
  length := (bytes.getWord 8).toNat

end PacketHeader

/-! ### The device -/

/-- `class Network`, without the handlers and the name of the socket. -/
structure Network where
  ident : Int
  sendBusy : Bool
  inHdr : PacketHeader
  inbox : Memory

namespace Network

/-- `Network::Network`; `heap` is what the new object held. -/
def construct (addr : Int) (heap : Network) : Network :=
  { heap with
    ident := addr
    sendBusy := false
    inHdr := { heap.inHdr with length := 0 } }

/-- The buffer that goes out on the wire, `heap` being what it held. -/
def wire (heap : Memory) (hdr : PacketHeader) (data : Memory) : Memory :=
  Memory.copy data 0 (Memory.copy hdr.toMemory 0 heap 0 packetHeaderSize)
    packetHeaderSize hdr.length

/-- `Network::Send` up to the loss of the packet: the device and the buffer;
`none` when the assertion fails.  `NetworkSendDone` is to be scheduled. -/
def send (hdr : PacketHeader) (data heap : Memory) (net : Network) :
    Option (Network × Memory) :=
  if net.sendBusy = false ∧ 0 < hdr.length ∧ hdr.length ≤ maxPacketSize ∧
      hdr.fromAddr = net.ident then
    some (net, wire heap hdr data)
  else none

/-- `Network::SendDone` up to the call of `writeHandler`. -/
def sendDone (net : Network) : Network :=
  { net with sendBusy := false }

/-- `Network::CheckPktAvail` after the next poll is scheduled, `packet` being
what can be read from the socket: the device, and whether a packet was taken
and `readHandler` is called; `none` when the assertion fails. -/
def checkPktAvail (packet : Option Memory) (net : Network) : Option (Network × Bool) :=
  if net.inHdr.length ≠ 0 then some (net, false)
  else
    match packet with
    | none => some (net, false)
    | some buffer =>
        let inHdr := PacketHeader.ofMemory buffer
        if inHdr.toAddr = net.ident ∧ inHdr.length ≤ maxPacketSize then
          some ({ net with
            inHdr := inHdr
            inbox := Memory.copy buffer packetHeaderSize net.inbox 0 inHdr.length }, true)
        else none

/-- `Network::Receive` into a buffer. -/
def receive (data : Memory) (net : Network) : PacketHeader × Memory × Network :=
  let hdr := net.inHdr
  let emptied := { net with inHdr := { net.inHdr with length := 0 } }
  (hdr, if hdr.length ≠ 0 then Memory.copy net.inbox 0 data 0 hdr.length else data, emptied)

/-- An accepted `Send` leaves the device as it is. -/
theorem send_eq_some {hdr : PacketHeader} {data heap packet : Memory} {net net' : Network}
    (sent : net.send hdr data heap = some (net', packet)) :
    net.sendBusy = false ∧ net' = net ∧ packet = wire heap hdr data := by
  unfold send at sent
  split at sent
  · rename_i accepted
    cases sent
    exact ⟨accepted.1, rfl, rfl⟩
  · cases sent

/-- A poll leaves the device as it is, or a packet comes into its empty
buffer. -/
theorem checkPktAvail_cases {packet : Option Memory} {net net' : Network} {taken : Bool}
    (polled : net.checkPktAvail packet = some (net', taken)) :
    (taken = false ∧ net' = net) ∨
    ∃ buffer, packet = some buffer ∧ taken = true ∧ net.inHdr.length = 0 ∧
      (PacketHeader.ofMemory buffer).toAddr = net.ident ∧
      net' = { net with
        inHdr := PacketHeader.ofMemory buffer
        inbox := Memory.copy buffer packetHeaderSize net.inbox 0
          (PacketHeader.ofMemory buffer).length } := by
  unfold checkPktAvail at polled
  split at polled
  · cases polled
    exact Or.inl ⟨rfl, rfl⟩
  · rename_i empty
    cases packet with
    | none =>
        cases polled
        exact Or.inl ⟨rfl, rfl⟩
    | some buffer =>
        dsimp only at polled
        split at polled
        · rename_i accepted
          cases polled
          exact Or.inr ⟨buffer, rfl, rfl, not_not.mp empty, accepted.1, rfl⟩
        · cases polled

end Network

end Nachos
