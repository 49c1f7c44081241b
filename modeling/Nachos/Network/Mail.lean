/-
Module: Nachos.Network.Mail
Purpose: The messages of post.cc as bytes: the mail header and the payload in
  the buffer that is sent, on the wire, in the buffer of the network device and
  in the buffer of the postal worker.
Trusted boundary: an `int` has 32 bits, the first byte being the low one.
Main exports: MailHeader, Mail, Mail.read, Mail.ofWire, letter, Mail.Framed,
  read_letter, ofWire_wire, Network.mail
-/
import Nachos.Machine.Network

namespace Nachos

open Lib

/-! ### Data model -/

/-- `sizeof(MailHeader)` and `MaxMailSize` of post.h. -/
abbrev mailHeaderSize : Nat := 12

abbrev maxMailSize : Nat := maxPacketSize - mailHeaderSize

/-- `class MailHeader`; `toBox` and `fromBox` are its `to` and `from`. -/
structure MailHeader where
  toBox : BitVec 32
  fromBox : BitVec 32
  length : BitVec 32
deriving DecidableEq, Repr

namespace MailHeader

/-- The words of the object in the order in which they lie in memory. -/
def word (hdr : MailHeader) (w : Int) : BitVec 32 :=
  if w = 0 then hdr.toBox else if w = 1 then hdr.fromBox else hdr.length

/-- The object as bytes. -/
def toMemory (hdr : MailHeader) : Memory :=
  Memory.ofWords hdr.word

/-- The object that bytes make up. -/
def ofMemory (bytes : Memory) : MailHeader where
  toBox := bytes.getWord 0
  fromBox := bytes.getWord 4
  length := bytes.getWord 8

end MailHeader

/-- `class Mail`; of `data` the bytes that the mail header counts. -/
structure Mail where
  pktHdr : PacketHeader
  mailHdr : MailHeader
  data : List UInt8
deriving DecidableEq, Repr

namespace Mail

/-- The message that a packet header and the bytes of a packet make up. -/
def read (pktHdr : PacketHeader) (bytes : Memory) : Mail :=
  let mailHdr := MailHeader.ofMemory bytes
  { pktHdr, mailHdr, data := (bytes.drop mailHeaderSize).toList mailHdr.length.toNat }

/-- The message in a buffer of the wire. -/
def ofWire (packet : Memory) : Mail :=
  read (PacketHeader.ofMemory packet) (packet.drop packetHeaderSize)

/-- The length of the packet counts the mail header and the payload, which is
all there, and both addresses are 32-bit integers. -/
structure Framed (mail : Mail) : Prop where
  length : mail.pktHdr.length = mail.mailHdr.length.toNat + mailHeaderSize
  short : mail.mailHdr.length.toNat ≤ maxMailSize
  toAddr : ∃ a : BitVec 32, mail.pktHdr.toAddr = a.toInt
  fromAddr : ∃ s : BitVec 32, mail.pktHdr.fromAddr = s.toInt
  payload : mail.data.length = mail.mailHdr.length.toNat

/-- The mailbox that the message is for. -/
def box (mail : Mail) : Int :=
  mail.mailHdr.toBox.toInt

end Mail

/-- The buffer that `PostOffice::Send` fills, `heap` being what it held. -/
def letter (heap : Memory) (mailHdr : MailHeader) (data : Memory) : Memory :=
  Memory.copy data 0 (Memory.copy mailHdr.toMemory 0 heap 0 mailHeaderSize)
    mailHeaderSize mailHdr.length.toNat

/-- The message in the buffer of the network device. -/
def Network.mail (net : Network) : Mail :=
  Mail.read net.inHdr net.inbox

/-! ### Headers in memory -/

theorem MailHeader.ofMemory_congr {first second : Memory}
    (agree : Memory.Agree mailHeaderSize first second) :
    MailHeader.ofMemory first = MailHeader.ofMemory second := by
  have at0 : first.getWord 0 = second.getWord 0 :=
    agree.getWord_eq (by decide) (by decide)
  have at4 : first.getWord 4 = second.getWord 4 :=
    agree.getWord_eq (by decide) (by decide)
  have at8 : first.getWord 8 = second.getWord 8 :=
    agree.getWord_eq (by decide) (by decide)
  simp only [ofMemory, at0, at4, at8]

theorem MailHeader.ofMemory_toMemory (hdr : MailHeader) :
    MailHeader.ofMemory hdr.toMemory = hdr := by
  have first := Memory.getWord_ofWords hdr.word 0
  have second := Memory.getWord_ofWords hdr.word 1
  have third := Memory.getWord_ofWords hdr.word 2
  simp only [ofMemory, toMemory]
  simp only [Int.mul_zero, Int.mul_one, show (4 : Int) * 2 = 8 from rfl] at first second third
  rw [first, second, third]
  rfl

theorem PacketHeader.ofMemory_congr {first second : Memory}
    (agree : Memory.Agree packetHeaderSize first second) :
    PacketHeader.ofMemory first = PacketHeader.ofMemory second := by
  have at0 : first.getWord 0 = second.getWord 0 :=
    agree.getWord_eq (by decide) (by decide)
  have at4 : first.getWord 4 = second.getWord 4 :=
    agree.getWord_eq (by decide) (by decide)
  have at8 : first.getWord 8 = second.getWord 8 :=
    agree.getWord_eq (by decide) (by decide)
  simp only [ofMemory, at0, at4, at8]

/-- A header whose fields fit reads back as it was. -/
theorem PacketHeader.ofMemory_toMemory {hdr : PacketHeader} {a s : BitVec 32}
    (toAddr : hdr.toAddr = a.toInt) (fromAddr : hdr.fromAddr = s.toInt)
    (length : hdr.length ≤ maxPacketSize) : PacketHeader.ofMemory hdr.toMemory = hdr := by
  have first := Memory.getWord_ofWords hdr.word 0
  have second := Memory.getWord_ofWords hdr.word 1
  have third := Memory.getWord_ofWords hdr.word 2
  simp only [Int.mul_zero, Int.mul_one, show (4 : Int) * 2 = 8 from rfl] at first second third
  have small : hdr.length < 2 ^ 32 := by
    simp only [maxPacketSize] at length
    omega
  simp only [ofMemory, toMemory, first, second, third]
  cases hdr
  simp_all [word]

/-! ### Copies of a message -/

namespace Mail

/-- A message depends on the bytes that its header counts. -/
theorem read_congr (pktHdr : PacketHeader) {first second : Memory}
    (agree : Memory.Agree ((MailHeader.ofMemory second).length.toNat + mailHeaderSize)
      first second) : read pktHdr first = read pktHdr second := by
  have header : MailHeader.ofMemory first = MailHeader.ofMemory second :=
    MailHeader.ofMemory_congr (agree.mono (by omega))
  unfold read
  rw [header]
  have data : (first.drop mailHeaderSize).toList (MailHeader.ofMemory second).length.toNat =
      (second.drop mailHeaderSize).toList (MailHeader.ofMemory second).length.toNat := by
    apply Memory.toList_congr
    intro i low high
    exact agree (mailHeaderSize + i) (by omega) (by omega)
  simp only [data]

/-- A block that is copied whole holds the same message. -/
theorem read_copy (pktHdr : PacketHeader) (bytes target : Memory) {count : Nat}
    (length : count = (MailHeader.ofMemory bytes).length.toNat + mailHeaderSize) :
    read pktHdr (Memory.copy bytes 0 target 0 count) = read pktHdr bytes := by
  apply read_congr
  have agree := Memory.agree_copy bytes target count
  rw [length] at agree ⊢
  exact agree

end Mail

/-- What `PostOffice::Send` hands on is the message that it was given. -/
theorem read_letter (pktHdr : PacketHeader) (heap : Memory) (mailHdr : MailHeader)
    (data : Memory) :
    Mail.read pktHdr (letter heap mailHdr data) =
      ⟨pktHdr, mailHdr, data.toList mailHdr.length.toNat⟩ := by
  have agree : Memory.Agree mailHeaderSize (letter heap mailHdr data) mailHdr.toMemory := by
    intro i low high
    unfold letter
    rw [Memory.copy_outside _ _ (Or.inl high), Memory.copy_inside _ _ low (by omega)]
    congr 1
    omega
  have header : MailHeader.ofMemory (letter heap mailHdr data) = mailHdr :=
    (MailHeader.ofMemory_congr agree).trans mailHdr.ofMemory_toMemory
  have payload : ((letter heap mailHdr data).drop mailHeaderSize).toList mailHdr.length.toNat =
      data.toList mailHdr.length.toNat := by
    apply Memory.toList_congr
    intro i low high
    unfold Memory.drop letter
    rw [Memory.copy_inside _ _ (by omega) (by omega)]
    congr 1
    omega
  unfold Mail.read
  rw [header]
  dsimp only
  rw [payload]

/-- What goes out on the wire is the message that `Network::Send` was given. -/
theorem ofWire_wire (heap : Memory) {pktHdr : PacketHeader} {buffer : Memory}
    (framed : (Mail.read pktHdr buffer).Framed) :
    Mail.ofWire (Network.wire heap pktHdr buffer) = Mail.read pktHdr buffer := by
  obtain ⟨length, short, ⟨a, toAddr⟩, ⟨s, fromAddr⟩, -⟩ := framed
  have fits : pktHdr.length ≤ maxPacketSize := by
    have whole : pktHdr.length = (Mail.read pktHdr buffer).mailHdr.length.toNat + mailHeaderSize :=
      length
    simp only [maxMailSize, maxPacketSize, mailHeaderSize] at *
    omega
  have outer : Memory.Agree packetHeaderSize (Network.wire heap pktHdr buffer)
      pktHdr.toMemory := by
    intro i low high
    unfold Network.wire
    rw [Memory.copy_outside _ _ (Or.inl high), Memory.copy_inside _ _ low (by omega)]
    congr 1
    omega
  have header : PacketHeader.ofMemory (Network.wire heap pktHdr buffer) = pktHdr :=
    (PacketHeader.ofMemory_congr outer).trans
      (PacketHeader.ofMemory_toMemory toAddr fromAddr fits)
  have inner : Memory.Agree pktHdr.length
      ((Network.wire heap pktHdr buffer).drop packetHeaderSize) buffer := by
    intro i low high
    unfold Memory.drop Network.wire
    rw [Memory.copy_inside _ _ (by omega) (by omega)]
    congr 1
    omega
  unfold Mail.ofWire
  rw [header]
  apply Mail.read_congr
  rw [show pktHdr.length = _ from length] at inner
  exact inner

/-- A packet that the device takes in is the message that was on the wire. -/
theorem mail_of_checkPktAvail {packet : Memory} {net net' : Network}
    (framed : (Mail.ofWire packet).Framed)
    (taken : net.checkPktAvail (some packet) = some (net', true)) :
    net.inHdr.length = 0 ∧ net'.mail = Mail.ofWire packet ∧ net'.inHdr.length ≠ 0 ∧
      (Mail.ofWire packet).pktHdr.toAddr = net.ident ∧ net'.ident = net.ident := by
  have length : (PacketHeader.ofMemory packet).length =
      (MailHeader.ofMemory (packet.drop packetHeaderSize)).length.toNat + mailHeaderSize :=
    framed.length
  rcases Network.checkPktAvail_cases taken with
    ⟨notTaken, -⟩ | ⟨buffer, same, -, empty, toAddr, rfl⟩
  · cases notTaken
  · cases same
    refine ⟨empty, ?_, ?_, toAddr, rfl⟩
    · have copied := Mail.read_copy (PacketHeader.ofMemory packet)
        (packet.drop packetHeaderSize) net.inbox length
      have block : Memory.copy packet packetHeaderSize net.inbox 0
          (PacketHeader.ofMemory packet).length =
            Memory.copy (packet.drop packetHeaderSize) 0 net.inbox 0
              (PacketHeader.ofMemory packet).length := by
        funext i
        simp only [Memory.copy, Memory.drop, Int.zero_add]
      unfold Network.mail Mail.ofWire
      rw [← copied, ← block]
    · intro none
      rw [length] at none
      simp only [mailHeaderSize] at none
      omega

/-- `Network::Receive` gives the message in the buffer of the device. -/
theorem read_of_receive (buffer : Memory) (net : Network) (framed : net.mail.Framed) :
    Mail.read (net.receive buffer).1 (net.receive buffer).2.1 = net.mail ∧
      (net.receive buffer).2.2.inHdr.length = 0 ∧
      (net.receive buffer).2.2.ident = net.ident := by
  have length : net.inHdr.length =
      (MailHeader.ofMemory net.inbox).length.toNat + mailHeaderSize := framed.length
  have full : net.inHdr.length ≠ 0 := by
    simp only [mailHeaderSize] at length
    omega
  refine ⟨?_, rfl, rfl⟩
  unfold Network.receive
  simp only [if_pos full]
  exact Mail.read_copy net.inHdr net.inbox buffer length

end Nachos
