/-
Module: Nachos.Network.PostOffice
Purpose: Machines that send each other messages: the post office of post.cc on
  each of them, on top of its thread system and its network device, and the
  sockets between them.  The code between two calls of the thread system is one
  step, since threads switch only where interrupts are turned on again or a
  thread sleeps; the steps of different machines interleave in any way.
Trusted boundary: a socket delivers the buffers that were sent to it unaltered
  and in order, or not at all.
Main exports: PostSemaphore, PostLock, PostCondition, ClientPc, WorkerPc,
  Station, Station.boot, PostMove, Post, Post.step, postMachine
-/
import Nachos.Network.Mail
import Nachos.Threads.Kernel

namespace Nachos

open Lib

/-! ### Data model -/

/-- The semaphores of a machine: those of its post office, and all others. -/
inductive PostSemaphore where
  | messageAvailable
  | messageSent
  | other (n : Nat)
deriving DecidableEq, Repr

/-- The locks of a machine: `sendLock`, the lock of the list of each mailbox,
and all others. -/
inductive PostLock where
  | sendLock
  | list (box : Int)
  | other (n : Nat)
deriving DecidableEq, Repr

/-- The conditions of a machine: that of the list of each mailbox, and all
others. -/
inductive PostCondition where
  | listEmpty (box : Int)
  | other (n : Nat)
deriving DecidableEq, Repr

abbrev PostKernel (T : Type) := Kernel T PostSemaphore PostLock PostCondition

abbrev PostOp (T : Type) := Op T PostSemaphore PostLock PostCondition

abbrev PostAction (T : Type) := Action T PostSemaphore PostLock PostCondition

/-- Where a thread is that sends and receives messages. -/
inductive ClientPc where
  | outside
  /-- in `Send`, in `sendLock->Acquire` or back from it, with the message and
  the buffer that holds it -/
  | sending (mail : Mail) (buffer : Memory)
  /-- in `Send`, in `messageSent->P` or back from it -/
  | sent
  /-- in `SynchList::Remove`, in `lock->Acquire` or back from it -/
  | getting (box : Int)
  /-- in `SynchList::Remove`, in `listEmpty->Wait` or back from it -/
  | waiting (box : Int)
  /-- in `lock->Release` at the end of `SynchList::Remove` or back from it -/
  | got (mail : Mail)

/-- Where the postal worker is in `PostalDelivery`. -/
inductive WorkerPc where
  /-- at the head of the loop -/
  | start
  /-- in `messageAvailable->P` or back from it -/
  | awaiting
  /-- with a message that it has received, in `SynchList::Append`, in
  `lock->Acquire` or back from it -/
  | putting (mail : Mail)
  /-- in `SynchList::Append`, in `listEmpty->Signal` or back from it -/
  | signalled (box : Int)

/-- One machine: `class PostOffice` with its mailboxes, its network device and
its thread system. -/
structure Station (T : Type) where
  kernel : PostKernel T
  network : Network
  netAddr : Int
  numBoxes : Int
  /-- the lists of the mailboxes -/
  boxes : Int → List Mail
  worker : T
  workerPc : WorkerPc
  /-- the buffer of the postal worker -/
  buffer : Memory
  pc : T → ClientPc
  /-- the `NetworkSendDone` interrupts that are scheduled -/
  sendsPending : Nat
  /-- an assertion has failed -/
  failed : Bool
  /-- the messages that `Network::Send` was given, the first one first; no
  routine reads this or the three lists that follow -/
  handed : List Mail
  /-- the messages that came into the buffer of the device -/
  accepted : List Mail
  /-- the messages that the postal worker got from `Network::Receive` -/
  collected : List Mail
  /-- the messages taken from each mailbox by `Receive` -/
  taken : Int → List Mail

/-- What can happen next on a machine. -/
inductive PostMove (T : Type) where
  /-- the running thread calls `PostOffice::Send`; `heap` is what the new buffer
  held -/
  | send (destination : BitVec 32) (mailHdr : MailHeader) (data heap : Memory)
  /-- the running thread calls `PostOffice::Receive` -/
  | receive (box : Int)
  /-- the running thread goes on in the post office; if it sends a packet,
  `arrives` says whether the packet reaches its socket -/
  | proceed (arrives : Bool) (heap : Memory)
  /-- the running thread calls something else -/
  | other (op : PostOp T)
  /-- a step of the thread system that is not a call -/
  | system (action : PostAction T)
  /-- the interrupt `NetworkReadPoll` -/
  | poll
  /-- the interrupt `NetworkSendDone` -/
  | sendDone

/-- The semaphores, locks and conditions of the post office are private: other
code makes no calls on them. -/
def Op.Foreign {T : Type} : PostOp T → Bool
  | .p s | .v s => match s with
    | .other _ => true
    | _ => false
  | .acquire l | .release l => match l with
    | .other _ => true
    | _ => false
  | .wait c _ | .signal c _ | .broadcast c _ => match c with
    | .other _ => true
    | _ => false
  | .fork _ | .yield _ | .finish => true

/-- Other handlers touch only other semaphores. -/
def Action.Foreign {T : Type} : PostAction T → Bool
  | .call _ => false
  | .handlerV s | .handlerP s => match s with
    | .other _ => true
    | _ => false
  | _ => true

namespace Station

variable {T : Type} [DecidableEq T]

/-! ### Routines of the post office -/

/-- The running thread calls a routine of the thread system, `after` being what
becomes of the machine meanwhile. -/
def call (d : Discipline) (op : PostOp T) (st : Station T)
    (after : PostKernel T → Station T) : Option (Station T) :=
  (st.kernel.step d (.call op)).map after

/-- The program of the machine ends in a failed assertion. -/
def fail (st : Station T) : Option (Station T) :=
  if st.kernel.phase = .running then some { st with failed := true } else none

/-- The running thread is at the given place. -/
def setPc (pc : ClientPc) (st : Station T) : T → ClientPc :=
  Function.update st.pc st.kernel.currentThread pc

/-- `PostOffice::Send` up to the call of `Acquire`. -/
def send (d : Discipline) (destination : BitVec 32) (mailHdr : MailHeader)
    (data heap : Memory) (st : Station T) : Option (Station T) :=
  if mailHdr.length.toNat ≤ maxMailSize ∧
      0 ≤ mailHdr.toBox.toInt ∧ mailHdr.toBox.toInt < st.numBoxes then
    let pktHdr : PacketHeader :=
      { toAddr := destination.toInt
        fromAddr := st.netAddr
        length := mailHdr.length.toNat + mailHeaderSize }
    let mail : Mail := ⟨pktHdr, mailHdr, data.toList mailHdr.length.toNat⟩
    st.call d (.acquire .sendLock) fun k =>
      { st with kernel := k, pc := st.setPc (.sending mail (letter heap mailHdr data)) }
  else st.fail

/-- `network->Send(pktHdr, buffer); messageSent->P();` with the packet that goes
out. -/
def transmit (d : Discipline) (mail : Mail) (buffer heap : Memory) (st : Station T) :
    Option (Station T × Option (BitVec 32 × Memory)) :=
  match st.network.send mail.pktHdr buffer heap with
  | none => st.fail.map fun st => (st, none)
  | some (network, packet) =>
      (st.call d (.p .messageSent) fun k =>
        { st with
          kernel := k
          network := network
          pc := st.setPc .sent
          sendsPending := st.sendsPending + 1
          handed := st.handed ++ [mail] }).map
        fun st => (st, some (BitVec.ofInt 32 mail.pktHdr.toAddr, packet))

/-- `PostOffice::Receive` up to the call of `Acquire` in `SynchList::Remove`. -/
def receive (d : Discipline) (box : Int) (st : Station T) : Option (Station T) :=
  if 0 ≤ box ∧ box < st.numBoxes then
    st.call d (.acquire (.list box)) fun k =>
      { st with kernel := k, pc := st.setPc (.getting box) }
  else st.fail

/-- The while loop of `SynchList::Remove` and what follows it: the list is
tested, and either `Wait` is called or a message removed and `Release`
called. -/
def testAndRemove (d : Discipline) (box : Int) (st : Station T) : Option (Station T) :=
  match st.boxes box with
  | [] =>
      st.call d (.wait (.listEmpty box) (some (.list box))) fun k =>
        { st with kernel := k, pc := st.setPc (.waiting box) }
  | mail :: rest =>
      st.call d (.release (.list box)) fun k =>
        { st with
          kernel := k
          pc := st.setPc (.got mail)
          boxes := Function.update st.boxes box rest
          taken := Function.update st.taken box (st.taken box ++ [mail]) }

/-- The end of `MailBox::Get` and of `PostOffice::Receive`. -/
def finishReceive (mail : Mail) (st : Station T) : Option (Station T) :=
  if mail.mailHdr.length.toNat ≤ maxMailSize then
    if st.kernel.phase = .running then some { st with pc := st.setPc .outside } else none
  else st.fail

/-- What a thread that sends or receives does next. -/
def clientProceed (d : Discipline) (heap : Memory) (st : Station T) :
    Option (Station T × Option (BitVec 32 × Memory)) :=
  match st.pc st.kernel.currentThread with
  | .outside => none
  | .sending mail buffer => st.transmit d mail buffer heap
  | .sent =>
      (st.call d (.release .sendLock) fun k =>
        { st with kernel := k, pc := st.setPc .outside }).map fun st => (st, none)
  | .getting box => (st.testAndRemove d box).map fun st => (st, none)
  | .waiting box => (st.testAndRemove d box).map fun st => (st, none)
  | .got mail => (st.finishReceive mail).map fun st => (st, none)

/-- `pktHdr = network->Receive(buffer);` and what follows it up to the call of
`Acquire` in `SynchList::Append`. -/
def collect (d : Discipline) (st : Station T) : Option (Station T) :=
  let received := st.network.receive st.buffer
  let mail := Mail.read received.1 received.2.1
  let emptied :=
    { st with
      network := received.2.2
      buffer := received.2.1
      workerPc := .putting mail
      collected := st.collected ++ [mail] }
  if 0 ≤ mail.box ∧ mail.box < st.numBoxes ∧ mail.mailHdr.length.toNat ≤ maxMailSize then
    emptied.call d (.acquire (.list mail.box)) fun k => { emptied with kernel := k }
  else emptied.fail

/-- What the postal worker does next. -/
def workerProceed (d : Discipline) (st : Station T) : Option (Station T) :=
  match st.workerPc with
  | .start =>
      st.call d (.p .messageAvailable) fun k => { st with kernel := k, workerPc := .awaiting }
  | .awaiting => st.collect d
  | .putting mail =>
      st.call d (.signal (.listEmpty mail.box) (some (.list mail.box))) fun k =>
        { st with
          kernel := k
          workerPc := .signalled mail.box
          boxes := Function.update st.boxes mail.box (st.boxes mail.box ++ [mail]) }
  | .signalled box =>
      st.call d (.release (.list box)) fun k => { st with kernel := k, workerPc := .start }

/-! ### Interrupts -/

/-- `Network::CheckPktAvail` and `PostOffice::IncomingPacket`, with the packets
that are left at the socket. -/
def poll (d : Discipline) (socket : List Memory) (st : Station T) :
    Option (Station T × List Memory) :=
  match st.network.checkPktAvail socket.head? with
  | none =>
      if st.kernel.phase = .oneTick ∨ st.kernel.phase = .idle then
        some ({ st with failed := true }, socket.tail)
      else none
  | some (network, false) =>
      if st.kernel.phase = .oneTick ∨ st.kernel.phase = .idle then
        some ({ st with network := network }, socket)
      else none
  | some (network, true) =>
      (st.kernel.step d (.handlerV .messageAvailable)).map fun k =>
        ({ st with
            kernel := k
            network := network
            accepted := st.accepted ++ [network.mail] }, socket.tail)

/-- `Network::SendDone` and `PostOffice::PacketSent`. -/
def sendDone (d : Discipline) (st : Station T) : Option (Station T) :=
  if 0 < st.sendsPending then
    (st.kernel.step d (.handlerV .messageSent)).map fun k =>
      { st with
        kernel := k
        network := st.network.sendDone
        sendsPending := st.sendsPending - 1 }
  else none

end Station

/-! ### The whole system -/

/-- What a machine is started with: its main thread, the thread that the
constructor of `PostOffice` creates as postal worker, the number of mailboxes,
and what the memory of the new objects held. -/
structure Setup (T : Type) where
  main : T
  worker : T
  numBoxes : Int
  otherValue : Nat → Int
  lockMemory : PostLock → Lock T
  conditionMemory : PostCondition → Condition T PostLock
  networkMemory : Network
  bufferMemory : Memory

/-- Both semaphores of `PostOffice::PostOffice` start at 0. -/
def Setup.initialValue {T : Type} (setup : Setup T) : PostSemaphore → Int
  | .messageAvailable => 0
  | .messageSent => 0
  | .other n => setup.otherValue n

/-- A machine whose post office has just been constructed; the postal worker is
still to be forked. -/
def Station.boot {T : Type} [DecidableEq T] (addr : BitVec 32) (setup : Setup T) : Station T where
  kernel := .boot setup.main setup.initialValue setup.lockMemory setup.conditionMemory
  network := .construct addr.toInt setup.networkMemory
  netAddr := addr.toInt
  numBoxes := setup.numBoxes
  boxes := fun _ => []
  worker := setup.worker
  workerPc := .start
  buffer := setup.bufferMemory
  pc := fun _ => .outside
  sendsPending := 0
  failed := false
  handed := []
  accepted := []
  collected := []
  taken := fun _ => []

/-- The machines by their addresses, and the packets at each socket. -/
structure Post (T : Type) where
  stations : BitVec 32 → Station T
  sockets : BitVec 32 → List Memory

namespace Post

variable {T : Type} [DecidableEq T]

/-- Every machine is started. -/
def boot (setup : BitVec 32 → Setup T) : Post T where
  stations a := .boot a (setup a)
  sockets _ := []

/-- The machine at `a` becomes `st`. -/
def become (a : BitVec 32) (post : Post T) (st : Station T) : Post T :=
  { post with stations := Function.update post.stations a st }

/-- `SendToSocket`, if the packet is not lost. -/
def deliver (arrives : Bool) (post : Post T) : Option (BitVec 32 × Memory) → Post T
  | none => post
  | some (destination, packet) =>
      if arrives then
        { post with
          sockets := Function.update post.sockets destination
            (post.sockets destination ++ [packet]) }
      else post

/-- One step of the machine at `a`.  A machine whose program has ended makes no
more. -/
def step (d : Discipline) (post : Post T) (a : BitVec 32) (move : PostMove T) :
    Option (Post T) :=
  let st := post.stations a
  let isWorker := decide (st.kernel.currentThread = st.worker)
  if st.failed then none
  else
    match move, isWorker, st.pc st.kernel.currentThread with
    | .send destination mailHdr data heap, false, .outside =>
        (st.send d destination mailHdr data heap).map (post.become a)
    | .receive box, false, .outside => (st.receive d box).map (post.become a)
    | .other op, false, .outside =>
        if op.Foreign then
          (st.call d op fun k => { st with kernel := k }).map (post.become a)
        else none
    | .proceed arrives heap, false, _ =>
        (st.clientProceed d heap).map fun next => (post.become a next.1).deliver arrives next.2
    | .proceed _ _, true, _ => (st.workerProceed d).map (post.become a)
    | .system action, _, _ =>
        if action.Foreign then
          (st.kernel.step d action).map fun k => post.become a { st with kernel := k }
        else none
    | .poll, _, _ =>
        (st.poll d (post.sockets a)).map fun next =>
          { post.become a next.1 with sockets := Function.update post.sockets a next.2 }
    | .sendDone, _, _ => (st.sendDone d).map (post.become a)
    | _, _, _ => none

end Post

/-- The machines and the network between them. -/
def postMachine {T : Type} [DecidableEq T] (d : Discipline) :
    Lib.Machine (Post T) (BitVec 32 × PostMove T) where
  step post act := post.step d act.1 act.2

end Nachos
