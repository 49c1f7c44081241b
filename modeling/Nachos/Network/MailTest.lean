/-
Module: Nachos.Network.MailTest
Purpose: The test of nettest.cc on any number of machines, each of which greets
  another one, over sockets that lose packets.  What a machine prints is what
  others have meant for it, and a machine that ends the test knows that its
  greeting has arrived.
Trusted boundary: no thread but main uses the post office.
Main exports: MailTestPc, MailTest, MailTest.step, mailTestMachine, Stage,
  MailTest.Obeyed, mailTest_agrees
-/
import Nachos.Network.Delivery

namespace Nachos

open Lib

variable {T : Type} [DecidableEq T]

/-! ### The program -/

/-- Where the main thread is in `MailTest`. -/
inductive MailTestPc where
  | start
  /-- in the first `Send` or back from it -/
  | greeting
  /-- in `Receive` from box 0 or back from it -/
  | listening
  /-- in the second `Send` or back from it -/
  | acknowledging
  /-- in `Receive` from box 1 or back from it -/
  | awaiting
  | done
  /-- in `Halt` after a `Send` that failed -/
  | halted
deriving DecidableEq, Repr

/-- The machines that run the test. -/
structure MailTest (T : Type) where
  post : Post T
  pc : BitVec 32 → MailTestPc
  success : BitVec 32 → Bool
  /-- `inPktHdr`, `inMailHdr` and `buffer` -/
  inMail : BitVec 32 → Option Mail
  /-- what was printed as "Got" -/
  printed : BitVec 32 → List Mail

/-- What can happen next on a machine. -/
inductive MailTestMove (T : Type) where
  /-- main goes on in `MailTest`; `heap` is what a new buffer held -/
  | main (heap : Memory)
  /-- another thread, an interrupt, or main in the post office; of a packet that does
  not arrive, `lost` says that the network has lost it, so that `Send` reports success
  nevertheless -/
  | other (move : PostMove T) (lost : Bool)

/-- "Hello there!" and "Got it!", each with the zero at its end. -/
def greetingText : List UInt8 :=
  [72, 101, 108, 108, 111, 32, 116, 104, 101, 114, 101, 33, 0]

def ackText : List UInt8 :=
  [71, 111, 116, 32, 105, 116, 33, 0]

namespace MailTest

/-- The machine at `a` has done something in its post office, and main is at `pc`. -/
def goes (d : Discipline) (a : BitVec 32) (move : PostMove T) (pc : MailTestPc)
    (s : MailTest T) : Option (MailTest T) :=
  (s.post.step d a move).map fun post =>
    { s with post := post, pc := Function.update s.pc a pc }

/-- `printf("Got \"%s\" from %d, box %d\n", ..)`. -/
def print (a : BitVec 32) (mail : Mail) (s : MailTest T) : MailTest T :=
  { s with printed := Function.update s.printed a (s.printed a ++ [mail]) }

/-- What main does next when it is not in the post office. -/
def program (d : Discipline) (far a : BitVec 32) (heap : Memory) (s : MailTest T) :
    Option (MailTest T) :=
  match s.pc a with
  | .start =>
      s.goes d a (.send far ⟨0, 1, 13⟩ (Memory.ofList greetingText) heap) .greeting
  | .greeting =>
      if s.success a then s.goes d a (.receive 0) .listening
      else some { s with pc := Function.update s.pc a .halted }
  | .listening =>
      (s.inMail a).bind fun mail =>
        (s.print a mail).goes d a
          (.send (BitVec.ofInt 32 mail.pktHdr.fromAddr) ⟨mail.mailHdr.fromBox, 1, 8⟩
            (Memory.ofList ackText) heap) .acknowledging
  | .acknowledging =>
      if s.success a then s.goes d a (.receive 1) .awaiting
      else some { s with pc := Function.update s.pc a .halted }
  | .awaiting =>
      (s.inMail a).map fun mail =>
        { s.print a mail with pc := Function.update s.pc a .done }
  | .done => none
  | .halted => none

/-- What main takes note of when it goes on in the post office: whether `network->Send`
has succeeded, and the message that `Receive` returns with. -/
def note (a : BitVec 32) (pc : ClientPc) (arrives lost : Bool) (s : MailTest T) : MailTest T :=
  match pc with
  | .sending _ _ => { s with success := Function.update s.success a (arrives || lost) }
  | .got mail => { s with inMail := Function.update s.inMail a (some mail) }
  | _ => s

/-- One step of the machine at `a`; a machine that has halted makes no more.  Before
the test main may call anything else, for the constructor of `PostOffice` forks the
postal worker. -/
def step (d : Discipline) (main : T) (far : BitVec 32) (s : MailTest T) (a : BitVec 32)
    (move : MailTestMove T) : Option (MailTest T) :=
  let st := s.post.stations a
  let isMain := decide (st.kernel.currentThread = main)
  if s.pc a = .done ∨ s.pc a = .halted then none
  else
    match move with
    | .main heap =>
        match isMain, st.pc main with
        | true, .outside =>
            if st.kernel.phase = .running then s.program d far a heap else none
        | _, _ => none
    | .other move lost =>
        match move with
        | .send _ _ _ _ => none
        | .receive _ => none
        | .other op =>
            if isMain = true → s.pc a = .start then
              (s.post.step d a (.other op)).map fun post => { s with post := post }
            else none
        | .proceed arrives heap =>
            (s.post.step d a (.proceed arrives heap)).map fun post =>
              let after := { s with post := post }
              if isMain then after.note a (st.pc main) arrives lost else after
        | move => (s.post.step d a move).map fun post => { s with post := post }

/-- The post offices have been constructed, but the postal workers are still to be
forked. -/
def boot (setup : BitVec 32 → Setup T) : MailTest T where
  post := .boot setup
  pc _ := .start
  success _ := false
  inMail _ := none
  printed _ := []

end MailTest

/-- The test as a machine: main is thread `main a` of the machine at `a`, which was
started with `-o far a`. -/
def mailTestMachine (d : Discipline) (main : BitVec 32 → T) (far : BitVec 32 → BitVec 32) :
    Lib.Machine (MailTest T) (BitVec 32 × MailTestMove T) where
  step s act := s.step d (main act.1) (far act.1) act.1 act.2

/-! ### What a machine sends -/

/-- The first message of the machine at `a`, to the one at `far`. -/
def greetingMail (far a : BitVec 32) : Mail :=
  ⟨⟨far.toInt, a.toInt, 25⟩, ⟨0, 1, 13⟩, greetingText⟩

/-- Its answer to a message. -/
def ackMail (a : BitVec 32) (mail : Mail) : Mail :=
  ⟨⟨(BitVec.ofInt 32 mail.pktHdr.fromAddr).toInt, a.toInt, 20⟩, ⟨mail.mailHdr.fromBox, 1, 8⟩,
    ackText⟩

/-- How far main is: the places in `MailTest` and in the post office, the message that
`Receive` has returned with, and what was printed, handed to `Network::Send` and taken
from both boxes. -/
inductive Stage (far a : BitVec 32) : MailTestPc → ClientPc → Option Mail →
    List Mail → List Mail → List Mail → List Mail → Prop
  | start {inMail : Option Mail} : Stage far a .start .outside inMail [] [] [] []
  | greets {inMail : Option Mail} {buffer : Memory} :
      Stage far a .greeting (.sending (greetingMail far a) buffer) inMail [] [] [] []
  | greeted {inMail : Option Mail} {pc : ClientPc} (sent : pc = .sent ∨ pc = .outside) :
      Stage far a .greeting pc inMail [] [greetingMail far a] [] []
  | listens {inMail : Option Mail} {pc : ClientPc} (gets : pc = .getting 0 ∨ pc = .waiting 0) :
      Stage far a .listening pc inMail [] [greetingMail far a] [] []
  | hears {inMail : Option Mail} {mail : Mail} :
      Stage far a .listening (.got mail) inMail [] [greetingMail far a] [mail] []
  | heard {mail : Mail} :
      Stage far a .listening .outside (some mail) [] [greetingMail far a] [mail] []
  | acknowledges {inMail : Option Mail} {mail : Mail} {buffer : Memory} :
      Stage far a .acknowledging (.sending (ackMail a mail) buffer) inMail [mail]
        [greetingMail far a] [mail] []
  | acknowledged {inMail : Option Mail} {mail : Mail} {pc : ClientPc}
      (sent : pc = .sent ∨ pc = .outside) :
      Stage far a .acknowledging pc inMail [mail] [greetingMail far a, ackMail a mail] [mail] []
  | awaits {inMail : Option Mail} {mail : Mail} {pc : ClientPc}
      (gets : pc = .getting 1 ∨ pc = .waiting 1) :
      Stage far a .awaiting pc inMail [mail] [greetingMail far a, ackMail a mail] [mail] []
  | learns {inMail : Option Mail} {mail answer : Mail} :
      Stage far a .awaiting (.got answer) inMail [mail] [greetingMail far a, ackMail a mail]
        [mail] [answer]
  | learned {mail answer : Mail} :
      Stage far a .awaiting .outside (some answer) [mail]
        [greetingMail far a, ackMail a mail] [mail] [answer]
  | done {inMail : Option Mail} {mail answer : Mail} :
      Stage far a .done .outside inMail [mail, answer] [greetingMail far a, ackMail a mail]
        [mail] [answer]
  | unheard {inMail : Option Mail} :
      Stage far a .halted .outside inMail [] [greetingMail far a] [] []
  | unanswered {inMail : Option Mail} {mail : Mail} :
      Stage far a .halted .outside inMail [mail] [greetingMail far a, ackMail a mail] [mail] []

namespace Stage

variable {far a : BitVec 32} {pc : MailTestPc} {inMail : Option Mail}
variable {client : ClientPc} {mail : Mail} {buffer : Memory}
variable {printed handed taken0 taken1 : List Mail}

/-! ### Steps of main -/

theorem transmit
    (stage : Stage far a pc (.sending mail buffer) inMail printed handed taken0 taken1) :
    Stage far a pc .sent inMail printed (handed ++ [mail]) taken0 taken1 := by
  cases stage with
  | greets => exact .greeted (.inl rfl)
  | acknowledges => exact .acknowledged (.inl rfl)
  | greeted sent => simp at sent
  | acknowledged sent => simp at sent
  | listens gets => simp at gets
  | awaits gets => simp at gets

theorem release (stage : Stage far a pc .sent inMail printed handed taken0 taken1) :
    Stage far a pc .outside inMail printed handed taken0 taken1 := by
  cases stage with
  | greeted sent => exact .greeted (.inr rfl)
  | acknowledged sent => exact .acknowledged (.inr rfl)
  | listens gets => simp at gets
  | awaits gets => simp at gets

/-- Main is about to look into a mailbox: 0, of which it has taken nothing, or 1. -/
theorem wait {client : ClientPc} {box : Int}
    (gets : client = .getting box ∨ client = .waiting box)
    (stage : Stage far a pc client inMail printed handed taken0 taken1) :
    Stage far a pc (.waiting box) inMail printed handed taken0 taken1 := by
  cases stage with
  | listens here =>
      obtain rfl : 0 = box := by rcases here with rfl | rfl <;> simpa using gets
      exact .listens (.inr rfl)
  | awaits here =>
      obtain rfl : 1 = box := by rcases here with rfl | rfl <;> simpa using gets
      exact .awaits (.inr rfl)
  | greeted sent => rcases sent with rfl | rfl <;> simp at gets
  | acknowledged sent => rcases sent with rfl | rfl <;> simp at gets
  | _ => simp at gets

theorem remove {client : ClientPc} {box : Int} {taken : Int → List Mail} {mail : Mail}
    (gets : client = .getting box ∨ client = .waiting box)
    (stage : Stage far a pc client inMail printed handed (taken 0) (taken 1)) :
    Stage far a pc (.got mail) inMail printed handed
      (Function.update taken box (taken box ++ [mail]) 0)
      (Function.update taken box (taken box ++ [mail]) 1) := by
  generalize first : taken 0 = taken0 at stage
  generalize second : taken 1 = taken1 at stage
  cases stage with
  | listens here =>
      obtain rfl : 0 = box := by rcases here with rfl | rfl <;> simpa using gets
      rw [Function.update_self, Function.update_of_ne (by decide), first, second]
      exact .hears
  | awaits here =>
      obtain rfl : 1 = box := by rcases here with rfl | rfl <;> simpa using gets
      rw [Function.update_self, Function.update_of_ne (by decide), first, second]
      exact .learns
  | greeted sent => rcases sent with rfl | rfl <;> simp at gets
  | acknowledged sent => rcases sent with rfl | rfl <;> simp at gets
  | _ => simp at gets

theorem got_mem {taken : Int → List Mail}
    (stage : Stage far a pc (.got mail) inMail printed handed (taken 0) (taken 1)) :
    ∃ b, mail ∈ taken b := by
  generalize first : taken 0 = taken0 at stage
  generalize second : taken 1 = taken1 at stage
  cases stage with
  | hears => exact ⟨0, by simp [first]⟩
  | learns => exact ⟨1, by simp [second]⟩
  | greeted sent => simp at sent
  | acknowledged sent => simp at sent
  | listens gets => simp at gets
  | awaits gets => simp at gets

/-- What main has handed on: its greeting, and the answer to what it has printed. -/
theorem handed_cases (stage : Stage far a pc client inMail printed handed taken0 taken1)
    (member : mail ∈ handed) :
    mail = greetingMail far a ∨
      ∃ first rest, mail = ackMail a first ∧ printed = first :: rest ∧ first ∈ taken0 := by
  cases stage with
  | start | greets => cases member
  | greeted _ | listens _ | hears | heard | acknowledges | unheard =>
      exact .inl (List.mem_singleton.mp member)
  | acknowledged _ | awaits _ | learns | learned | done | unanswered =>
      rcases List.mem_cons.mp member with first | second
      · exact .inl first
      · exact .inr ⟨_, _, List.mem_singleton.mp second, rfl, .head _⟩

/-- What `Receive` will return with may be noted before. -/
theorem noted {later : Option Mail}
    (stage : Stage far a pc (.got mail) inMail printed handed taken0 taken1) :
    Stage far a pc (.got mail) later printed handed taken0 taken1 := by
  cases stage with
  | hears => exact .hears
  | learns => exact .learns
  | greeted sent => simp at sent
  | acknowledged sent => simp at sent
  | listens gets => simp at gets
  | awaits gets => simp at gets

/-- What main has printed was taken from the mailboxes. -/
theorem printed_cases (stage : Stage far a pc client inMail printed handed taken0 taken1) :
    (printed = [] ∧ pc ≠ .done) ∨ ∃ first ∈ taken0, (printed = [first] ∧ pc ≠ .done) ∨
      ∃ answer ∈ taken1, printed = [first, answer] := by
  cases stage with
  | start | greets | greeted _ | listens _ | hears | heard | unheard =>
      exact .inl ⟨rfl, nofun⟩
  | acknowledges | acknowledged _ | awaits _ | learns | learned | unanswered =>
      exact .inr ⟨_, .head _, .inl ⟨rfl, nofun⟩⟩
  | done => exact .inr ⟨_, .head _, .inr ⟨_, .head _, rfl⟩⟩

theorem returns (stage : Stage far a pc (.got mail) inMail printed handed taken0 taken1) :
    Stage far a pc .outside (some mail) printed handed taken0 taken1 := by
  cases stage with
  | hears => exact .heard
  | learns => exact .learned
  | greeted sent => simp at sent
  | acknowledged sent => simp at sent
  | listens gets => simp at gets
  | awaits gets => simp at gets

/-! ### Steps of main in the test -/

theorem greet (buffer : Memory)
    (stage : Stage far a .start .outside inMail printed handed taken0 taken1) :
    Stage far a .greeting (.sending (greetingMail far a) buffer) inMail printed handed taken0
      taken1 := by
  cases stage with
  | start => exact .greets

theorem listen (stage : Stage far a .greeting .outside inMail printed handed taken0 taken1) :
    Stage far a .listening (.getting 0) inMail printed handed taken0 taken1 := by
  cases stage with
  | greeted _ => exact .listens (.inl rfl)

theorem acknowledge (buffer : Memory)
    (stage : Stage far a .listening .outside (some mail) printed handed taken0 taken1) :
    mail ∈ taken0 ∧ Stage far a .acknowledging (.sending (ackMail a mail) buffer) (some mail)
      (printed ++ [mail]) handed taken0 taken1 := by
  cases stage with
  | heard => exact ⟨.head _, .acknowledges⟩
  | listens gets => simp at gets

theorem await (stage : Stage far a .acknowledging .outside inMail printed handed taken0 taken1) :
    Stage far a .awaiting (.getting 1) inMail printed handed taken0 taken1 := by
  cases stage with
  | acknowledged _ => exact .awaits (.inl rfl)

theorem finish
    (stage : Stage far a .awaiting .outside (some mail) printed handed taken0 taken1) :
    Stage far a .done .outside (some mail) (printed ++ [mail]) handed taken0 taken1 := by
  cases stage with
  | learned => exact .done
  | awaits gets => simp at gets

theorem halt (sends : pc = .greeting ∨ pc = .acknowledging)
    (stage : Stage far a pc .outside inMail printed handed taken0 taken1) :
    Stage far a .halted .outside inMail printed handed taken0 taken1 := by
  cases stage with
  | greeted _ => exact .unheard
  | acknowledged _ => exact .unanswered
  | _ => simp at sends

end Stage

/-! ### What a step does to its machine -/

/-- All that a step can do to the machine that makes it. -/
inductive Station.Moves (d : Discipline) (socket : List Memory) (st : Station T) :
    PostMove T → Station T → Prop
  | send {destination : BitVec 32} {mailHdr : MailHeader} {data heap : Memory} {st' : Station T}
      (sends : st.send d destination mailHdr data heap = some st') :
      Moves d socket st (.send destination mailHdr data heap) st'
  | receive {box : Int} {st' : Station T} (receives : st.receive d box = some st') :
      Moves d socket st (.receive box) st'
  | other {op : PostOp T} {k : PostKernel T} :
      Moves d socket st (.other op) { st with kernel := k }
  | client {arrives : Bool} {heap : Memory} {st' : Station T}
      {sent : Option (BitVec 32 × Memory)}
      (proceeds : st.clientProceed d heap = some (st', sent)) :
      Moves d socket st (.proceed arrives heap) st'
  | worker {arrives : Bool} {heap : Memory} {st' : Station T}
      (current : st.kernel.currentThread = st.worker)
      (proceeds : st.workerProceed d = some st') :
      Moves d socket st (.proceed arrives heap) st'
  | system {action : PostAction T} {k : PostKernel T} :
      Moves d socket st (.system action) { st with kernel := k }
  | poll {st' : Station T} {rest : List Memory} (polls : st.poll d socket = some (st', rest)) :
      Moves d socket st .poll st'
  | sendDone {st' : Station T} (done : st.sendDone d = some st') :
      Moves d socket st .sendDone st'

theorem Post.step_cases {d : Discipline} {post post' : Post T} {a : BitVec 32}
    {move : PostMove T} (step : post.step d a move = some post') :
    ∃ st', (post.stations a).Moves d (post.sockets a) move st' ∧
      post'.stations = Function.update post.stations a st' := by
  unfold Post.step at step
  dsimp only at step
  split at step
  · cases step
  · split at step
    · obtain ⟨st', sends, rfl⟩ := Option.map_eq_some_iff.mp step
      exact ⟨st', .send sends, rfl⟩
    · obtain ⟨st', receives, rfl⟩ := Option.map_eq_some_iff.mp step
      exact ⟨st', .receive receives, rfl⟩
    · split at step
      · obtain ⟨st', called, rfl⟩ := Option.map_eq_some_iff.mp step
        obtain ⟨k, -, rfl⟩ := Station.call_eq_some called
        exact ⟨_, .other, rfl⟩
      · cases step
    · obtain ⟨⟨st', sent⟩, proceeds, rfl⟩ := Option.map_eq_some_iff.mp step
      exact ⟨st', .client proceeds, stations_deliver _ _ _⟩
    · rename_i isWorker
      obtain ⟨st', proceeds, rfl⟩ := Option.map_eq_some_iff.mp step
      exact ⟨st', .worker (of_decide_eq_true isWorker) proceeds, rfl⟩
    · split at step
      · obtain ⟨k, -, rfl⟩ := Option.map_eq_some_iff.mp step
        exact ⟨_, .system, rfl⟩
      · cases step
    · obtain ⟨⟨st', rest⟩, polls, rfl⟩ := Option.map_eq_some_iff.mp step
      exact ⟨st', .poll polls, rfl⟩
    · obtain ⟨st', done, rfl⟩ := Option.map_eq_some_iff.mp step
      exact ⟨st', .sendDone done, rfl⟩
    · cases step

namespace Station

variable {d : Discipline} {socket : List Memory} {st st' : Station T} {a : BitVec 32}

/-- A step leaves alone what main does in the post office, and no assertion fails. -/
structure Undisturbed (st st' : Station T) : Prop where
  pc : st'.pc = st.pc
  handed : st'.handed = st.handed
  taken : st'.taken = st.taken
  numBoxes : st'.numBoxes = st.numBoxes
  free : st.network.sendBusy = false → st'.network.sendBusy = false
  failed : st'.failed = st.failed

/-- The postal worker finds the message to be legal. -/
theorem collect_undisturbed (sound : st.Sound a) (awaiting : st.workerPc = .awaiting)
    (current : st.kernel.currentThread = st.worker)
    (legal : ∀ mail ∈ st.buffered, mail.Framed ∧ 0 ≤ mail.box ∧ mail.box < st.numBoxes)
    (collects : st.collect d = some st') : Undisturbed st st' := by
  unfold collect at collects
  dsimp only at collects
  split at collects
  · obtain ⟨k, -, rfl⟩ := call_eq_some collects
    exact ⟨rfl, rfl, rfl, rfl, fun free => free, rfl⟩
  · rename_i illegal
    unfold fail at collects
    split at collects
    · rename_i running
      obtain ⟨full, -⟩ := sound.full awaiting running current
      have buffered : st.buffered = [st.network.mail] := if_neg full
      obtain ⟨framed, low, high⟩ := legal st.network.mail (by simp [buffered])
      rw [(read_of_receive st.buffer st.network framed).1] at illegal
      exact absurd ⟨low, high, framed.short⟩ illegal
    · cases collects

theorem worker_undisturbed (sound : st.Sound a)
    (current : st.kernel.currentThread = st.worker)
    (legal : ∀ mail ∈ st.buffered, mail.Framed ∧ 0 ≤ mail.box ∧ mail.box < st.numBoxes)
    (proceeds : st.workerProceed d = some st') : Undisturbed st st' := by
  unfold workerProceed at proceeds
  cases place : st.workerPc with
  | awaiting =>
      rw [place] at proceeds
      exact collect_undisturbed sound place current legal proceeds
  | start | putting mail | signalled box =>
      rw [place] at proceeds
      obtain ⟨k, -, rfl⟩ := call_eq_some proceeds
      exact ⟨rfl, rfl, rfl, rfl, fun free => free, rfl⟩

/-- The device finds the packet to be meant for it. -/
theorem poll_undisturbed {rest : List Memory}
    (legal : ∀ packet ∈ socket, (Mail.ofWire packet).Framed ∧
      (Mail.ofWire packet).pktHdr.toAddr = st.network.ident)
    (polls : st.poll d socket = some (st', rest)) : Undisturbed st st' := by
  unfold poll at polls
  split at polls
  · rename_i failed
    unfold Network.checkPktAvail at failed
    split at failed
    · cases failed
    · cases socket with
      | nil => cases failed
      | cons packet later =>
          obtain ⟨framed, toAddr⟩ := legal packet (.head _)
          have length : (PacketHeader.ofMemory packet).length =
              (Mail.ofWire packet).mailHdr.length.toNat + mailHeaderSize := framed.length
          have short := framed.short
          have fits : (PacketHeader.ofMemory packet).length ≤ maxPacketSize := by
            simp only [maxMailSize, maxPacketSize, mailHeaderSize] at *
            omega
          simp only [List.head?_cons] at failed
          rw [if_pos ⟨toAddr, fits⟩] at failed
          cases failed
  · rename_i network checked
    split at polls
    · cases polls
      rcases Network.checkPktAvail_cases checked with ⟨-, rfl⟩ | ⟨_, -, taken, -⟩
      · exact ⟨rfl, rfl, rfl, rfl, fun free => free, rfl⟩
      · cases taken
    · cases polls
  · rename_i network checked
    obtain ⟨k, -, pair⟩ := Option.map_eq_some_iff.mp polls
    cases pair
    rcases Network.checkPktAvail_cases checked with ⟨taken, -⟩ | ⟨buffer, -, -, -, -, rfl⟩
    · cases taken
    · exact ⟨rfl, rfl, rfl, rfl, fun free => free, rfl⟩

theorem sendDone_undisturbed (done : st.sendDone d = some st') : Undisturbed st st' := by
  unfold sendDone at done
  split at done
  · obtain ⟨k, -, rfl⟩ := Option.map_eq_some_iff.mp done
    exact ⟨rfl, rfl, rfl, rfl, fun _ => rfl, rfl⟩
  · cases done

end Station

/-! ### What holds on one machine -/

/-- Main is at one of the stages, no other thread is in the post office, and no
assertion has failed. -/
structure Station.Obeys (main : T) (far a : BitVec 32) (pc : MailTestPc)
    (inMail : Option Mail) (printed : List Mail) (st : Station T) : Prop where
  stage : Stage far a pc (st.pc main) inMail printed st.handed (st.taken 0) (st.taken 1)
  others : ∀ t, t ≠ main → st.pc t = .outside
  boxes : st.numBoxes = 10
  free : st.network.sendBusy = false
  failed : st.failed = false

namespace Station

variable {d : Discipline} {st st' : Station T} {main : T} {far a : BitVec 32}
variable {pc : MailTestPc} {inMail : Option Mail} {printed : List Mail}

section

omit [DecidableEq T]

theorem Obeys.undisturbed (obeys : st.Obeys main far a pc inMail printed)
    (undisturbed : Undisturbed st st') : st'.Obeys main far a pc inMail printed := by
  constructor
  · rw [undisturbed.pc, undisturbed.handed, undisturbed.taken]
    exact obeys.stage
  · rw [undisturbed.pc]
    exact obeys.others
  · rw [undisturbed.numBoxes]
    exact obeys.boxes
  · exact undisturbed.free obeys.free
  · rw [undisturbed.failed]
    exact obeys.failed

theorem Obeys.kernel (obeys : st.Obeys main far a pc inMail printed) (k : PostKernel T) :
    Obeys main far a pc inMail printed { st with kernel := k } :=
  obeys.undisturbed ⟨rfl, rfl, rfl, rfl, fun free => free, rfl⟩

end

/-- Main, which is running, goes to another place in the post office. -/
theorem Obeys.moves (obeys : st.Obeys main far a pc inMail printed)
    (current : st.kernel.currentThread = main) {k : PostKernel T} {boxes : Int → List Mail}
    {taken : Int → List Mail} {handed : List Mail} {sendsPending : Nat}
    {client : ClientPc} {pc' : MailTestPc} {inMail' : Option Mail} {printed' : List Mail}
    (stage : Stage far a pc' client inMail' printed' handed (taken 0) (taken 1)) :
    Obeys main far a pc' inMail' printed'
      { st with
        kernel := k
        pc := st.setPc client
        boxes := boxes
        taken := taken
        handed := handed
        sendsPending := sendsPending } := by
  refine ⟨?_, ?_, obeys.boxes, obeys.free, obeys.failed⟩
  · simpa [setPc, current] using stage
  · intro t other
    simp only [setPc, current, Function.update_of_ne other]
    exact obeys.others t other

/-- What main has in the post office, where it goes on: `note` is what it takes note
of. -/
theorem Obeys.client (obeys : st.Obeys main far a pc inMail printed) (sound : st.Sound a)
    (short : ∀ b, ∀ mail ∈ st.taken b, mail.Framed) {heap : Memory}
    {sent : Option (BitVec 32 × Memory)}
    (proceeds : st.clientProceed d heap = some (st', sent)) :
    st.kernel.currentThread = main ∧
      st'.Obeys main far a pc
        (match st.pc main with | .got mail => some mail | _ => inMail) printed := by
  have current : st.kernel.currentThread = main := by
    by_contra other
    unfold clientProceed at proceeds
    rw [obeys.others _ other] at proceeds
    cases proceeds
  refine ⟨current, ?_⟩
  have stage := obeys.stage
  unfold clientProceed at proceeds
  rw [current] at proceeds
  cases place : st.pc main with
  | outside =>
      rw [place] at proceeds
      cases proceeds
  | sending mail buffer =>
      rw [place] at proceeds stage
      obtain ⟨framed, fromAddr, -⟩ := sound.sending main mail buffer place
      have length := framed.length
      have short := framed.short
      have accepted : st.network.send mail.pktHdr buffer heap =
          some (st.network, Network.wire heap mail.pktHdr buffer) := by
        refine if_pos ⟨obeys.free, ?_, ?_, fromAddr.trans sound.ident.symm⟩
        · simp only [mailHeaderSize] at length
          omega
        · simp only [maxMailSize, maxPacketSize, mailHeaderSize] at *
          omega
      simp only [transmit, accepted] at proceeds
      obtain ⟨left, called, pair⟩ := Option.map_eq_some_iff.mp proceeds
      cases pair
      obtain ⟨k, -, rfl⟩ := call_eq_some called
      exact obeys.moves current stage.transmit
  | sent =>
      rw [place] at proceeds stage
      obtain ⟨left, called, pair⟩ := Option.map_eq_some_iff.mp proceeds
      cases pair
      obtain ⟨k, -, rfl⟩ := call_eq_some called
      exact obeys.moves current stage.release
  | getting box | waiting box =>
      rw [place] at proceeds stage
      obtain ⟨left, tests, pair⟩ := Option.map_eq_some_iff.mp proceeds
      cases pair
      unfold testAndRemove at tests
      cases contents : st.boxes box with
      | nil =>
          rw [contents] at tests
          obtain ⟨k, -, rfl⟩ := call_eq_some tests
          exact obeys.moves current (stage.wait (by simp))
      | cons mail rest =>
          rw [contents] at tests
          obtain ⟨k, -, rfl⟩ := call_eq_some tests
          exact obeys.moves current (stage.remove (by simp))
  | got mail =>
      rw [place] at proceeds stage
      obtain ⟨left, finishes, pair⟩ := Option.map_eq_some_iff.mp proceeds
      cases pair
      have member : ∃ b, mail ∈ st.taken b := stage.got_mem
      obtain ⟨b, member⟩ := member
      unfold finishReceive at finishes
      rw [if_pos (short b mail member).short] at finishes
      split at finishes
      · cases finishes
        exact obeys.moves current stage.returns
      · cases finishes

end Station

/-! ### What holds on all machines -/

/-- The messages are in order, and main obeys the program on every machine. -/
structure MailTest.Obeyed (main : BitVec 32 → T) (far : BitVec 32 → BitVec 32)
    (s : MailTest T) : Prop where
  inOrder : s.post.InOrder
  obeys : ∀ a, (s.post.stations a).Obeys (main a) (far a) a (s.pc a) (s.inMail a) (s.printed a)

namespace MailTest

variable {d : Discipline} {main : BitVec 32 → T} {far : BitVec 32 → BitVec 32}
variable {s s' : MailTest T} {a : BitVec 32}

/-- A message on its way is a greeting, or the answer to what was printed. -/
theorem Obeyed.sent (obeyed : s.Obeyed main far) {b : Int} {mail : Mail}
    (member : mail ∈ (s.post.stations a).pipe (s.post.sockets a) b) :
    mail.isFor a b ∧ ∃ sender, mail = greetingMail (far sender) sender ∨
      ∃ first rest, mail = ackMail sender first ∧ s.printed sender = first :: rest ∧
        first ∈ (s.post.stations sender).taken 0 := by
  obtain ⟨-, isFor, sender, -, handed⟩ := obeyed.inOrder.known member
  exact ⟨isFor, sender, (obeyed.obeys sender).stage.handed_cases handed⟩

omit [DecidableEq T] in
theorem taken_pipe {st : Station T} (socket : List Memory) {b : Int} {mail : Mail}
    (member : mail ∈ st.taken b) : mail ∈ st.pipe socket b := by
  unfold Station.pipe
  exact List.mem_append_left _ (List.mem_append_left _ member)

/-- All messages ask to be answered in box 1. -/
theorem Obeyed.fromBox (obeyed : s.Obeyed main far) {b : Int} {mail : Mail}
    (member : mail ∈ (s.post.stations a).pipe (s.post.sockets a) b) :
    mail.mailHdr.fromBox = 1 := by
  obtain ⟨-, sender, rfl | ⟨_, _, rfl, -, -⟩⟩ := obeyed.sent member
  · rfl
  · rfl

/-- What comes into box 0 is a greeting, and what comes into box 1 is the answer to
this machine's own greeting, which the machine that it went to has printed. -/
theorem Obeyed.arrived (obeyed : s.Obeyed main far) {b : Int} {mail : Mail}
    (member : mail ∈ (s.post.stations a).pipe (s.post.sockets a) b) :
    (b = 0 ∧ ∃ sender, far sender = a ∧ mail = greetingMail a sender) ∨
      (b = 1 ∧ mail = ackMail (far a) (greetingMail (far a) a) ∧
        ∃ rest, s.printed (far a) = greetingMail (far a) a :: rest) := by
  have greeting {a : BitVec 32} {b : Int} {sender : BitVec 32}
      (isFor : (greetingMail (far sender) sender).isFor a b) : far sender = a ∧ b = 0 := by
    simp only [Mail.isFor, decide_eq_true_eq] at isFor
    exact ⟨BitVec.eq_of_toInt_eq isFor.1, isFor.2.symm⟩
  obtain ⟨isFor, sender, rfl | ⟨first, rest, rfl, printed, taken⟩⟩ := obeyed.sent member
  · obtain ⟨rfl, rfl⟩ := greeting isFor
    exact .inl ⟨rfl, sender, rfl, rfl⟩
  · obtain ⟨firstFor, other, rfl | ⟨second, _, rfl, -, secondTaken⟩⟩ :=
      obeyed.sent (taken_pipe _ taken)
    · obtain ⟨rfl, -⟩ := greeting firstFor
      simp only [Mail.isFor, ackMail, greetingMail, BitVec.ofInt_toInt, decide_eq_true_eq]
        at isFor
      obtain rfl : other = a := BitVec.eq_of_toInt_eq isFor.1
      exact .inr ⟨isFor.2.symm, rfl, rest, printed⟩
    · -- an answer goes to box 1
      have asked := obeyed.fromBox (taken_pipe _ secondTaken)
      simp only [Mail.isFor, Mail.box, ackMail, asked, decide_eq_true_eq] at firstFor
      exact absurd firstFor.2 (by decide)

theorem Obeyed.legal (obeyed : s.Obeyed main far) {b : Int} {mail : Mail}
    (member : mail ∈ (s.post.stations a).pipe (s.post.sockets a) b) :
    mail.Framed ∧ mail.pktHdr.toAddr = a.toInt ∧ 0 ≤ mail.box ∧ mail.box < 10 := by
  obtain ⟨framed, isFor, -⟩ := obeyed.inOrder.known member
  simp only [Mail.isFor, decide_eq_true_eq] at isFor
  refine ⟨framed, isFor.1, ?_⟩
  rw [isFor.2]
  rcases obeyed.arrived member with ⟨rfl, -⟩ | ⟨rfl, -⟩
  · decide
  · decide

/-- A step of the machine at `a`. -/
theorem Obeyed.become (obeyed : s.Obeyed main far) {st' : Station T}
    (inOrder : s'.post.InOrder)
    (stations : s'.post.stations = Function.update s.post.stations a st')
    (rest : ∀ b, b ≠ a →
      s'.pc b = s.pc b ∧ s'.inMail b = s.inMail b ∧ s'.printed b = s.printed b)
    (here : st'.Obeys (main a) (far a) a (s'.pc a) (s'.inMail a) (s'.printed a)) :
    s'.Obeyed main far := by
  refine ⟨inOrder, ?_⟩
  intro b
  rw [stations]
  by_cases own : b = a
  · rw [own, Function.update_self]
    exact here
  · obtain ⟨pc, inMail, printed⟩ := rest b own
    rw [Function.update_of_ne own, pc, inMail, printed]
    exact obeyed.obeys b

/-- The length of the message is legal, and so is the mailbox. -/
theorem send_eq {st st' : Station T} {destination : BitVec 32} {mailHdr : MailHeader}
    {data heap : Memory} (netAddr : st.netAddr = a.toInt)
    (short : mailHdr.length.toNat ≤ maxMailSize)
    (box : 0 ≤ mailHdr.toBox.toInt ∧ mailHdr.toBox.toInt < st.numBoxes)
    (sends : st.send d destination mailHdr data heap = some st') :
    ∃ k buffer, st' = { st with
      kernel := k
      pc := st.setPc (.sending ⟨⟨destination.toInt, a.toInt,
        mailHdr.length.toNat + mailHeaderSize⟩, mailHdr, data.toList mailHdr.length.toNat⟩
        buffer) } := by
  unfold Station.send at sends
  rw [if_pos ⟨short, box⟩] at sends
  obtain ⟨k, -, rfl⟩ := Station.call_eq_some sends
  exact ⟨k, letter heap mailHdr data, by rw [netAddr]⟩

theorem receive_eq {st st' : Station T} {box : Int} (legal : 0 ≤ box ∧ box < st.numBoxes)
    (receives : st.receive d box = some st') :
    ∃ k, st' = { st with kernel := k, pc := st.setPc (.getting box) } := by
  unfold Station.receive at receives
  rw [if_pos legal] at receives
  obtain ⟨k, -, rfl⟩ := Station.call_eq_some receives
  exact ⟨k, rfl⟩

/-- What has happened on the machine at `a` when main goes to another place. -/
theorem goes_eq_some {move : PostMove T} {pc : MailTestPc}
    (goes : s.goes d a move pc = some s') :
    ∃ st', (s.post.stations a).Moves d (s.post.sockets a) move st' ∧
      s'.post.stations = Function.update s.post.stations a st' ∧
      s.post.step d a move = some s'.post ∧ s'.pc = Function.update s.pc a pc ∧
      s'.inMail = s.inMail ∧ s'.printed = s.printed := by
  obtain ⟨post, step, rfl⟩ := Option.map_eq_some_iff.mp goes
  obtain ⟨st', moves, stations⟩ := Post.step_cases step
  exact ⟨st', moves, stations, step, rfl, rfl, rfl⟩

/-- Main has gone to another place in the test, and may have printed a message. -/
theorem Obeyed.goes (obeyed : s.Obeyed main far) {move : PostMove T} {pc : MailTestPc}
    {printed : BitVec 32 → List Mail}
    (goes : MailTest.goes d a move pc { s with printed := printed } = some s')
    (rest : ∀ b, b ≠ a → printed b = s.printed b)
    (here : ∀ st', (s.post.stations a).Moves d (s.post.sockets a) move st' →
      st'.Obeys (main a) (far a) a pc (s.inMail a) (printed a)) : s'.Obeyed main far := by
  obtain ⟨st', moves, stations, step, places, inMail, print⟩ := goes_eq_some goes
  refine obeyed.become (obeyed.inOrder.step step) stations ?_ ?_
  · intro b other
    rw [places, inMail, print, Function.update_of_ne other]
    exact ⟨rfl, rfl, rest b other⟩
  · rw [places, inMail, print, Function.update_self]
    exact here st' moves

/-- Main has gone to another place in the test without a step of the post office. -/
theorem Obeyed.stays (obeyed : s.Obeyed main far) {pc : MailTestPc}
    {printed : BitVec 32 → List Mail} (rest : ∀ b, b ≠ a → printed b = s.printed b)
    (here : (s.post.stations a).Obeys (main a) (far a) a pc (s.inMail a) (printed a)) :
    Obeyed main far { s with pc := Function.update s.pc a pc, printed := printed } := by
  refine obeyed.become obeyed.inOrder (Function.update_eq_self a _).symm ?_ ?_
  · intro b other
    exact ⟨Function.update_of_ne other _ _, rfl, rest b other⟩
  · dsimp only
    rw [Function.update_self]
    exact here

/-- A `Send` has failed, and main has halted the machine. -/
theorem Obeyed.halts (obeyed : s.Obeyed main far)
    (outside : (s.post.stations a).pc (main a) = .outside)
    (sends : s.pc a = .greeting ∨ s.pc a = .acknowledging) :
    Obeyed main far { s with pc := Function.update s.pc a .halted } := by
  have here := obeyed.obeys a
  have stage := here.stage
  rw [outside] at stage
  refine obeyed.stays (fun _ _ => rfl) { here with stage := ?_ }
  rw [outside]
  exact stage.halt sends

/-- Main goes on in the test. -/
theorem Obeyed.program (obeyed : s.Obeyed main far) {heap : Memory}
    (current : (s.post.stations a).kernel.currentThread = main a)
    (outside : (s.post.stations a).pc (main a) = .outside)
    (goes : s.program d (far a) a heap = some s') : s'.Obeyed main far := by
  have here := obeyed.obeys a
  have netAddr := (obeyed.inOrder.sound a).netAddr
  have stage := here.stage
  rw [outside] at stage
  have receives (box : Int) (legal : box = 0 ∨ box = 1) (pc : MailTestPc)
      (next : Stage (far a) a pc (.getting box) (s.inMail a) (s.printed a)
        (s.post.stations a).handed ((s.post.stations a).taken 0) ((s.post.stations a).taken 1))
      (goes : s.goes d a (.receive box) pc = some s') : s'.Obeyed main far := by
    refine obeyed.goes goes (fun _ _ => rfl) ?_
    intro st' moves
    cases moves with
    | receive receives =>
        obtain ⟨k, rfl⟩ := receive_eq (by rw [here.boxes]; omega) receives
        exact here.moves current next
  unfold MailTest.program at goes
  cases place : s.pc a with
  | start =>
      rw [place] at goes stage
      refine obeyed.goes goes (fun _ _ => rfl) ?_
      intro st' moves
      cases moves with
      | send sends =>
          obtain ⟨k, buffer, rfl⟩ :=
            send_eq netAddr (by decide) (by rw [here.boxes]; decide) sends
          exact here.moves current (stage.greet buffer)
  | greeting =>
      rw [place] at goes stage
      dsimp only at goes
      split at goes
      · exact receives 0 (.inl rfl) _ stage.listen goes
      · cases goes
        exact obeyed.halts outside (.inl place)
  | listening =>
      rw [place] at goes stage
      obtain ⟨mail, inMail, goes⟩ := Option.bind_eq_some_iff.mp goes
      rw [inMail] at stage
      refine obeyed.goes goes (fun b other => Function.update_of_ne other _ _) ?_
      intro st' moves
      cases moves with
      | send sends =>
          have taken := (stage.acknowledge fun _ => 0).1
          have asked := obeyed.fromBox (taken_pipe (s.post.sockets a) taken)
          obtain ⟨k, buffer, rfl⟩ :=
            send_eq netAddr (show (8 : BitVec 32).toNat ≤ maxMailSize by decide)
              (by rw [here.boxes, asked]; decide) sends
          rw [inMail, Function.update_self]
          exact here.moves current (stage.acknowledge buffer).2
  | acknowledging =>
      rw [place] at goes stage
      dsimp only at goes
      split at goes
      · exact receives 1 (.inr rfl) _ stage.await goes
      · cases goes
        exact obeyed.halts outside (.inr place)
  | awaiting =>
      rw [place] at goes stage
      obtain ⟨mail, inMail, rfl⟩ := Option.map_eq_some_iff.mp goes
      rw [inMail] at stage
      refine obeyed.stays (fun b other => Function.update_of_ne other _ _)
        { here with stage := ?_ }
      have added : (s.print a mail).printed a = s.printed a ++ [mail] :=
        Function.update_self _ _ _
      rw [outside, inMail, added]
      exact stage.finish
  | done | halted =>
      rw [place] at goes
      cases goes

/-- A step of the machine that main does not take note of. -/
theorem Obeyed.moves (obeyed : s.Obeyed main far) {post : Post T} {move : PostMove T}
    (step : s.post.step d a move = some post)
    (here : ∀ st', (s.post.stations a).Moves d (s.post.sockets a) move st' →
      st'.Obeys (main a) (far a) a (s.pc a) (s.inMail a) (s.printed a)) :
    Obeyed main far { s with post := post } := by
  obtain ⟨st', moves, stations⟩ := Post.step_cases step
  exact obeyed.become (obeyed.inOrder.step step) stations (fun _ _ => ⟨rfl, rfl, rfl⟩)
    (here st' moves)

/-- What comes to the buffer of the device is legal. -/
theorem Obeyed.worker (obeyed : s.Obeyed main far) {st' : Station T}
    (current : (s.post.stations a).kernel.currentThread = (s.post.stations a).worker)
    (proceeds : (s.post.stations a).workerProceed d = some st') :
    Station.Undisturbed (s.post.stations a) st' := by
  have here := obeyed.obeys a
  refine Station.worker_undisturbed (obeyed.inOrder.sound a) current ?_ proceeds
  intro mail member
  have incoming : mail ∈ (s.post.stations a).incoming (s.post.sockets a) := by
    simp [Station.incoming, member]
  obtain ⟨framed, -, low, high⟩ := obeyed.legal (Station.mem_pipe_of_incoming incoming)
  rw [here.boxes]
  exact ⟨framed, low, high⟩

theorem Obeyed.poll (obeyed : s.Obeyed main far) {st' : Station T} {rest : List Memory}
    (polls : (s.post.stations a).poll d (s.post.sockets a) = some (st', rest)) :
    Station.Undisturbed (s.post.stations a) st' := by
  refine Station.poll_undisturbed ?_ polls
  intro packet member
  have incoming : Mail.ofWire packet ∈ (s.post.stations a).incoming (s.post.sockets a) := by
    unfold Station.incoming
    exact List.mem_append_right _ (List.mem_map_of_mem member)
  obtain ⟨framed, toAddr, -⟩ := obeyed.legal (Station.mem_pipe_of_incoming incoming)
  exact ⟨framed, toAddr.trans (obeyed.inOrder.sound a).ident.symm⟩

/-- Main, or the postal worker, goes on in the post office. -/
theorem Obeyed.proceed (obeyed : s.Obeyed main far) {post : Post T} {arrives : Bool}
    (lost : Bool) {heap : Memory} (step : s.post.step d a (.proceed arrives heap) = some post)
    (notes : s' = if (s.post.stations a).kernel.currentThread = main a then
        MailTest.note a ((s.post.stations a).pc (main a)) arrives lost { s with post := post }
      else { s with post := post }) : s'.Obeyed main far := by
  have here := obeyed.obeys a
  have framed (b : Int) (mail : Mail) (member : mail ∈ (s.post.stations a).taken b) :
      mail.Framed := (obeyed.legal (taken_pipe (s.post.sockets a) member)).1
  obtain ⟨st', moves, stations⟩ := Post.step_cases step
  have inOrder := obeyed.inOrder.step step
  cases moves with
  | worker current proceeds =>
      have undisturbed := obeyed.worker current proceeds
      have after := here.undisturbed undisturbed
      by_cases isMain : (s.post.stations a).kernel.currentThread = main a
      · rw [if_pos isMain] at notes
        subst notes
        cases place : (s.post.stations a).pc (main a) with
        | got mail =>
            refine obeyed.become inOrder stations ?_ ?_
            · exact fun b other => ⟨rfl, Function.update_of_ne other _ _, rfl⟩
            · have stage := after.stage
              rw [undisturbed.pc, place] at stage
              refine { after with stage := ?_ }
              rw [undisturbed.pc, place]
              exact stage.noted
        | sending mail buffer =>
            exact obeyed.become inOrder stations (fun _ _ => ⟨rfl, rfl, rfl⟩) after
        | outside | sent | getting box | waiting box =>
            exact obeyed.become inOrder stations (fun _ _ => ⟨rfl, rfl, rfl⟩) after
      · rw [if_neg isMain] at notes
        subst notes
        exact obeyed.become inOrder stations (fun _ _ => ⟨rfl, rfl, rfl⟩) after
  | client proceeds =>
      obtain ⟨current, after⟩ := here.client (obeyed.inOrder.sound a) framed proceeds
      rw [if_pos current] at notes
      subst notes
      cases place : (s.post.stations a).pc (main a) with
      | got mail =>
          rw [place] at after
          refine obeyed.become inOrder stations ?_ ?_
          · exact fun b other => ⟨rfl, Function.update_of_ne other _ _, rfl⟩
          · simp only [note]
            rw [Function.update_self]
            exact after
      | sending mail buffer =>
          rw [place] at after
          exact obeyed.become inOrder stations (fun _ _ => ⟨rfl, rfl, rfl⟩) after
      | outside | sent | getting box | waiting box =>
          rw [place] at after
          exact obeyed.become inOrder stations (fun _ _ => ⟨rfl, rfl, rfl⟩) after

/-- Every step of every machine keeps to the program. -/
theorem Obeyed.step (obeyed : s.Obeyed main far) {move : MailTestMove T}
    (step : s.step d (main a) (far a) a move = some s') : s'.Obeyed main far := by
  have here := obeyed.obeys a
  unfold MailTest.step at step
  dsimp only at step
  split at step
  · cases step
  · cases move with
    | main heap =>
        dsimp only at step
        split at step
        · rename_i isMain outside
          split at step
          · exact obeyed.program (of_decide_eq_true isMain) outside step
          · cases step
        · cases step
    | other move lost =>
        cases move with
        | send _ _ _ _ | receive _ => cases step
        | other op =>
            dsimp only at step
            split at step
            · obtain ⟨post, moved, rfl⟩ := Option.map_eq_some_iff.mp step
              refine obeyed.moves moved ?_
              intro st' moves
              cases moves with
              | other => exact here.kernel _
            · cases step
        | proceed arrives heap =>
            obtain ⟨post, moved, rfl⟩ := Option.map_eq_some_iff.mp step
            exact obeyed.proceed lost moved (by simp only [decide_eq_true_eq])
        | system action =>
            obtain ⟨post, moved, rfl⟩ := Option.map_eq_some_iff.mp step
            refine obeyed.moves moved ?_
            intro st' moves
            cases moves with
            | system => exact here.kernel _
        | poll =>
            obtain ⟨post, moved, rfl⟩ := Option.map_eq_some_iff.mp step
            refine obeyed.moves moved ?_
            intro st' moves
            cases moves with
            | poll polls => exact here.undisturbed (obeyed.poll polls)
        | sendDone =>
            obtain ⟨post, moved, rfl⟩ := Option.map_eq_some_iff.mp step
            refine obeyed.moves moved ?_
            intro st' moves
            cases moves with
            | sendDone done => exact here.undisturbed (Station.sendDone_undisturbed done)

theorem boot_obeyed {setup : BitVec 32 → Setup T} (boxes : ∀ a, (setup a).numBoxes = 10) :
    (boot setup).Obeyed main far := by
  refine ⟨Post.boot_inOrder setup, ?_⟩
  intro a
  exact ⟨.start, fun _ _ => rfl, boxes a, rfl, rfl⟩

/-- What a machine has printed, and what it knows at the end. -/
theorem Obeyed.printed (obeyed : s.Obeyed main far) (a : BitVec 32) :
    (s.printed a = [] ∧ s.pc a ≠ .done) ∨ ∃ sender, far sender = a ∧
      ((s.printed a = [greetingMail a sender] ∧ s.pc a ≠ .done) ∨
        (s.printed a = [greetingMail a sender, ackMail (far a) (greetingMail (far a) a)] ∧
          (s.printed (far a)).head? = some (greetingMail (far a) a))) := by
  rcases (obeyed.obeys a).stage.printed_cases with nothing | ⟨first, firstTaken, printed⟩
  · exact .inl nothing
  · right
    rcases obeyed.arrived (taken_pipe (s.post.sockets a) firstTaken) with
      ⟨-, sender, isFor, rfl⟩ | ⟨zero, -⟩
    · refine ⟨sender, isFor, printed.imp_right ?_⟩
      rintro ⟨answer, answerTaken, both⟩
      rcases obeyed.arrived (taken_pipe (s.post.sockets a) answerTaken) with
        ⟨one, -⟩ | ⟨-, rfl, rest, there⟩
      · exact absurd one (by decide)
      · exact ⟨both, by rw [there]; rfl⟩
    · exact absurd zero (by decide)

end MailTest

/-- The test on any number of machines, over sockets that lose packets: no assertion
fails; all that a machine prints is one greeting that was meant for it, and after it the
answer of the machine that it has greeted; and when the test has ended on a machine, the
machine that it has greeted has printed its greeting. -/
theorem mailTest_agrees {d : Discipline} {setup : BitVec 32 → Setup T}
    {far : BitVec 32 → BitVec 32} {s : MailTest T}
    {acts : List (BitVec 32 × MailTestMove T)} (boxes : ∀ a, (setup a).numBoxes = 10)
    (run : (mailTestMachine d (fun a => (setup a).main) far).exec (.boot setup) acts = some s) :
    (∀ a, (s.post.stations a).failed = false) ∧
    (∀ a, s.printed a = [] ∨ ∃ sender, far sender = a ∧
      (s.printed a = [greetingMail a sender] ∨
        s.printed a = [greetingMail a sender, ackMail (far a) (greetingMail (far a) a)])) ∧
    ∀ a, s.pc a = .done → (s.printed a).length = 2 ∧
      (s.printed (far a)).head? = some (greetingMail (far a) a) := by
  have obeyed : s.Obeyed (fun a => (setup a).main) far :=
    Lib.Machine.invariant (fun _ _ _ obeyed step => obeyed.step step)
      (MailTest.boot_obeyed boxes) run
  refine ⟨fun a => (obeyed.obeys a).failed, ?_, ?_⟩
  · intro a
    rcases obeyed.printed a with ⟨nothing, -⟩ | ⟨sender, isFor, ⟨one, -⟩ | ⟨both, -⟩⟩
    · exact .inl nothing
    · exact .inr ⟨sender, isFor, .inl one⟩
    · exact .inr ⟨sender, isFor, .inr both⟩
  · intro a done
    rcases obeyed.printed a with ⟨-, other⟩ | ⟨sender, -, ⟨-, other⟩ | ⟨both, there⟩⟩
    · exact absurd done other
    · exact absurd done other
    · exact ⟨by rw [both]; rfl, there⟩

/-- Every machine has a main thread, a postal worker and ten mailboxes. -/
def tenBoxes {T : Type} (main worker : T) (a : BitVec 32) : Setup T :=
  { twoThreads main worker a with numBoxes := 10 }

namespace MailTest

/-- A step of main in the test, and the others of a machine. -/
def goesOn (a : BitVec 32) : BitVec 32 × MailTestMove Bool :=
  (a, .main fun _ => 0)

def forks (a : BitVec 32) : BitVec 32 × MailTestMove Bool :=
  (a, .other (.other (.fork true)) false)

def proceeds (a : BitVec 32) : BitVec 32 × MailTestMove Bool :=
  (a, .other (.proceed true fun _ => 0) false)

def ticks (a : BitVec 32) : BitVec 32 × MailTestMove Bool :=
  (a, .other (.system .endTick) false)

def runs (a : BitVec 32) : BitVec 32 × MailTestMove Bool :=
  (a, .other (.system (.dispatch 0)) false)

def idles (a : BitVec 32) : BitVec 32 × MailTestMove Bool :=
  (a, .other (.system .idle) false)

def wakes (a : BitVec 32) : BitVec 32 × MailTestMove Bool :=
  (a, .other (.system .endIdle) false)

def sends (a : BitVec 32) : BitVec 32 × MailTestMove Bool :=
  (a, .other .sendDone false)

def polls (a : BitVec 32) : BitVec 32 × MailTestMove Bool :=
  (a, .other .poll false)

/-- Machines 0 and 1 greet each other and end the test. -/
def twoGreetings : List (BitVec 32 × MailTestMove Bool) :=
  [forks 0, ticks 0, forks 1, ticks 1, goesOn 0, ticks 0, proceeds 0, runs 0, ticks 0, proceeds 0,
    idles 0, sends 0, wakes 0, runs 0, ticks 0, proceeds 0, ticks 0, goesOn 0, ticks 0, proceeds 0,
    idles 0, goesOn 1, ticks 1, proceeds 1, polls 0, wakes 0, runs 0, ticks 0, proceeds 0, ticks 0,
    proceeds 0, ticks 0, proceeds 0, ticks 0, proceeds 0, runs 0, ticks 0, proceeds 0, ticks 0,
    proceeds 0, goesOn 0, ticks 0, proceeds 0, idles 0, sends 0, wakes 0, runs 0, ticks 0,
    proceeds 0, ticks 0, goesOn 0, ticks 0, proceeds 0, idles 0, runs 1, ticks 1, proceeds 1,
    idles 1, sends 1, polls 1, wakes 1, runs 1, ticks 1, proceeds 1, ticks 1, goesOn 1, ticks 1,
    proceeds 1, runs 1, ticks 1, proceeds 1, ticks 1, proceeds 1, ticks 1, proceeds 1, ticks 1,
    proceeds 1, runs 1, ticks 1, proceeds 1, ticks 1, proceeds 1, goesOn 1, ticks 1, proceeds 1,
    polls 0, wakes 0, runs 0, ticks 0, proceeds 0, ticks 0, proceeds 0, ticks 0, proceeds 0,
    ticks 0, proceeds 0, runs 0, ticks 0, proceeds 0, ticks 0, proceeds 0, goesOn 0, idles 1,
    sends 1, polls 1, wakes 1, runs 1, ticks 1, proceeds 1, ticks 1, goesOn 1, ticks 1, proceeds 1,
    runs 1, ticks 1, proceeds 1, ticks 1, proceeds 1, ticks 1, proceeds 1, ticks 1, proceeds 1,
    runs 1, ticks 1, proceeds 1, ticks 1, proceeds 1, goesOn 1]

end MailTest

theorem mailTest_agrees_twoGreetings :
    ∃ s : MailTest Bool,
      (mailTestMachine .fifo (fun a => (tenBoxes false true a).main) (fun a => 1 - a)).exec
        (.boot (tenBoxes false true)) MailTest.twoGreetings = some s ∧
      s.pc 0 = .done ∧ s.pc 1 = .done ∧
      (∀ a, (s.post.stations a).failed = false) ∧
      (∀ a, s.printed a = [] ∨ ∃ sender, 1 - sender = a ∧
        (s.printed a = [greetingMail a sender] ∨
          s.printed a =
            [greetingMail a sender, ackMail (1 - a) (greetingMail (1 - a) a)])) ∧
      ∀ a, s.pc a = .done → (s.printed a).length = 2 ∧
        (s.printed (1 - a)).head? = some (greetingMail (1 - a) a) := by
  have outcome :
      ((mailTestMachine .fifo (fun a => (tenBoxes false true a).main) (fun a => 1 - a)).exec
        (.boot (tenBoxes false true)) MailTest.twoGreetings).map (fun s => (s.pc 0, s.pc 1)) =
          some (.done, .done) := by
    decide +kernel
  obtain ⟨s, run, places⟩ := Option.map_eq_some_iff.mp outcome
  obtain ⟨zero, one⟩ := Prod.mk.inj places
  exact ⟨s, run, zero, one, mailTest_agrees (fun _ => rfl) run⟩

end Nachos
