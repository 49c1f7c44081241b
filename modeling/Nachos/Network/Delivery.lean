/-
Module: Nachos.Network.Delivery
Purpose: What the post office promises: on their way from `Network::Send` to
  `Receive` messages may be lost, but they keep their order and are neither
  changed nor doubled, and the count of `messageAvailable` is that of the
  packet in the buffer.
Trusted boundary: none
Main exports: Station.pipe, Station.Sound, Post.InOrder, post_keeps_order
-/
import Nachos.Network.PostOffice
import Nachos.Threads.Takers

namespace Nachos

open Lib

variable {T : Type} [DecidableEq T]

/-! ### The way of a message -/

namespace Station

/-- The message that the postal worker is about to put into its mailbox. -/
def inHand (st : Station T) : List Mail :=
  match st.workerPc with
  | .putting mail => [mail]
  | _ => []

/-- The message in the buffer of the network device. -/
def buffered (st : Station T) : List Mail :=
  if st.network.inHdr.length = 0 then [] else [st.network.mail]

/-- The messages on their way to the mailboxes, the one that is next first. -/
def incoming (socket : List Memory) (st : Station T) : List Mail :=
  st.inHand ++ st.buffered ++ socket.map Mail.ofWire

/-- All messages for mailbox `b` that are taken, in the mailbox or on their way,
in the order in which they are taken. -/
def pipe (socket : List Memory) (b : Int) (st : Station T) : List Mail :=
  st.taken b ++ st.boxes b ++ (st.incoming socket).filter fun mail => mail.box = b

section

omit [DecidableEq T]

theorem pipe_congr {st st' : Station T} {socket socket' : List Memory} {b : Int}
    (taken : st'.taken = st.taken) (boxes : st'.boxes = st.boxes)
    (incoming : st'.incoming socket' = st.incoming socket) :
    st'.pipe socket' b = st.pipe socket b := by
  unfold pipe
  rw [taken, boxes, incoming]

/-- A packet that reaches the socket is the last of the way. -/
theorem pipe_append (st : Station T) (socket : List Memory) (packet : Memory) (b : Int) :
    st.pipe (socket ++ [packet]) b =
      st.pipe socket b ++ [Mail.ofWire packet].filter fun mail => mail.box = b := by
  unfold pipe incoming
  simp only [List.map_append, List.map_singleton, List.filter_append, List.append_assoc]

theorem mem_pipe_of_incoming {st : Station T} {socket : List Memory} {mail : Mail}
    (member : mail ∈ st.incoming socket) : mail ∈ st.pipe socket mail.box := by
  unfold pipe
  apply List.mem_append_right
  exact List.mem_filter.mpr ⟨member, by simp⟩

end

end Station

/-- The postal worker has called `messageAvailable->P` since it last collected
a message. -/
def WorkerPc.inP : WorkerPc → Bool
  | .awaiting => true
  | _ => false

/-- The state of `messageAvailable` and of the postal worker. -/
def Station.Counted (st : Station T) (k : PostKernel T) : Prop :=
  Kernel.Taken .messageAvailable st.worker st.accepted.length
    (st.collected.length + st.workerPc.inP.toNat) st.workerPc.inP k

/-- The buffer of a thread that sends holds its message. -/
structure Addressed (a : BitVec 32) (mail : Mail) (buffer : Memory) : Prop where
  framed : mail.Framed
  fromAddr : mail.pktHdr.fromAddr = a.toInt
  holds : Mail.read mail.pktHdr buffer = mail

namespace Station

/-- What holds on the machine at `a` between two steps. -/
structure Sound (a : BitVec 32) (st : Station T) : Prop where
  arrivals : st.Counted st.kernel
  netAddr : st.netAddr = a.toInt
  ident : st.network.ident = a.toInt
  buffer : st.accepted = st.collected ++ st.buffered
  sending : ∀ t mail buffer, st.pc t = .sending mail buffer → Addressed a mail buffer

/-- The step touches nothing that the way of a message depends on. -/
structure Same (st st' : Station T) : Prop where
  worker : st'.worker = st.worker
  workerPc : st'.workerPc.inP = st.workerPc.inP
  accepted : st'.accepted = st.accepted
  collected : st'.collected = st.collected
  netAddr : st'.netAddr = st.netAddr
  ident : st'.network.ident = st.network.ident
  buffered : st'.buffered = st.buffered

variable {a : BitVec 32} {st st' : Station T} {d : Discipline} {k : PostKernel T}

theorem Sound.of_same (sound : st.Sound a) (same : Same st st')
    (arrivals : st.Counted st'.kernel)
    (sending : ∀ t mail buffer, st'.pc t = .sending mail buffer → Addressed a mail buffer) :
    st'.Sound a := by
  constructor
  · unfold Counted
    rw [same.worker, same.workerPc, same.accepted, same.collected]
    exact arrivals
  · rw [same.netAddr, sound.netAddr]
  · rw [same.ident, sound.ident]
  · rw [same.accepted, same.collected, same.buffered, sound.buffer]
  · exact sending

/-- A thread that is not sending has moved to another place. -/
theorem Sound.sending_setPc (sound : st.Sound a) {pc : ClientPc}
    (addressed : ∀ mail buffer, pc = .sending mail buffer → Addressed a mail buffer)
    (t : T) (mail : Mail) (buffer : Memory) (here : st.setPc pc t = .sending mail buffer) :
    Addressed a mail buffer := by
  unfold setPc at here
  by_cases own : t = st.kernel.currentThread
  · rw [own, Function.update_self] at here
    exact addressed mail buffer here
  · rw [Function.update_of_ne own] at here
    exact sound.sending t mail buffer here

theorem call_eq_some {op : PostOp T} {after : PostKernel T → Station T}
    (called : st.call d op after = some st') :
    ∃ k, st.kernel.step d (.call op) = some k ∧ st' = after k := by
  obtain ⟨k, step, rfl⟩ := Option.map_eq_some_iff.mp called
  exact ⟨k, step, rfl⟩

omit [DecidableEq T] in
theorem fail_eq_some (failed : st.fail = some st') : st' = { st with failed := true } := by
  unfold fail at failed
  split at failed
  · cases failed
    rfl
  · cases failed

theorem Sound.failed (sound : st.Sound a) : Sound a { st with failed := true } :=
  sound.of_same ⟨rfl, rfl, rfl, rfl, rfl, rfl, rfl⟩ sound.arrivals sound.sending

end Station

section

omit [DecidableEq T]

theorem spares_of_foreign_op {op : PostOp T} (foreign : op.Foreign = true) :
    (Action.call op : PostAction T).Spares .messageAvailable := by
  cases op with
  | p s | v s =>
      cases s with
      | other n => simp [Action.Spares]
      | messageAvailable => cases foreign
      | messageSent => cases foreign
  | _ => simp [Action.Spares]

theorem spares_of_foreign {action : PostAction T} (foreign : action.Foreign = true) :
    action.Spares .messageAvailable := by
  cases action with
  | call op => cases foreign
  | handlerV s | handlerP s =>
      cases s with
      | other n => simp [Action.Spares]
      | messageAvailable => cases foreign
      | messageSent => cases foreign
  | _ => simp [Action.Spares]

end

/-! ### Steps of one machine -/

theorem sublist_of_eq {α : Type} {first second : List α} (same : first = second) :
    first.Sublist second := by
  rw [same]

/-- A step of the machine at `a` that hands on no message: those on their way
keep their order, and some may get lost. -/
structure Advances (a : BitVec 32) (socket socket' : List Memory) (st st' : Station T) :
    Prop where
  sound : st'.Sound a
  handed : st'.handed = st.handed
  pipe : ∀ b, (st'.pipe socket' b).Sublist (st.pipe socket b)

namespace Station

variable {a : BitVec 32} {st st' : Station T} {d : Discipline} {socket : List Memory}

/-- A step that leaves every message where it is. -/
theorem Sound.stays (sound : st.Sound a) (same : Same st st') (handed : st'.handed = st.handed)
    (taken : st'.taken = st.taken) (boxes : st'.boxes = st.boxes)
    (inHand : st'.inHand = st.inHand)
    (arrivals : st.Counted st'.kernel)
    (sending : ∀ t mail buffer, st'.pc t = .sending mail buffer → Addressed a mail buffer) :
    Advances a socket socket st st' := by
  refine ⟨sound.of_same same arrivals sending, handed, ?_⟩
  intro b
  have incoming : st'.incoming socket = st.incoming socket := by
    unfold Station.incoming
    rw [inHand, same.buffered]
  rw [pipe_congr taken boxes incoming]

/-- Threads, and whether an assertion has failed, are not part of the way of a
message. -/
theorem Sound.keeps (sound : st.Sound a) {k : PostKernel T} {pc : T → ClientPc} {failed : Bool}
    (arrivals : st.Counted k)
    (sending : ∀ t mail buffer, pc t = .sending mail buffer → Addressed a mail buffer) :
    Advances a socket socket st { st with kernel := k, pc := pc, failed := failed } :=
  sound.stays ⟨rfl, rfl, rfl, rfl, rfl, rfl, rfl⟩ rfl rfl rfl rfl arrivals sending

theorem Sound.fails (sound : st.Sound a) (failed : st.fail = some st') :
    Advances a socket socket st st' := by
  rw [fail_eq_some failed]
  exact sound.keeps sound.arrivals sound.sending

/-- A thread calls a routine that is not about `messageAvailable` and goes to a
place where it is not sending. -/
theorem Sound.moves (sound : st.Sound a) {op : PostOp T} {k : PostKernel T} {pc : ClientPc}
    (spares : (Action.call op : PostAction T).Spares .messageAvailable)
    (step : st.kernel.step d (.call op) = some k)
    (addressed : ∀ mail buffer, pc = .sending mail buffer → Addressed a mail buffer) :
    Advances a socket socket st { st with kernel := k, pc := st.setPc pc } :=
  sound.keeps (sound.arrivals.step spares step) (sound.sending_setPc addressed)

theorem Sound.send (sound : st.Sound a) {destination : BitVec 32} {mailHdr : MailHeader}
    {data heap : Memory} (sends : st.send d destination mailHdr data heap = some st') :
    Advances a socket socket st st' := by
  unfold Station.send at sends
  split at sends
  · rename_i allowed
    obtain ⟨k, step, rfl⟩ := call_eq_some sends
    apply sound.moves (by simp [Action.Spares]) step
    rintro mail buffer ⟨⟩
    have framed := Memory.length_toList data mailHdr.length.toNat
    refine ⟨⟨rfl, allowed.1, ⟨destination, rfl⟩, ⟨a, sound.netAddr⟩, framed⟩, sound.netAddr, ?_⟩
    exact read_letter _ heap mailHdr data
  · exact sound.fails sends

theorem Sound.receive (sound : st.Sound a) {box : Int}
    (receives : st.receive d box = some st') : Advances a socket socket st st' := by
  unfold Station.receive at receives
  split at receives
  · obtain ⟨k, step, rfl⟩ := call_eq_some receives
    exact sound.moves (by simp [Action.Spares]) step (by simp)
  · exact sound.fails receives

theorem Sound.testAndRemove (sound : st.Sound a) {box : Int}
    (tests : st.testAndRemove d box = some st') : Advances a socket socket st st' := by
  unfold Station.testAndRemove at tests
  cases contents : st.boxes box with
  | nil =>
      rw [contents] at tests
      obtain ⟨k, step, rfl⟩ := call_eq_some tests
      exact sound.moves (by simp [Action.Spares]) step (by simp)
  | cons mail rest =>
      rw [contents] at tests
      obtain ⟨k, step, rfl⟩ := call_eq_some tests
      have arrivals := sound.arrivals.step (by simp [Action.Spares]) step
      refine ⟨sound.of_same ⟨rfl, rfl, rfl, rfl, rfl, rfl, rfl⟩ arrivals
        (sound.sending_setPc (by simp)), rfl, ?_⟩
      intro b
      apply sublist_of_eq
      unfold pipe Station.incoming
      by_cases here : b = box
      · rw [here]
        simp only [Function.update_self, contents, List.append_assoc, List.singleton_append]
        rfl
      · simp only [Function.update_of_ne here]
        rfl

theorem Sound.finishReceive (sound : st.Sound a) {mail : Mail}
    (finishes : st.finishReceive mail = some st') : Advances a socket socket st st' := by
  unfold Station.finishReceive at finishes
  split at finishes
  · split at finishes
    · cases finishes
      exact sound.keeps sound.arrivals (sound.sending_setPc (by simp))
    · cases finishes
  · exact sound.fails finishes

/-- When the postal worker has come back from `P`, the device holds a message
for it. -/
theorem Sound.full (sound : st.Sound a) (awaiting : st.workerPc = .awaiting)
    (running : st.kernel.phase = .running) (current : st.kernel.currentThread = st.worker) :
    st.network.inHdr.length ≠ 0 ∧ st.accepted = st.collected ++ [st.network.mail] := by
  have completed := (sound.arrivals.returned running current).completed
  have bound := sound.arrivals.completedP_le
  have buffer := sound.buffer
  rw [awaiting] at completed
  simp only [WorkerPc.inP, Bool.toNat_true] at completed
  unfold buffered at buffer
  split at buffer
  · rename_i empty
    rw [buffer, List.append_nil] at bound
    omega
  · rename_i full
    exact ⟨full, buffer⟩

theorem running_of_call {op : PostOp T} {k : PostKernel T}
    (step : st.kernel.step d (.call op) = some k) : st.kernel.phase = .running := by
  simp only [Kernel.step] at step
  split at step
  · rename_i enabled
    exact enabled.1
  · cases step

/-- The postal worker takes the message out of the device. -/
theorem Sound.collect (sound : st.Sound a) (awaiting : st.workerPc = .awaiting)
    (current : st.kernel.currentThread = st.worker)
    (framed : ∀ mail ∈ st.buffered, mail.Framed)
    (collects : st.collect d = some st') : Advances a socket socket st st' := by
  have returned (running : st.kernel.phase = .running) :
      Kernel.Taken .messageAvailable st.worker st.accepted.length
        (st.collected.length + 1) false st.kernel := by
    have arrivals := sound.arrivals.returned running current
    rw [awaiting] at arrivals
    exact arrivals
  have advances (running : st.kernel.phase = .running) {k : PostKernel T} {failed : Bool}
      (arrivals : Kernel.Taken .messageAvailable st.worker st.accepted.length
        (st.collected.length + 1) false k) :
      Advances a socket socket st
        { st with
          kernel := k
          network := (st.network.receive st.buffer).2.2
          buffer := (st.network.receive st.buffer).2.1
          workerPc := .putting
            (Mail.read (st.network.receive st.buffer).1 (st.network.receive st.buffer).2.1)
          failed := failed
          collected := st.collected ++
            [Mail.read (st.network.receive st.buffer).1 (st.network.receive st.buffer).2.1] } := by
    obtain ⟨full, accepted⟩ := sound.full awaiting running current
    have buffered : st.buffered = [st.network.mail] := if_neg full
    have whole := framed st.network.mail (by simp [buffered])
    rw [(read_of_receive st.buffer st.network whole).1]
    refine ⟨⟨?_, sound.netAddr, sound.ident, ?_, sound.sending⟩, rfl, ?_⟩
    · simpa [Counted, WorkerPc.inP] using arrivals
    · simp [Station.buffered, Network.receive, accepted]
    · intro b
      apply sublist_of_eq
      unfold pipe Station.incoming
      rw [buffered]
      simp [inHand, awaiting, Station.buffered, Network.receive]
  unfold Station.collect at collects
  dsimp only at collects
  split at collects
  · obtain ⟨k, step, rfl⟩ := call_eq_some collects
    have running := running_of_call step
    exact advances running ((returned running).step (by simp [Action.Spares]) step)
  · unfold fail at collects
    split at collects
    · rename_i running
      cases collects
      exact advances running (returned running)
    · cases collects

/-- The postal worker goes to another place, and its message, if it has one,
moves on. -/
theorem Sound.puts (sound : st.Sound a) (workerPc : WorkerPc) {k : PostKernel T}
    {boxes : Int → List Mail}
    (arrivals : Kernel.Taken .messageAvailable st.worker st.accepted.length
      (st.collected.length + workerPc.inP.toNat) workerPc.inP k)
    (moved : ∀ b, boxes b ++ (inHand { st with workerPc := workerPc }).filter
        (fun mail => mail.box = b) =
      st.boxes b ++ st.inHand.filter fun mail => mail.box = b) :
    Advances a socket socket st
      { st with kernel := k, workerPc := workerPc, boxes := boxes } := by
  refine ⟨⟨arrivals, sound.netAddr, sound.ident, sound.buffer, sound.sending⟩, rfl, ?_⟩
  intro b
  apply sublist_of_eq
  have hand : inHand { st with kernel := k, workerPc := workerPc, boxes := boxes } =
      inHand { st with workerPc := workerPc } := rfl
  have buffered : Station.buffered { st with kernel := k, workerPc := workerPc, boxes := boxes } =
      st.buffered := rfl
  unfold pipe Station.incoming
  rw [hand, buffered]
  simp only [List.filter_append, ← List.append_assoc]
  rw [List.append_assoc (st.taken b), moved b, ← List.append_assoc]

theorem Sound.workerProceed (sound : st.Sound a)
    (current : st.kernel.currentThread = st.worker)
    (framed : ∀ mail ∈ st.buffered, mail.Framed)
    (proceeds : st.workerProceed d = some st') : Advances a socket socket st st' := by
  unfold Station.workerProceed at proceeds
  cases place : st.workerPc with
  | start =>
      rw [place] at proceeds
      obtain ⟨k, step, rfl⟩ := call_eq_some proceeds
      have arrivals := sound.arrivals.callP current step
      rw [place] at arrivals
      exact sound.puts .awaiting arrivals fun b => by simp [inHand, place]
  | awaiting =>
      rw [place] at proceeds
      exact sound.collect place current framed proceeds
  | putting mail =>
      rw [place] at proceeds
      obtain ⟨k, step, rfl⟩ := call_eq_some proceeds
      have arrivals := sound.arrivals.step (by simp [Action.Spares]) step
      rw [place] at arrivals
      apply sound.puts (.signalled mail.box) arrivals
      intro b
      by_cases here : b = mail.box
      · simp [inHand, place, here]
      · simp [inHand, place, here, Ne.symm here]
  | signalled box =>
      rw [place] at proceeds
      obtain ⟨k, step, rfl⟩ := call_eq_some proceeds
      have arrivals := sound.arrivals.step (by simp [Action.Spares]) step
      rw [place] at arrivals
      exact sound.puts .start arrivals fun b => by simp [inHand, place]

/-! ### Interrupts -/

/-- A packet comes into the empty buffer of the device, or the assertion about
it fails and it is lost. -/
theorem Sound.poll (sound : st.Sound a) {socket' : List Memory}
    (framed : ∀ packet ∈ socket, (Mail.ofWire packet).Framed)
    (polls : st.poll d socket = some (st', socket')) : Advances a socket socket' st st' := by
  unfold Station.poll at polls
  split at polls
  · split at polls
    · cases polls
      refine ⟨sound.failed, rfl, ?_⟩
      intro b
      unfold pipe Station.incoming
      apply List.Sublist.append (List.Sublist.refl _)
      apply List.Sublist.filter
      exact List.Sublist.append (List.Sublist.refl _) ((List.tail_sublist socket).map _)
    · cases polls
  · rename_i network checked
    split at polls
    · cases polls
      have same : network = st.network := by
        rcases Network.checkPktAvail_cases checked with ⟨-, unchanged⟩ | ⟨_, -, taken, -⟩
        · exact unchanged
        · cases taken
      rw [same]
      exact sound.keeps sound.arrivals sound.sending
    · cases polls
  · rename_i network checked
    obtain ⟨k, step, pair⟩ := Option.map_eq_some_iff.mp polls
    cases pair
    cases socket with
    | nil =>
        rcases Network.checkPktAvail_cases checked with ⟨taken, -⟩ | ⟨_, nothing, -⟩
        · cases taken
        · cases nothing
    | cons packet rest =>
        obtain ⟨empty, mail, full, -, ident⟩ :=
          mail_of_checkPktAvail (framed packet (by simp)) checked
        have before : st.buffered = [] := if_pos empty
        have arrivals := sound.arrivals.handlerV step
        refine ⟨⟨?_, sound.netAddr, ident.trans sound.ident, ?_, sound.sending⟩, rfl, ?_⟩
        · simpa [Counted] using arrivals
        · have buffer := sound.buffer
          rw [before, List.append_nil] at buffer
          simp [Station.buffered, full, buffer]
        · intro b
          apply sublist_of_eq
          unfold pipe Station.incoming
          rw [before]
          simp [inHand, Station.buffered, full, mail]

theorem Sound.sendDone (sound : st.Sound a) (done : st.sendDone d = some st') :
    Advances a socket socket st st' := by
  unfold Station.sendDone at done
  split at done
  · obtain ⟨k, step, rfl⟩ := Option.map_eq_some_iff.mp done
    exact sound.stays ⟨rfl, rfl, rfl, rfl, rfl, rfl, rfl⟩ rfl rfl rfl rfl
      (sound.arrivals.step (by simp [Action.Spares]) step) sound.sending
  · cases done

end Station

/-! ### Steps of the whole system -/

/-- The message comes from the machine at `s`. -/
def Mail.isFrom (s : BitVec 32) (mail : Mail) : Bool :=
  mail.pktHdr.fromAddr = s.toInt

theorem Mail.isFrom_unique {s s' : BitVec 32} {mail : Mail} (first : mail.isFrom s)
    (second : mail.isFrom s') : s = s' := by
  simp only [isFrom, decide_eq_true_eq] at first second
  exact BitVec.eq_of_toInt_eq (first.symm.trans second)

/-- The message is for mailbox `b` of the machine at `a`. -/
def Mail.isFor (a : BitVec 32) (b : Int) (mail : Mail) : Bool :=
  mail.pktHdr.toAddr = a.toInt ∧ mail.box = b

/-- What holds between two steps. -/
structure Post.InOrder (post : Post T) : Prop where
  sound : ∀ a, (post.stations a).Sound a
  handed : ∀ s, ∀ mail ∈ (post.stations s).handed, mail.Framed ∧ mail.isFrom s
  origin : ∀ a b, ∀ mail ∈ (post.stations a).pipe (post.sockets a) b,
    ∃ s : BitVec 32, mail.isFrom s
  order : ∀ a b s,
    (((post.stations a).pipe (post.sockets a) b).filter (Mail.isFrom s)).Sublist
      ((post.stations s).handed.filter (Mail.isFor a b))

namespace Post

variable {post post' : Post T} {a : BitVec 32} {st' : Station T} {d : Discipline}

/-- A message on its way was handed on by the machine that it comes from. -/
theorem InOrder.known (inOrder : post.InOrder) {b : Int} {mail : Mail}
    (member : mail ∈ (post.stations a).pipe (post.sockets a) b) :
    mail.Framed ∧ mail.isFor a b ∧
      ∃ s, mail.isFrom s ∧ mail ∈ (post.stations s).handed := by
  obtain ⟨s, isFrom⟩ := inOrder.origin a b mail member
  have sent : mail ∈ (post.stations s).handed.filter (Mail.isFor a b) :=
    (inOrder.order a b s).subset (List.mem_filter.mpr ⟨member, isFrom⟩)
  obtain ⟨handed, isFor⟩ := List.mem_filter.mp sent
  exact ⟨(inOrder.handed s mail handed).1, isFor, s, isFrom, handed⟩

theorem InOrder.framed_buffered (inOrder : post.InOrder) {mail : Mail}
    (member : mail ∈ (post.stations a).buffered) : mail.Framed := by
  have here : mail ∈ (post.stations a).incoming (post.sockets a) := by
    unfold Station.incoming
    simp [member]
  exact (inOrder.known (Station.mem_pipe_of_incoming here)).1

theorem InOrder.framed_packet (inOrder : post.InOrder) {packet : Memory}
    (member : packet ∈ post.sockets a) : (Mail.ofWire packet).Framed := by
  have here : Mail.ofWire packet ∈ (post.stations a).incoming (post.sockets a) := by
    unfold Station.incoming
    exact List.mem_append_right _ (List.mem_map_of_mem member)
  exact (inOrder.known (Station.mem_pipe_of_incoming here)).1

theorem InOrder.sound_become (inOrder : post.InOrder) (sound : st'.Sound a) (a' : BitVec 32) :
    ((post.become a st').stations a').Sound a' := by
  by_cases own : a' = a
  · rw [own]
    simpa [become] using sound
  · simpa [become, own] using inOrder.sound a'

/-- A step of one machine that hands on no message. -/
theorem InOrder.advance (inOrder : post.InOrder) {socket' : List Memory}
    (advances : Advances a (post.sockets a) socket' (post.stations a) st') :
    InOrder { post.become a st' with sockets := Function.update post.sockets a socket' } := by
  have handed (s : BitVec 32) :
      (Function.update post.stations a st' s).handed = (post.stations s).handed := by
    by_cases own : s = a
    · rw [own, Function.update_self, advances.handed]
    · rw [Function.update_of_ne own]
  have pipe (a' : BitVec 32) (b : Int) :
      ((Function.update post.stations a st' a').pipe
          (Function.update post.sockets a socket' a') b).Sublist
        ((post.stations a').pipe (post.sockets a') b) := by
    by_cases own : a' = a
    · rw [own, Function.update_self, Function.update_self]
      exact advances.pipe b
    · rw [Function.update_of_ne own, Function.update_of_ne own]
  constructor
  · exact inOrder.sound_become advances.sound
  · intro s mail member
    apply inOrder.handed s mail
    rw [← handed s]
    exact member
  · intro a' b mail member
    exact inOrder.origin a' b mail ((pipe a' b).subset member)
  · intro a' b s
    have shorter := (pipe a' b).filter (Mail.isFrom s)
    have ordered := inOrder.order a' b s
    rw [← handed s] at ordered
    exact shorter.trans ordered

/-- The same when the packets at the socket stay. -/
theorem InOrder.become (inOrder : post.InOrder)
    (advances : Advances a (post.sockets a) (post.sockets a) (post.stations a) st') :
    (post.become a st').InOrder := by
  have ordered := inOrder.advance advances
  rwa [Function.update_eq_self] at ordered

section

omit [DecidableEq T]

theorem stations_deliver (arrives : Bool) (post : Post T)
    (sent : Option (BitVec 32 × Memory)) :
    (post.deliver arrives sent).stations = post.stations := by
  cases sent with
  | none => rfl
  | some packet =>
      cases arrives with
      | false => rfl
      | true => rfl

/-- The packet is added at the end of the way to its mailbox, or it is lost. -/
theorem pipe_deliver (arrives : Bool) (post : Post T) (destination : BitVec 32)
    (packet : Memory) (a : BitVec 32) (b : Int) :
    ∃ extra, (extra = [] ∨
        (extra = [Mail.ofWire packet] ∧ a = destination ∧ (Mail.ofWire packet).box = b)) ∧
      (post.stations a).pipe ((post.deliver arrives (some (destination, packet))).sockets a) b =
        (post.stations a).pipe (post.sockets a) b ++ extra := by
  cases arrives with
  | false => exact ⟨[], Or.inl rfl, (List.append_nil _).symm⟩
  | true =>
      by_cases there : a = destination
      · refine ⟨[Mail.ofWire packet].filter fun mail => mail.box = b, ?_, ?_⟩
        · by_cases boxed : (Mail.ofWire packet).box = b
          · right
            simp [boxed, there]
          · left
            simp [boxed]
        · rw [there, ← Station.pipe_append]
          simp [deliver]
      · exact ⟨[], Or.inl rfl, by simp [deliver, there]⟩

end

/-- A message is handed on, and its packet reaches the socket or is lost. -/
theorem InOrder.hand (inOrder : post.InOrder) {mail : Mail} {packet : Memory}
    {destination : BitVec 32} {arrives : Bool} (framed : mail.Framed) (isFrom : mail.isFrom a)
    (addressed : mail.pktHdr.toAddr = destination.toInt) (wired : Mail.ofWire packet = mail)
    (sound : st'.Sound a) (handed : st'.handed = (post.stations a).handed ++ [mail])
    (same : ∀ b, st'.pipe (post.sockets a) b =
      (post.stations a).pipe (post.sockets a) b) :
    ((post.become a st').deliver arrives (some (destination, packet))).InOrder := by
  have station (a' : BitVec 32) (b : Int) :
      (Function.update post.stations a st' a').pipe (post.sockets a') b =
        (post.stations a').pipe (post.sockets a') b := by
    by_cases own : a' = a
    · rw [own, Function.update_self]
      exact same b
    · rw [Function.update_of_ne own]
  have pipe (a' : BitVec 32) (b : Int) :
      ∃ extra, (extra = [] ∨ (extra = [mail] ∧ mail.isFor a' b)) ∧
        (((post.become a st').deliver arrives (some (destination, packet))).stations a').pipe
            (((post.become a st').deliver arrives (some (destination, packet))).sockets a') b =
          (post.stations a').pipe (post.sockets a') b ++ extra := by
    obtain ⟨extra, added, whole⟩ :=
      pipe_deliver arrives (post.become a st') destination packet a' b
    rw [wired] at added
    refine ⟨extra, added.imp_right ?_, ?_⟩
    · rintro ⟨last, there, boxed⟩
      exact ⟨last, by simp [Mail.isFor, addressed, there, boxed]⟩
    · rw [stations_deliver, whole]
      exact congrArg (· ++ extra) (station a' b)
  have sent (s : BitVec 32) :
      (Function.update post.stations a st' s).handed =
        (post.stations s).handed ++ if s = a then [mail] else [] := by
    by_cases own : s = a
    · rw [own, Function.update_self, if_pos rfl, handed]
    · rw [Function.update_of_ne own, if_neg own, List.append_nil]
  constructor
  · intro a'
    rw [stations_deliver]
    exact inOrder.sound_become sound a'
  · intro s other member
    rw [stations_deliver] at member
    rcases List.mem_append.mp (sent s ▸ member) with before | last
    · exact inOrder.handed s other before
    · split at last
      · rename_i own
        rw [List.mem_singleton.mp last, own]
        exact ⟨framed, isFrom⟩
      · cases last
  · intro a' b other member
    obtain ⟨extra, cases, whole⟩ := pipe a' b
    rw [whole] at member
    rcases List.mem_append.mp member with before | last
    · exact inOrder.origin a' b other before
    · rcases cases with rfl | ⟨rfl, -⟩
      · cases last
      · exact ⟨a, List.mem_singleton.mp last ▸ isFrom⟩
  · intro a' b s
    obtain ⟨extra, cases, whole⟩ := pipe a' b
    rw [whole, stations_deliver]
    simp only [Post.become]
    rw [sent s, List.filter_append, List.filter_append]
    apply List.Sublist.append (inOrder.order a' b s)
    rcases cases with rfl | ⟨rfl, isFor⟩
    · exact List.nil_sublist _
    · by_cases own : s = a
      · rw [if_pos own]
        simp [isFor, List.filter_cons]
      · have other : ¬ mail.isFrom s := fun claimed => own (Mail.isFrom_unique claimed isFrom)
        rw [List.filter_cons_of_neg other]
        exact List.nil_sublist _

theorem InOrder.transmit (inOrder : post.InOrder) {mail : Mail} {buffer heap : Memory}
    {sent : Option (BitVec 32 × Memory)} (arrives : Bool)
    (addressed : Addressed a mail buffer)
    (transmits : (post.stations a).transmit d mail buffer heap = some (st', sent)) :
    ((post.become a st').deliver arrives sent).InOrder := by
  have sound := inOrder.sound a
  unfold Station.transmit at transmits
  split at transmits
  · obtain ⟨left, failed, pair⟩ := Option.map_eq_some_iff.mp transmits
    cases pair
    exact inOrder.become (sound.fails failed)
  · rename_i network packet sends
    obtain ⟨left, called, pair⟩ := Option.map_eq_some_iff.mp transmits
    cases pair
    obtain ⟨k, step, rfl⟩ := Station.call_eq_some called
    obtain ⟨-, rfl, rfl⟩ := Network.send_eq_some sends
    have wired : Mail.ofWire (Network.wire heap mail.pktHdr buffer) = mail := by
      rw [ofWire_wire heap (addressed.holds.symm ▸ addressed.framed), addressed.holds]
    obtain ⟨destination, toAddr⟩ := addressed.framed.toAddr
    have place : mail.pktHdr.toAddr = (BitVec.ofInt 32 mail.pktHdr.toAddr).toInt := by
      rw [toAddr, BitVec.ofInt_toInt]
    apply inOrder.hand addressed.framed _ place wired
    · exact sound.of_same ⟨rfl, rfl, rfl, rfl, rfl, rfl, rfl⟩
        (sound.arrivals.step (by simp [Action.Spares]) step)
        (sound.sending_setPc (by simp))
    · rfl
    · exact fun b => rfl
    · simp [Mail.isFrom, addressed.fromAddr]

theorem InOrder.clientProceed (inOrder : post.InOrder) {heap : Memory}
    {sent : Option (BitVec 32 × Memory)} (arrives : Bool)
    (proceeds : (post.stations a).clientProceed d heap = some (st', sent)) :
    ((post.become a st').deliver arrives sent).InOrder := by
  have sound := inOrder.sound a
  unfold Station.clientProceed at proceeds
  split at proceeds
  · cases proceeds
  · rename_i mail buffer place
    exact inOrder.transmit arrives (sound.sending _ mail buffer place) proceeds
  · obtain ⟨left, called, pair⟩ := Option.map_eq_some_iff.mp proceeds
    cases pair
    obtain ⟨k, step, rfl⟩ := Station.call_eq_some called
    exact inOrder.become (sound.moves (by simp [Action.Spares]) step (by simp))
  · obtain ⟨left, tests, pair⟩ := Option.map_eq_some_iff.mp proceeds
    cases pair
    exact inOrder.become (sound.testAndRemove tests)
  · obtain ⟨left, tests, pair⟩ := Option.map_eq_some_iff.mp proceeds
    cases pair
    exact inOrder.become (sound.testAndRemove tests)
  · obtain ⟨left, finishes, pair⟩ := Option.map_eq_some_iff.mp proceeds
    cases pair
    exact inOrder.become (sound.finishReceive finishes)

/-- A call of something else, or a step of the thread system. -/
theorem InOrder.foreign (inOrder : post.InOrder) {action : PostAction T} {k : PostKernel T}
    (spares : action.Spares .messageAvailable)
    (step : (post.stations a).kernel.step d action = some k) :
    (post.become a { post.stations a with kernel := k }).InOrder := by
  have sound := inOrder.sound a
  apply inOrder.become
  exact sound.keeps (sound.arrivals.step spares step) sound.sending

/-- Every step of every machine keeps the messages in order. -/
theorem InOrder.step (inOrder : post.InOrder) {move : PostMove T}
    (step : post.step d a move = some post') : post'.InOrder := by
  have sound := inOrder.sound a
  unfold Post.step at step
  dsimp only at step
  split at step
  · cases step
  · split at step
    · obtain ⟨st', sends, rfl⟩ := Option.map_eq_some_iff.mp step
      exact inOrder.become (sound.send sends)
    · obtain ⟨st', receives, rfl⟩ := Option.map_eq_some_iff.mp step
      exact inOrder.become (sound.receive receives)
    · split at step
      · rename_i foreign
        obtain ⟨st', called, rfl⟩ := Option.map_eq_some_iff.mp step
        obtain ⟨k, kernelStep, rfl⟩ := Station.call_eq_some called
        exact inOrder.foreign (spares_of_foreign_op foreign) kernelStep
      · cases step
    · obtain ⟨⟨st', sent⟩, proceeds, rfl⟩ := Option.map_eq_some_iff.mp step
      exact inOrder.clientProceed _ proceeds
    · rename_i isWorker
      obtain ⟨st', proceeds, rfl⟩ := Option.map_eq_some_iff.mp step
      have current := of_decide_eq_true isWorker
      exact inOrder.become
        (sound.workerProceed current (fun _ => inOrder.framed_buffered) proceeds)
    · split at step
      · rename_i foreign
        obtain ⟨k, kernelStep, rfl⟩ := Option.map_eq_some_iff.mp step
        exact inOrder.foreign (spares_of_foreign foreign) kernelStep
      · cases step
    · obtain ⟨⟨st', rest⟩, polls, rfl⟩ := Option.map_eq_some_iff.mp step
      exact inOrder.advance (sound.poll (fun _ => inOrder.framed_packet) polls)
    · obtain ⟨st', done, rfl⟩ := Option.map_eq_some_iff.mp step
      exact inOrder.become (sound.sendDone done)
    · cases step

theorem boot_inOrder (setup : BitVec 32 → Setup T) : (Post.boot setup).InOrder where
  sound a :=
    have zero : (setup a).initialValue .messageAvailable = 0 := rfl
    { arrivals := Kernel.boot_taken _ _ _ zero _
      netAddr := rfl
      ident := rfl
      buffer := rfl
      sending := by simp [Post.boot, Station.boot] }
  handed := by simp [Post.boot, Station.boot]
  origin := by
    simp [Post.boot, Station.boot, Station.pipe, Station.incoming, Station.inHand,
      Station.buffered, Network.construct]
  order a b s := by
    simp [Post.boot, Station.boot, Station.pipe, Station.incoming, Station.inHand,
      Station.buffered, Network.construct]

end Post

/-! ### The promise of the post office -/

/-- The count of `messageAvailable` is that of a message in the buffer of the
device whose arrival the postal worker has not consumed. -/
theorem Station.Sound.available {a : BitVec 32} {st : Station T} (sound : st.Sound a) :
    (st.kernel.semaphores .messageAvailable).value =
      if st.buffered ≠ [] ∧ st.kernel.completedP .messageAvailable < st.accepted.length then 1
      else 0 := by
  have value := sound.arrivals.value
  have consumed := sound.arrivals.completedP_le
  have called := sound.arrivals.calls_le
  have length := congrArg List.length sound.buffer
  rw [List.length_append] at length
  have collected : st.collected.length ≤ st.kernel.completedP .messageAvailable := by
    cases inside : st.workerPc.inP with
    | true =>
        rw [inside, Bool.toNat_true] at called
        omega
    | false =>
        have arrivals := sound.arrivals
        unfold Station.Counted at arrivals
        rw [inside] at arrivals
        have completed := arrivals.completed
        rw [Bool.toNat_false] at completed
        omega
  have one : st.buffered.length ≤ 1 := by
    unfold Station.buffered
    split
    · exact Nat.zero_le 1
    · exact Nat.le_refl 1
  rw [value]
  split
  · rename_i waiting
    omega
  · rename_i nothing
    by_cases empty : st.buffered = []
    · rw [empty, List.length_nil] at length
      omega
    · have all : ¬ st.kernel.completedP .messageAvailable < st.accepted.length :=
        fun more => nothing ⟨empty, more⟩
      omega

/-- In every state of every run of any number of machines: what `Receive` has
taken from mailbox `b` of machine `m` and that came from `s` is, in this order, a
part of what `s` has handed to `Network::Send` for this mailbox, each message
with its headers and its payload; a packet that came into the buffer of a device
was taken out of it by the postal worker before the next one came; and
`messageAvailable` counts the packet in the buffer until the worker has consumed
its arrival with `P`. -/
theorem post_keeps_order {d : Discipline} {setup : BitVec 32 → Setup T} {post : Post T}
    {acts : List (BitVec 32 × PostMove T)}
    (run : (postMachine d).exec (Post.boot setup) acts = some post) :
    (∀ m b s,
      (((post.stations m).taken b).filter (Mail.isFrom s)).Sublist
        ((post.stations s).handed.filter (Mail.isFor m b))) ∧
    (∀ m b, ∀ mail ∈ (post.stations m).taken b,
      mail.pktHdr.length = mail.mailHdr.length.toNat + mailHeaderSize ∧
      mail.data.length = mail.mailHdr.length.toNat ∧
      ∃ s, mail.isFrom s ∧ mail ∈ (post.stations s).handed) ∧
    (∀ m, (post.stations m).accepted =
      (post.stations m).collected ++ (post.stations m).buffered) ∧
    ∀ m, ((post.stations m).kernel.semaphores .messageAvailable).value =
      if (post.stations m).buffered ≠ [] ∧
        (post.stations m).kernel.completedP .messageAvailable <
          (post.stations m).accepted.length then 1
      else 0 := by
  have inOrder : post.InOrder :=
    Lib.Machine.invariant (fun _ _ _ inOrder step => inOrder.step step)
      (Post.boot_inOrder setup) run
  have inPipe (m : BitVec 32) (b : Int) :
      ((post.stations m).taken b).Sublist ((post.stations m).pipe (post.sockets m) b) := by
    unfold Station.pipe
    rw [List.append_assoc]
    exact List.sublist_append_left _ _
  refine ⟨?_, ?_, fun m => (inOrder.sound m).buffer, fun m => (inOrder.sound m).available⟩
  · intro m b s
    exact ((inPipe m b).filter _).trans (inOrder.order m b s)
  · intro m b mail member
    obtain ⟨framed, -, s, isFrom, handed⟩ := inOrder.known ((inPipe m b).subset member)
    exact ⟨framed.length, framed.payload, s, isFrom, handed⟩

/-- Every machine has a main thread, a postal worker and one mailbox. -/
def twoThreads {T : Type} (main worker : T) (_ : BitVec 32) : Setup T where
  main := main
  worker := worker
  numBoxes := 1
  otherValue := fun _ => 0
  lockMemory := fun _ => ⟨false, none, []⟩
  conditionMemory := fun _ => ⟨[], none⟩
  networkMemory := ⟨0, false, ⟨0, 0, 0⟩, fun _ => 0⟩
  bufferMemory := fun _ => 0

/-- Main of machine 1 sends two bytes; main of machine 2 starts to receive before
the packet is there and sleeps in `Wait` until the postal worker signals. -/
def oneLetter {T : Type} (worker : T) : List (BitVec 32 × PostMove T) :=
  [(1, .send 2 ⟨0, 0, 2⟩ (Memory.ofList [104, 105]) fun _ => 0), (1, .system .endTick),
    (1, .proceed true fun _ => 0),
    (2, .other (.fork worker)), (2, .system .endTick), (2, .receive 0), (2, .system .endTick),
    (2, .proceed false fun _ => 0), (2, .system (.dispatch 0)), (2, .system .endTick),
    (2, .proceed false fun _ => 0), (2, .system .idle), (2, .poll), (2, .system .endIdle),
    (2, .system (.dispatch 0)), (2, .system .endTick), (2, .proceed false fun _ => 0),
    (2, .system .endTick), (2, .proceed false fun _ => 0), (2, .system .endTick),
    (2, .proceed false fun _ => 0), (2, .system .endTick), (2, .proceed false fun _ => 0),
    (2, .system (.dispatch 0)), (2, .system .endTick), (2, .proceed false fun _ => 0)]

theorem post_keeps_order_of_oneLetter :
    ∃ post : Post (Fin 2),
      (postMachine .fifo).exec (Post.boot (twoThreads 0 1)) (oneLetter 1) = some post ∧
      (post.stations 2).taken 0 = [⟨⟨2, 1, 14⟩, ⟨0, 0, 2⟩, [104, 105]⟩] ∧
      (((post.stations 2).taken 0).filter (Mail.isFrom 1)).Sublist
        ((post.stations 1).handed.filter (Mail.isFor 2 0)) := by
  have outcome :
      ((postMachine .fifo).exec (Post.boot (twoThreads (0 : Fin 2) 1)) (oneLetter 1)).map
        (fun post => (post.stations 2).taken 0) =
          some [⟨⟨2, 1, 14⟩, ⟨0, 0, 2⟩, [104, 105]⟩] := by
    decide +kernel
  obtain ⟨post, run, taken⟩ := Option.map_eq_some_iff.mp outcome
  exact ⟨post, run, taken, (post_keeps_order run).1 2 0 1⟩

end Nachos
