/-
Module: Nachos.UserProg.ConsoleTest
Purpose: The echo of progtest.cc: a thread that waits for each character with a
  semaphore that the keyboard interrupt increments, writes it to the display and
  waits for the display interrupt.  Whatever else runs, and whenever the
  interrupts come, what it displays is what was typed, up to the first 'q'.
Trusted boundary: as in Nachos.Machine.Keyboard; no byte 0xFF is typed
Main exports: EchoPc, ConsoleTest, EchoMove, ConsoleTest.step,
  consoleTestMachine, ConsoleTest.Echoing, consoleTest_echoes
-/
import Nachos.Machine.Keyboard
import Nachos.Threads.Takers

namespace Nachos

open Lib

variable {T S L C : Type}
variable [DecidableEq T] [DecidableEq S] [DecidableEq L] [DecidableEq C]

/-! ### Data model -/

/-- Where the thread is in the loop of `ConsoleTest`. -/
inductive EchoPc where
  /-- before the loop -/
  | start
  /-- in `readAvail->P` or back from it -/
  | reading
  /-- in `writeDone->P` or back from it, with the character -/
  | writing (ch : Int)
  /-- `ConsoleTest` has returned -/
  | quit
deriving DecidableEq, Repr

/-- The thread system, the console with its keyboard, and the thread that
echoes. -/
structure ConsoleTest (T S L C : Type) where
  kernel : Kernel T S L C
  keyboard : Keyboard
  pc : EchoPc
  /-- an assertion of the console has failed -/
  failed : Bool

/-- What can happen next. -/
inductive EchoMove (T S L C : Type) where
  /-- the thread that echoes goes on -/
  | proceed
  /-- a byte is typed -/
  | arrive (byte : UInt8)
  /-- the interrupt that polls the keyboard -/
  | poll
  /-- the interrupt of the display -/
  | writeDone
  /-- another thread makes a call, or the one that has echoed -/
  | other (op : Op T S L C)
  /-- a step of the thread system that is not a call -/
  | system (action : Action T S L C)
deriving DecidableEq, Repr

/-- The letter at which `ConsoleTest` stops. -/
abbrev letterQ : Int := 113

namespace ConsoleTest

variable (echo : T) (readAvail writeDone : S) (d : Discipline)

/-- A part of the loop of `ConsoleTest`. -/
def proceed (s : ConsoleTest T S L C) : Option (ConsoleTest T S L C) :=
  let awaitChar :=
    (s.kernel.step d (.call (.p readAvail))).map fun k => { s with kernel := k, pc := .reading }
  match s.pc with
  | .start => awaitChar
  | .reading =>
      let keyboard := s.keyboard.getChar
      let ch := s.keyboard.console.getChar.1
      match keyboard.console.putChar ch with
      | none => if s.kernel.phase = .running then some { s with failed := true } else none
      | some console =>
          (s.kernel.step d (.call (.p writeDone))).map fun k =>
            { s with
              kernel := k
              keyboard := { keyboard with console := console }
              pc := .writing ch }
  | .writing ch =>
      if ch = letterQ then
        if s.kernel.phase = .running then some { s with pc := .quit } else none
      else awaitChar
  | .quit => none

/-- One step.  The semaphores are static variables of progtest.cc. -/
def step (s : ConsoleTest T S L C) (move : EchoMove T S L C) : Option (ConsoleTest T S L C) :=
  if s.failed then none
  else
    match move with
    | .proceed =>
        if s.kernel.currentThread = echo then s.proceed readAvail writeDone d else none
    | .arrive byte =>
        some { s with keyboard := { s.keyboard with arrived := s.keyboard.arrived ++ [byte] } }
    | .poll =>
        if s.keyboard.notified < s.keyboard.poll.notified then
          (s.kernel.step d (.handlerV readAvail)).map fun k =>
            { s with kernel := k, keyboard := s.keyboard.poll }
        else if s.kernel.phase = .oneTick ∨ s.kernel.phase = .idle then
          some { s with keyboard := s.keyboard.poll }
        else none
    | .writeDone =>
        if s.keyboard.console.putBusy then
          (s.kernel.step d (.handlerV writeDone)).map fun k =>
            { s with
              kernel := k
              keyboard := { s.keyboard with console := s.keyboard.console.writeDone } }
        else none
    | .other op =>
        if (s.kernel.currentThread = echo ∧ s.pc ≠ .quit) ∨ op = .p readAvail ∨
            op = .v readAvail ∨ op = .p writeDone ∨ op = .v writeDone then none
        else (s.kernel.step d (.call op)).map fun k => { s with kernel := k }
    | .system action =>
        match action with
        | .call _ => none
        | .handlerP t | .handlerV t =>
            if t = readAvail ∨ t = writeDone then none
            else (s.kernel.step d action).map fun k => { s with kernel := k }
        | _ => (s.kernel.step d action).map fun k => { s with kernel := k }

/-- A system in which `ConsoleTest` is about to begin: both semaphores are 0. -/
def boot (main : T) (initialValue : S → Int) (lockMemory : L → Lock T)
    (conditionMemory : C → Condition T L) : ConsoleTest T S L C where
  kernel := .boot main initialValue lockMemory conditionMemory
  keyboard := .start
  pc := .start
  failed := false

end ConsoleTest

/-- `ConsoleTest` among the threads of a system. -/
def consoleTestMachine (echo : T) (readAvail writeDone : S) (d : Discipline) :
    Machine (ConsoleTest T S L C) (EchoMove T S L C) where
  step := ConsoleTest.step echo readAvail writeDone d

/-! ### What is typed -/

namespace Keyboard

variable {s : Keyboard}

/-- No byte that is typed is taken for `EOF`. -/
def Clean (s : Keyboard) : Prop :=
  ∀ byte ∈ s.arrived, byte ≠ 0xff

theorem Clean.arrive (clean : s.Clean) {byte : UInt8} (other : byte ≠ 0xff) :
    Clean { s with arrived := s.arrived ++ [byte] } := by
  intro typed member
  rcases List.mem_append.mp member with earlier | now
  · exact clean typed earlier
  · rw [List.mem_singleton.mp now]
    exact other

/-- A poll that calls the handler has put a byte into the buffer. -/
theorem poll_of_notified (more : s.notified < s.poll.notified) :
    ∃ byte, s.poll = { s with
      console := { s.console with incoming := charOf byte }
      notified := s.notified + 1 } := by
  rcases s.poll_cases with same | ⟨byte, -, -, taken⟩
  · rw [same] at more
    exact absurd more (Nat.lt_irrefl _)
  · exact ⟨byte, taken⟩

/-- Any other poll does nothing. -/
theorem poll_of_not_notified (same : ¬ s.notified < s.poll.notified) : s.poll = s := by
  rcases s.poll_cases with unchanged | ⟨byte, -, -, taken⟩
  · exact unchanged
  · rw [taken] at same
    exact absurd (Nat.lt_succ_self _) same

/-- What is still owed to the consumer is in the buffer, and it is one
character. -/
theorem InOrder.owed_le (inOrder : s.InOrder) (clean : s.Clean) :
    s.owed ≤ 1 ∧ (0 < s.owed → s.console.incoming ≠ eof) := by
  have noEof : eof ∉ s.ahead := by
    intro member
    have among : eof ∈ s.returned ++ s.ahead := List.mem_append_right _ member
    rw [inOrder.gets] at among
    obtain ⟨byte, taken, same⟩ := List.mem_map.mp among
    exact clean byte (List.mem_of_mem_take taken) (charOf_eq_eof.mp same)
  cases owed : s.owed with
  | zero => exact ⟨by omega, by omega⟩
  | succ n =>
      rw [ahead, owed] at noEof
      simp only [List.mem_cons, List.mem_replicate, not_or, not_and] at noEof
      have none : n = 0 := by
        by_contra more
        exact (noEof.2 more) trivial
      exact ⟨by omega, fun _ => Ne.symm noEof.1⟩

theorem InOrder.preserves_poll (inOrder : s.InOrder) (clean : s.Clean) :
    s.Preserves .poll := by
  intro empty owed
  exact absurd empty ((inOrder.owed_le clean).2 owed)

end Keyboard

/-! ### The echo -/

/-- The byte 0xFF is not typed. -/
def EchoMove.Clean : EchoMove T S L C → Prop
  | .arrive byte => byte ≠ 0xff
  | _ => True

instance (move : EchoMove T S L C) : Decidable move.Clean :=
  match move with
  | .arrive byte => inferInstanceAs (Decidable (byte ≠ 0xff))
  | .proceed | .poll | .writeDone | .other _ | .system _ => isTrue trivial

/-- The thread has called `readAvail->P`, and has not gone on. -/
def EchoPc.inRead : EchoPc → Bool
  | .reading => true
  | _ => false

/-- The thread has called `writeDone->P`, and has not gone on. -/
def EchoPc.inWrite : EchoPc → Bool
  | .writing _ => true
  | _ => false

/-- What the display shows where the thread is. -/
def EchoPc.Shown (display : List Int) : EchoPc → Prop
  | .start | .reading => letterQ ∉ display
  | .writing ch => letterQ ∉ display.dropLast ∧ display.getLast? = some ch
  | .quit => letterQ ∉ display.dropLast ∧ display.getLast? = some letterQ

theorem EchoPc.Shown.noQ {pc : EchoPc} {display : List Int} (shown : pc.Shown display) :
    letterQ ∉ display.dropLast := by
  cases pc with
  | start => exact fun member => shown ((List.dropLast_sublist _).subset member)
  | reading => exact fun member => shown ((List.dropLast_sublist _).subset member)
  | writing ch => exact shown.1
  | quit => exact shown.1

/-- A character other than 'q' has been echoed. -/
theorem EchoPc.Shown.next {display : List Int} {ch : Int}
    (shown : (EchoPc.writing ch).Shown display) (other : ch ≠ letterQ) :
    EchoPc.reading.Shown display := by
  obtain ⟨before, last⟩ := shown
  intro member
  obtain ⟨first, rfl⟩ := List.getLast?_eq_some_iff.mp last
  rw [List.dropLast_concat] at before
  rcases List.mem_append.mp member with early | late
  · exact before early
  · exact other (List.mem_singleton.mp late).symm

namespace ConsoleTest

/-- The semaphores count the interrupts, and the display shows what `GetChar`
has returned. -/
structure Echoing (echo : T) (readAvail writeDone : S) (s : ConsoleTest T S L C) : Prop where
  running : s.failed = false
  inOrder : s.keyboard.InOrder
  clean : s.keyboard.Clean
  reads : s.kernel.Taken readAvail echo s.keyboard.notified
    (s.keyboard.returned.length + s.pc.inRead.toNat) s.pc.inRead
  busy : s.keyboard.console.putBusy.toNat ≤ s.keyboard.console.display.length
  writes : s.kernel.Taken writeDone echo
    (s.keyboard.console.display.length - s.keyboard.console.putBusy.toNat)
    s.keyboard.console.display.length s.pc.inWrite
  display : s.keyboard.console.display = s.keyboard.returned
  shown : s.pc.Shown s.keyboard.console.display

section Steps

variable {echo : T} {readAvail writeDone : S} {d : Discipline}
variable {s s' : ConsoleTest T S L C} {k : Kernel T S L C}

/-- A step of the thread system that touches neither semaphore. -/
theorem Echoing.quiet (echoing : s.Echoing echo readAvail writeDone) {action : Action T S L C}
    (sparesRead : action.Spares readAvail) (sparesWrite : action.Spares writeDone)
    (step : s.kernel.step d action = some k) :
    Echoing echo readAvail writeDone { s with kernel := k } :=
  { echoing with
    reads := echoing.reads.step sparesRead step
    writes := echoing.writes.step sparesWrite step }

/-- The thread waits for the next character. -/
theorem Echoing.awaitChar (echoing : s.Echoing echo readAvail writeDone)
    (separate : readAvail ≠ writeDone) (current : s.kernel.currentThread = echo)
    (outside : s.pc.inRead = false) (shown : EchoPc.reading.Shown s.keyboard.console.display)
    (step : s.kernel.step d (.call (.p readAvail)) = some k) :
    Echoing echo readAvail writeDone { s with kernel := k, pc := .reading } := by
  have running := Kernel.running_of_call step
  have reads := echoing.reads.callP current step
  have spares : (Action.call (.p readAvail) : Action T S L C).Spares writeDone := by
    simp [Action.Spares, separate]
  have writes := (echoing.writes.returned running current).step spares step
  simp only [outside, Bool.toNat_false, Nat.add_zero] at reads
  exact { echoing with reads := reads, writes := writes, shown := shown }

/-- The thread that is back from `readAvail->P` finds the display idle. -/
theorem Echoing.idle (echoing : s.Echoing echo readAvail writeDone) (place : s.pc = .reading) :
    s.keyboard.console.putBusy = false := by
  have writes := echoing.writes
  have busy := echoing.busy
  rw [place] at writes
  have completed := Kernel.Taken.completed writes
  have most := writes.completedP_le
  by_contra other
  rw [Bool.not_eq_false] at other
  simp only [other, Bool.toNat_true] at busy most
  omega

/-- The thread takes the character and writes it. -/
theorem Echoing.echoes (echoing : s.Echoing echo readAvail writeDone)
    (separate : readAvail ≠ writeDone) (current : s.kernel.currentThread = echo)
    (place : s.pc = .reading) {console : Console}
    (put : s.keyboard.getChar.console.putChar s.keyboard.console.getChar.1 = some console)
    (step : s.kernel.step d (.call (.p writeDone)) = some k) :
    Echoing echo readAvail writeDone
      { s with
        kernel := k
        keyboard := { s.keyboard.getChar with console := console }
        pc := .writing s.keyboard.console.getChar.1 } := by
  have running := Kernel.running_of_call step
  have idle := echoing.idle place
  have back := echoing.reads.returned running current
  have completed := back.completed
  have taken := back.completedP_le
  rw [place] at completed
  simp only [EchoPc.inRead, Bool.toNat_true] at completed
  have inOrder := echoing.inOrder.getChar (by omega)
  have written : console = { s.keyboard.getChar.console with
      putBusy := true
      display := s.keyboard.console.display ++ [s.keyboard.console.incoming] } := by
    unfold Console.putChar at put
    split at put
    · exact (Option.some.inj put).symm
    · cases put
  subst written
  have spares : (Action.call (.p writeDone) : Action T S L C).Spares readAvail := by
    simp [Action.Spares, Ne.symm separate]
  have reads := back.step spares step
  have writes := echoing.writes.callP current step
  rw [place] at reads
  simp only [idle, Bool.toNat_false, Nat.sub_zero] at writes
  refine
    { running := echoing.running
      inOrder := inOrder.of_eq rfl rfl rfl List.prefix_rfl
      clean := echoing.clean
      reads := ?_
      busy := by simp
      writes := ?_
      display := ?_
      shown := ?_ }
  · simpa [Keyboard.getChar, EchoPc.inRead] using reads
  · simpa [EchoPc.inWrite] using writes
  · simp [Keyboard.getChar, Console.getChar, echoing.display]
  · have shown := echoing.shown
    rw [place] at shown
    exact ⟨by rwa [List.dropLast_concat], by simp [Console.getChar]⟩

/-- The thread goes on. -/
theorem Echoing.proceed (echoing : s.Echoing echo readAvail writeDone)
    (separate : readAvail ≠ writeDone) (current : s.kernel.currentThread = echo)
    (step : s.proceed readAvail writeDone d = some s') :
    s'.Echoing echo readAvail writeDone := by
  unfold ConsoleTest.proceed at step
  cases place : s.pc with
  | start =>
      simp only [place] at step
      obtain ⟨k, called, rfl⟩ := Option.map_eq_some_iff.mp step
      have shown := echoing.shown
      rw [place] at shown
      exact echoing.awaitChar separate current (by rw [place]; rfl) shown called
  | reading =>
      simp only [place] at step
      split at step
      · -- the assertion does not fail
        rename_i refused
        have idle := echoing.idle place
        simp [Console.putChar, Keyboard.getChar, Console.getChar, idle] at refused
      · obtain ⟨k, called, rfl⟩ := Option.map_eq_some_iff.mp step
        exact echoing.echoes separate current place ‹_› called
  | writing ch =>
      simp only [place] at step
      have shown := echoing.shown
      rw [place] at shown
      split at step
      · rename_i isQ
        split at step
        · rename_i running
          cases step
          have reads := echoing.reads
          rw [place] at reads
          subst isQ
          exact { echoing with
            reads := reads
            writes := echoing.writes.returned running current
            shown := shown }
        · cases step
      · rename_i other
        obtain ⟨k, called, rfl⟩ := Option.map_eq_some_iff.mp step
        exact echoing.awaitChar separate current (by rw [place]; rfl) (shown.next other) called
  | quit => simp [place] at step

/-- A byte is taken in, and the handler calls `readAvail->V`. -/
theorem Echoing.notified (echoing : s.Echoing echo readAvail writeDone)
    (separate : readAvail ≠ writeDone)
    (more : s.keyboard.notified < s.keyboard.poll.notified)
    (step : s.kernel.step d (.handlerV readAvail) = some k) :
    Echoing echo readAvail writeDone { s with kernel := k, keyboard := s.keyboard.poll } := by
  have inOrder := echoing.inOrder.poll (echoing.inOrder.preserves_poll echoing.clean)
  have spares : (Action.handlerV readAvail : Action T S L C).Spares writeDone := by
    simp [Action.Spares, separate]
  obtain ⟨byte, taken⟩ := Keyboard.poll_of_notified more
  rw [taken] at inOrder ⊢
  exact
    { running := echoing.running
      inOrder := inOrder
      clean := echoing.clean
      reads := echoing.reads.handlerV step
      busy := echoing.busy
      writes := echoing.writes.step spares step
      display := echoing.display
      shown := echoing.shown }

/-- A poll that takes nothing in. -/
theorem Echoing.polled (echoing : s.Echoing echo readAvail writeDone)
    (same : ¬ s.keyboard.notified < s.keyboard.poll.notified) :
    Echoing echo readAvail writeDone { s with keyboard := s.keyboard.poll } := by
  rw [Keyboard.poll_of_not_notified same]
  exact echoing

/-- A byte that is typed waits for its turn. -/
theorem Echoing.arrive (echoing : s.Echoing echo readAvail writeDone) {byte : UInt8}
    (clean : byte ≠ 0xff) :
    Echoing echo readAvail writeDone
      { s with keyboard := { s.keyboard with arrived := s.keyboard.arrived ++ [byte] } } :=
  { echoing with
    inOrder := echoing.inOrder.of_eq rfl rfl rfl (List.prefix_append _ _)
    clean := echoing.clean.arrive clean }

/-- The display is ready, and the handler calls `writeDone->V`. -/
theorem Echoing.written (echoing : s.Echoing echo readAvail writeDone)
    (separate : readAvail ≠ writeDone) (busy : s.keyboard.console.putBusy = true)
    (step : s.kernel.step d (.handlerV writeDone) = some k) :
    Echoing echo readAvail writeDone
      { s with
        kernel := k
        keyboard := { s.keyboard with console := s.keyboard.console.writeDone } } := by
  have writes := echoing.writes.handlerV step
  have spares : (Action.handlerV writeDone : Action T S L C).Spares readAvail := by
    simp [Action.Spares, Ne.symm separate]
  have some := echoing.busy
  simp only [busy, Bool.toNat_true] at writes some
  exact
    { running := echoing.running
      inOrder := echoing.inOrder.of_eq rfl rfl rfl List.prefix_rfl
      clean := echoing.clean
      reads := echoing.reads.step spares step
      busy := Nat.zero_le _
      writes := by
        simpa [Console.writeDone, Nat.sub_add_cancel some] using writes
      display := echoing.display
      shown := echoing.shown }

/-- Every step keeps the echo. -/
theorem Echoing.step (echoing : s.Echoing echo readAvail writeDone)
    (separate : readAvail ≠ writeDone) {move : EchoMove T S L C} (clean : move.Clean)
    (step : s.step echo readAvail writeDone d move = some s') :
    s'.Echoing echo readAvail writeDone := by
  unfold ConsoleTest.step at step
  rw [if_neg (by simp [echoing.running])] at step
  cases move with
  | proceed =>
      simp only at step
      split at step
      · exact echoing.proceed separate ‹_› step
      · cases step
  | arrive byte =>
      cases step
      exact echoing.arrive clean
  | poll =>
      simp only at step
      split at step
      · obtain ⟨k, handled, rfl⟩ := Option.map_eq_some_iff.mp step
        exact echoing.notified separate ‹_› handled
      · split at step
        · cases step
          exact echoing.polled ‹_›
        · cases step
  | writeDone =>
      simp only at step
      split at step
      · obtain ⟨k, handled, rfl⟩ := Option.map_eq_some_iff.mp step
        exact echoing.written separate ‹_› handled
      · cases step
  | other op =>
      simp only at step
      split at step
      · cases step
      · rename_i foreign
        simp only [not_or] at foreign
        obtain ⟨-, pRead, vRead, pWrite, vWrite⟩ := foreign
        obtain ⟨k, called, rfl⟩ := Option.map_eq_some_iff.mp step
        exact echoing.quiet (by simp [Action.Spares, pRead, vRead])
          (by simp [Action.Spares, pWrite, vWrite]) called
  | system action =>
      simp only at step
      split at step
      · cases step
      · split at step
        · cases step
        · rename_i foreign
          rw [not_or] at foreign
          obtain ⟨k, handled, rfl⟩ := Option.map_eq_some_iff.mp step
          exact echoing.quiet (by simp [Action.Spares, foreign.1])
            (by simp [Action.Spares, foreign.2]) handled
      · split at step
        · cases step
        · rename_i foreign
          rw [not_or] at foreign
          obtain ⟨k, handled, rfl⟩ := Option.map_eq_some_iff.mp step
          exact echoing.quiet (by simp [Action.Spares, foreign.1])
            (by simp [Action.Spares, foreign.2]) handled
      · rename_i noCall noP noV
        obtain ⟨k, stepped, rfl⟩ := Option.map_eq_some_iff.mp step
        exact echoing.quiet ⟨noCall _, noCall _, noP _, noV _⟩
          ⟨noCall _, noCall _, noP _, noV _⟩ stepped

end Steps

theorem boot_echoing (main : T) (echo : T) {readAvail writeDone : S} {initialValue : S → Int}
    (lockMemory : L → Lock T) (conditionMemory : C → Condition T L)
    (read : initialValue readAvail = 0) (written : initialValue writeDone = 0) :
    (boot main initialValue lockMemory conditionMemory).Echoing echo readAvail writeDone where
  running := rfl
  inOrder := Keyboard.inOrder_start
  clean := by simp [Keyboard.Clean, boot, Keyboard.start]
  reads := Kernel.boot_taken main lockMemory conditionMemory read echo
  busy := Nat.le_refl _
  writes := Kernel.boot_taken main lockMemory conditionMemory written echo
  display := rfl
  shown := by simp [EchoPc.Shown, boot, Keyboard.start]

/-- The display shows what was typed, in the same order, up to the first 'q'; at
most one character has been taken in and is not shown yet; and the thread is done
only when it has shown a 'q'. -/
structure Faithful (s : ConsoleTest T S L C) : Prop where
  asserted : s.failed = false
  typed : s.keyboard.console.display <+: s.keyboard.arrived.map charOf
  taken : s.keyboard.notified ≤ s.keyboard.console.display.length + 1
  firstQ : letterQ ∉ s.keyboard.console.display.dropLast
  quits : s.pc = .quit → s.keyboard.console.display.getLast? = some letterQ

theorem Echoing.faithful {echo : T} {readAvail writeDone : S} {s : ConsoleTest T S L C}
    (echoing : s.Echoing echo readAvail writeDone) : s.Faithful := by
  have gets := echoing.inOrder.gets
  have owed := (echoing.inOrder.owed_le echoing.clean).1
  refine ⟨echoing.running, ?_, ?_, echoing.shown.noQ, ?_⟩
  · rw [echoing.display]
    have taken : s.keyboard.returned <+: (s.keyboard.arrived.take s.keyboard.notified).map charOf :=
      ⟨s.keyboard.ahead, gets⟩
    exact taken.trans ((List.take_prefix _ _).map charOf)
  · rw [echoing.display]
    unfold Keyboard.owed at owed
    omega
  · intro quit
    have shown := echoing.shown
    rw [quit] at shown
    exact shown.2

end ConsoleTest

/-- In every run of `ConsoleTest` among other threads and interrupts, in which the
byte 0xFF is not typed, the echo is faithful. -/
theorem consoleTest_echoes {main echo : T} {readAvail writeDone : S} {d : Discipline}
    {initialValue : S → Int} {lockMemory : L → Lock T} {conditionMemory : C → Condition T L}
    (separate : readAvail ≠ writeDone) (read : initialValue readAvail = 0)
    (written : initialValue writeDone = 0) {moves : List (EchoMove T S L C)}
    (clean : ∀ move ∈ moves, move.Clean) {s : ConsoleTest T S L C}
    (run : (consoleTestMachine echo readAvail writeDone d).exec
      (ConsoleTest.boot main initialValue lockMemory conditionMemory) moves = some s) :
    s.Faithful := by
  have echoing := Machine.along_of_guarded (M := consoleTestMachine echo readAvail writeDone d)
    (fun s move s' echoing clean step =>
      ConsoleTest.Echoing.step (d := d) echoing separate clean step)
    (ConsoleTest.boot_echoing main echo lockMemory conditionMemory read written)
    (Machine.steps_of_forall _ clean)
  exact (echoing.finish run).faithful

/-- Thread 0 waits until an 'A' is typed and echoes it; the 'q' that is typed
behind it is taken in while the 'A' is written. -/
def echoOfTwoLetters : List (EchoMove Nat Bool Unit Empty) :=
  [.proceed, .system .idle, .arrive 0x41, .poll, .arrive 0x71, .system .endIdle,
    .system (.dispatch 0), .system .endTick, .proceed, .system .idle, .poll, .writeDone,
    .system .endIdle, .system (.dispatch 0), .system .endTick, .proceed, .system .endTick,
    .proceed, .system .idle, .writeDone, .system .endIdle, .system (.dispatch 0),
    .system .endTick, .proceed]

theorem consoleTest_echoes_two_letters :
    ∃ s : ConsoleTest Nat Bool Unit Empty,
      (consoleTestMachine 0 true false .fifo).exec
        (.boot 0 (fun _ => 0) (fun _ => ⟨false, none, []⟩) Empty.elim) echoOfTwoLetters = some s ∧
      s.keyboard.console.display = [0x41, letterQ] ∧ s.pc = .quit ∧ s.Faithful := by
  obtain ⟨s, run, display, place⟩ : ∃ s : ConsoleTest Nat Bool Unit Empty,
      (consoleTestMachine 0 true false .fifo).exec
        (.boot 0 (fun _ => 0) (fun _ => ⟨false, none, []⟩) Empty.elim) echoOfTwoLetters = some s ∧
      s.keyboard.console.display = [0x41, letterQ] ∧ s.pc = .quit :=
    ⟨_, (Option.some_get (by decide)).symm, by decide, by decide⟩
  exact ⟨s, run, display, place,
    consoleTest_echoes (by decide) (by rfl) (by rfl) (by decide) run⟩

end Nachos
