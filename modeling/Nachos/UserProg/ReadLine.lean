/-
Module: Nachos.UserProg.ReadLine
Purpose: SynchConsole::ReadLine of synchconsole.cc among any threads: a call takes
  the lock, waits for each character with a semaphore that the keyboard interrupt
  increments, and releases the lock after a newline or when the buffer is full.
  No character is lost, doubled or made up, whether or not the lock keeps the
  readers apart; while it does, every line is a stretch of what was typed.
Trusted boundary: as in Nachos.Machine.Keyboard and, for the lock, in
  Nachos.Threads.SynchDevice; no byte 0xFF is typed
Main exports: ReadPc, ReadCall, SynchConsole, ReadMove, SynchConsole.step,
  synchConsoleMachine, Kernel.Drawn, SynchConsole.Reading, readLine_delivers,
  readLine_lines_apart
-/
import Nachos.Threads.SynchDevice
import Nachos.UserProg.ConsoleTest

namespace Nachos

open Lib

variable {T S L C : Type}
variable [DecidableEq T] [DecidableEq S] [DecidableEq L] [DecidableEq C]

/-! ### Data model -/

/-- Where a thread is in a call of `ReadLine`. -/
inductive ReadPc where
  | outside
  /-- in `inputMutex->Acquire` or back from it -/
  | acquiring (size : Int)
  /-- in `inputAvailable->P` or back from it, with the characters read so far -/
  | reading (size : Int) (line : List Int)
deriving DecidableEq, Repr

/-- A call of `ReadLine` that has come to its `Release`: its thread, its argument,
and what it has put into the buffer; it returns the length. -/
structure ReadCall (T : Type) where
  thread : T
  size : Int
  line : List Int
deriving DecidableEq, Repr

/-- The input half of a `SynchConsole`, its threads and the thread system. -/
structure SynchConsole (T S L C : Type) where
  kernel : Kernel T S L C
  keyboard : Keyboard
  pc : T → ReadPc
  /-- every call of `GetChar`, with its thread and result; no routine reads it -/
  got : List (T × Int)
  /-- the calls that are over, the first one first; no routine reads it -/
  finished : List (ReadCall T)

/-- What can happen next. -/
inductive ReadMove (T S L C : Type) where
  /-- the running thread calls `ReadLine` -/
  | readLine (size : Int)
  /-- the running thread goes on in its call -/
  | proceed
  /-- a byte is typed -/
  | arrive (byte : UInt8)
  /-- the interrupt that polls the keyboard -/
  | poll
  /-- the running thread writes to the display -/
  | putChar (ch : Int)
  /-- the display is ready; its handler is a step of the thread system -/
  | writeDone
  /-- the running thread calls something else -/
  | other (op : Op T S L C)
  /-- a step of the thread system that is not a call -/
  | system (action : Action T S L C)
deriving DecidableEq, Repr

/-- `'\n'`. -/
abbrev newLine : Int := 10

namespace SynchConsole

variable (inputMutex : L) (inputAvailable : S) (d : Discipline)

/-- The running thread is at the given place. -/
def setPc (pc : ReadPc) (s : SynchConsole T S L C) : T → ReadPc :=
  Function.update s.pc s.kernel.currentThread pc

/-- The loop of `ReadLine` from its test on, with the characters read so far; `c`
is the last one, and 0 at first. -/
def loop (size : Int) (line : List Int) (s : SynchConsole T S L C) :
    Option (SynchConsole T S L C) :=
  if line.getLastD 0 ≠ newLine ∧ (line.length : Int) < size then
    (s.kernel.step d (.call (.p inputAvailable))).map fun k =>
      { s with kernel := k, pc := s.setPc (.reading size line) }
  else
    (s.kernel.step d (.call (.release inputMutex))).map fun k =>
      { s with
        kernel := k
        pc := s.setPc .outside
        finished := s.finished ++ [⟨s.kernel.currentThread, size, line⟩] }

/-- The running thread calls `GetChar`. -/
def getChar (s : SynchConsole T S L C) : SynchConsole T S L C :=
  { s with
    keyboard := s.keyboard.getChar
    got := s.got ++ [(s.kernel.currentThread, s.keyboard.console.getChar.1)] }

/-- One step.  The lock and the semaphore are private members, so that nobody else
calls anything on them. -/
def step (s : SynchConsole T S L C) (move : ReadMove T S L C) :
    Option (SynchConsole T S L C) :=
  match move, s.pc s.kernel.currentThread with
  | .readLine size, .outside =>
      (s.kernel.step d (.call (.acquire inputMutex))).map fun k =>
        { s with kernel := k, pc := s.setPc (.acquiring size) }
  | .proceed, .acquiring size => s.loop inputMutex inputAvailable d size []
  | .proceed, .reading size line =>
      s.getChar.loop inputMutex inputAvailable d size
        (line ++ [s.keyboard.console.getChar.1])
  | .arrive byte, _ =>
      some { s with keyboard := { s.keyboard with arrived := s.keyboard.arrived ++ [byte] } }
  | .poll, _ =>
      if s.keyboard.notified < s.keyboard.poll.notified then
        (s.kernel.step d (.handlerV inputAvailable)).map fun k =>
          { s with kernel := k, keyboard := s.keyboard.poll }
      else if s.kernel.phase = .oneTick ∨ s.kernel.phase = .idle then
        some { s with keyboard := s.keyboard.poll }
      else none
  | .putChar ch, .outside =>
      if s.kernel.phase = .running then
        (s.keyboard.console.putChar ch).map fun console =>
          { s with keyboard := { s.keyboard with console := console } }
      else none
  | .writeDone, _ =>
      some { s with keyboard := { s.keyboard with console := s.keyboard.console.writeDone } }
  | .other op, .outside =>
      if op.Touches inputMutex inputAvailable then none
      else (s.kernel.step d (.call op)).map fun k => { s with kernel := k }
  | .system action, _ =>
      if action.Touches inputAvailable then none
      else (s.kernel.step d action).map fun k => { s with kernel := k }
  | _, _ => none

/-- A `SynchConsole` in a system that has just started. -/
def boot (main : T) (initialValue : S → Int) (lockMemory : L → Lock T)
    (conditionMemory : C → Condition T L) : SynchConsole T S L C where
  kernel := .boot main initialValue lockMemory conditionMemory
  keyboard := .start
  pc := fun _ => .outside
  got := []
  finished := []

end SynchConsole

/-- `ReadLine` among the threads of a system. -/
def synchConsoleMachine (inputMutex : L) (inputAvailable : S) (d : Discipline) :
    Machine (SynchConsole T S L C) (ReadMove T S L C) where
  step := SynchConsole.step inputMutex inputAvailable d

/-! ### The semaphore -/

namespace Kernel

variable {d : Discipline} {k k' : Kernel T S L C} {action : Action T S L C} {s : S}

/-- A thread that leaves `P` is the one that runs afterwards, and has completed it. -/
theorem WellFormed.back_of_pendingP (wf : k.WellFormed) (blank : k.Blank)
    (step : k.step d action = some k') {t : T}
    (before : pendingCall (k.stack t) = some (.p s : Op T S L C))
    (after : pendingCall (k'.stack t) ≠ some (.p s : Op T S L C)) : t = k'.currentThread := by
  rcases wf.stack_of_step blank step before with same | ⟨base, begins, rfl, poised, turn⟩
  · rw [same] at after
    exact absurd before after
  · rw [stack_of_pendingP before] at turn
    cases turn with
    | takeUnit s' tests value => rfl
    | parkUnit s' tests value =>
        cases tests
        exact absurd (by simp [park, sleep, push, poised.stack, pendingCall]) after
    | held l acquires held => cases acquires
    | takeLock l acquires foreign free => cases acquires
    | returned l returns => cases returns

/-- Threads call `P` on a semaphore that started at 0, `units` calls of `V` were
completed, and the threads that have seen to their unit have seen to `consumed`
of them.  The others are in `P`, or one of them is back from it. -/
structure Drawn (s : S) (units consumed : Nat) (waiting : T → Prop)
    (k : Kernel T S L C) : Prop where
  wf : k.WellFormed
  blank : k.Blank
  balanced : Balanced s 0 k
  completedV : k.completedV s = units
  inP : ∀ t, pendingCall (k.stack t) = some (.p s : Op T S L C) → waiting t
  back : (k.completedP s = consumed ∧
      ∀ t, waiting t → pendingCall (k.stack t) = some (.p s : Op T S L C)) ∨
    (k.completedP s = consumed + 1 ∧ ∃ t, waiting t ∧
      pendingCall (k.stack t) ≠ some (.p s : Op T S L C) ∧
      ∀ t', waiting t' → pendingCall (k.stack t') ≠ some (.p s : Op T S L C) → t' = t)

namespace Drawn

variable {units consumed : Nat} {waiting : T → Prop}

theorem completedP_le (drawn : k.Drawn s units consumed waiting) : k.completedP s ≤ units := by
  have value := drawn.balanced.value
  have nonneg := drawn.balanced.nonneg
  have completedV := drawn.completedV
  omega

/-- A step that spares the semaphore, while there is a unit for one thread at
most. -/
theorem step (drawn : k.Drawn s units consumed waiting) (few : units ≤ consumed + 1)
    (spares : action.Spares s) (step : k.step d action = some k') :
    k'.Drawn s units consumed waiting := by
  have balanced := drawn.balanced.step drawn.wf step
  have completedV := drawn.wf.completedV_of_step spares.2.1 spares.2.2.2 step
  have inP : ∀ t, pendingCall (k'.stack t) = some (.p s : Op T S L C) →
      pendingCall (k.stack t) = some (.p s : Op T S L C) := by
    intro t pending
    rcases drawn.wf.pending_of_step step pending with earlier | ⟨-, called⟩
    · exact earlier
    · exact absurd called spares.1
  refine ⟨drawn.wf.step step, drawn.blank.step drawn.wf step, balanced,
    completedV.trans drawn.completedV, fun t pending => drawn.inP t (inP t pending), ?_⟩
  rcases drawn.wf.completedP_of_step spares step with same | ⟨t, frames, back, more⟩
  · have kept := drawn.wf.pendingP_iff drawn.blank spares.1 step same
    simp only [same, ne_eq, kept]
    exact drawn.back
  · have pendingBefore : pendingCall (k.stack t) = some (.p s : Op T S L C) :=
      pendingP_of_stack frames
    have out : pendingCall (k'.stack t) ≠ some (.p s : Op T S L C) := by
      simp [back, pendingCall]
    rcases drawn.back with ⟨all, pending⟩ | ⟨one, -⟩
    · refine .inr ⟨by omega, t, drawn.inP t pendingBefore, out, fun t' waits out' => ?_⟩
      have here := drawn.wf.back_of_pendingP drawn.blank step pendingBefore out
      have there := drawn.wf.back_of_pendingP drawn.blank step (pending t' waits) out'
      rw [here, there]
    · -- there is no second unit
      have value := balanced.value
      have nonneg := balanced.nonneg
      have before := drawn.completedV
      omega

/-- A handler calls `V`. -/
theorem handlerV (drawn : k.Drawn s units consumed waiting)
    (step : k.step d (.handlerV s) = some k') : k'.Drawn s (units + 1) consumed waiting := by
  obtain ⟨stack, completedP, completedV⟩ := drawn.wf.handlerV_effect step
  refine ⟨drawn.wf.step step, drawn.blank.step drawn.wf step,
    drawn.balanced.step drawn.wf step, ?_, ?_, ?_⟩
  · rw [completedV, drawn.completedV]
  · rw [stack]
    exact drawn.inP
  · rw [stack, completedP]
    exact drawn.back

/-- The running thread calls `P`. -/
theorem callP (drawn : k.Drawn s units consumed waiting) (few : units ≤ consumed + 1)
    (outside : ¬ waiting k.currentThread) (step : k.step d (.call (.p s)) = some k') :
    k'.Drawn s units consumed fun t => waiting t ∨ t = k.currentThread := by
  have balanced := drawn.balanced.step drawn.wf step
  have completedV : k'.completedV s = k.completedV s :=
    drawn.wf.completedV_of_step (by simp) (by simp) step
  obtain ⟨others, outcome⟩ := drawn.wf.callP_effect step
  have inP : ∀ t, pendingCall (k'.stack t) = some (.p s : Op T S L C) →
      waiting t ∨ t = k.currentThread := by
    intro t pending
    rcases drawn.wf.pending_of_step step pending with earlier | ⟨rfl, -⟩
    · exact .inl (drawn.inP t earlier)
    · exact .inr rfl
  refine ⟨drawn.wf.step step, drawn.blank.step drawn.wf step, balanced,
    completedV.trans drawn.completedV, inP, ?_⟩
  have there : ∀ t, waiting t → k'.stack t = k.stack t := by
    intro t waits
    apply others
    rintro rfl
    exact outside waits
  rcases outcome with ⟨more, out⟩ | ⟨same, pending⟩
  · -- the unit was there, so that nobody else is back
    have value := balanced.value
    have nonneg := balanced.nonneg
    have before := drawn.completedV
    rcases drawn.back with ⟨all, inside⟩ | ⟨one, -⟩
    · refine .inr ⟨by omega, k.currentThread, .inr rfl, out, fun t' waits out' => ?_⟩
      rcases waits with waits | rfl
      · rw [there t' waits] at out'
        exact absurd (inside t' waits) out'
      · rfl
    · omega
  · rcases drawn.back with ⟨all, inside⟩ | ⟨one, t, waits, out, only⟩
    · refine .inl ⟨same.trans all, fun t waits => ?_⟩
      rcases waits with waits | rfl
      · rw [there t waits]
        exact inside t waits
      · exact pending
    · refine .inr ⟨same.trans one, t, .inl waits, by rwa [there t waits], fun t' waits' out' => ?_⟩
      rcases waits' with waits' | rfl
      · rw [there t' waits'] at out'
        exact only t' waits' out'
      · exact absurd pending out'

/-- A thread that runs and has called `P` is the one that is back. -/
theorem leave (drawn : k.Drawn s units consumed waiting) (running : k.phase = .running)
    (waits : waiting k.currentThread) :
    k.Drawn s units (consumed + 1) fun t => waiting t ∧ t ≠ k.currentThread := by
  have empty : k.stack k.currentThread = [] := (drawn.wf.awake (.inl running)).2
  have out : pendingCall (k.stack k.currentThread) ≠ some (.p s : Op T S L C) := by
    simp [empty, pendingCall]
  have inP : ∀ t, pendingCall (k.stack t) = some (.p s : Op T S L C) →
      waiting t ∧ t ≠ k.currentThread := by
    intro t pending
    refine ⟨drawn.inP t pending, ?_⟩
    rintro rfl
    exact out pending
  refine { drawn with inP := inP, back := .inl ?_ }
  rcases drawn.back with ⟨-, inside⟩ | ⟨one, t, -, -, only⟩
  · exact absurd (inside _ waits) out
  · refine ⟨one, fun t' waits' => ?_⟩
    by_contra out'
    exact waits'.2 ((only t' waits'.1 out').trans (only _ waits out).symm)

/-- The unit of the thread that is back has come. -/
theorem consumed_lt (drawn : k.Drawn s units consumed waiting) (running : k.phase = .running)
    (waits : waiting k.currentThread) : consumed < units := by
  have least := (drawn.leave running waits).completedP_le
  have back := (drawn.leave running waits).back
  omega

theorem of_places (drawn : k.Drawn s units consumed waiting) {waiting' : T → Prop}
    (same : ∀ t, waiting' t ↔ waiting t) : k.Drawn s units consumed waiting' := by
  have equal : waiting' = waiting := funext fun t => propext (same t)
  rw [equal]
  exact drawn

end Drawn

theorem boot_drawn (main : T) {initialValue : S → Int} (lockMemory : L → Lock T)
    (conditionMemory : C → Condition T L) (zero : initialValue s = 0) :
    (boot main initialValue lockMemory conditionMemory).Drawn s 0 0 fun _ => False where
  wf := boot_wellFormed main initialValue lockMemory conditionMemory
  blank := boot_blank main initialValue lockMemory conditionMemory
  balanced := (boot_taken main lockMemory conditionMemory zero main).balanced
  completedV := rfl
  inP t pending := by simp [boot, pendingCall] at pending
  back := .inl ⟨rfl, fun t waits => waits.elim⟩

end Kernel

/-! ### What the readers get -/

/-- The thread has called `inputAvailable->P`, and has not called `GetChar`. -/
def ReadPc.Reads : ReadPc → Prop
  | .reading _ _ => True
  | _ => False

/-- What a thread has put into its buffer. -/
def ReadPc.line : ReadPc → List Int
  | .reading _ line => line
  | _ => []

/-- A line that is not finished. -/
def ReadPc.Unfinished : ReadPc → Prop
  | .reading size line => (line.length : Int) < size ∧ newLine ∉ line
  | _ => True

/-- The line fits in the buffer, and it ends with its first newline or fills the
buffer. -/
structure ReadCall.Complete (call : ReadCall T) : Prop where
  fits : (call.line.length : Int) ≤ max call.size 0
  oneLine : newLine ∉ call.line.dropLast
  ends : call.line.getLast? = some newLine ∨ call.size ≤ call.line.length

/-- The byte 0xFF is not typed. -/
def ReadMove.Clean : ReadMove T S L C → Prop
  | .arrive byte => byte ≠ 0xff
  | _ => True

instance (move : ReadMove T S L C) : Decidable move.Clean :=
  match move with
  | .arrive byte => inferInstanceAs (Decidable (byte ≠ 0xff))
  | .readLine _ | .proceed | .poll | .putChar _ | .writeDone | .other _ | .system _ =>
      isTrue trivial

namespace SynchConsole

/-- What a thread has got from `GetChar`. -/
def gotBy (t : T) (s : SynchConsole T S L C) : List Int :=
  (s.got.filter fun character => character.1 = t).map Prod.snd

/-- What the calls of a thread that are over have put into its buffers. -/
def linesOf (t : T) (s : SynchConsole T S L C) : List Int :=
  (s.finished.filter fun call => call.thread = t).flatMap ReadCall.line

/-- The semaphore counts the interrupts, and the readers have got what was taken in. -/
structure Reading (inputAvailable : S) (s : SynchConsole T S L C) : Prop where
  inOrder : s.keyboard.InOrder
  clean : s.keyboard.Clean
  drawn : s.kernel.Drawn inputAvailable s.keyboard.notified s.keyboard.returned.length
    fun t => (s.pc t).Reads
  got : s.got.map Prod.snd = s.keyboard.returned
  lines : ∀ t, s.gotBy t = s.linesOf t ++ (s.pc t).line
  unfinished : ∀ t, (s.pc t).Unfinished
  complete : ∀ call ∈ s.finished, call.Complete

section Steps

variable {inputMutex : L} {inputAvailable : S} {d : Discipline}
variable {s s' : SynchConsole T S L C} {k : Kernel T S L C} {size : Int} {line : List Int}

section

omit [DecidableEq S] [DecidableEq L] [DecidableEq C]

@[simp] theorem setPc_self (pc : ReadPc) : s.setPc pc s.kernel.currentThread = pc :=
  Function.update_self ..

theorem setPc_other (pc : ReadPc) {t : T} (other : t ≠ s.kernel.currentThread) :
    s.setPc pc t = s.pc t :=
  Function.update_of_ne other ..

end

theorem Reading.few (reading : s.Reading inputAvailable) :
    s.keyboard.notified ≤ s.keyboard.returned.length + 1 := by
  have owed := (reading.inOrder.owed_le reading.clean).1
  unfold Keyboard.owed at owed
  omega

/-- A step of the thread system that is no call on the semaphore. -/
theorem Reading.quiet (reading : s.Reading inputAvailable) {action : Action T S L C}
    (spares : action.Spares inputAvailable) (step : s.kernel.step d action = some k) :
    Reading inputAvailable { s with kernel := k } :=
  { reading with drawn := reading.drawn.step reading.few spares step }

/-- The running thread comes to a place of its call where it has put nothing into
the buffer, and is outside the loop. -/
theorem Reading.setPc (reading : s.Reading inputAvailable) {pc : ReadPc}
    (before : ¬ (s.pc s.kernel.currentThread).Reads) (notReads : ¬ pc.Reads) :
    Reading inputAvailable { s with pc := s.setPc pc } := by
  have none : ∀ {place : ReadPc}, ¬ place.Reads → place.line = [] ∧ place.Unfinished := by
    intro place outside
    cases place with
    | outside => exact ⟨rfl, trivial⟩
    | acquiring size => exact ⟨rfl, trivial⟩
    | reading size line => exact absurd trivial outside
  refine { reading with drawn := reading.drawn.of_places ?_, lines := ?_, unfinished := ?_ }
  · intro t
    by_cases own : t = s.kernel.currentThread
    · simp [own, notReads, before]
    · simp [setPc_other _ own]
  · intro t
    change s.gotBy t = s.linesOf t ++ (s.setPc pc t).line
    rw [reading.lines t]
    by_cases own : t = s.kernel.currentThread
    · rw [own, setPc_self, (none before).1, (none notReads).1]
    · rw [setPc_other _ own]
  · intro t
    by_cases own : t = s.kernel.currentThread
    · subst own
      simpa using (none notReads).2
    · simpa [setPc_other _ own] using reading.unfinished t

/-- A state in which the running thread is at the test of its loop, with what it
has read so far: it is in no buffer of the invariant yet. -/
structure AtTest (inputAvailable : S) (size : Int) (line : List Int)
    (s : SynchConsole T S L C) : Prop where
  inOrder : s.keyboard.InOrder
  clean : s.keyboard.Clean
  drawn : s.kernel.Drawn inputAvailable s.keyboard.notified s.keyboard.returned.length
    fun t => (s.pc t).Reads ∧ t ≠ s.kernel.currentThread
  got : s.got.map Prod.snd = s.keyboard.returned
  own : s.gotBy s.kernel.currentThread = s.linesOf s.kernel.currentThread ++ line
  lines : ∀ t, t ≠ s.kernel.currentThread → s.gotBy t = s.linesOf t ++ (s.pc t).line
  unfinished : ∀ t, t ≠ s.kernel.currentThread → (s.pc t).Unfinished
  complete : ∀ call ∈ s.finished, call.Complete
  fits : (line.length : Int) ≤ max size 0
  oneLine : newLine ∉ line.dropLast

theorem AtTest.few (atTest : s.AtTest inputAvailable size line) :
    s.keyboard.notified ≤ s.keyboard.returned.length + 1 := by
  have owed := (atTest.inOrder.owed_le atTest.clean).1
  unfold Keyboard.owed at owed
  omega

/-- Without a newline at its end a line has none. -/
theorem newLine_notMem {line : List Int} (early : newLine ∉ line.dropLast)
    (last : line.getLastD 0 ≠ newLine) : newLine ∉ line := by
  rcases List.eq_nil_or_concat line with rfl | ⟨first, c, rfl⟩
  · simp
  · rw [List.concat_eq_append, List.dropLast_concat] at early
    simp only [List.concat_eq_append, List.getLastD_concat] at last
    simp [early, Ne.symm last]

theorem newLine_last {line : List Int} (last : line.getLastD 0 = newLine) :
    line.getLast? = some newLine := by
  rcases List.eq_nil_or_concat line with rfl | ⟨first, c, rfl⟩
  · cases last
  · simpa using last

/-- The loop goes on with `P`. -/
theorem AtTest.waits (atTest : s.AtTest inputAvailable size line)
    (last : line.getLastD 0 ≠ newLine) (more : (line.length : Int) < size)
    (step : s.kernel.step d (.call (.p inputAvailable)) = some k) :
    Reading inputAvailable { s with kernel := k, pc := s.setPc (.reading size line) } := by
  have drawn := atTest.drawn.callP atTest.few (fun waits => waits.2 rfl) step
  refine
    { inOrder := atTest.inOrder
      clean := atTest.clean
      drawn := drawn.of_places ?_
      got := atTest.got
      lines := ?_
      unfinished := ?_
      complete := atTest.complete }
  · intro t
    by_cases own : t = s.kernel.currentThread
    · simp [own, ReadPc.Reads]
    · simp [setPc_other _ own, own]
  · intro t
    change s.gotBy t = s.linesOf t ++ (s.setPc (.reading size line) t).line
    by_cases own : t = s.kernel.currentThread
    · rw [own, setPc_self]
      exact atTest.own
    · rw [setPc_other _ own]
      exact atTest.lines t own
  · intro t
    by_cases own : t = s.kernel.currentThread
    · subst own
      simpa [ReadPc.Unfinished] using
        ⟨more, newLine_notMem atTest.oneLine last⟩
    · simpa [setPc_other _ own] using atTest.unfinished t own

/-- The loop is over. -/
theorem AtTest.returns (atTest : s.AtTest inputAvailable size line)
    (ended : ¬ (line.getLastD 0 ≠ newLine ∧ (line.length : Int) < size))
    (step : s.kernel.step d (.call (.release inputMutex)) = some k) :
    Reading inputAvailable
      { s with
        kernel := k
        pc := s.setPc .outside
        finished := s.finished ++ [⟨s.kernel.currentThread, size, line⟩] } := by
  have drawn := atTest.drawn.step atTest.few ⟨by simp, by simp, by simp, by simp⟩ step
  have complete : ReadCall.Complete (⟨s.kernel.currentThread, size, line⟩ : ReadCall T) := by
    refine ⟨atTest.fits, atTest.oneLine, ?_⟩
    by_cases last : line.getLastD 0 = newLine
    · exact .inl (newLine_last last)
    · exact .inr (Int.not_lt.mp fun more => ended ⟨last, more⟩)
  refine
    { inOrder := atTest.inOrder
      clean := atTest.clean
      drawn := drawn.of_places ?_
      got := atTest.got
      lines := ?_
      unfinished := ?_
      complete := ?_ }
  · intro t
    by_cases own : t = s.kernel.currentThread
    · simp [own, ReadPc.Reads]
    · simp [setPc_other _ own, own]
  · intro t
    by_cases own : t = s.kernel.currentThread
    · subst own
      have mine := atTest.own
      simp only [gotBy, linesOf] at mine ⊢
      rw [mine]
      simp [ReadPc.line]
    · have others := atTest.lines t own
      simp only [gotBy, linesOf] at others ⊢
      rw [others]
      simp [setPc_other _ own, Ne.symm own]
  · intro t
    by_cases own : t = s.kernel.currentThread
    · subst own
      simp [ReadPc.Unfinished]
    · simpa [setPc_other _ own] using atTest.unfinished t own
  · intro call member
    rcases List.mem_append.mp member with earlier | now
    · exact atTest.complete call earlier
    · rw [List.mem_singleton.mp now]
      exact complete

theorem AtTest.loop (atTest : s.AtTest inputAvailable size line)
    (step : s.loop inputMutex inputAvailable d size line = some s') :
    s'.Reading inputAvailable := by
  unfold SynchConsole.loop at step
  split at step
  · rename_i on
    obtain ⟨k, called, rfl⟩ := Option.map_eq_some_iff.mp step
    exact atTest.waits on.1 on.2 called
  · rename_i ended
    obtain ⟨k, called, rfl⟩ := Option.map_eq_some_iff.mp step
    exact atTest.returns ended called

/-- The thread has the lock and tests for the first time. -/
theorem Reading.enters (reading : s.Reading inputAvailable)
    (place : s.pc s.kernel.currentThread = .acquiring size) :
    s.AtTest inputAvailable size [] := by
  refine
    { inOrder := reading.inOrder
      clean := reading.clean
      drawn := reading.drawn.of_places ?_
      got := reading.got
      own := ?_
      lines := fun t _ => reading.lines t
      unfinished := fun t _ => reading.unfinished t
      complete := reading.complete
      fits := by simp only [List.length_nil]; omega
      oneLine := by simp }
  · intro t
    refine ⟨And.left, fun reads => ⟨reads, ?_⟩⟩
    rintro rfl
    rw [place] at reads
    exact reads
  · have lines := reading.lines s.kernel.currentThread
    rw [place] at lines
    exact lines

section

omit [DecidableEq S] [DecidableEq L] [DecidableEq C]

theorem gotBy_getChar_self :
    s.getChar.gotBy s.kernel.currentThread =
      s.gotBy s.kernel.currentThread ++ [s.keyboard.console.getChar.1] := by
  simp [gotBy, getChar]

theorem gotBy_getChar_other {t : T} (other : t ≠ s.kernel.currentThread) :
    s.getChar.gotBy t = s.gotBy t := by
  simp [gotBy, getChar, Ne.symm other]

end

/-- The thread is back from `P`, takes its character and tests again. -/
theorem Reading.takes (reading : s.Reading inputAvailable) (running : s.kernel.phase = .running)
    (place : s.pc s.kernel.currentThread = .reading size line) :
    s.getChar.AtTest inputAvailable size (line ++ [s.keyboard.console.getChar.1]) := by
  have waits : (s.pc s.kernel.currentThread).Reads := by
    rw [place]
    trivial
  have drawn := reading.drawn.leave running waits
  have unfinished := reading.unfinished s.kernel.currentThread
  rw [place] at unfinished
  refine
    { inOrder := reading.inOrder.getChar (reading.drawn.consumed_lt running waits)
      clean := reading.clean
      drawn := by simpa [getChar, Keyboard.getChar] using drawn
      got := ?_
      own := ?_
      lines := ?_
      unfinished := fun t _ => reading.unfinished t
      complete := reading.complete
      fits := ?_
      oneLine := by rw [List.dropLast_concat]; exact unfinished.2 }
  · simp [getChar, Keyboard.getChar, reading.got]
  · have lines := reading.lines s.kernel.currentThread
    rw [place] at lines
    change s.getChar.gotBy s.kernel.currentThread = s.linesOf s.kernel.currentThread ++ _
    rw [gotBy_getChar_self, lines, List.append_assoc]
    rfl
  · intro t own
    rw [gotBy_getChar_other (s := s) own]
    exact reading.lines t
  · have more := unfinished.1
    simp only [List.length_append, List.length_singleton]
    omega

/-- A byte is taken in, and the handler calls `inputAvailable->V`. -/
theorem Reading.notified (reading : s.Reading inputAvailable)
    (more : s.keyboard.notified < s.keyboard.poll.notified)
    (step : s.kernel.step d (.handlerV inputAvailable) = some k) :
    Reading inputAvailable { s with kernel := k, keyboard := s.keyboard.poll } := by
  have inOrder := reading.inOrder.poll (reading.inOrder.preserves_poll reading.clean)
  obtain ⟨byte, taken⟩ := Keyboard.poll_of_notified more
  rw [taken] at inOrder ⊢
  exact { reading with inOrder := inOrder, drawn := reading.drawn.handlerV step }

/-- A poll that takes nothing in. -/
theorem Reading.polled (reading : s.Reading inputAvailable)
    (same : ¬ s.keyboard.notified < s.keyboard.poll.notified) :
    Reading inputAvailable { s with keyboard := s.keyboard.poll } := by
  rw [Keyboard.poll_of_not_notified same]
  exact reading

/-- A byte that is typed waits for its turn. -/
theorem Reading.arrive (reading : s.Reading inputAvailable) {byte : UInt8}
    (clean : byte ≠ 0xff) :
    Reading inputAvailable
      { s with keyboard := { s.keyboard with arrived := s.keyboard.arrived ++ [byte] } } :=
  { reading with
    inOrder := reading.inOrder.of_eq rfl rfl rfl (List.prefix_append _ _)
    clean := reading.clean.arrive clean }

theorem running_of_loop
    (step : s.loop inputMutex inputAvailable d size line = some s') :
    s.kernel.phase = .running := by
  unfold SynchConsole.loop at step
  split at step
  · obtain ⟨k, called, -⟩ := Option.map_eq_some_iff.mp step
    exact Kernel.running_of_call called
  · obtain ⟨k, called, -⟩ := Option.map_eq_some_iff.mp step
    exact Kernel.running_of_call called

/-- Every step keeps what the readers get. -/
theorem Reading.step (reading : s.Reading inputAvailable) {move : ReadMove T S L C}
    (clean : move.Clean) (step : s.step inputMutex inputAvailable d move = some s') :
    s'.Reading inputAvailable := by
  unfold SynchConsole.step at step
  split at step
  · rename_i size place
    obtain ⟨k, called, rfl⟩ := Option.map_eq_some_iff.mp step
    have placed : Reading inputAvailable { s with pc := s.setPc (.acquiring size) } :=
      reading.setPc (by rw [place]; exact id) id
    exact placed.quiet ⟨by simp, by simp, by simp, by simp⟩ called
  · exact (reading.enters ‹_›).loop step
  · exact (reading.takes (running_of_loop (s := s.getChar) step) ‹_›).loop step
  · cases step
    exact reading.arrive clean
  · split at step
    · obtain ⟨k, handled, rfl⟩ := Option.map_eq_some_iff.mp step
      exact reading.notified ‹_› handled
    · split at step
      · cases step
        exact reading.polled ‹_›
      · cases step
  · split at step
    · obtain ⟨console, put, rfl⟩ := Option.map_eq_some_iff.mp step
      have incoming : console.incoming = s.keyboard.console.incoming := by
        unfold Console.putChar at put
        split at put
        · cases put
          rfl
        · cases put
      exact { reading with inOrder := reading.inOrder.of_eq incoming rfl rfl List.prefix_rfl }
    · cases step
  · cases step
    exact { reading with inOrder := reading.inOrder.of_eq rfl rfl rfl List.prefix_rfl }
  · split at step
    · cases step
    · obtain ⟨k, called, rfl⟩ := Option.map_eq_some_iff.mp step
      exact reading.quiet (SynchDevice.Op.spares (eq_false_of_ne_true ‹_›)).1 called
  · rename_i action
    split at step
    · cases step
    · obtain ⟨k, called, rfl⟩ := Option.map_eq_some_iff.mp step
      have elsewhere : action.Spares inputAvailable ∧
          (∀ c, action ≠ .call (.wait c (some inputMutex))) ∧
          action ≠ .call (.release inputMutex) :=
        SynchDevice.Action.spares (eq_false_of_ne_true ‹_›)
      exact reading.quiet elsewhere.1 called
  · cases step

end Steps

theorem boot_reading (main : T) {inputAvailable : S} {initialValue : S → Int}
    (lockMemory : L → Lock T) (conditionMemory : C → Condition T L)
    (zero : initialValue inputAvailable = 0) :
    (boot main initialValue lockMemory conditionMemory).Reading inputAvailable where
  inOrder := Keyboard.inOrder_start
  clean := by simp [Keyboard.Clean, boot, Keyboard.start]
  drawn := Kernel.boot_drawn main lockMemory conditionMemory zero
  got := rfl
  lines t := rfl
  unfinished t := trivial
  complete := by simp [boot]

/-- All readers together have got what was typed, in the same order; at most one
character has been taken in and is not got yet.  Every reader has put what it got
into its buffers, one call after the other; a call that is over has read one
line, and the one under way only a part of a line. -/
structure Delivered (s : SynchConsole T S L C) : Prop where
  typed : s.got.map Prod.snd <+: s.keyboard.arrived.map charOf
  taken : s.keyboard.notified ≤ s.got.length + 1
  lines : ∀ t, s.gotBy t = s.linesOf t ++ (s.pc t).line
  complete : ∀ call ∈ s.finished, call.Complete
  unfinished : ∀ t, (s.pc t).Unfinished

theorem Reading.typed {inputAvailable : S} {s : SynchConsole T S L C}
    (reading : s.Reading inputAvailable) :
    s.got.map Prod.snd <+: s.keyboard.arrived.map charOf := by
  have taken : s.keyboard.returned <+: (s.keyboard.arrived.take s.keyboard.notified).map charOf :=
    ⟨s.keyboard.ahead, reading.inOrder.gets⟩
  rw [reading.got]
  exact taken.trans ((List.take_prefix _ _).map charOf)

theorem Reading.delivered {inputAvailable : S} {s : SynchConsole T S L C}
    (reading : s.Reading inputAvailable) : s.Delivered := by
  have length : s.got.length = s.keyboard.returned.length := by
    rw [← reading.got, List.length_map]
  exact ⟨reading.typed, by rw [length]; exact reading.few, reading.lines, reading.complete,
    reading.unfinished⟩

end SynchConsole

/-- In every run of any number of threads that call `ReadLine`, with polls and other
steps at any time, in which the byte 0xFF is not typed, the readers get what is typed,
even where the lock does not keep them apart. -/
theorem readLine_delivers {main : T} {inputMutex : L} {inputAvailable : S} {d : Discipline}
    {initialValue : S → Int} {lockMemory : L → Lock T} {conditionMemory : C → Condition T L}
    (zero : initialValue inputAvailable = 0) {moves : List (ReadMove T S L C)}
    (clean : ∀ move ∈ moves, move.Clean) {s : SynchConsole T S L C}
    (run : (synchConsoleMachine inputMutex inputAvailable d).exec
      (SynchConsole.boot main initialValue lockMemory conditionMemory) moves = some s) :
    s.Delivered := by
  have reading := Machine.along_of_guarded
    (M := synchConsoleMachine inputMutex inputAvailable d)
    (fun s move s' reading clean step =>
      SynchConsole.Reading.step (d := d) reading clean step)
    (SynchConsole.boot_reading main lockMemory conditionMemory zero)
    (Machine.steps_of_forall _ clean)
  exact (reading.finish run).delivered

/-- Main reads a line of two characters.  Meanwhile thread 1 calls `ReadLine` as well
and sleeps in `Acquire`, out of which it is resumed, and reads the next character. -/
def twoContenders : List (ReadMove Nat Unit Unit Empty) :=
  [.other (.fork 1), .system .endTick, .readLine 5, .system .endTick, .proceed,
    .system (.dispatch 0), .system .endTick, .readLine 1, .system .idle, .arrive 0x41, .poll,
    .system .endIdle, .system (.dispatch 0), .system .endTick, .proceed, .system .idle,
    .arrive 0x0a, .arrive 0x42, .poll, .system .endIdle, .system (.dispatch 0),
    .system .endTick, .proceed, .system .endTick, .other (.yield 0), .system .endTick,
    .proceed, .system (.dispatch 0), .poll, .system .endTick, .other (.yield 0),
    .system .endTick, .proceed]

theorem readLine_delivers_to_contenders :
    ∃ s : SynchConsole Nat Unit Unit Empty,
      (synchConsoleMachine () () .fifo).exec
        (.boot 0 (fun _ => 0) (fun _ => ⟨false, none, []⟩) Empty.elim) twoContenders =
          some s ∧
      s.finished = [⟨0, 5, [0x41, newLine]⟩, ⟨1, 1, [0x42]⟩] ∧ s.Delivered := by
  obtain ⟨s, run, finished⟩ : ∃ s : SynchConsole Nat Unit Unit Empty,
      (synchConsoleMachine () () .fifo).exec
        (.boot 0 (fun _ => 0) (fun _ => ⟨false, none, []⟩) Empty.elim) twoContenders =
          some s ∧
      s.finished = [⟨0, 5, [0x41, newLine]⟩, ⟨1, 1, [0x42]⟩] :=
    ⟨_, (Option.some_get (by decide +kernel)).symm, by decide +kernel⟩
  exact ⟨s, run, finished, readLine_delivers (by rfl) (by decide) run⟩

/-! ### One line after another -/

/-- The step resumes no thread out of the `Sleep` of `inputMutex->Acquire`. -/
def ReadMove.SparesSleepers (inputMutex : L) (s : SynchConsole T S L C) :
    ReadMove T S L C → Prop
  | .other op => ¬ s.kernel.ResumesSleeper inputMutex (.call op)
  | .system action => ¬ s.kernel.ResumesSleeper inputMutex action
  | _ => True

instance (inputMutex : L) (s : SynchConsole T S L C) (move : ReadMove T S L C) :
    Decidable (move.SparesSleepers inputMutex s) :=
  match move with
  | .other op => inferInstanceAs (Decidable (¬ s.kernel.ResumesSleeper inputMutex (.call op)))
  | .system action => inferInstanceAs (Decidable (¬ s.kernel.ResumesSleeper inputMutex action))
  | .readLine _ | .proceed | .arrive _ | .poll | .putChar _ | .writeDone => isTrue trivial

namespace SynchConsole

/-- The call under way has read this much of its line. -/
def UnderWay (s : SynchConsole T S L C) (line : List Int) : Prop :=
  (∃ t size, s.pc t = .reading size line) ∨ (line = [] ∧ ∀ t, ¬ (s.pc t).Reads)

/-- The readers are apart, and the characters have gone to one call after another. -/
structure Apart (inputMutex : L) (s : SynchConsole T S L C) : Prop where
  excluded : s.kernel.Excluded inputMutex (fun t => ∃ size, s.pc t = .acquiring size)
    fun t => (s.pc t).Reads
  serial : ∃ line, s.UnderWay line ∧
    s.got.map Prod.snd = s.finished.flatMap ReadCall.line ++ line

section Steps

variable {inputMutex : L} {inputAvailable : S} {d : Discipline}
variable {s s' : SynchConsole T S L C} {k : Kernel T S L C} {size : Int} {line : List Int}

/-- A step of the thread system that is none of the calls of `ReadLine`. -/
theorem Apart.quiet (apart : s.Apart inputMutex) {action : Action T S L C}
    (notWait : ∀ c, action ≠ .call (.wait c (some inputMutex)))
    (notRelease : action ≠ .call (.release inputMutex))
    (asleep : ¬ s.kernel.ResumesSleeper inputMutex action)
    (step : s.kernel.step d action = some k) (keyboard : Keyboard) :
    Apart inputMutex { s with kernel := k, keyboard := keyboard } :=
  ⟨apart.excluded.step notWait asleep (fun released => absurd released notRelease) step,
    apart.serial⟩

/-- The running thread has the lock and is at the test of its loop, with this much of
its line, and nobody else reads. -/
structure Sole (inputMutex : L) (line : List Int) (s : SynchConsole T S L C) : Prop where
  excluded : s.kernel.Excluded inputMutex
    (fun t => (∃ size, s.pc t = .acquiring size) ∧ t ≠ s.kernel.currentThread)
    fun t => t = s.kernel.currentThread
  nobody : ∀ t, t ≠ s.kernel.currentThread → ¬ (s.pc t).Reads
  serial : s.got.map Prod.snd = s.finished.flatMap ReadCall.line ++ line

section

omit [DecidableEq T] [DecidableEq S] [DecidableEq L] [DecidableEq C]

theorem Apart.sole (apart : s.Apart inputMutex) (running : s.kernel.phase = .running)
    (inside : (∃ size, s.pc s.kernel.currentThread = .acquiring size) ∨
      (s.pc s.kernel.currentThread).Reads) :
    s.Sole inputMutex (s.pc s.kernel.currentThread).line := by
  have alone : ∀ t, (s.pc t).Reads → t = s.kernel.currentThread :=
    fun t reads => apart.excluded.alone running inside reads
  refine ⟨?_, fun t other reads => other (alone t reads), ?_⟩
  · apply apart.excluded.of_places
    · rintro t ⟨place, -⟩
      exact apart.excluded.has t place
    · rintro t rfl
      exact apart.excluded.owner running inside
  · obtain ⟨line, underWay, serial⟩ := apart.serial
    rcases underWay with ⟨t, size, place⟩ | ⟨rfl, nobody⟩
    · obtain rfl := alone t (by rw [place]; trivial)
      rw [place]
      exact serial
    · rcases inside with ⟨size, place⟩ | reads
      · rw [place]
        exact serial
      · exact absurd reads (nobody _)

theorem Sole.getChar (sole : s.Sole inputMutex line) :
    s.getChar.Sole inputMutex (line ++ [s.keyboard.console.getChar.1]) := by
  refine ⟨sole.excluded, sole.nobody, ?_⟩
  simp [SynchConsole.getChar, sole.serial]

end

theorem Sole.loop (sole : s.Sole inputMutex line)
    (step : s.loop inputMutex inputAvailable d size line = some s') :
    s'.Apart inputMutex := by
  unfold SynchConsole.loop at step
  split at step
  · obtain ⟨k, called, rfl⟩ := Option.map_eq_some_iff.mp step
    have excluded := sole.excluded.step (by simp)
      (by simp [Kernel.ResumesSleeper, Kernel.nextThread]) (by simp) called
    refine ⟨excluded.of_places ?_ ?_, line, .inl ⟨s.kernel.currentThread, size, setPc_self _⟩,
      sole.serial⟩
    · rintro t ⟨rest, place⟩
      by_cases own : t = s.kernel.currentThread
      · simp [own] at place
      · exact excluded.has t ⟨⟨rest, (setPc_other _ own).symm.trans place⟩, own⟩
    · intro t reads
      by_cases own : t = s.kernel.currentThread
      · exact excluded.owns t own
      · have earlier : (s.pc t).Reads := by simpa [setPc_other _ own] using reads
        exact absurd earlier (sole.nobody t own)
  · obtain ⟨k, called, rfl⟩ := Option.map_eq_some_iff.mp step
    have gone : ∀ t, ¬ (s.setPc .outside t).Reads := by
      intro t
      by_cases own : t = s.kernel.currentThread
      · simp [own, ReadPc.Reads]
      · rw [setPc_other _ own]
        exact sole.nobody t own
    have left : s.kernel.Excluded inputMutex
        (fun t => (∃ size, s.pc t = .acquiring size) ∧ t ≠ s.kernel.currentThread)
        fun _ => False :=
      sole.excluded.of_places sole.excluded.has fun t holds => holds.elim
    have excluded := left.step (by simp)
      (by simp [Kernel.ResumesSleeper, Kernel.nextThread]) (by simp) called
    refine ⟨excluded.of_places ?_ fun t reads => absurd reads (gone t), [], .inr ⟨rfl, gone⟩, ?_⟩
    · rintro t ⟨rest, place⟩
      by_cases own : t = s.kernel.currentThread
      · simp [own] at place
      · exact excluded.has t ⟨⟨rest, (setPc_other _ own).symm.trans place⟩, own⟩
    · simp [sole.serial]

/-- The running thread calls `ReadLine`. -/
theorem Apart.begin (apart : s.Apart inputMutex)
    (outside : s.pc s.kernel.currentThread = .outside)
    (step : s.kernel.step d (.call (.acquire inputMutex)) = some k) :
    Apart inputMutex { s with kernel := k, pc := s.setPc (.acquiring size) } := by
  have excluded := apart.excluded.acquire step
  have reads : ∀ t, (s.setPc (.acquiring size) t).Reads ↔ (s.pc t).Reads := by
    intro t
    by_cases own : t = s.kernel.currentThread
    · simp [own, outside, ReadPc.Reads]
    · rw [setPc_other _ own]
  refine ⟨excluded.of_places ?_ fun t holds => excluded.owns t ((reads t).mp holds), ?_⟩
  · rintro t ⟨rest, place⟩
    by_cases own : t = s.kernel.currentThread
    · exact excluded.has t (.inr own)
    · exact excluded.has t (.inl ⟨rest, (setPc_other _ own).symm.trans place⟩)
  · obtain ⟨line, underWay, serial⟩ := apart.serial
    refine ⟨line, ?_, serial⟩
    rcases underWay with ⟨t, rest, place⟩ | ⟨none, nobody⟩
    · have other : t ≠ s.kernel.currentThread := by
        rintro rfl
        cases outside.symm.trans place
      exact .inl ⟨t, rest, (setPc_other _ other).trans place⟩
    · exact .inr ⟨none, fun t => (reads t).not.mpr (nobody t)⟩

/-- Every step that resumes no sleeper of the lock keeps the readers apart. -/
theorem Apart.step (apart : s.Apart inputMutex) {move : ReadMove T S L C}
    (spares : move.SparesSleepers inputMutex s)
    (step : s.step inputMutex inputAvailable d move = some s') : s'.Apart inputMutex := by
  unfold SynchConsole.step at step
  split at step
  · obtain ⟨k, called, rfl⟩ := Option.map_eq_some_iff.mp step
    exact apart.begin ‹_› called
  · rename_i size place
    have sole := apart.sole (running_of_loop step) (.inl ⟨size, place⟩)
    rw [place] at sole
    exact sole.loop step
  · rename_i size line place
    have reads : (s.pc s.kernel.currentThread).Reads := by
      rw [place]
      trivial
    have sole := apart.sole (running_of_loop (s := s.getChar) step) (.inr reads)
    rw [place] at sole
    exact sole.getChar.loop step
  · cases step
    exact ⟨apart.excluded, apart.serial⟩
  · split at step
    · obtain ⟨k, handled, rfl⟩ := Option.map_eq_some_iff.mp step
      exact apart.quiet (by simp) (by simp)
        (by simp [Kernel.ResumesSleeper, Kernel.nextThread]) handled _
    · split at step
      · cases step
        exact ⟨apart.excluded, apart.serial⟩
      · cases step
  · split at step
    · obtain ⟨console, -, rfl⟩ := Option.map_eq_some_iff.mp step
      exact ⟨apart.excluded, apart.serial⟩
    · cases step
  · cases step
    exact ⟨apart.excluded, apart.serial⟩
  · split at step
    · cases step
    · obtain ⟨k, called, rfl⟩ := Option.map_eq_some_iff.mp step
      obtain ⟨-, notWait, notRelease⟩ := SynchDevice.Op.spares (eq_false_of_ne_true ‹_›)
      exact apart.quiet notWait notRelease spares called _
  · split at step
    · cases step
    · obtain ⟨k, called, rfl⟩ := Option.map_eq_some_iff.mp step
      obtain ⟨-, notWait, notRelease⟩ := SynchDevice.Action.spares (eq_false_of_ne_true ‹_›)
      exact apart.quiet notWait notRelease spares called _
  · cases step

end Steps

section

omit [DecidableEq S] [DecidableEq L] [DecidableEq C]

theorem boot_apart (main : T) {inputMutex : L} (initialValue : S → Int) {lockMemory : L → Lock T}
    (conditionMemory : C → Condition T L) (free : (lockMemory inputMutex).owner = none) :
    (boot main initialValue lockMemory conditionMemory).Apart inputMutex where
  excluded := (Kernel.boot_excluded main conditionMemory free).of_places
    (fun t ⟨size, place⟩ => by cases place) fun t reads => reads.elim
  serial := ⟨[], .inr ⟨rfl, fun t => id⟩, rfl⟩

end

end SynchConsole

open SynchConsole in
/-- In every run of any number of threads that call `ReadLine`, in which no thread is
resumed out of the `Sleep` of `inputMutex->Acquire` and the byte 0xFF is not typed, the
lines are what was typed, cut into pieces: the calls that are over, in the order in
which they come to their `Release`, have the pieces one after another, and the one call
under way has the beginning of the next one. -/
theorem readLine_lines_apart {main : T} {inputMutex : L} {inputAvailable : S}
    {d : Discipline} {initialValue : S → Int} {lockMemory : L → Lock T}
    {conditionMemory : C → Condition T L} (zero : initialValue inputAvailable = 0)
    (free : (lockMemory inputMutex).owner = none) {moves : List (ReadMove T S L C)}
    (clean : ∀ move ∈ moves, move.Clean) {s : SynchConsole T S L C}
    (run : (synchConsoleMachine inputMutex inputAvailable d).exec
      (.boot main initialValue lockMemory conditionMemory) moves = some s)
    (spares : (synchConsoleMachine inputMutex inputAvailable d).Steps
      (fun s move => move.SparesSleepers inputMutex s)
      (.boot main initialValue lockMemory conditionMemory) moves) :
    ∃ line, s.UnderWay line ∧
      s.finished.flatMap ReadCall.line ++ line <+: s.keyboard.arrived.map charOf ∧
      s.keyboard.notified ≤ (s.finished.flatMap ReadCall.line ++ line).length + 1 := by
  have both := (Machine.along_of_guarded
    (M := synchConsoleMachine inputMutex inputAvailable d)
    (I := fun s => s.Reading inputAvailable ∧ s.Apart inputMutex)
    (fun s move s' invariant allowed step =>
      ⟨invariant.1.step (d := d) allowed.1 step, invariant.2.step (d := d) allowed.2 step⟩)
    ⟨boot_reading main lockMemory conditionMemory zero,
      boot_apart main initialValue conditionMemory free⟩
    ((Machine.steps_of_forall _ clean).and spares)).finish run
  obtain ⟨reading, apart⟩ := both
  obtain ⟨line, underWay, serial⟩ := apart.serial
  have delivered := reading.delivered
  refine ⟨line, underWay, ?_, ?_⟩
  · rw [← serial]
    exact delivered.typed
  · rw [← serial, List.length_map]
    exact delivered.taken

/-- Main reads a line of two characters, and after its `Release` thread 1 reads the
next character, while main calls `ReadLine` again and sleeps in `Acquire`. -/
def twoReaders : List (ReadMove Nat Unit Unit Empty) :=
  [.other (.fork 1), .system .endTick, .readLine 5, .system .endTick, .proceed,
    .system (.dispatch 0), .arrive 0x41, .poll, .system .endTick, .other (.yield 0),
    .system .endTick, .proceed, .system (.dispatch 0), .arrive 0x0a, .arrive 0x42, .poll,
    .system .endTick, .other (.yield 0), .system .endTick, .proceed, .system .endTick,
    .other (.yield 0), .system .endTick, .readLine 1, .system .endTick, .proceed,
    .system (.dispatch 0), .system .endTick, .readLine 3, .system .idle, .poll,
    .system .endIdle, .system (.dispatch 0), .system .endTick, .proceed]

theorem readLine_lines_apart_of_two_readers :
    ∃ s : SynchConsole Nat Unit Unit Empty,
      (synchConsoleMachine () () .fifo).exec
        (.boot 0 (fun _ => 0) (fun _ => ⟨false, none, []⟩) Empty.elim) twoReaders = some s ∧
      s.finished = [⟨0, 5, [0x41, newLine]⟩, ⟨1, 1, [0x42]⟩] ∧
      ∃ line, s.UnderWay line ∧
        s.finished.flatMap ReadCall.line ++ line <+: s.keyboard.arrived.map charOf ∧
        s.keyboard.notified ≤ (s.finished.flatMap ReadCall.line ++ line).length + 1 := by
  obtain ⟨s, run, finished⟩ : ∃ s : SynchConsole Nat Unit Unit Empty,
      (synchConsoleMachine () () .fifo).exec
        (.boot 0 (fun _ => 0) (fun _ => ⟨false, none, []⟩) Empty.elim) twoReaders = some s ∧
      s.finished = [⟨0, 5, [0x41, newLine]⟩, ⟨1, 1, [0x42]⟩] :=
    ⟨_, (Option.some_get (by decide +kernel)).symm, by decide +kernel⟩
  exact ⟨s, run, finished,
    readLine_lines_apart (by rfl) (by rfl) (by decide) run (by decide +kernel)⟩

end Nachos
