/-
Module: Nachos.UserProg.Handlers
Purpose: The handlers of Create, Open, Read and Write in exception.cc with the
  buffers that they allocate.  An address that cannot be translated takes the
  kernel into its own `ExceptionHandler`, which halts the machine, a negative
  length takes it into `new`, and `scanf` does not know the length.
Trusted boundary: the host has the memory for every buffer whose size is not
  negative; `Write` of a file reads no more of the buffer than its length.
Main exports: Outcome, Buffer, Host, UserKernel, KernelCall, UserKernel.perform,
  UserKernel.Behaves, UserKernel.Harmless, handlers_behave_iff,
  UserKernel.perform_refines
-/
import Nachos.Machine.Copying
import Nachos.UserProg.AddrSpace

namespace Nachos

open Lib (Memory)
open Processor (SameMapping)

/-! ### How a handler ends -/

/-- How a routine of the kernel ends. -/
inductive Outcome (α : Type) where
  | finishes (result : α)
  /-- the machine is halted, or an assertion of it fails -/
  | stops
  /-- `new` throws, and nothing catches it -/
  | throws
  /-- a byte outside a buffer is read or written -/
  | overruns

namespace Outcome

variable {α β : Type}

def andThen (outcome : Outcome α) (next : α → Outcome β) : Outcome β :=
  match outcome with
  | .finishes result => next result
  | .stops => .stops
  | .throws => .throws
  | .overruns => .overruns

instance : Monad Outcome where
  pure := .finishes
  bind := andThen

@[simp] theorem finishes_bind (result : α) (next : α → Outcome β) :
    (Outcome.finishes result >>= next) = next result := rfl

@[simp] theorem stops_bind (next : α → Outcome β) :
    ((Outcome.stops : Outcome α) >>= next) = .stops := rfl

@[simp] theorem throws_bind (next : α → Outcome β) :
    ((Outcome.throws : Outcome α) >>= next) = .throws := rfl

theorem bind_eq_finishes {outcome : Outcome α} {next : α → Outcome β} {result : β} :
    (outcome >>= next) = .finishes result ↔
      ∃ value, outcome = .finishes value ∧ next value = .finishes result := by
  cases outcome with
  | finishes value => simp
  | stops => simp
  | throws => simp
  | overruns => simp [Bind.bind, andThen]

@[simp] theorem pure_eq (result : α) : (pure result : Outcome α) = .finishes result := rfl

end Outcome

/-! ### Buffers of the kernel -/

/-- What `new char[size]` gives. -/
structure Buffer where
  size : Int
  bytes : Memory

namespace Buffer

/-- `buf[i] = byte`. -/
def put (i : Int) (byte : UInt8) (buf : Buffer) : Outcome Buffer :=
  if 0 ≤ i ∧ i < buf.size then
    .finishes { buf with bytes := Function.update buf.bytes i byte }
  else .overruns

/-- `buf[i]`. -/
def get (i : Int) (buf : Buffer) : Outcome UInt8 :=
  if 0 ≤ i ∧ i < buf.size then .finishes (buf.bytes i) else .overruns

/-- Bytes are put one after another, from index `i` on. -/
def putAll : List UInt8 → Int → Buffer → Outcome Buffer
  | [], _, buf => .finishes buf
  | byte :: bytes, i, buf => do
      let buf ← buf.put i byte
      putAll bytes (i + 1) buf

/-- `count` bytes are read, from index `i` on. -/
def getAll (buf : Buffer) : Nat → Int → Outcome (List UInt8)
  | 0, _ => .finishes []
  | count + 1, i => do
      let byte ← buf.get i
      let rest ← getAll buf count (i + 1)
      pure (byte :: rest)

/-- A string is read from index `i` on up to its end; the first argument bounds
the number of steps. -/
def getString (buf : Buffer) : Nat → Int → Outcome (List UInt8)
  | 0, _ => .overruns
  | steps + 1, i => do
      let byte ← buf.get i
      if byte = 0 then pure []
      else
        let rest ← getString buf steps (i + 1)
        pure (byte :: rest)

/-- The string in a buffer. -/
def string (buf : Buffer) : Outcome (List UInt8) :=
  buf.getString (buf.size.toNat + 1) 0

end Buffer

/-- What the handlers find outside. -/
structure Host (F : Type) where
  /-- whether a `new` that fails returns 0, as the handlers presume -/
  nothrow : Bool
  /-- what a new buffer holds -/
  heap : Memory
  /-- the interrupts that the file system takes -/
  interrupts : Nat
  /-- `fileSystem->Open` -/
  openFile : List UInt8 → Option F
  /-- the word that `scanf` reads, and nothing at the end of the input -/
  word : Option (List UInt8)
  /-- `OpenFile::Read`: the number of bytes and the bytes -/
  deliver : F → Int → Int × Memory
  word32 : ∀ f len, -2 ^ 31 ≤ (deliver f len).1
  atMost : ∀ f len, 0 ≤ len → len < 2 ^ 31 → (deliver f len).1 ≤ len

/-- What `OpenFile::Read` of a file on the disk delivers. -/
theorem OpenFile.read_delivers {file : OpenFile} (granted : file.hdr.Granted)
    (positionLow : -2 ^ 31 ≤ file.seekPosition) (disk : Disk) (into : Memory) {len : Int}
    (low : 0 ≤ len) (high : len < 2 ^ 31) :
    -2 ^ 31 ≤ (file.read disk into len).1 ∧ (file.read disk into len).1 ≤ len := by
  unfold read
  dsimp only
  rw [readAt_delivered, delivered]
  split
  · omega
  · rename_i some
    refine ⟨?_, clip_le granted positionLow high some⟩
    unfold clip
    split
    · exact Int.le_bmod (by decide)
    · omega

/-- `new char[size]`. -/
def newChar {F : Type} (host : Host F) (size : Int) : Outcome (Option Buffer) :=
  if 0 ≤ size then .finishes (some ⟨size, host.heap⟩)
  else if host.nothrow then .finishes none
  else .throws

/-! ### copyin and copyout -/

/-- The loop of `copyin` with `count` bytes to go. -/
def Buffer.copyinLoop : Nat → Int → BitVec 32 → Buffer → Processor → Outcome (Buffer × Processor)
  | 0, _, _, buf, m => .finishes (buf, m)
  | count + 1, n, vaddr, buf, m =>
      match Simulation.readMem unexpected vaddr 1 ⟨m, []⟩ with
      | .returns (some value) s => do
          let buf ← buf.put n (Memory.byteOf value 0)
          copyinLoop count (n + 1) (vaddr + 1) buf s.toProcessor
      | _ => .stops

/-- `copyin`: the result, the buffer and the machine.  The result is the length
that it was given, as a failed `ReadMem` does not return. -/
def Buffer.copyin (vaddr : BitVec 32) (len : Int) (buf : Buffer) (m : Processor) :
    Outcome (Int × Buffer × Processor) := do
  let (buf, m) ← copyinLoop len.toNat 0 vaddr buf m
  pure (len, buf, m)

/-- The loop of `copyout` with `count` bytes to go. -/
def Buffer.copyoutLoop (buf : Buffer) : Nat → Int → BitVec 32 → Processor → Outcome Processor
  | 0, _, _, m => .finishes m
  | count + 1, n, vaddr, m => do
      let byte ← buf.get n
      match Simulation.writeMem unexpected vaddr 1 (byte.toBitVec.signExtend 32) ⟨m, []⟩ with
      | .returns (some _) s => copyoutLoop buf count (n + 1) (vaddr + 1) s.toProcessor
      | _ => .stops

/-- `copyout`: the result and the machine. -/
def Buffer.copyout (vaddr : BitVec 32) (len : Int) (buf : Buffer) (m : Processor) :
    Outcome (Int × Processor) := do
  let m ← buf.copyoutLoop len.toNat 0 vaddr m
  pure (len.toNat, m)

/-! ### The handlers -/

/-- What a handler has had done. -/
inductive KernelEffect (F : Type) where
  | created (name : List UInt8)
  | wrote (f : F) (bytes : List UInt8)
  | printed (bytes : List UInt8)

/-- The kernel with a user program; `copied` is what `copyin` or `copyout` has
returned in the call, and no routine reads it. -/
structure UserKernel (F : Type) where
  machine : Processor
  fileTable : Table F
  effects : List (KernelEffect F)
  copied : Option Int

/-- The system calls with their arguments. -/
inductive KernelCall where
  | create (vaddr len : BitVec 32)
  | openFile (vaddr len : BitVec 32)
  | write (vaddr len id : BitVec 32)
  | read (vaddr len id : BitVec 32)

namespace UserKernel

variable {F : Type}

/-- `Create_Syscall`. -/
def createSyscall (host : Host F) (vaddr len : BitVec 32) (k : UserKernel F) :
    Outcome (UserKernel F) := do
  match ← newChar host (len + 1).toInt with
  | none => pure k
  | some buf =>
      let (copied, buf, m) ← buf.copyin vaddr len.toInt k.machine
      let k := { k with machine := m, copied := some copied }
      if copied = -1 then pure k
      else
        let buf ← buf.put len.toInt 0
        let name ← buf.string
        pure { k with
          machine := k.machine.interrupted host.interrupts
          effects := .created name :: k.effects }

/-- `Open_Syscall`: the id and the kernel. -/
def openSyscall (host : Host F) (vaddr len : BitVec 32) (k : UserKernel F) :
    Outcome (BitVec 32 × UserKernel F) := do
  match ← newChar host (len + 1).toInt with
  | none => pure (-1, k)
  | some buf =>
      let (copied, buf, m) ← buf.copyin vaddr len.toInt k.machine
      let k := { k with machine := m, copied := some copied }
      if copied = -1 then pure (-1, k)
      else
        let buf ← buf.put len.toInt 0
        let name ← buf.string
        let (id, fileTable) := Descriptors.openSyscall (host.openFile name) k.fileTable
        pure (BitVec.ofInt 32 id,
          { k with
            machine := k.machine.interrupted host.interrupts
            fileTable := fileTable })

/-- `Write_Syscall`. -/
def writeSyscall (host : Host F) (vaddr len id : BitVec 32) (k : UserKernel F) :
    Outcome (UserKernel F) := do
  if id = consoleInput then pure k
  else
    match ← newChar host len.toInt with
    | none => pure k
    | some buf =>
        let (copied, buf, m) ← buf.copyin vaddr len.toInt k.machine
        let k := { k with machine := m, copied := some copied }
        if copied = -1 then pure k
        else if id = consoleOutput then
          let bytes ← buf.getAll len.toInt.toNat 0
          pure { k with effects := .printed bytes :: k.effects }
        else
          match k.fileTable.get id.toInt with
          | some f =>
              let bytes ← buf.getAll len.toInt.toNat 0
              pure { k with
                machine := k.machine.interrupted host.interrupts
                effects := .wrote f bytes :: k.effects }
          | none => pure k

/-- `Read_Syscall`: the length and the kernel. -/
def readSyscall (host : Host F) (vaddr len id : BitVec 32) (k : UserKernel F) :
    Outcome (BitVec 32 × UserKernel F) := do
  if id = consoleOutput then pure (-1, k)
  else
    match ← newChar host len.toInt with
    | none => pure (-1, k)
    | some buf =>
        if id = consoleInput then
          let buf ←
            match host.word with
            | some word => buf.putAll (word ++ [0]) 0
            | none => pure buf
          let (copied, m) ← buf.copyout vaddr len.toInt k.machine
          -- a result of -1 would be reported to the terminal only
          pure (len, { k with machine := m, copied := some copied })
        else
          match k.fileTable.get id.toInt with
          | some f =>
              let (length, bytes) := host.deliver f len.toInt
              let buf ← buf.putAll (bytes.toList length.toNat) 0
              let m := k.machine.interrupted host.interrupts
              if 0 < length then
                let (copied, m) ← buf.copyout vaddr length m
                pure (BitVec.ofInt 32 length, { k with machine := m, copied := some copied })
              else pure (BitVec.ofInt 32 length, { k with machine := m })
          | none => pure (-1, k)

/-- The `switch` of `ExceptionHandler`: the return value and the kernel. -/
def perform (host : Host F) (k : UserKernel F) :
    KernelCall → Outcome (BitVec 32 × UserKernel F)
  | .create vaddr len => do
      let k ← createSyscall host vaddr len { k with copied := none }
      pure (0, k)
  | .openFile vaddr len => openSyscall host vaddr len { k with copied := none }
  | .write vaddr len id => do
      let k ← writeSyscall host vaddr len id { k with copied := none }
      pure (0, k)
  | .read vaddr len id => readSyscall host vaddr len id { k with copied := none }

end UserKernel

/-! ### What a user program relies on -/

namespace KernelCall

variable {F : Type}

/-- The bytes of the user program that the call is to copy: whether they are
written, where they start and how many there are. -/
def range (host : Host F) (k : UserKernel F) : KernelCall → Bool × BitVec 32 × Int
  | .create vaddr len => (false, vaddr, len.toInt)
  | .openFile vaddr len => (false, vaddr, len.toInt)
  | .write vaddr len _ => (false, vaddr, len.toInt)
  | .read vaddr len id =>
      (true, vaddr,
        if id = consoleInput then len.toInt
        else
          match k.fileTable.get id.toInt with
          | some f => (host.deliver f len.toInt).1
          | none => 0)

/-- Every byte that the call is to copy can be translated. -/
def Translated (host : Host F) (k : UserKernel F) (call : KernelCall) : Prop :=
  k.machine.RangeTranslatable (call.range host k).1 (call.range host k).2.1
    (call.range host k).2.2

/-- The call has reported an error. -/
def Reported (rv : BitVec 32) (k k' : UserKernel F) : KernelCall → Prop
  | .create _ _ => k'.effects = k.effects ∧ k'.fileTable = k.fileTable
  | .write _ _ _ => k'.effects = k.effects ∧ k'.fileTable = k.fileTable
  | .openFile _ _ => rv = -1
  | .read _ _ _ => rv = -1

end KernelCall

namespace UserKernel

variable {F : Type}

/-- The handler comes to its end within its buffers, and where a byte cannot be
translated, the copying returns -1 and the call reports the error. -/
def Behaves (host : Host F) (k : UserKernel F) (call : KernelCall) : Prop :=
  ∃ rv k', perform host k call = .finishes (rv, k') ∧
    (¬ call.Translated host k →
      (k'.copied = none ∨ k'.copied = some (-1)) ∧ call.Reported rv k k')

/-- A handler gets a buffer for which `rest` holds, or it is told that there is
none. -/
def Allocates (host : Host F) (size : Int) (rest : Prop) : Prop :=
  (size < 0 ∧ host.nothrow = true) ∨ (0 ≤ size ∧ rest)

/-- The lengths are not negative, the bytes that are copied can be translated,
and the word that is typed in fits in. -/
def Harmless (host : Host F) (k : UserKernel F) : KernelCall → Prop
  | .create vaddr len =>
      Allocates host (len + 1).toInt (k.machine.RangeTranslatable false vaddr len.toInt)
  | .openFile vaddr len =>
      Allocates host (len + 1).toInt (k.machine.RangeTranslatable false vaddr len.toInt)
  | .write vaddr len id =>
      id = consoleInput ∨
        Allocates host len.toInt (k.machine.RangeTranslatable false vaddr len.toInt)
  | .read vaddr len id =>
      id = consoleOutput ∨
        Allocates host len.toInt
          (if id = consoleInput then
            (∀ word, host.word = some word → word.length < len.toInt) ∧
              k.machine.RangeTranslatable true vaddr len.toInt
          else
            ∀ f, k.fileTable.get id.toInt = some f →
              k.machine.RangeTranslatable true vaddr (host.deliver f len.toInt).1)

end UserKernel

/-! ### Staying within a buffer -/

namespace Buffer

variable {buf : Buffer}

theorem put_inside {i : Int} (byte : UInt8) (low : 0 ≤ i) (high : i < buf.size) :
    buf.put i byte = .finishes { buf with bytes := Function.update buf.bytes i byte } :=
  if_pos ⟨low, high⟩

theorem get_inside {i : Int} (low : 0 ≤ i) (high : i < buf.size) :
    buf.get i = .finishes (buf.bytes i) :=
  if_pos ⟨low, high⟩

theorem putAll_inside (buf : Buffer) (bytes : List UInt8) {i : Int} (low : 0 ≤ i)
    (room : i + bytes.length ≤ buf.size) :
    ∃ buf', buf.putAll bytes i = .finishes buf' ∧ buf'.size = buf.size := by
  induction bytes generalizing buf i with
  | nil => exact ⟨buf, rfl, rfl⟩
  | cons byte bytes inductionHypothesis =>
      rw [List.length_cons] at room
      rw [putAll, put_inside byte low (by omega), Outcome.finishes_bind]
      exact inductionHypothesis _ (by omega) (by dsimp only; omega)

theorem putAll_outside (buf : Buffer) (bytes : List UInt8) {i : Int} (low : 0 ≤ i)
    (start : i ≤ buf.size) (beyond : buf.size < i + bytes.length) :
    buf.putAll bytes i = .overruns := by
  induction bytes generalizing buf i with
  | nil =>
      rw [List.length_nil] at beyond
      omega
  | cons byte bytes inductionHypothesis =>
      rw [List.length_cons] at beyond
      by_cases inside : i < buf.size
      · rw [putAll, put_inside byte low inside, Outcome.finishes_bind]
        exact inductionHypothesis _ (by omega) (by dsimp only; omega) (by dsimp only; omega)
      · rw [putAll, put, if_neg (by omega)]
        rfl

theorem putAll_size {bytes : List UInt8} {i : Int} {buf' : Buffer}
    (finishes : buf.putAll bytes i = .finishes buf') : buf'.size = buf.size := by
  induction bytes generalizing buf i with
  | nil =>
      cases finishes
      rfl
  | cons byte bytes inductionHypothesis =>
      obtain ⟨next, stored, rest⟩ := Outcome.bind_eq_finishes.mp finishes
      unfold put at stored
      split at stored
      · cases stored
        exact (inductionHypothesis rest).trans rfl
      · cases stored

theorem getAll_inside (buf : Buffer) (count : Nat) {i : Int} (low : 0 ≤ i)
    (room : i + count ≤ buf.size) :
    ∃ bytes, buf.getAll count i = .finishes bytes := by
  induction count generalizing i with
  | zero => exact ⟨[], rfl⟩
  | succ count inductionHypothesis =>
      obtain ⟨rest, read⟩ := inductionHypothesis (i := i + 1) (by omega) (by omega)
      rw [getAll, get_inside low (by omega), Outcome.finishes_bind, read]
      exact ⟨_, rfl⟩

/-- A string ends before the end of a buffer that holds a 0. -/
theorem getString_inside (buf : Buffer) (steps : Nat) {i j : Int} (low : 0 ≤ i) (before : i ≤ j)
    (inside : j < buf.size) (zero : buf.bytes j = 0) (enough : j - i < steps) :
    ∃ name, buf.getString steps i = .finishes name := by
  induction steps generalizing i with
  | zero => omega
  | succ steps inductionHypothesis =>
      rw [getString, get_inside low (by omega), Outcome.finishes_bind]
      by_cases ends : buf.bytes i = 0
      · rw [if_pos ends]
        exact ⟨[], rfl⟩
      · have other : i ≠ j := by
          rintro rfl
          exact ends zero
        obtain ⟨rest, read⟩ := inductionHypothesis (i := i + 1) (by omega) (by omega) (by omega)
        rw [if_neg ends, read]
        exact ⟨_, rfl⟩

/-- The name that is read after its end has been put. -/
theorem string_put (buf : Buffer) {i : Int} (low : 0 ≤ i) (high : i < buf.size) :
    ∃ buf' name, buf.put i 0 = .finishes buf' ∧ buf'.string = .finishes name := by
  have ended : ({ buf with bytes := Function.update buf.bytes i 0 } : Buffer).bytes i = 0 :=
    Function.update_self i 0 buf.bytes
  obtain ⟨name, read⟩ := getString_inside { buf with bytes := Function.update buf.bytes i 0 }
    (buf.size.toNat + 1) (Int.le_refl 0) low high ended (by omega)
  exact ⟨_, name, put_inside 0 low high, read⟩

/-! ### copyin and copyout on a buffer -/

/-- On a buffer that is large enough, the loop does what `copyin` does. -/
theorem copyinLoop_cases (buf : Buffer) (count : Nat) {n : Int} (vaddr : BitVec 32) (m : Processor)
    (low : 0 ≤ n) (room : n + count ≤ buf.size) :
    (∃ bytes m' buf', Nachos.copyin count vaddr m = some (bytes, m') ∧
        copyinLoop count n vaddr buf m = .finishes (buf', m') ∧ buf'.size = buf.size) ∨
      (Nachos.copyin count vaddr m = none ∧ copyinLoop count n vaddr buf m = .stops) := by
  induction count generalizing n vaddr buf m with
  | zero => exact .inl ⟨[], m, buf, rfl, rfl, rfl⟩
  | succ count inductionHypothesis =>
      unfold Nachos.copyin copyinLoop
      cases Simulation.readMem unexpected vaddr 1 ⟨m, []⟩ with
      | stops why s => exact .inr ⟨rfl, rfl⟩
      | returns answer s =>
          cases answer with
          | none => exact .inr ⟨rfl, rfl⟩
          | some value =>
              dsimp only
              rw [put_inside _ low (by omega), Outcome.finishes_bind]
              rcases inductionHypothesis (n := n + 1)
                  { buf with bytes := Function.update buf.bytes n (Memory.byteOf value 0) }
                  (vaddr + 1) s.toProcessor (by omega) (by dsimp only; omega) with
                ⟨bytes, m', buf', copied, loop, size⟩ | ⟨halted, loop⟩
              · exact .inl ⟨_, m', buf', by rw [copied]; rfl, loop, size⟩
              · exact .inr ⟨by rw [halted]; rfl, loop⟩

/-- On a buffer that is large enough, the loop does what `copyout` does. -/
theorem copyoutLoop_cases (buf : Buffer) (count : Nat) {n : Int} (vaddr : BitVec 32) (m : Processor)
    (low : 0 ≤ n) (room : n + count ≤ buf.size) :
    (∃ m', Nachos.copyout buf.bytes count n vaddr m = some m' ∧
        buf.copyoutLoop count n vaddr m = .finishes m') ∨
      (Nachos.copyout buf.bytes count n vaddr m = none ∧
        buf.copyoutLoop count n vaddr m = .stops) := by
  induction count generalizing n vaddr m with
  | zero => exact .inl ⟨m, rfl, rfl⟩
  | succ count inductionHypothesis =>
      unfold Nachos.copyout copyoutLoop
      rw [get_inside low (by omega), Outcome.finishes_bind]
      cases Simulation.writeMem unexpected vaddr 1 ((buf.bytes n).toBitVec.signExtend 32)
          ⟨m, []⟩ with
      | stops why s => exact .inr ⟨rfl, rfl⟩
      | returns answer s =>
          cases answer with
          | none => exact .inr ⟨rfl, rfl⟩
          | some value => exact inductionHypothesis _ _ (by omega) (by omega)

variable {m : Processor}

/-- `copyin` comes to its end when every byte can be translated. -/
theorem copyin_range (buf : Buffer) (vaddr : BitVec 32) (len : Int)
    (noTLB : m.tlb = none) (some : 0 ≤ buf.size) (room : len ≤ buf.size) :
    (m.RangeTranslatable false vaddr len ∧ ∃ buf' m',
        buf.copyin vaddr len m = .finishes (len, buf', m') ∧ buf'.size = buf.size ∧
          SameMapping m m') ∨
      (¬ m.RangeTranslatable false vaddr len ∧ buf.copyin vaddr len m = .stops) := by
  rw [← rangeTranslatable_toNat]
  unfold copyin
  rcases copyin_cases noTLB len.toNat vaddr with
    ⟨range, bytes, m', copied, -, same⟩ | ⟨fails, halted⟩
  · rcases copyinLoop_cases buf len.toNat vaddr m (Int.le_refl 0) (by omega) with
      ⟨bytes', m'', buf', copied', loop, size⟩ | ⟨halted, -⟩
    · rw [copied] at copied'
      cases copied'
      exact .inl ⟨range, buf', m', by rw [loop]; rfl, size, same⟩
    · rw [copied] at halted
      cases halted
  · rcases copyinLoop_cases buf len.toNat vaddr m (Int.le_refl 0) (by omega) with
      ⟨bytes', m'', buf', copied', -, -⟩ | ⟨-, loop⟩
    · rw [halted] at copied'
      cases copied'
    · exact .inr ⟨fails, by rw [loop]; rfl⟩

/-- `copyout` comes to its end when every byte can be translated. -/
theorem copyout_range (buf : Buffer) (vaddr : BitVec 32) (len : Int)
    (noTLB : m.tlb = none) (some : 0 ≤ buf.size) (room : len ≤ buf.size) :
    (m.RangeTranslatable true vaddr len ∧ ∃ m',
        buf.copyout vaddr len m = .finishes ((len.toNat : Int), m') ∧ SameMapping m m') ∨
      (¬ m.RangeTranslatable true vaddr len ∧ buf.copyout vaddr len m = .stops) := by
  rw [← rangeTranslatable_toNat]
  unfold copyout
  rcases copyout_cases noTLB buf.bytes len.toNat 0 vaddr with
    ⟨range, m', copied, same⟩ | ⟨fails, halted⟩
  · rcases copyoutLoop_cases buf len.toNat vaddr m (Int.le_refl 0) (by omega) with
      ⟨m'', copied', loop⟩ | ⟨halted, -⟩
    · rw [copied] at copied'
      cases copied'
      exact .inl ⟨range, m', by rw [loop]; rfl, same⟩
    · rw [copied] at halted
      cases halted
  · rcases copyoutLoop_cases buf len.toNat vaddr m (Int.le_refl 0) (by omega) with
      ⟨m'', copied', -⟩ | ⟨-, loop⟩
    · rw [halted] at copied'
      cases copied'
    · exact .inr ⟨fails, by rw [loop]; rfl⟩

end Buffer

/-! ### The handlers one by one -/

namespace UserKernel

variable {F : Type} {host : Host F} {k : UserKernel F} {call : KernelCall}

theorem newChar_some {size : Int} (enough : 0 ≤ size) :
    newChar host size = .finishes (some ⟨size, host.heap⟩) :=
  if_pos enough

theorem newChar_none {size : Int} (negative : size < 0) (nothrow : host.nothrow = true) :
    newChar host size = .finishes none := by
  rw [newChar, if_neg (by omega), if_pos nothrow]

theorem newChar_throws {size : Int} (negative : size < 0) (throws : ¬ host.nothrow = true) :
    newChar host size = .throws := by
  rw [newChar, if_neg (by omega), if_neg throws]

/-- A call that does not come to its end. -/
theorem not_behaves (outcome : Outcome (BitVec 32 × UserKernel F))
    (ends : perform host k call = outcome) (unfinished : ∀ result, outcome ≠ .finishes result) :
    ¬ Behaves host k call := by
  rintro ⟨rv, k', finishes, -⟩
  exact unfinished _ (ends.symm.trans finishes)

/-- A call that comes to its end and copies what it is to copy. -/
theorem behaves_of_translated (ends : ∃ result, perform host k call = .finishes result)
    (translated : call.Translated host k) : Behaves host k call := by
  obtain ⟨⟨rv, k'⟩, finishes⟩ := ends
  exact ⟨rv, k', finishes, fun untranslated => absurd translated untranslated⟩

theorem not_allocates {size : Int} {rest : Prop} (negative : size < 0)
    (throws : ¬ host.nothrow = true) : ¬ Allocates host size rest := by
  rintro (⟨-, nothrow⟩ | ⟨enough, -⟩)
  · exact throws nothrow
  · omega

theorem allocates_iff {size : Int} {rest : Prop} (enough : 0 ≤ size) :
    Allocates host size rest ↔ rest := by
  constructor
  · rintro (⟨negative, -⟩ | ⟨-, holds⟩)
    · omega
    · exact holds
  · exact fun holds => .inr ⟨enough, holds⟩

/-- The length of a buffer for a name. -/
theorem toInt_succ {len : BitVec 32} (enough : 0 ≤ (len + 1).toInt) :
    (len + 1).toInt = len.toInt + 1 := by
  have wrapped := BitVec.toInt_add len 1
  have low := BitVec.le_toInt len
  have high := BitVec.toInt_lt (x := len)
  rw [show (1 : BitVec 32).toInt = 1 from rfl, Int.bmod_def] at wrapped
  omega

/-- A name and its end in a buffer of `len + 1` bytes. -/
theorem name_cases (host : Host F) {m : Processor} (noTLB : m.tlb = none) (vaddr len : BitVec 32)
    (enough : 0 ≤ (len + 1).toInt) :
    (m.RangeTranslatable false vaddr len.toInt ∧ ∃ buf m',
        Buffer.copyin vaddr len.toInt ⟨(len + 1).toInt, host.heap⟩ m =
          .finishes (len.toInt, buf, m') ∧
        (len.toInt ≠ -1 → ∃ buf' name, buf.put len.toInt 0 = .finishes buf' ∧
          buf'.string = .finishes name)) ∨
      (¬ m.RangeTranslatable false vaddr len.toInt ∧
        Buffer.copyin vaddr len.toInt ⟨(len + 1).toInt, host.heap⟩ m = .stops) := by
  have size := toInt_succ enough
  rcases Buffer.copyin_range ⟨(len + 1).toInt, host.heap⟩ vaddr len.toInt noTLB enough
      (by dsimp only; omega) with ⟨range, buf, m', copied, sameSize, -⟩ | untranslated
  · dsimp only at sameSize
    refine .inl ⟨range, buf, m', copied, fun notOne => ?_⟩
    exact buf.string_put (by omega) (by omega)
  · exact .inr untranslated

theorem behaves_create (noTLB : k.machine.tlb = none) (vaddr len : BitVec 32) :
    Behaves host k (.create vaddr len) ↔ Harmless host k (.create vaddr len) := by
  by_cases enough : 0 ≤ (len + 1).toInt
  · rw [Harmless, allocates_iff enough]
    rcases name_cases host noTLB vaddr len enough with
      ⟨range, buf, m', copied, named⟩ | ⟨fails, stops⟩
    · refine iff_of_true (behaves_of_translated ?_ range) range
      simp only [perform, createSyscall, newChar_some enough, Outcome.finishes_bind, copied]
      by_cases one : len.toInt = -1
      · exact ⟨_, by rw [if_pos one]; rfl⟩
      · obtain ⟨buf', name, ended, read⟩ := named one
        exact ⟨_, by rw [if_neg one, ended, Outcome.finishes_bind, read]; rfl⟩
    · refine iff_of_false (not_behaves .stops ?_ (by simp)) fails
      simp only [perform, createSyscall, newChar_some enough, Outcome.finishes_bind, stops,
        Outcome.stops_bind]
  · by_cases nothrow : host.nothrow = true
    · refine iff_of_true ⟨0, { k with copied := none }, ?_, ?_⟩ (.inl ⟨by omega, nothrow⟩)
      · simp only [perform, createSyscall, newChar_none (Int.not_le.mp enough) nothrow,
          Outcome.finishes_bind, Outcome.pure_eq]
      · exact fun _ => ⟨.inl rfl, rfl, rfl⟩
    · refine iff_of_false (not_behaves .throws ?_ (by simp))
        (not_allocates (by omega) nothrow)
      simp only [perform, createSyscall, newChar_throws (Int.not_le.mp enough) nothrow,
        Outcome.throws_bind]

theorem behaves_openFile (noTLB : k.machine.tlb = none) (vaddr len : BitVec 32) :
    Behaves host k (.openFile vaddr len) ↔ Harmless host k (.openFile vaddr len) := by
  by_cases enough : 0 ≤ (len + 1).toInt
  · rw [Harmless, allocates_iff enough]
    rcases name_cases host noTLB vaddr len enough with
      ⟨range, buf, m', copied, named⟩ | ⟨fails, stops⟩
    · refine iff_of_true (behaves_of_translated ?_ range) range
      simp only [perform, openSyscall, newChar_some enough, Outcome.finishes_bind, copied]
      by_cases one : len.toInt = -1
      · exact ⟨_, by rw [if_pos one]; rfl⟩
      · obtain ⟨buf', name, ended, read⟩ := named one
        exact ⟨_, by rw [if_neg one, ended, Outcome.finishes_bind, read]; rfl⟩
    · refine iff_of_false (not_behaves .stops ?_ (by simp)) fails
      simp only [perform, openSyscall, newChar_some enough, Outcome.finishes_bind, stops,
        Outcome.stops_bind]
  · by_cases nothrow : host.nothrow = true
    · refine iff_of_true ⟨-1, { k with copied := none }, ?_, ?_⟩ (.inl ⟨by omega, nothrow⟩)
      · simp only [perform, openSyscall, newChar_none (Int.not_le.mp enough) nothrow,
          Outcome.finishes_bind, Outcome.pure_eq]
      · exact fun _ => ⟨.inl rfl, rfl⟩
    · refine iff_of_false (not_behaves .throws ?_ (by simp))
        (not_allocates (by omega) nothrow)
      simp only [perform, openSyscall, newChar_throws (Int.not_le.mp enough) nothrow,
        Outcome.throws_bind]

theorem behaves_write (noTLB : k.machine.tlb = none) (vaddr len id : BitVec 32) :
    Behaves host k (.write vaddr len id) ↔ Harmless host k (.write vaddr len id) := by
  by_cases input : id = consoleInput
  · refine iff_of_true ⟨0, { k with copied := none }, ?_, ?_⟩ (.inl input)
    · simp only [perform, writeSyscall, if_pos input, Outcome.pure_eq, Outcome.finishes_bind]
    · exact fun _ => ⟨.inl rfl, rfl, rfl⟩
  · rw [Harmless, or_iff_right input]
    by_cases enough : 0 ≤ len.toInt
    · rw [allocates_iff enough]
      rcases Buffer.copyin_range ⟨len.toInt, host.heap⟩ vaddr len.toInt noTLB enough
          (Int.le_refl _) with
        ⟨range, buf', m', copied, size', -⟩ | ⟨fails, stops⟩
      · refine iff_of_true (behaves_of_translated ?_ range) range
        dsimp only at size'
        obtain ⟨bytes, read⟩ := buf'.getAll_inside len.toInt.toNat (Int.le_refl 0)
          (by omega)
        have notOne : ¬ len.toInt = -1 := by omega
        simp only [perform, writeSyscall, if_neg input, newChar_some enough,
          Outcome.finishes_bind, copied, if_neg notOne, read]
        by_cases output : id = consoleOutput
        · exact ⟨_, by rw [if_pos output]; rfl⟩
        · rw [if_neg output]
          cases k.fileTable.get id.toInt with
          | some f => exact ⟨_, rfl⟩
          | none => exact ⟨_, rfl⟩
      · refine iff_of_false (not_behaves .stops ?_ (by simp)) fails
        simp only [perform, writeSyscall, if_neg input, newChar_some enough,
          Outcome.finishes_bind, stops, Outcome.stops_bind]
    · by_cases nothrow : host.nothrow = true
      · refine iff_of_true ⟨0, { k with copied := none }, ?_, ?_⟩ (.inl ⟨by omega, nothrow⟩)
        · simp only [perform, writeSyscall, if_neg input,
            newChar_none (Int.not_le.mp enough) nothrow, Outcome.finishes_bind, Outcome.pure_eq]
        · exact fun _ => ⟨.inl rfl, rfl, rfl⟩
      · refine iff_of_false (not_behaves .throws ?_ (by simp))
          (not_allocates (by omega) nothrow)
        simp only [perform, writeSyscall, if_neg input,
          newChar_throws (Int.not_le.mp enough) nothrow, Outcome.throws_bind]

/-- Reading from the keyboard into a buffer of `len` bytes. -/
theorem behaves_readConsole (noTLB : k.machine.tlb = none) (vaddr len : BitVec 32)
    (enough : 0 ≤ len.toInt) :
    Behaves host k (.read vaddr len consoleInput) ↔
      (∀ word, host.word = some word → word.length < len.toInt) ∧
        k.machine.RangeTranslatable true vaddr len.toInt := by
  have translated : KernelCall.Translated host k (.read vaddr len consoleInput) ↔
      k.machine.RangeTranslatable true vaddr len.toInt := Iff.rfl
  have different : ¬ consoleInput = consoleOutput := by decide
  have copies (buf : Buffer) (size : buf.size = len.toInt)
      (ends : perform host k (.read vaddr len consoleInput) = (do
        let (copied, m) ← buf.copyout vaddr len.toInt k.machine
        pure (len, { k with machine := m, copied := some copied }))) :
      Behaves host k (.read vaddr len consoleInput) ↔
        k.machine.RangeTranslatable true vaddr len.toInt := by
    rcases buf.copyout_range vaddr len.toInt noTLB (by omega) (by omega) with
      ⟨range, m', copied, -⟩ | ⟨fails, stops⟩
    · rw [copied] at ends
      exact iff_of_true (behaves_of_translated ⟨_, ends⟩ (translated.mpr range)) range
    · rw [stops] at ends
      exact iff_of_false (not_behaves _ ends (by simp)) fails
  cases typed : host.word with
  | none =>
      rw [copies ⟨len.toInt, host.heap⟩ rfl]
      · simp
      · simp only [perform, readSyscall, if_neg different, ↓reduceIte, newChar_some enough,
          Outcome.finishes_bind, typed, Outcome.pure_eq]
  | some word =>
      by_cases fits : word.length < len.toInt
      · obtain ⟨buf', written, size⟩ := Buffer.putAll_inside ⟨len.toInt, host.heap⟩ (word ++ [0])
          (Int.le_refl 0) (by simp; omega)
        rw [copies buf' size]
        · simp [fits]
        · simp only [perform, readSyscall, if_neg different, ↓reduceIte, newChar_some enough,
            Outcome.finishes_bind, typed, written, Outcome.pure_eq]
      · have overrun := Buffer.putAll_outside ⟨len.toInt, host.heap⟩ (word ++ [0])
          (Int.le_refl 0) enough (by simp; omega)
        refine iff_of_false (not_behaves .overruns ?_ (by simp)) ?_
        · simp only [perform, readSyscall, if_neg different, ↓reduceIte, newChar_some enough,
            Outcome.finishes_bind, typed, overrun]
          rfl
        · exact fun both => fits (both.1 word rfl)

/-- Reading from a file into a buffer of `len` bytes. -/
theorem behaves_readFile (noTLB : k.machine.tlb = none) (vaddr len : BitVec 32)
    {id : BitVec 32} (input : id ≠ consoleInput) (output : id ≠ consoleOutput)
    (enough : 0 ≤ len.toInt) :
    Behaves host k (.read vaddr len id) ↔
      ∀ f, k.fileTable.get id.toInt = some f →
        k.machine.RangeTranslatable true vaddr (host.deliver f len.toInt).1 := by
  cases known : k.fileTable.get id.toInt with
  | none =>
      refine iff_of_true ⟨-1, { k with copied := none }, ?_, fun _ => ⟨.inl rfl, rfl⟩⟩ (by simp)
      simp only [perform, readSyscall, if_neg output, if_neg input, newChar_some enough,
        Outcome.finishes_bind, known, Outcome.pure_eq]
  | some f =>
      have translated : KernelCall.Translated host k (.read vaddr len id) ↔
          k.machine.RangeTranslatable true vaddr (host.deliver f len.toInt).1 := by
        simp only [KernelCall.Translated, KernelCall.range, if_neg input, known]
      have atMost := host.atMost f len.toInt enough BitVec.toInt_lt
      obtain ⟨buf', filled, size⟩ := Buffer.putAll_inside ⟨len.toInt, host.heap⟩
        ((host.deliver f len.toInt).2.toList (host.deliver f len.toInt).1.toNat)
        (Int.le_refl 0) (by rw [Memory.length_toList]; dsimp only; omega)
      dsimp only at size
      have same := Processor.sameMapping_interrupted noTLB host.interrupts
      simp only [Option.some.injEq, forall_eq']
      have ends : perform host k (.read vaddr len id) =
          if 0 < (host.deliver f len.toInt).1 then do
            let (copied, m) ← buf'.copyout vaddr (host.deliver f len.toInt).1
              (k.machine.interrupted host.interrupts)
            pure (BitVec.ofInt 32 (host.deliver f len.toInt).1,
              { k with machine := m, copied := some copied })
          else
            pure (BitVec.ofInt 32 (host.deliver f len.toInt).1,
              { k with machine := k.machine.interrupted host.interrupts, copied := none }) := by
        simp only [perform, readSyscall, if_neg output, if_neg input, newChar_some enough,
          Outcome.finishes_bind, known, filled]
      by_cases some : 0 < (host.deliver f len.toInt).1
      · rw [if_pos some] at ends
        rcases buf'.copyout_range vaddr (host.deliver f len.toInt).1 same.noTLB (by omega)
            (by omega) with
          ⟨range, m', copied, -⟩ | ⟨fails, stops⟩
        · rw [copied] at ends
          have range := same.range.mp range
          exact iff_of_true (behaves_of_translated ⟨_, ends⟩ (translated.mpr range)) range
        · rw [stops] at ends
          exact iff_of_false (not_behaves _ ends (by simp))
            fun range => fails (same.range.mpr range)
      · rw [if_neg some] at ends
        have nothing : k.machine.RangeTranslatable true vaddr (host.deliver f len.toInt).1 := by
          intro i inside
          omega
        exact iff_of_true (behaves_of_translated ⟨_, ends⟩ (translated.mpr nothing)) nothing

theorem behaves_read (noTLB : k.machine.tlb = none) (vaddr len id : BitVec 32) :
    Behaves host k (.read vaddr len id) ↔ Harmless host k (.read vaddr len id) := by
  by_cases output : id = consoleOutput
  · refine iff_of_true ⟨-1, { k with copied := none }, ?_, fun _ => ⟨.inl rfl, rfl⟩⟩ (.inl output)
    simp only [perform, readSyscall, if_pos output, Outcome.pure_eq]
  · rw [Harmless, or_iff_right output]
    by_cases enough : 0 ≤ len.toInt
    · rw [allocates_iff enough]
      by_cases input : id = consoleInput
      · subst input
        rw [if_pos rfl]
        exact behaves_readConsole noTLB vaddr len enough
      · rw [if_neg input]
        exact behaves_readFile noTLB vaddr len input output enough
    · by_cases nothrow : host.nothrow = true
      · refine iff_of_true ⟨-1, { k with copied := none }, ?_, fun _ => ⟨.inl rfl, rfl⟩⟩
          (.inl ⟨by omega, nothrow⟩)
        simp only [perform, readSyscall, if_neg output,
          newChar_none (Int.not_le.mp enough) nothrow, Outcome.finishes_bind, Outcome.pure_eq]
      · refine iff_of_false (not_behaves .throws ?_ (by simp))
          (not_allocates (by omega) nothrow)
        simp only [perform, readSyscall, if_neg output,
          newChar_throws (Int.not_le.mp enough) nothrow, Outcome.throws_bind]

end UserKernel

open UserKernel

/-- The registers hold the arguments of the call. -/
def KernelCall.InRegisters (m : Processor) : KernelCall → Prop
  | .create vaddr len => m.registers 2 = scCreate ∧ m.registers 4 = vaddr ∧ m.registers 5 = len
  | .openFile vaddr len => m.registers 2 = scOpen ∧ m.registers 4 = vaddr ∧ m.registers 5 = len
  | .write vaddr len id =>
      m.registers 2 = scWrite ∧ m.registers 4 = vaddr ∧ m.registers 5 = len ∧ m.registers 6 = id
  | .read vaddr len id =>
      m.registers 2 = scRead ∧ m.registers 4 = vaddr ∧ m.registers 5 = len ∧ m.registers 6 = id

namespace UserKernel

variable {F : Type} {host : Host F} {k k' : UserKernel F} {rv : BitVec 32}

theorem newChar_eq_finishes {size : Int} {answer : Option Buffer} (throws : host.nothrow = false)
    (allocated : newChar host size = .finishes answer) :
    0 ≤ size ∧ answer = some ⟨size, host.heap⟩ := by
  unfold newChar at allocated
  split at allocated
  · rename_i enough
    cases allocated
    exact ⟨enough, rfl⟩
  · rw [throws] at allocated
    cases allocated

theorem copyin_eq_finishes {buf buf' : Buffer} {vaddr : BitVec 32} {len copied : Int}
    {m m' : Processor} (some : 0 ≤ buf.size) (room : len ≤ buf.size)
    (finishes : buf.copyin vaddr len m = .finishes (copied, buf', m')) :
    copied = len ∧ ∃ bytes, Nachos.copyin len.toNat vaddr m = .some (bytes, m') := by
  unfold Buffer.copyin at finishes
  obtain ⟨⟨after, m''⟩, loop, last⟩ := Outcome.bind_eq_finishes.mp finishes
  cases last
  rcases Buffer.copyinLoop_cases buf len.toNat vaddr m (Int.le_refl 0) (by omega) with
    ⟨bytes, m'', buf'', agrees, loop', -⟩ | ⟨-, loop'⟩
  · rw [loop] at loop'
    cases loop'
    exact ⟨rfl, bytes, agrees⟩
  · rw [loop] at loop'
    cases loop'

theorem copyout_eq_finishes {buf : Buffer} {vaddr : BitVec 32} {len copied : Int}
    {m m' : Processor} (some : 0 ≤ buf.size) (room : len ≤ buf.size)
    (finishes : buf.copyout vaddr len m = .finishes (copied, m')) :
    Nachos.copyout buf.bytes len.toNat 0 vaddr m = .some m' := by
  unfold Buffer.copyout at finishes
  obtain ⟨m'', loop, last⟩ := Outcome.bind_eq_finishes.mp finishes
  cases last
  rcases Buffer.copyoutLoop_cases buf len.toNat vaddr m (Int.le_refl 0) (by omega) with
    ⟨m'', agrees, loop'⟩ | ⟨-, loop'⟩
  · rw [loop] at loop'
    cases loop'
    exact agrees
  · rw [loop] at loop'
    cases loop'

/-- A service that takes some interrupts and opens nothing. -/
def quietService (interrupts : Nat) (rv : BitVec 32) : Service where
  interrupts := interrupts
  opened := fun _ => rv
  found := false
  length := 0
  buf := fun _ => 0

theorem createSyscall_refines (throws : host.nothrow = false) {vaddr len : BitVec 32}
    (finishes : createSyscall host vaddr len k = .finishes k') :
    ∃ service, Nachos.createSyscall service vaddr len k.machine = some k'.machine := by
  unfold createSyscall at finishes
  obtain ⟨answer, allocated, finishes⟩ := Outcome.bind_eq_finishes.mp finishes
  obtain ⟨enough, rfl⟩ := newChar_eq_finishes throws allocated
  have size := toInt_succ enough
  obtain ⟨⟨copied, buf, m⟩, copies, finishes⟩ := Outcome.bind_eq_finishes.mp finishes
  obtain ⟨rfl, bytes, agrees⟩ := copyin_eq_finishes enough (by dsimp only; omega) copies
  have call (interrupts : Nat) : Nachos.createSyscall (quietService interrupts 0) vaddr len
      k.machine = some (m.interrupted interrupts) := by
    rw [Nachos.createSyscall, agrees]
    rfl
  dsimp only at finishes
  split at finishes
  · cases finishes
    exact ⟨quietService 0 0, call 0⟩
  · obtain ⟨buf', -, finishes⟩ := Outcome.bind_eq_finishes.mp finishes
    obtain ⟨name, -, finishes⟩ := Outcome.bind_eq_finishes.mp finishes
    cases finishes
    exact ⟨quietService host.interrupts 0, call host.interrupts⟩

theorem openSyscall_refines (throws : host.nothrow = false) {vaddr len : BitVec 32}
    (finishes : openSyscall host vaddr len k = .finishes (rv, k')) :
    ∃ service, Nachos.openSyscall service vaddr len k.machine = some (rv, k'.machine) := by
  unfold openSyscall at finishes
  obtain ⟨answer, allocated, finishes⟩ := Outcome.bind_eq_finishes.mp finishes
  obtain ⟨enough, rfl⟩ := newChar_eq_finishes throws allocated
  have size := toInt_succ enough
  obtain ⟨⟨copied, buf, m⟩, copies, finishes⟩ := Outcome.bind_eq_finishes.mp finishes
  obtain ⟨rfl, bytes, agrees⟩ := copyin_eq_finishes enough (by dsimp only; omega) copies
  have call (interrupts : Nat) (rv : BitVec 32) :
      Nachos.openSyscall (quietService interrupts rv) vaddr len k.machine =
        some (rv, m.interrupted interrupts) := by
    rw [Nachos.openSyscall, agrees]
    rfl
  dsimp only at finishes
  split at finishes
  · cases finishes
    exact ⟨quietService 0 (-1), call 0 (-1)⟩
  · obtain ⟨buf', -, finishes⟩ := Outcome.bind_eq_finishes.mp finishes
    obtain ⟨name, -, finishes⟩ := Outcome.bind_eq_finishes.mp finishes
    cases finishes
    exact ⟨_, call host.interrupts _⟩

theorem writeSyscall_refines (throws : host.nothrow = false) {vaddr len id : BitVec 32}
    (finishes : writeSyscall host vaddr len id k = .finishes k') :
    ∃ service, Nachos.writeSyscall service vaddr len id k.machine = some k'.machine := by
  unfold writeSyscall at finishes
  split at finishes
  · rename_i input
    cases finishes
    exact ⟨quietService 0 0, if_pos input⟩
  · rename_i input
    obtain ⟨answer, allocated, finishes⟩ := Outcome.bind_eq_finishes.mp finishes
    obtain ⟨enough, rfl⟩ := newChar_eq_finishes throws allocated
    obtain ⟨⟨copied, buf, m⟩, copies, finishes⟩ := Outcome.bind_eq_finishes.mp finishes
    obtain ⟨rfl, bytes, agrees⟩ := copyin_eq_finishes enough (by dsimp only; omega) copies
    have call (interrupts : Nat) : Nachos.writeSyscall (quietService interrupts 0) vaddr len id
        k.machine = some (m.interrupted interrupts) := by
      rw [Nachos.writeSyscall, if_neg input, agrees]
      rfl
    dsimp only at finishes
    split at finishes
    · cases finishes
      exact ⟨quietService 0 0, call 0⟩
    · split at finishes
      · obtain ⟨bytes, -, finishes⟩ := Outcome.bind_eq_finishes.mp finishes
        cases finishes
        exact ⟨quietService 0 0, call 0⟩
      · split at finishes
        · obtain ⟨bytes, -, finishes⟩ := Outcome.bind_eq_finishes.mp finishes
          cases finishes
          exact ⟨quietService host.interrupts 0, call host.interrupts⟩
        · cases finishes
          exact ⟨quietService 0 0, call 0⟩

theorem readSyscall_refines (throws : host.nothrow = false) {vaddr len id : BitVec 32}
    (finishes : readSyscall host vaddr len id k = .finishes (rv, k')) :
    ∃ service, Nachos.readSyscall service vaddr len id k.machine = some (rv, k'.machine) := by
  unfold readSyscall at finishes
  split at finishes
  · rename_i output
    cases finishes
    exact ⟨quietService 0 0, if_pos output⟩
  · rename_i output
    obtain ⟨answer, allocated, finishes⟩ := Outcome.bind_eq_finishes.mp finishes
    obtain ⟨enough, rfl⟩ := newChar_eq_finishes throws allocated
    dsimp only at finishes
    split at finishes
    · rename_i input
      have call {buf : Buffer} (size : buf.size = len.toInt)
          (ends : (do
            let (copied, m) ← buf.copyout vaddr len.toInt k.machine
            pure (len, { k with machine := m, copied := some copied })) =
            Outcome.finishes (rv, k')) :
          ∃ service, Nachos.readSyscall service vaddr len id k.machine =
            some (rv, k'.machine) := by
        obtain ⟨⟨copied, m⟩, copies, last⟩ := Outcome.bind_eq_finishes.mp ends
        cases last
        have agrees := copyout_eq_finishes (by omega) (by omega) copies
        refine ⟨{ quietService 0 0 with buf := buf.bytes }, ?_⟩
        rw [Nachos.readSyscall, if_neg output, if_pos input, agrees]
        rfl
      split at finishes
      · obtain ⟨buf, typed, finishes⟩ := Outcome.bind_eq_finishes.mp finishes
        exact call (Buffer.putAll_size typed) finishes
      · exact call rfl finishes
    · rename_i input
      split at finishes
      · rename_i f known
        obtain ⟨buf, filled, finishes⟩ := Outcome.bind_eq_finishes.mp finishes
        have size := Buffer.putAll_size filled
        dsimp only at size
        have low := host.word32 f len.toInt
        have most := host.atMost f len.toInt enough BitVec.toInt_lt
        have bound := BitVec.toInt_lt (x := len)
        have length : (BitVec.ofInt 32 (host.deliver f len.toInt).1).toInt =
            (host.deliver f len.toInt).1 :=
          Lib.toInt_ofInt_eq low (by omega)
        have call {m : Processor} (copies : Nachos.copyout buf.bytes
            (host.deliver f len.toInt).1.toNat 0 vaddr
            (k.machine.interrupted host.interrupts) = some m) :
            ∃ service, Nachos.readSyscall service vaddr len id k.machine =
              some (BitVec.ofInt 32 (host.deliver f len.toInt).1, m) := by
          refine ⟨⟨host.interrupts, fun _ => 0, true, .ofInt 32 (host.deliver f len.toInt).1,
            buf.bytes⟩, ?_⟩
          rw [Nachos.readSyscall, if_neg output, if_neg input, if_pos rfl, length, copies]
          rfl
        split at finishes
        · obtain ⟨⟨copied, m⟩, copies, finishes⟩ := Outcome.bind_eq_finishes.mp finishes
          cases finishes
          exact call (copyout_eq_finishes (by omega) (by omega) copies)
        · rename_i nothing
          have nothing : ¬ 0 < (host.deliver f len.toInt).1 := nothing
          cases finishes
          apply call
          rw [show (host.deliver f len.toInt).1.toNat = 0 by omega]
          rfl
      · cases finishes
        refine ⟨quietService 0 0, ?_⟩
        rw [Nachos.readSyscall, if_neg output, if_neg input]
        rfl

/-- A call that comes to its end is one of the system calls of the machine. -/
theorem perform_refines (throws : host.nothrow = false) {call : KernelCall}
    (arguments : call.InRegisters k.machine)
    (finishes : perform host k call = .finishes (rv, k')) :
    ∃ service, systemCall service k.machine = some (rv, k'.machine) := by
  cases call with
  | create vaddr len =>
      obtain ⟨type, rfl, rfl⟩ := arguments
      obtain ⟨k', created, last⟩ := Outcome.bind_eq_finishes.mp finishes
      cases last
      obtain ⟨service, agrees⟩ := createSyscall_refines throws created
      refine ⟨service, ?_⟩
      dsimp only at agrees
      rw [systemCall, type, if_pos rfl, agrees]
      rfl
  | openFile vaddr len =>
      obtain ⟨type, rfl, rfl⟩ := arguments
      obtain ⟨service, agrees⟩ := openSyscall_refines throws finishes
      refine ⟨service, ?_⟩
      dsimp only at agrees
      rw [systemCall, type, if_neg (by decide), if_pos rfl, agrees]
  | write vaddr len id =>
      obtain ⟨type, rfl, rfl, rfl⟩ := arguments
      obtain ⟨k', wrote, last⟩ := Outcome.bind_eq_finishes.mp finishes
      cases last
      obtain ⟨service, agrees⟩ := writeSyscall_refines throws wrote
      refine ⟨service, ?_⟩
      dsimp only at agrees
      rw [systemCall, type, if_neg (by decide), if_neg (by decide), if_pos rfl, agrees]
      rfl
  | read vaddr len id =>
      obtain ⟨type, rfl, rfl, rfl⟩ := arguments
      obtain ⟨service, agrees⟩ := readSyscall_refines throws finishes
      refine ⟨service, ?_⟩
      dsimp only at agrees
      rw [systemCall, type, if_neg (by decide), if_neg (by decide), if_neg (by decide),
        if_pos rfl, agrees]

end UserKernel

/-! ### Arguments that are harmless and arguments that are not -/

/-- A host whose `new` throws, with an empty file system. -/
def emptyHost : Host Unit where
  nothrow := false
  heap := fun _ => 0
  interrupts := 0
  openFile := fun _ => none
  word := none
  deliver := fun _ _ => (0, fun _ => 0)
  word32 := fun _ _ => by decide
  atMost := fun _ _ enough _ => enough

/-- A user program with one page. -/
def onePageKernel : UserKernel Unit where
  machine := onePage 0x41 fun _ => 0
  fileTable := ⟨⟨0, fun _ => 0⟩, fun _ => none, 0⟩
  effects := []
  copied := none

end Nachos
