/-
Module: Nachos.Machine.Bytes
Purpose: `ReadMem` and `WriteMem` over a page table as operations on one array
  of bytes in little-endian order, on either kind of host: whatever sizes and
  pages are mixed, the calls that succeed cannot be told from those of the
  array.
Trusted boundary: none
Main exports: Processor.place, Processor.Injective, MemoryCall, MemoryEvent,
  byteArray, perform, Quiet, memory_refines_byteArray
-/
import Mathlib.Tactic.IntervalCases
import Mathlib.Tactic.NormNum
import Nachos.Machine.UserPrograms

namespace Nachos

open Lib (Memory)

namespace Processor

/-! ### Bytes of words and shorts -/

theorem toBitVec_byteOf (v : BitVec 32) (k : Nat) :
    (Memory.byteOf v k).toBitVec = v.extractLsb' (8 * k) 8 := by
  apply BitVec.eq_of_toNat_eq
  rw [UInt8.toNat_toBitVec, Memory.toNat_byteOf, BitVec.extractLsb'_toNat,
    Nat.shiftRight_eq_div_pow, Int.toNat_natCast, Nat.pow_mul]

/-- Swapping puts byte `k` where the host counts from the other end. -/
theorem byteOf_swapWord (word : BitVec 32) {k : Nat} (inside : k < 4) :
    Memory.byteOf (swapWord word) k = Memory.byteOf word (3 - k : Nat) := by
  apply UInt8.toBitVec_inj.mp
  rw [toBitVec_byteOf, toBitVec_byteOf]
  apply BitVec.eq_of_getLsbD_eq
  intro i bound
  unfold swapWord
  interval_cases k <;> interval_cases i <;> simp

theorem byteOf_swapShort (shortword : BitVec 16) {k : Nat} (inside : k < 2) :
    Memory.byteOf ((swapShort shortword).setWidth 32) k =
      Memory.byteOf (shortword.setWidth 32) (1 - k : Nat) := by
  apply UInt8.toBitVec_inj.mp
  rw [toBitVec_byteOf, toBitVec_byteOf]
  apply BitVec.eq_of_getLsbD_eq
  intro i bound
  unfold swapShort
  interval_cases k <;> interval_cases i <;> simp

variable {m m' : Processor} {physAddr k : Nat}

theorem byteOf_wordToHost (word : BitVec 32) (inside : k < 4) :
    Memory.byteOf (m.wordToHost word) k = Memory.byteOf word (m.lane 4 k) := by
  unfold wordToHost lane
  split
  · exact byteOf_swapWord word inside
  · rfl

theorem byteOf_shortToHost (shortword : BitVec 16) (inside : k < 2) :
    Memory.byteOf ((m.shortToHost shortword).setWidth 32) k =
      Memory.byteOf (shortword.setWidth 32) (m.lane 2 k) := by
  unfold shortToHost lane
  split
  · exact byteOf_swapShort shortword inside
  · rfl

theorem lane_lt {count : Nat} (inside : k < count) : m.lane count k < count := by
  unfold lane
  split <;> omega

theorem lane_lane {count : Nat} (inside : k < count) : m.lane count (m.lane count k) = k := by
  unfold lane
  split <;> omega

theorem lane_of_little (host : m.hostIsBigEndian = false) (count i : Nat) :
    m.lane count i = i :=
  if_neg (by rw [host]; decide)

theorem lane_of_big (host : m.hostIsBigEndian = true) (count i : Nat) :
    m.lane count i = count - 1 - i :=
  if_pos host

theorem weight_two : (256 : Nat) ^ 2 = 65536 := by
  norm_num

theorem weight_three : (256 : Nat) ^ 3 = 16777216 := by
  norm_num

theorem hostLoad_one : m.hostLoad physAddr 1 = (m.mainMemory physAddr).toNat := by
  simp [hostLoad, lane]

theorem hostLoad_two : m.hostLoad physAddr 2 =
    (m.mainMemory physAddr).toNat * 256 ^ m.lane 2 0 +
      (m.mainMemory (physAddr + 1)).toNat * 256 ^ m.lane 2 1 := by
  unfold hostLoad
  rw [show List.range 2 = [0, 1] from rfl]
  simp only [List.map_cons, List.map_nil, List.sum_cons, List.sum_nil, Nat.cast_zero,
    Nat.cast_one, Int.add_zero, Nat.add_zero]

theorem hostLoad_four : m.hostLoad physAddr 4 =
    (m.mainMemory physAddr).toNat * 256 ^ m.lane 4 0 +
      ((m.mainMemory (physAddr + 1)).toNat * 256 ^ m.lane 4 1 +
        ((m.mainMemory (physAddr + 2)).toNat * 256 ^ m.lane 4 2 +
          (m.mainMemory (physAddr + 3)).toNat * 256 ^ m.lane 4 3)) := by
  unfold hostLoad
  rw [show List.range 4 = [0, 1, 2, 3] from rfl]
  simp only [List.map_cons, List.map_nil, List.sum_cons, List.sum_nil, Nat.cast_zero,
    Nat.cast_one, Nat.cast_ofNat, Int.add_zero, Nat.add_zero]

/-- Byte `k` of what the host loads is where the host counts it. -/
theorem byteOf_hostLoad_one :
    Memory.byteOf ((BitVec.ofNat 8 (m.hostLoad physAddr 1)).signExtend 32) (0 : Nat) =
      m.mainMemory physAddr := by
  rw [hostLoad_one]
  apply UInt8.toBitVec_inj.mp
  rw [toBitVec_byteOf, ← UInt8.toNat_toBitVec, BitVec.ofNat_toNat, BitVec.setWidth_eq]
  apply BitVec.eq_of_getLsbD_eq
  intro i bound
  rw [BitVec.getLsbD_extractLsb', BitVec.getLsbD_signExtend]
  have low : i < 32 := by omega
  simp [bound, low]

theorem byteOf_hostLoad_two (inside : k < 2) :
    Memory.byteOf ((BitVec.ofNat 16 (m.hostLoad physAddr 2)).setWidth 32) (m.lane 2 k) =
      m.mainMemory (physAddr + k) := by
  have first := (m.mainMemory physAddr).toNat_lt
  have second := (m.mainMemory (physAddr + 1)).toNat_lt
  apply UInt8.toNat_inj.mp
  rw [Memory.toNat_byteOf, Int.toNat_natCast, BitVec.toNat_setWidth, BitVec.toNat_ofNat,
    hostLoad_two]
  obtain rfl | rfl : k = 0 ∨ k = 1 := by omega
  · cases host : m.hostIsBigEndian with
    | false =>
        simp only [lane_of_little host, pow_zero, pow_one, Nat.cast_zero, Int.add_zero]
        omega
    | true =>
        simp only [lane_of_big host, Nat.reduceSub, pow_zero, pow_one, Nat.cast_zero,
          Int.add_zero]
        omega
  · cases host : m.hostIsBigEndian with
    | false =>
        simp only [lane_of_little host, pow_zero, pow_one, Nat.cast_one]
        omega
    | true =>
        simp only [lane_of_big host, Nat.reduceSub, pow_zero, pow_one, Nat.cast_one]
        omega

theorem byteOf_hostLoad_four (inside : k < 4) :
    Memory.byteOf (BitVec.ofNat 32 (m.hostLoad physAddr 4)) (m.lane 4 k) =
      m.mainMemory (physAddr + k) := by
  have first := (m.mainMemory physAddr).toNat_lt
  have second := (m.mainMemory (physAddr + 1)).toNat_lt
  have third := (m.mainMemory (physAddr + 2)).toNat_lt
  have fourth := (m.mainMemory (physAddr + 3)).toNat_lt
  apply UInt8.toNat_inj.mp
  rw [Memory.toNat_byteOf, Int.toNat_natCast, BitVec.toNat_ofNat, hostLoad_four]
  cases host : m.hostIsBigEndian with
  | false =>
      simp only [lane_of_little host, weight_two, weight_three, pow_zero, pow_one, Nat.mul_one]
      obtain rfl | rfl | rfl | rfl : k = 0 ∨ k = 1 ∨ k = 2 ∨ k = 3 := by omega
      · simp only [pow_zero, Nat.cast_zero, Int.add_zero]
        omega
      · simp only [pow_one, Nat.cast_one]
        omega
      · simp only [weight_two, Nat.cast_ofNat]
        omega
      · simp only [weight_three, Nat.cast_ofNat]
        omega
  | true =>
      simp only [lane_of_big host, Nat.reduceSub, weight_two, weight_three, pow_zero, pow_one,
        Nat.mul_one]
      obtain rfl | rfl | rfl | rfl : k = 0 ∨ k = 1 ∨ k = 2 ∨ k = 3 := by omega
      · simp only [Nat.reduceSub, weight_three, Nat.cast_zero, Int.add_zero]
        omega
      · simp only [Nat.reduceSub, weight_two, Nat.cast_one]
        omega
      · simp only [Nat.reduceSub, pow_one, Nat.cast_ofNat]
        omega
      · simp only [Nat.reduceSub, pow_zero, Nat.cast_ofNat]
        omega

/-! ### Where a virtual address is -/

/-- Where main memory holds the byte at a virtual address, over a page table
and without a TLB; `none` for a page that is not valid or has no frame. -/
def place (m : Processor) (virtAddr : Nat) : Option Nat :=
  match m.tlb, m.pageTable with
  | none, some pageTable =>
      (pageTable[virtAddr / pageSize]?).bind fun entry =>
        if entry.valid ∧ entry.physicalPage.toNat < numPhysPages then
          some (entry.physicalPage.toNat * pageSize + virtAddr % pageSize)
        else none
  | _, _ => none

/-- The valid pages of a page table have frames of their own. -/
def Injective (pageTable : List TranslationEntry) : Prop :=
  ∀ (i j : Nat) (entry entry' : TranslationEntry), pageTable[i]? = some entry →
    pageTable[j]? = some entry' → entry.valid → entry'.valid →
      entry.physicalPage = entry'.physicalPage → i = j

variable {virtAddr : BitVec 32} {size : Nat} {writing : Bool}

/-- Bits of an entry do not matter. -/
theorem place_set {pageTable : List TranslationEntry} {vpn : Nat} {entry : TranslationEntry}
    (noTlb : m.tlb = none) (table : m.pageTable = some pageTable)
    (here : pageTable[vpn]? = some entry) (use dirty : Bool) :
    ({ m with pageTable := some (pageTable.set vpn { entry with use := use, dirty := dirty }) } :
      Processor).place = m.place := by
  funext a
  simp only [place, noTlb, table]
  by_cases same : vpn = a / pageSize
  · rw [List.getElem?_set, if_pos same, ← same, here]
    have inside := (List.getElem?_eq_some_iff.mp here).1
    rw [if_pos inside]
    rfl
  · rw [List.getElem?_set, if_neg same]

/-- What a successful translation over a page table says. -/
structure Located (m : Processor) (virtAddr size physAddr : Nat) (m' : Processor) : Prop where
  placed : ∀ i : Nat, i < size → m.place (virtAddr + i) = some (physAddr + i)
  noTlb : m'.tlb = none
  places : m'.place = m.place
  mainMemory : m'.mainMemory = m.mainMemory

theorem located_of_translateBy {pageTable : List TranslationEntry} {entry : TranslationEntry}
    (noTlb : m.tlb = none) (table : m.pageTable = some pageTable)
    (here : pageTable[virtAddr.toNat / pageSize]? = some entry) (valid : entry.valid = true)
    (offset : virtAddr.toNat % pageSize + size ≤ pageSize)
    (ok : translateBy entry
      (fun e => { m with pageTable := some (pageTable.set (virtAddr.toNat / pageSize) e) })
      (virtAddr.toNat % pageSize) size writing = some (.ok (physAddr, m'))) :
    Located m virtAddr.toNat size physAddr m' := by
  unfold translateBy at ok
  split at ok
  · cases ok
  · split at ok
    · cases ok
    · rename_i frame
      dsimp only at ok
      split at ok
      · obtain ⟨rfl, rfl⟩ := Prod.mk.inj (Except.ok.inj (Option.some.inj ok))
        refine
          { placed := ?_
            noTlb := noTlb
            places := place_set noTlb table here _ _
            mainMemory := rfl }
        intro i inside
        simp only [pageSize] at *
        have page : (virtAddr.toNat + i) / 128 = virtAddr.toNat / 128 := by omega
        have rest : (virtAddr.toNat + i) % 128 = virtAddr.toNat % 128 + i := by omega
        simp only [place, noTlb, table, pageSize]
        rw [page, here, Option.bind_some, if_pos ⟨valid, by omega⟩, rest]
        congr 1
        omega
      · cases ok

theorem located (known : AccessSize size) (noTlb : m.tlb = none)
    (ok : m.translate virtAddr size writing = some (.ok (physAddr, m'))) :
    Located m virtAddr.toNat size physAddr m' := by
  unfold translate at ok
  split at ok
  · cases ok
  · rename_i aligned
    have offset := offset_add_le known aligned
    cases table : m.pageTable with
    | none => simp [noTlb, table] at ok
    | some pageTable =>
        simp only [noTlb, table] at ok
        split at ok
        · cases ok
        · rename_i entry here
          split at ok
          · rename_i valid
            rw [← noTlb] at ok
            exact located_of_translateBy noTlb table here valid offset ok
          · cases ok

theorem place_injective {pageTable : List TranslationEntry} (noTlb : m.tlb = none)
    (table : m.pageTable = some pageTable) (injective : Injective pageTable) {a b q : Nat}
    (first : m.place a = some q) (second : m.place b = some q) : a = b := by
  simp only [place, noTlb, table, Option.bind_eq_some_iff] at first second
  obtain ⟨entry, here, first⟩ := first
  obtain ⟨entry', here', second⟩ := second
  split at first
  · rename_i good
    split at second
    · rename_i good'
      simp only [pageSize, Option.some.injEq] at *
      have frame : entry.physicalPage = entry'.physicalPage := by
        apply BitVec.eq_of_toNat_eq
        omega
      have page := injective _ _ entry entry' here here' good.1 good'.1 frame
      omega
    · cases second
  · cases first

/-! ### What a successful access does -/

theorem byteOf_and_byte (value : BitVec 32) :
    Memory.byteOf (value &&& 0xff) (0 : Nat) = Memory.byteOf value (0 : Nat) := by
  apply UInt8.toBitVec_inj.mp
  rw [toBitVec_byteOf, toBitVec_byteOf]
  apply BitVec.eq_of_getLsbD_eq
  intro i bound
  interval_cases i <;> simp

theorem byteOf_and_short (value : BitVec 32) (inside : k < 2) :
    Memory.byteOf (((value &&& 0xffff).setWidth 16).setWidth 32) k = Memory.byteOf value k := by
  apply UInt8.toBitVec_inj.mp
  rw [toBitVec_byteOf, toBitVec_byteOf]
  apply BitVec.eq_of_getLsbD_eq
  intro i bound
  interval_cases k <;> interval_cases i <;> simp

/-- A number whose byte `k` is where the host counts it is stored in
little-endian order. -/
theorem hostStore_apply {count : Nat} {stored value : BitVec 32}
    (bytes : ∀ k : Nat, k < count →
      Memory.byteOf stored (m.lane count k) = Memory.byteOf value k) (i : Int) :
    m.hostStore physAddr count stored i =
      if (physAddr : Int) ≤ i ∧ i < physAddr + count then Memory.byteOf value (i - physAddr)
      else m.mainMemory i := by
  unfold hostStore
  split
  · rename_i inside
    rw [bytes (i - physAddr).toNat (by omega), Int.toNat_of_nonneg (by omega)]
  · rfl

end Processor

namespace Simulation

open Processor

variable {handler : Handler} {addr value : BitVec 32} {size : Nat} {s s' : Simulation}

/-- A `ReadMem` that returns `TRUE` has read the bytes at its address. -/
theorem readMem_succeeds (known : AccessSize size) (noTlb : s.tlb = none)
    (read : s.readMem handler addr size = .returns (some value) s') :
    ∃ physAddr, Located s.toProcessor addr.toNat size physAddr s'.toProcessor ∧
      ∀ k : Nat, k < size → s.mainMemory (physAddr + k) = Memory.byteOf value k := by
  unfold readMem at read
  split at read
  · cases read
  · exact absurd read raiseException_ne_some
  · rename_i physAddr m ok
    have located := located known noTlb ok
    have same := located.mainMemory
    refine ⟨physAddr, ?_⟩
    rcases known with rfl | rfl | rfl
    · cases read
      refine ⟨⟨located.placed, located.noTlb, located.places, same⟩, ?_⟩
      intro k inside
      obtain rfl : k = 0 := by omega
      rw [byteOf_hostLoad_one, same, Nat.cast_zero, Int.add_zero]
    · cases read
      refine ⟨⟨located.placed, located.noTlb, located.places, same⟩, ?_⟩
      intro k inside
      rw [byteOf_shortToHost _ inside, byteOf_hostLoad_two inside, same]
    · cases read
      refine ⟨⟨located.placed, located.noTlb, located.places, same⟩, ?_⟩
      intro k inside
      rw [byteOf_wordToHost _ inside, byteOf_hostLoad_four inside, same]

/-- What a `WriteMem` that returns `TRUE` has done to main memory. -/
structure Stored (s : Simulation) (virtAddr size physAddr : Nat) (value : BitVec 32)
    (s' : Simulation) : Prop where
  placed : ∀ i : Nat, i < size → s.place (virtAddr + i) = some (physAddr + i)
  noTlb : s'.tlb = none
  places : s'.place = s.place
  mainMemory : ∀ i : Int, s'.mainMemory i =
    if (physAddr : Int) ≤ i ∧ i < physAddr + size then Memory.byteOf value (i - physAddr)
    else s.mainMemory i

theorem writeMem_succeeds (known : AccessSize size) (noTlb : s.tlb = none)
    (wrote : s.writeMem handler addr size value = .returns (some ()) s') :
    ∃ physAddr, Stored s addr.toNat size physAddr value s' := by
  unfold writeMem at wrote
  split at wrote
  · cases wrote
  · exact absurd wrote raiseException_ne_some
  · rename_i physAddr m ok
    have located := located known noTlb ok
    refine ⟨physAddr, ?_⟩
    rcases known with rfl | rfl | rfl
    · cases wrote
      refine ⟨located.placed, located.noTlb, located.places, ?_⟩
      intro i
      rw [← located.mainMemory]
      apply hostStore_apply
      intro k inside
      obtain rfl : k = 0 := by omega
      have first : m.lane 1 0 = 0 := by
        have : m.lane 1 0 < 1 := m.lane_lt (by omega)
        omega
      rw [first]
      exact byteOf_and_byte value
    · cases wrote
      refine ⟨located.placed, located.noTlb, located.places, ?_⟩
      intro i
      rw [← located.mainMemory]
      apply hostStore_apply
      intro k inside
      rw [byteOf_shortToHost _ (lane_lt inside), lane_lane inside, byteOf_and_short value inside]
    · cases wrote
      refine ⟨located.placed, located.noTlb, located.places, ?_⟩
      intro i
      rw [← located.mainMemory]
      apply hostStore_apply
      intro k inside
      rw [byteOf_wordToHost _ (lane_lt inside), lane_lane inside]

end Simulation

/-! ### Calls and the array of bytes -/

/-- A call of `ReadMem` or `WriteMem`. -/
inductive MemoryCall where
  | read (addr : BitVec 32) (size : Nat)
  | write (addr : BitVec 32) (size : Nat) (value : BitVec 32)

def MemoryCall.size : MemoryCall → Nat
  | .read _ size => size
  | .write _ size _ => size

/-- A call that has succeeded, with the value that was read. -/
inductive MemoryEvent where
  | read (addr : BitVec 32) (size : Nat) (value : BitVec 32)
  | write (addr : BitVec 32) (size : Nat) (value : BitVec 32)
deriving DecidableEq

/-- One call. -/
def MemoryCall.perform (handler : Handler) (s : Simulation) :
    MemoryCall → Ending (Option MemoryEvent)
  | .read addr size =>
      (s.readMem handler addr size).andThen fun value s =>
        .returns (value.map (MemoryEvent.read addr size)) s
  | .write addr size value =>
      (s.writeMem handler addr size value).andThen fun done s =>
        .returns (done.map fun _ => MemoryEvent.write addr size value) s

/-- The calls of a list in order, as long as the simulator goes on: those that
have succeeded, and the machine in the end. -/
def performAll (handler : Handler) :
    List MemoryCall → Simulation → List MemoryEvent × Simulation
  | [], s => ([], s)
  | call :: calls, s =>
      match call.perform handler s with
      | .returns (some event) s =>
          let rest := performAll handler calls s
          (event :: rest.1, rest.2)
      | .returns none s => performAll handler calls s
      | .stops _ s => ([], s)

/-- An array of bytes, by their virtual address, as the machine promises it: a
number is read from the bytes at its address, the first one having the least
weight, and written likewise. -/
def byteArray : Lib.Machine Memory MemoryEvent where
  step bytes
    | .read addr size value =>
        if value.toNat % 256 ^ size = bytes.littleEndian addr.toNat size then some bytes
        else none
    | .write addr size value =>
        some fun a =>
          if (addr.toNat : Int) ≤ a ∧ a < addr.toNat + size then
            Memory.byteOf value (a - addr.toNat)
          else bytes a

/-! ### The machine keeps to the array -/

/-- The machine shows the array at every virtual address that has a place. -/
structure Shows (places : Nat → Option Nat) (m : Processor) (bytes : Memory) : Prop where
  noTlb : m.tlb = none
  placed : m.place = places
  bytes : ∀ a q : Nat, places a = some q → m.mainMemory q = bytes a

/-- A handler that leaves memory and the tables alone when it returns from an
exception that is no system call. -/
def Quiet (handler : Handler) : Prop :=
  ∀ (which : ExceptionType) (m m' : Processor), which ≠ .syscallException →
    handler which m = some m' →
      m'.mainMemory = m.mainMemory ∧ m'.tlb = m.tlb ∧ m'.pageTable = m.pageTable

/-- `ExceptionHandler` does not return from such an exception. -/
theorem quiet_exceptionHandler (service : Service) : Quiet (exceptionHandler service) := by
  intro which m m' noCall answer
  unfold exceptionHandler at answer
  rw [if_neg noCall] at answer
  cases answer

section

open Processor

variable {handler : Handler} {places : Nat → Option Nat} {s s' : Simulation} {bytes : Memory}

theorem Shows.of_eq {m m' : Processor} (shows : Shows places m bytes)
    (mainMemory : m'.mainMemory = m.mainMemory) (tlb : m'.tlb = m.tlb)
    (place : m'.place = m.place) : Shows places m' bytes where
  noTlb := by rw [tlb, shows.noTlb]
  placed := by rw [place, shows.placed]
  bytes := by
    intro a q here
    rw [mainMemory]
    exact shows.bytes a q here

theorem place_congr {m m' : Processor} (tlb : m'.tlb = m.tlb)
    (pageTable : m'.pageTable = m.pageTable) : m'.place = m.place := by
  funext a
  rw [place, place, tlb, pageTable]

/-- Being trapped and coming back. -/
theorem Shows.raised {which : ExceptionType} {α : Type} {value : α}
    (shows : Shows places s.toProcessor bytes) (badVAddr : BitVec 32) (quiet : Quiet handler)
    (noCall : which ≠ .syscallException) :
    (∃ s', s.raiseException handler which badVAddr value = .returns value s' ∧
        Shows places s'.toProcessor bytes) ∨
      ∃ s', s.raiseException handler which badVAddr value = .stops .halted s' ∧
        Shows places s'.toProcessor bytes := by
  unfold Simulation.raiseException
  cases answer : handler which (s.trapped badVAddr) with
  | none => exact .inr ⟨_, rfl, shows.of_eq rfl rfl (place_congr rfl rfl)⟩
  | some m =>
      obtain ⟨mainMemory, tlb, pageTable⟩ := quiet which _ m noCall answer
      exact .inl ⟨_, rfl, shows.of_eq mainMemory tlb (place_congr tlb pageTable)⟩

/-- How a call may end: as the array has it, or without any effect on what the
machine shows. -/
inductive Follows (places : Nat → Option Nat) (bytes : Memory) :
    Ending (Option MemoryEvent) → Prop where
  | succeeds {event : MemoryEvent} {bytes' : Memory} {s' : Simulation}
      (step : byteArray.step bytes event = some bytes')
      (shows : Shows places s'.toProcessor bytes') :
      Follows places bytes (.returns (some event) s')
  | fails {s' : Simulation} (shows : Shows places s'.toProcessor bytes) :
      Follows places bytes (.returns none s')
  | stops {why : Stop} {s' : Simulation} (shows : Shows places s'.toProcessor bytes) :
      Follows places bytes (.stops why s')

theorem Shows.read {addr value : BitVec 32} {size physAddr : Nat}
    (shows : Shows places s.toProcessor bytes)
    (located : Located s.toProcessor addr.toNat size physAddr s'.toProcessor)
    (read : ∀ k : Nat, k < size → s.mainMemory (physAddr + k) = Memory.byteOf value k) :
    Follows places bytes (.returns (some (.read addr size value)) s') := by
  have seen : bytes.littleEndian addr.toNat size = value.toNat / 256 ^ 0 % 256 ^ size := by
    apply Memory.littleEndian_eq
    intro k inside
    have here : places (addr.toNat + k) = some (physAddr + k) := by
      rw [← shows.placed]
      exact located.placed k inside
    have byte := shows.bytes _ _ here
    rw [Nat.cast_add, Nat.cast_add] at byte
    rw [← byte, read k inside, Nat.zero_add]
  rw [pow_zero, Nat.div_one] at seen
  refine Follows.succeeds (?_ : byteArray.step bytes (.read addr size value) = some bytes) ?_
  · simp only [byteArray]
    rw [if_pos seen.symm]
  · refine ⟨located.noTlb, by rw [located.places, shows.placed], ?_⟩
    intro a q here
    rw [located.mainMemory]
    exact shows.bytes a q here

theorem Shows.wrote {addr value : BitVec 32} {size physAddr : Nat}
    (shows : Shows places s.toProcessor bytes)
    (injective : ∀ a b q : Nat, places a = some q → places b = some q → a = b)
    (stored : s.Stored addr.toNat size physAddr value s') :
    Follows places bytes (.returns (some (.write addr size value)) s') := by
  refine Follows.succeeds rfl ⟨stored.noTlb, by rw [stored.places, shows.placed], ?_⟩
  have placed (k : Nat) (inside : k < size) :
      places (addr.toNat + k) = some (physAddr + k) := by
    rw [← shows.placed]
    exact stored.placed k inside
  intro a q here
  rw [stored.mainMemory]
  -- a byte is among those of the place exactly when its address is among those of the call
  by_cases inside : physAddr ≤ q ∧ q < physAddr + size
  · have same := placed (q - physAddr) (by omega)
    rw [show physAddr + (q - physAddr) = q by omega] at same
    have address := injective _ _ q here same
    rw [if_pos (by omega), if_pos (by omega)]
    congr 1
    omega
  · have outside : ¬ (addr.toNat ≤ a ∧ a < addr.toNat + size) := by
      intro among
      have same := placed (a - addr.toNat) (by omega)
      rw [show addr.toNat + (a - addr.toNat) = a by omega, here] at same
      have := Option.some.inj same
      omega
    rw [if_neg (by omega), if_neg (by omega)]
    exact shows.bytes a q here

/-- One call. -/
theorem follows_perform (quiet : Quiet handler) (shows : Shows places s.toProcessor bytes)
    (injective : ∀ a b q : Nat, places a = some q → places b = some q → a = b)
    (call : MemoryCall) (known : AccessSize call.size) :
    Follows places bytes (call.perform handler s) := by
  cases call with
  | read addr size =>
      change AccessSize size at known
      have accessed := Simulation.accessed_readMem handler addr s known
      simp only [MemoryCall.perform]
      generalize ended : s.readMem handler addr size = e at accessed ⊢
      cases accessed with
      | succeeds value frame =>
          obtain ⟨physAddr, located, read⟩ :=
            Simulation.readMem_succeeds known shows.noTlb ended
          exact shows.read located read
      | raises fault =>
          rcases shows.raised addr quiet fault with back | halted
          · obtain ⟨left, back, still⟩ := back
            rw [back]
            exact Follows.fails still
          · obtain ⟨left, halted, still⟩ := halted
            rw [halted]
            exact Follows.stops still
      | aborts unmapped => exact Follows.stops shows
  | write addr size value =>
      change AccessSize size at known
      have accessed := Simulation.accessed_writeMem handler addr s value known
      simp only [MemoryCall.perform]
      generalize ended : s.writeMem handler addr size value = e at accessed ⊢
      cases accessed with
      | succeeds done frame =>
          obtain ⟨physAddr, stored⟩ := Simulation.writeMem_succeeds known shows.noTlb ended
          exact shows.wrote injective stored
      | raises fault =>
          rcases shows.raised addr quiet fault with back | halted
          · obtain ⟨left, back, still⟩ := back
            rw [back]
            exact Follows.fails still
          · obtain ⟨left, halted, still⟩ := halted
            rw [halted]
            exact Follows.stops still
      | aborts unmapped => exact Follows.stops shows

/-- Any number of calls. -/
theorem follows_performAll (quiet : Quiet handler) (shows : Shows places s.toProcessor bytes)
    (injective : ∀ a b q : Nat, places a = some q → places b = some q → a = b)
    (calls : List MemoryCall) (known : ∀ call ∈ calls, AccessSize call.size) :
    ∃ bytes', byteArray.exec bytes (performAll handler calls s).1 = some bytes' ∧
      Shows places (performAll handler calls s).2.toProcessor bytes' := by
  induction calls generalizing s bytes with
  | nil => exact ⟨bytes, rfl, shows⟩
  | cons call calls inductionHypothesis =>
      have follows := follows_perform quiet shows injective call (known call List.mem_cons_self)
      have later : ∀ call ∈ calls, AccessSize call.size :=
        fun call member => known call (List.mem_cons_of_mem _ member)
      rw [performAll]
      generalize call.perform handler s = e at follows
      cases follows with
      | succeeds step still =>
          obtain ⟨bytes', run, last⟩ := inductionHypothesis still later
          exact ⟨bytes', (Lib.Machine.exec_cons_eq_some byteArray).mpr ⟨_, step, run⟩, last⟩
      | fails still => exact inductionHypothesis still later
      | stops still => exact ⟨bytes, rfl, still⟩

/-- Over a page table whose valid pages have frames of their own, the calls of
`ReadMem` and `WriteMem` that succeed are operations on one array of bytes in
little-endian order, and the machine shows that array at every virtual
address. -/
theorem memory_refines_byteArray (quiet : Quiet handler) {pageTable : List TranslationEntry}
    (noTlb : s.tlb = none) (table : s.pageTable = some pageTable)
    (injective : Injective pageTable)
    (initial : ∀ a q : Nat, s.place a = some q → s.mainMemory q = bytes a)
    (calls : List MemoryCall) (known : ∀ call ∈ calls, AccessSize call.size) :
    ∃ bytes', byteArray.exec bytes (performAll handler calls s).1 = some bytes' ∧
      (performAll handler calls s).2.place = s.place ∧
      ∀ a q : Nat, s.place a = some q →
        (performAll handler calls s).2.mainMemory q = bytes' a := by
  have shows : Shows s.place s.toProcessor bytes := ⟨noTlb, rfl, initial⟩
  obtain ⟨bytes', run, last⟩ := follows_performAll quiet shows
    (fun a b q first second => place_injective noTlb table injective first second) calls known
  exact ⟨bytes', run, last.placed, last.bytes⟩

/-- Two pages in the frames 1 and 0. -/
def crossedTable : List TranslationEntry :=
  [⟨0, 1, true, false, false, false⟩, ⟨1, 0, true, false, false, false⟩]

theorem injective_crossedTable : Injective crossedTable := by
  intro i j entry entry' first second _ _ frame
  obtain ⟨iInside, rfl⟩ := List.getElem?_eq_some_iff.mp first
  obtain ⟨jInside, rfl⟩ := List.getElem?_eq_some_iff.mp second
  simp only [crossedTable, List.length_cons, List.length_nil] at iInside jInside
  obtain rfl | rfl : i = 0 ∨ i = 1 := by omega
  · obtain rfl | rfl : j = 0 ∨ j = 1 := by omega
    · rfl
    · simp [crossedTable] at frame
  · obtain rfl | rfl : j = 0 ∨ j = 1 := by omega
    · simp [crossedTable] at frame
    · rfl

/-- The pages on a big-endian host. -/
def crossedPages : Simulation where
  registers := fun _ => 0
  mainMemory := fun _ => 0
  tlb := none
  pageTable := some crossedTable
  lastUsed := fun _ => 0
  totalTicks := 0
  status := .userMode
  hostIsBigEndian := true
  loaded := []
  raised := []

/-- A word, a byte in the middle of it, and what is read of both; the last call
is not aligned and stops the machine. -/
theorem memory_refines_byteArray_crossedPages :
    ∃ bytes',
      (performAll (exceptionHandler noService)
          [.write 124 4 0x44332211, .write 126 1 0x55, .read 124 4, .read 126 2, .read 128 1,
            .read 2 4] crossedPages).1 =
        [.write 124 4 0x44332211, .write 126 1 0x55, .read 124 4 0x44552211,
          .read 126 2 0x4455, .read 128 1 0] ∧
      byteArray.exec (fun _ => 0)
          [.write 124 4 0x44332211, .write 126 1 0x55, .read 124 4 0x44552211,
            .read 126 2 0x4455, .read 128 1 0] = some bytes' := by
  have events : (performAll (exceptionHandler noService)
      [.write 124 4 0x44332211, .write 126 1 0x55, .read 124 4, .read 126 2, .read 128 1,
        .read 2 4] crossedPages).1 =
      [.write 124 4 0x44332211, .write 126 1 0x55, .read 124 4 0x44552211,
        .read 126 2 0x4455, .read 128 1 0] := by decide +kernel
  obtain ⟨bytes', run, -⟩ := @memory_refines_byteArray (exceptionHandler noService) crossedPages
    (fun _ => 0) (quiet_exceptionHandler noService) _ rfl rfl injective_crossedTable
    (fun _ _ _ => rfl)
    [.write 124 4 0x44332211, .write 126 1 0x55, .read 124 4, .read 126 2, .read 128 1,
      .read 2 4] (by simp [AccessSize, MemoryCall.size])
  rw [events] at run
  exact ⟨bytes', events, run⟩

end

end Nachos
