/-
Module: Nachos.UserProg.AddrSpace
Purpose: The constructor of `AddrSpace` in addrspace.cc and the registers and
  the page table that it leaves to a user program.  The number of pages comes
  from the sum of the sizes of the segments; each segment is put at its own
  virtual address.
Trusted boundary: `ReadAt` returns, and writes at most as many bytes as it is
  asked for; what lies next to `mainMemory` is the same array of bytes.
Main exports: Segment, NoffHeader, Executable, OpenFile.executable, AddrSpace,
  AddrSpace.construct, NoffHeader.Fits, AddrSpace.Loaded, loaded_iff_fits,
  NoffHeader.fits_of_contiguous
-/
import Nachos.FileSys.Requests
import Nachos.Machine.UserPrograms
import Nachos.UserProg.Table

namespace Nachos

open Lib

/-! ### Object files -/

/-- `Segment` of noff.h. -/
structure Segment where
  virtualAddr : BitVec 32
  inFileAddr : BitVec 32
  size : BitVec 32
deriving DecidableEq

/-- `NoffHeader` of noff.h. -/
structure NoffHeader where
  noffMagic : BitVec 32
  code : Segment
  initData : Segment
  uninitData : Segment
deriving DecidableEq

/-- `NOFFMAGIC`. -/
abbrev noffMagicNumber : BitVec 32 := 0xbadfad

/-- `sizeof(NoffHeader)`. -/
abbrev noffHeaderSize : Int := 40

namespace Segment

/-- The segment that the host finds at an offset. -/
def ofMemory (m : Processor) (bytes : Memory) (offset : Int) : Segment where
  virtualAddr := m.wordToHost (bytes.getWord offset)
  inFileAddr := m.wordToHost (bytes.getWord (offset + 4))
  size := m.wordToHost (bytes.getWord (offset + 8))

def swap (m : Processor) (segment : Segment) : Segment where
  virtualAddr := m.wordToHost segment.virtualAddr
  inFileAddr := m.wordToHost segment.inFileAddr
  size := m.wordToHost segment.size

end Segment

namespace NoffHeader

/-- The header that the host finds in a buffer. -/
def ofMemory (m : Processor) (bytes : Memory) : NoffHeader where
  noffMagic := m.wordToHost (bytes.getWord 0)
  code := .ofMemory m bytes 4
  initData := .ofMemory m bytes 16
  uninitData := .ofMemory m bytes 28

/-- `SwapHeader`. -/
def swapHeader (m : Processor) (noffH : NoffHeader) : NoffHeader where
  noffMagic := m.wordToHost noffH.noffMagic
  code := noffH.code.swap m
  initData := noffH.initData.swap m
  uninitData := noffH.uninitData.swap m

def segments (noffH : NoffHeader) : List Segment :=
  [noffH.code, noffH.initData, noffH.uninitData]

end NoffHeader

/-- What the constructor uses of the file that it is given: `ReadAt` with a
buffer from offset `place` on.  It leaves the rest of the buffer alone. -/
structure Executable where
  readAt : Memory → Int → Int → Int → Memory
  within : ∀ into place numBytes position i, -2 ^ 31 ≤ position → numBytes < 2 ^ 31 →
    0 < numBytes → i < place ∨ place + numBytes ≤ i →
    readAt into place numBytes position i = into i

theorem OpenFile.clip_le {file : OpenFile} (granted : file.hdr.Granted)
    {numBytes position : Int} (positionLow : -2 ^ 31 ≤ position) (numBytesHigh : numBytes < 2 ^ 31)
    (some : ¬ (numBytes ≤ 0 ∨ file.hdr.fileLength ≤ position)) :
    clip file.hdr.fileLength numBytes position ≤ numBytes := by
  have bound := granted.numBytes_le
  have low := granted.word
  simp only [FileHeader.fileLength] at *
  unfold clip
  by_cases small : position + numBytes < 2 ^ 31
  · rw [wrap_eq_self (x := position + numBytes) (by omega) small]
    split
    · rw [wrap_eq_self (by omega) (by omega)]
      omega
    · exact Int.le_refl _
  · have wrapped : wrap (position + numBytes) = position + numBytes - 2 ^ 32 := by
      unfold wrap
      rw [Int.bmod_def]
      omega
    exact Int.le_of_eq (by rw [wrapped, if_neg (by omega)])

/-- A file on the simulated disk. -/
def OpenFile.executable (file : OpenFile) (granted : file.hdr.Granted) (disk : Disk) :
    Executable where
  readAt into place numBytes position := (file.readAt disk into place numBytes position).2
  within := by
    intro into place numBytes position i positionLow numBytesHigh positive outside
    unfold readAt
    dsimp only
    split
    · rfl
    · have atMost := clip_le granted positionLow numBytesHigh (by omega)
      exact Memory.copy_outside _ _ (by omega)

/-- A file as UNIX has it, long enough for what is read. -/
def Executable.ofContent (content : Memory) : Executable where
  readAt into place numBytes position := Memory.copy content position into place numBytes
  within := fun into _ _ _ _ _ _ _ outside => Memory.copy_outside content into outside

/-! ### The constructor -/

/-- `UserStackSize` of addrspace.h. -/
abbrev userStackSize : BitVec 32 := 1024

/-- `divRoundUp` of utility.h on unsigned numbers. -/
def unsignedDivRoundUp (n s : BitVec 32) : BitVec 32 :=
  n / s + if 0 < n % s then 1 else 0

/-- `class AddrSpace`. -/
structure AddrSpace where
  fileTable : Table OpenFile
  pageTable : List TranslationEntry
  numPages : BitVec 32

/-- The sum of the sizes of the segments. -/
def NoffHeader.total (noffH : NoffHeader) : BitVec 32 :=
  noffH.code.size + noffH.initData.size + noffH.uninitData.size

def NoffHeader.numPages (noffH : NoffHeader) : BitVec 32 :=
  unsignedDivRoundUp noffH.total 128 + unsignedDivRoundUp userStackSize 128

/-- A segment is copied in if its size is positive. -/
def Segment.copyIn (executable : Executable) (segment : Segment) (mainMemory : Memory) :
    Memory :=
  if 0 < segment.size.toInt then
    executable.readAt mainMemory segment.virtualAddr.toInt segment.size.toInt
      segment.inFileAddr.toInt
  else mainMemory

namespace AddrSpace

/-- The header as the constructor has it after `SwapHeader`; `frame` is what the
stack held where it is put. -/
def header (executable : Executable) (frame : Memory) (m : Processor) : NoffHeader :=
  let noffH := NoffHeader.ofMemory m (executable.readAt frame 0 noffHeaderSize 0)
  if noffH.noffMagic ≠ noffMagicNumber ∧ m.wordToHost noffH.noffMagic = noffMagicNumber then
    noffH.swapHeader m
  else noffH

/-- The new page table. -/
def identityTable (numPages : BitVec 32) : List TranslationEntry :=
  (List.range numPages.toNat).map fun i =>
    { virtualPage := BitVec.ofNat 32 i
      physicalPage := BitVec.ofNat 32 i
      valid := true
      readOnly := false
      use := false
      dirty := false }

/-- Main memory is zeroed, then the code and the data are copied in. -/
def fillMemory (executable : Executable) (noffH : NoffHeader) (mainMemory : Memory) : Memory :=
  let size := noffH.numPages * 128
  let zeroed := Memory.copy (fun _ => 0) 0 mainMemory 0 size.toNat
  noffH.initData.copyIn executable (noffH.code.copyIn executable zeroed)

/-- `AddrSpace::AddrSpace`, or `none` when an assertion fails; `bits` and `heap`
are what the arrays of the file table held. -/
def construct (executable : Executable) (frame : Memory) (bits : Int → BitVec 32)
    (heap : Int → Option OpenFile) (m : Processor) : Option (AddrSpace × Processor) :=
  let noffH := header executable frame m
  if noffH.noffMagic = noffMagicNumber ∧ noffH.numPages ≤ 32 then
    some
      ({ fileTable := (Descriptors.start bits heap).fileTable
         pageTable := identityTable noffH.numPages
         numPages := noffH.numPages },
        { m with mainMemory := fillMemory executable noffH m.mainMemory })
  else none

/-- `AddrSpace::InitRegisters`. -/
def initRegisters (space : AddrSpace) (m : Processor) : Processor :=
  m.initRegisters space.numPages

/-- `AddrSpace::RestoreState`. -/
def restoreState (space : AddrSpace) (m : Processor) : Processor :=
  { m with pageTable := some space.pageTable }

end AddrSpace

/-! ### What the loaded program relies on -/

/-- Every segment that is not empty lies in the pages that the sum of the sizes
takes and the pages of the stack, with `room` bytes between it and the place 16
bytes before the end. -/
def NoffHeader.Fits (noffH : NoffHeader) (room : Nat) : Prop :=
  ∀ segment ∈ noffH.segments, 0 < segment.size.toInt →
    0 ≤ segment.virtualAddr.toInt ∧
      segment.virtualAddr.toInt + segment.size.toInt + room ≤
        (noffH.total.toNat + 127) / 128 * 128 + userStackSize.toNat - 16

namespace AddrSpace

/-- The constructor writes inside the address space, every byte of a segment is
found at its virtual address, and `room` bytes lie between the segments and the
initial stack pointer. -/
structure Loaded (executable : Executable) (noffH : NoffHeader) (space : AddrSpace)
    (m : Processor) (room : Nat) : Prop where
  inside : ∀ mainMemory i, fillMemory executable noffH mainMemory i ≠ mainMemory i →
    0 ≤ i ∧ i < space.numPages.toNat * pageSize
  addressable : ∀ segment ∈ noffH.segments, ∀ k : Nat, k < segment.size.toInt → ∀ writing,
    ∃ physAddr m', (space.restoreState m).translate (segment.virtualAddr + BitVec.ofNat 32 k) 1
        writing = some (.ok (physAddr, m')) ∧
      physAddr = segment.virtualAddr.toInt + k
  stack : ∀ segment ∈ noffH.segments, 0 < segment.size.toInt →
    segment.virtualAddr.toInt + segment.size.toInt + room ≤
      ((space.initRegisters m).registers stackReg).toNat

/-! ### The number of pages -/

theorem numPages_toNat (noffH : NoffHeader) :
    noffH.numPages.toNat = (noffH.total.toNat + 127) / 128 + 8 := by
  have bound := noffH.total.isLt
  unfold NoffHeader.numPages unsignedDivRoundUp
  have remainder : (0 < noffH.total % 128) ↔ 0 < noffH.total.toNat % 128 := by
    rw [BitVec.lt_def, BitVec.toNat_umod]
    rfl
  have stack : userStackSize / 128 + (if 0 < userStackSize % 128 then 1 else 0) = 8 := by
    decide
  rw [stack, BitVec.toNat_add, BitVec.toNat_add, BitVec.toNat_udiv,
    show (128 : BitVec 32).toNat = 128 from rfl, show (8 : BitVec 32).toNat = 8 from rfl]
  split
  · rename_i some
    rw [remainder] at some
    rw [show (1 : BitVec 32).toNat = 1 from rfl]
    omega
  · rename_i none
    rw [remainder] at none
    rw [show (0 : BitVec 32).toNat = 0 from rfl]
    omega

theorem construct_eq_some {executable : Executable} {frame : Memory} {bits : Int → BitVec 32}
    {heap : Int → Option OpenFile} {m m' : Processor} {space : AddrSpace}
    (constructed : construct executable frame bits heap m = some (space, m')) :
    (header executable frame m).numPages.toNat ≤ 32 ∧
      space.numPages = (header executable frame m).numPages ∧
      space.pageTable = identityTable (header executable frame m).numPages ∧
      m' = { m with
        mainMemory := fillMemory executable (header executable frame m) m.mainMemory } := by
  unfold construct at constructed
  dsimp only at constructed
  split at constructed
  · rename_i checked
    cases constructed
    exact ⟨BitVec.le_def.mp checked.2, rfl, rfl, rfl⟩
  · cases constructed

/-- The initial stack pointer. -/
theorem initRegisters_stack (space : AddrSpace) (m : Processor)
    (low : 8 ≤ space.numPages.toNat) (high : space.numPages.toNat ≤ 32) :
    ((space.initRegisters m).registers stackReg).toNat =
      space.numPages.toNat * pageSize - 16 := by
  have pointer : (space.initRegisters m).registers stackReg = space.numPages * 128 - 16 := by
    unfold initRegisters Processor.initRegisters
    dsimp only
    rw [Processor.set_registers, if_pos rfl]
  rw [pointer, BitVec.toNat_sub, BitVec.toNat_mul, show (128 : BitVec 32).toNat = 128 from rfl,
    show (16 : BitVec 32).toNat = 16 from rfl]
  simp only [pageSize]
  omega

/-- A page of the new page table is where its number says. -/
theorem identityTable_entry (numPages : BitVec 32) (i : Nat) :
    (identityTable numPages)[i]? =
      if i < numPages.toNat then
        some
          { virtualPage := BitVec.ofNat 32 i
            physicalPage := BitVec.ofNat 32 i
            valid := true
            readOnly := false
            use := false
            dirty := false }
      else none := by
  unfold identityTable
  split
  · rename_i inside
    rw [List.getElem?_map, List.getElem?_range inside]
    rfl
  · rename_i outside
    rw [List.getElem?_eq_none]
    simp only [List.length_map, List.length_range]
    omega

/-- Addresses below the end of the address space are translated to themselves. -/
theorem translate_restoreState (space : AddrSpace) (m : Processor) (noTLB : m.tlb = none)
    (table : space.pageTable = identityTable space.numPages) (most : space.numPages.toNat ≤ 32)
    (addr : BitVec 32) (inside : addr.toNat < space.numPages.toNat * pageSize) (writing : Bool) :
    ∃ m', (space.restoreState m).translate addr 1 writing = some (.ok (addr.toNat, m')) := by
  simp only [pageSize] at inside
  have page : addr.toNat / 128 < space.numPages.toNat := by omega
  have entry := identityTable_entry space.numPages (addr.toNat / 128)
  rw [if_pos page, ← table] at entry
  have byte : ¬ Processor.misaligned addr 1 := by simp [Processor.misaligned]
  have frame : (BitVec.ofNat 32 (addr.toNat / 128)).toNat = addr.toNat / 128 := by
    rw [BitVec.toNat_ofNat]
    omega
  unfold Processor.translate restoreState
  simp only [if_neg byte, noTLB, pageSize, entry, ↓reduceIte, Processor.translateBy, frame,
    Bool.false_eq_true, false_and, numPhysPages, memorySize]
  rw [if_neg (by omega), if_pos (by omega), Nat.div_add_mod']
  exact ⟨_, rfl⟩

/-- What a segment that is copied in changes. -/
theorem copyIn_outside (executable : Executable) (segment : Segment) (mainMemory : Memory)
    {i : Int} (outside : 0 < segment.size.toInt → i < segment.virtualAddr.toInt ∨
      segment.virtualAddr.toInt + segment.size.toInt ≤ i) :
    segment.copyIn executable mainMemory i = mainMemory i := by
  unfold Segment.copyIn
  split
  · rename_i positive
    exact executable.within _ _ _ _ _ (BitVec.le_toInt _) (BitVec.toInt_lt) positive
      (outside positive)
  · rfl

/-- The address of a byte of a segment. -/
theorem segment_address {segment : Segment} {k : Nat} (low : 0 ≤ segment.virtualAddr.toInt)
    (byte : k < segment.size.toInt) :
    ((segment.virtualAddr + BitVec.ofNat 32 k).toNat : Int) = segment.virtualAddr.toInt + k := by
  have address := BitVec.toInt_eq_toNat_of_msb (x := segment.virtualAddr)
    (by rw [BitVec.msb_eq_toInt]; simpa using low)
  have high := BitVec.toInt_lt (x := segment.virtualAddr)
  have most := BitVec.toInt_lt (x := segment.size)
  rw [BitVec.toNat_add, BitVec.toNat_ofNat]
  omega

end AddrSpace

open AddrSpace

/-- For a header that passes the checks, the program is loaded into its address
space, with `room` bytes below the initial stack pointer, exactly when the
segments lie in the pages that the sum of their sizes takes. -/
theorem loaded_iff_fits {executable : Executable} {frame : Memory} {bits : Int → BitVec 32}
    {heap : Int → Option OpenFile} {m m' : Processor} {space : AddrSpace} (noTLB : m.tlb = none)
    (constructed : construct executable frame bits heap m = some (space, m')) (room : Nat) :
    Loaded executable (header executable frame m) space m' room ↔
      (header executable frame m).Fits room := by
  obtain ⟨most, pages, table, rfl⟩ := construct_eq_some constructed
  generalize header executable frame m = noffH at *
  have count := numPages_toNat noffH
  rw [← pages] at most count table
  have pointer := initRegisters_stack space
    { m with mainMemory := fillMemory executable noffH m.mainMemory } (by omega) most
  have area : userStackSize.toNat = 1024 := rfl
  constructor
  · intro loaded segment member positive
    obtain ⟨physAddr, _, _, here⟩ := loaded.addressable segment member 0 positive false
    have below := loaded.stack segment member positive
    rw [pointer] at below
    simp only [pageSize] at below
    refine ⟨by omega, by omega⟩
  · intro fits
    have within (segment : Segment) (member : segment ∈ noffH.segments)
        (positive : 0 < segment.size.toInt) :
        0 ≤ segment.virtualAddr.toInt ∧ segment.virtualAddr.toInt + segment.size.toInt + room + 16 ≤
          space.numPages.toNat * pageSize := by
      obtain ⟨low, high⟩ := fits segment member positive
      simp only [pageSize]
      refine ⟨low, by omega⟩
    refine ⟨?_, ?_, ?_⟩
    · intro mainMemory i changed
      by_contra outside
      apply changed
      have kept (segment : Segment) (member : segment ∈ noffH.segments) (memory : Memory) :
          segment.copyIn executable memory i = memory i := by
        apply copyIn_outside
        intro positive
        have bounds := within segment member positive
        omega
      unfold fillMemory
      rw [kept _ (by simp [NoffHeader.segments]), kept _ (by simp [NoffHeader.segments])]
      apply Memory.copy_outside
      rw [BitVec.toNat_mul, ← pages, show (128 : BitVec 32).toNat = 128 from rfl]
      simp only [pageSize] at outside
      omega
    · intro segment member k byte writing
      obtain ⟨low, high⟩ := within segment member (by omega)
      have address := segment_address low byte
      obtain ⟨m', translated⟩ := translate_restoreState space
        { m with mainMemory := fillMemory executable noffH m.mainMemory } noTLB table most
        (segment.virtualAddr + BitVec.ofNat 32 k) (by omega) writing
      exact ⟨_, m', translated, address⟩
    · intro segment member positive
      have bounds := within segment member positive
      rw [pointer]
      omega

/-! ### Object files as the linker makes them -/

/-- Segments that follow one another from address 0 on fit, the bytes of the
stack being counted from the end of the address space. -/
theorem NoffHeader.fits_of_contiguous {noffH : NoffHeader}
    (code : noffH.code.virtualAddr = 0 ∧ 0 ≤ noffH.code.size.toInt)
    (initData : noffH.initData.virtualAddr = noffH.code.size ∧ 0 ≤ noffH.initData.size.toInt)
    (uninitData : noffH.uninitData.virtualAddr = noffH.code.size + noffH.initData.size ∧
      0 ≤ noffH.uninitData.size.toInt)
    (small : noffH.code.size.toInt + noffH.initData.size.toInt + noffH.uninitData.size.toInt <
      2 ^ 31) :
    noffH.Fits (userStackSize.toNat - 16) := by
  have natural {size : BitVec 32} (positive : 0 ≤ size.toInt) : (size.toNat : Int) = size.toInt :=
    (BitVec.toInt_eq_toNat_of_msb (by rw [BitVec.msb_eq_toInt]; simpa using positive)).symm
  have codeSize := natural code.2
  have initSize := natural initData.2
  have uninitSize := natural uninitData.2
  have both : (noffH.code.size + noffH.initData.size).toNat =
      noffH.code.size.toNat + noffH.initData.size.toNat := by
    rw [BitVec.toNat_add]
    omega
  have total : noffH.total.toNat =
      noffH.code.size.toNat + noffH.initData.size.toNat + noffH.uninitData.size.toNat := by
    unfold NoffHeader.total
    rw [BitVec.toNat_add, both]
    omega
  have second : (noffH.code.size + noffH.initData.size).toInt =
      noffH.code.size.toInt + noffH.initData.size.toInt := by
    rw [BitVec.toInt_eq_toNat_of_lt (by rw [both]; omega), both]
    omega
  have area : userStackSize.toNat = 1024 := rfl
  intro segment member positive
  rw [total, area]
  simp only [segments, List.mem_cons, List.not_mem_nil, or_false] at member
  rcases member with rfl | rfl | rfl
  · rw [code.1, show (0 : BitVec 32).toInt = 0 from rfl]
    omega
  · rw [initData.1]
    omega
  · rw [uninitData.1, second]
    omega

/-- An object file: the words of its header. -/
def Executable.ofHeader (words : List (BitVec 32)) : Executable :=
  .ofContent (Memory.ofWords fun w => words.getD w.toNat 0)

/-- Eight bytes of code, four of data and four that are zeroed. -/
def contiguousFile : Executable :=
  .ofHeader [noffMagicNumber, 0, 40, 8, 8, 48, 4, 12, 0, 4]

theorem loaded_iff_fits_contiguousFile :
    ∃ space m', construct contiguousFile (fun _ => 0) (fun _ => 0) (fun _ => none)
        (onePage 0 fun _ => 0) = some (space, m') ∧
      Loaded contiguousFile (header contiguousFile (fun _ => 0) (onePage 0 fun _ => 0)) space m'
        1008 := by
  have read : header contiguousFile (fun _ => 0) (onePage 0 fun _ => 0) =
      ⟨noffMagicNumber, ⟨0, 40, 8⟩, ⟨8, 48, 4⟩, ⟨12, 0, 4⟩⟩ := by decide +kernel
  obtain ⟨result, constructed⟩ : ∃ result, construct contiguousFile (fun _ => 0) (fun _ => 0)
      (fun _ => none) (onePage 0 fun _ => 0) = some result := by
    unfold construct
    rw [read]
    exact ⟨_, if_pos (by decide)⟩
  refine ⟨result.1, result.2, constructed, ?_⟩
  rw [loaded_iff_fits rfl constructed 1008, read]
  exact NoffHeader.fits_of_contiguous (by decide) (by decide) (by decide) (by decide)

/-- Four bytes of code at address 0 and four of data at address 4096. -/
def gappedFile : Executable :=
  .ofHeader [noffMagicNumber, 0, 40, 4, 4096, 44, 4, 0, 0, 0]

/-- The data are written beyond main memory. -/
theorem not_loaded_gappedFile :
    ¬ ∀ (executable : Executable) (frame : Memory) (bits : Int → BitVec 32)
        (heap : Int → Option OpenFile) (m m' : Processor) (space : AddrSpace), m.tlb = none →
      construct executable frame bits heap m = some (space, m') →
        Loaded executable (header executable frame m) space m' 1008 := by
  intro always
  have read : header gappedFile (fun _ => 0) (onePage 0 fun _ => 0) =
      ⟨noffMagicNumber, ⟨0, 40, 4⟩, ⟨4096, 44, 4⟩, ⟨0, 0, 0⟩⟩ := by decide +kernel
  obtain ⟨result, constructed⟩ : ∃ result, construct gappedFile (fun _ => 0) (fun _ => 0)
      (fun _ => none) (onePage 0 fun _ => 0) = some result := by
    unfold construct
    rw [read]
    exact ⟨_, if_pos (by decide)⟩
  have pages := (construct_eq_some constructed).2.1
  have loaded := always _ _ _ _ _ result.2 result.1 rfl constructed
  rw [read] at loaded pages
  have written := (loaded.inside (fun _ => 255) 4096 (by decide +kernel)).2
  rw [pages] at written
  exact absurd written (by decide)

end Nachos
