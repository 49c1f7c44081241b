/-
Module: Nachos.UserProg.Loading
Purpose: From an object file to a running program: coff2noff.c writes the NOFF
  file, AddrSpace loads it, and translate.cc gives the program its memory.  What
  the program finds at its addresses are the sections of the COFF file, and
  zeros everywhere else.
Trusted boundary: none
Main exports: Executable.Reads, reads_ofContent, reads_executable,
  header_of_constructed, InputFile.Image, image_of_construct,
  program_runs_on_its_sections
-/
import Nachos.FileSys.Transfers
import Nachos.Machine.Bytes
import Nachos.UserProg.Conversions

namespace Nachos

open Lib

/-! ### Files that deliver their bytes -/

/-- What is read of the file inside its length is what it contains. -/
def Executable.Reads (executable : Executable) (bytes : List UInt8) : Prop :=
  ∀ (into : Memory) (place numBytes position i : Int), 0 ≤ position →
    position + numBytes ≤ bytes.length → place ≤ i → i < place + numBytes →
      bytes[(position + (i - place)).toNat]? =
        some (executable.readAt into place numBytes position i)

theorem ofList_getElem? (bytes : List UInt8) {i : Int} (low : 0 ≤ i)
    (high : i < bytes.length) : bytes[i.toNat]? = some (Memory.ofList bytes i) := by
  obtain ⟨n, rfl⟩ := Int.eq_ofNat_of_zero_le low
  have inside : n < bytes.length := by omega
  rw [Memory.ofList_eq_getElem bytes inside, Int.toNat_natCast]
  exact List.getElem?_eq_getElem inside

theorem Executable.reads_ofContent (bytes : List UInt8) :
    (Executable.ofContent (Memory.ofList bytes)).Reads bytes := by
  intro into place numBytes position i low high first last
  have copied : (Executable.ofContent (Memory.ofList bytes)).readAt into place numBytes
      position i = Memory.ofList bytes (position + (i - place)) :=
    Memory.copy_inside (Memory.ofList bytes) into first last
  rw [copied]
  exact ofList_getElem? bytes (by omega) (by omega)

/-- A sound file of the simulated disk. -/
theorem OpenFile.reads_executable {file : OpenFile} (granted : file.hdr.Granted)
    (sound : file.hdr.Sound) {disk : Disk} {bytes : List UInt8}
    (length : (bytes.length : Int) = file.hdr.numBytes)
    (content : ∀ i : Nat, i < bytes.length → bytes[i]? = some (file.hdr.content disk i)) :
    (file.executable granted disk).Reads bytes := by
  intro into place numBytes position i low high first last
  have small := sound.numBytes_le
  simp only [maxFileSize] at small
  have read : file.readAt disk into place numBytes position =
      (min numBytes (file.hdr.numBytes - position), Memory.copy (file.hdr.content disk) position
        into place (min numBytes (file.hdr.numBytes - position))) :=
    readAt_eq sound into place low (by omega) (by omega) (by omega)
  rw [Int.min_eq_left (by omega)] at read
  have delivered : (file.executable granted disk).readAt into place numBytes position i =
      Memory.copy (file.hdr.content disk) position into place numBytes i := by
    change (file.readAt disk into place numBytes position).2 i = _
    rw [read]
  rw [delivered, Memory.copy_inside _ _ first last]
  obtain ⟨n, same⟩ := Int.eq_ofNat_of_zero_le (show 0 ≤ position + (i - place) by omega)
  rw [same, Int.toNat_natCast]
  exact content n (by omega)

/-! ### The header that is read is the one that was written -/

section

variable {F : InputFile} {bigEndian : Bool} {frame : NoffHeader} {noff : NoffFile}
  {executable : Executable} {stack : Memory} {m m' : Processor}

/-- A host of the kind that has written the file. -/
theorem ofMemory_of_reads (converted : F.convert bigEndian frame = some noff)
    (reads : executable.Reads noff.bytes) (same : m.hostIsBigEndian = bigEndian) :
    NoffHeader.ofMemory m (executable.readAt stack 0 noffHeaderSize 0) = noff.header := by
  obtain ⟨c, -, header, bytes⟩ := convert_eq_some converted
  have length := length_toBytes bigEndian c.noffH
  apply ofMemory_toBytes
  intro i inside
  have read := reads stack 0 noffHeaderSize 0 i (Int.le_refl 0)
    (by rw [bytes, List.length_append, length]; simp only [noffHeaderSize]; omega) (by omega)
    (by simp only [noffHeaderSize]; omega)
  rw [Int.zero_add, Int.sub_zero, Int.toNat_natCast, bytes,
    List.getElem?_append_left (by rw [length]; exact inside)] at read
  rw [same, header]
  exact read

theorem magic_of_convert (converted : F.convert bigEndian frame = some noff) :
    noff.header.noffMagic = noffMagicNumber := by
  obtain ⟨c, run, header, -⟩ := convert_eq_some converted
  rw [header]
  exact (noted_of_exec run).magic

theorem swapWord_magic : Processor.swapWord noffMagicNumber ≠ noffMagicNumber := by
  decide

theorem wordToHost_big (big : m.hostIsBigEndian = true) (word : BitVec 32) :
    m.wordToHost word = Processor.swapWord word :=
  if_pos big

theorem wordToHost_little (little : m.hostIsBigEndian = false) (word : BitVec 32) :
    m.wordToHost word = word :=
  if_neg (by rw [little]; decide)

/-- Any host finds what a little-endian one finds, with its words in the order
of the host. -/
theorem ofMemory_eq_swapHeader (m : Processor) (buffer : Memory) :
    NoffHeader.ofMemory m buffer =
      (NoffHeader.ofMemory { m with hostIsBigEndian := false } buffer).swapHeader m := by
  have little (word : BitVec 32) :
      ({ m with hostIsBigEndian := false } : Processor).wordToHost word = word :=
    wordToHost_little rfl word
  simp only [NoffHeader.ofMemory, Segment.ofMemory, NoffHeader.swapHeader, Segment.swap, little]

theorem swapHeader_swapHeader (big : m.hostIsBigEndian = true) (noffH : NoffHeader) :
    (noffH.swapHeader m).swapHeader m = noffH := by
  simp only [NoffHeader.swapHeader, Segment.swap, wordToHost_big big, swapWord_swapWord]

/-- Whatever host has converted the file, a constructor that does not abort has
the header that the converter has written: a big-endian host swaps the header of
a little-endian one back, and a little-endian host does not accept the header of
a big-endian one. -/
theorem header_of_constructed (converted : F.convert bigEndian frame = some noff)
    (reads : executable.Reads noff.bytes)
    (accepted : (AddrSpace.header executable stack m).noffMagic = noffMagicNumber) :
    AddrSpace.header executable stack m = noff.header := by
  have magic := magic_of_convert converted
  by_cases same : m.hostIsBigEndian = bigEndian
  · have read : NoffHeader.ofMemory m (executable.readAt stack 0 noffHeaderSize 0) = noff.header :=
      ofMemory_of_reads converted reads same
    unfold AddrSpace.header
    rw [read, if_neg (fun swapped => swapped.1 magic)]
  · have read : NoffHeader.ofMemory { m with hostIsBigEndian := bigEndian }
        (executable.readAt stack 0 noffHeaderSize 0) = noff.header :=
      ofMemory_of_reads converted reads rfl
    cases big : m.hostIsBigEndian with
    | true =>
        obtain rfl : bigEndian = false := by simpa [big] using same
        have found := ofMemory_eq_swapHeader m (executable.readAt stack 0 noffHeaderSize 0)
        rw [read] at found
        have foundMagic : (noff.header.swapHeader m).noffMagic =
            Processor.swapWord noffMagicNumber := by
          rw [NoffHeader.swapHeader, magic, wordToHost_big big]
        unfold AddrSpace.header
        rw [found, if_pos, swapHeader_swapHeader big]
        rw [foundMagic, wordToHost_big big, swapWord_swapWord]
        exact ⟨swapWord_magic, rfl⟩
    | false =>
        obtain rfl : bigEndian = true := by simpa [big] using same
        have found := ofMemory_eq_swapHeader { m with hostIsBigEndian := true }
          (executable.readAt stack 0 noffHeaderSize 0)
        have little : ({ m with hostIsBigEndian := false } : Processor) = m := by
          rw [← big]
        rw [read] at found
        simp only [little] at found
        -- the magic number is found the other way round, and it is not swapped
        have foundMagic : noffMagicNumber = Processor.swapWord
            (NoffHeader.ofMemory m
              (executable.readAt stack 0 noffHeaderSize 0)).noffMagic := by
          have both := congrArg NoffHeader.noffMagic found
          rw [magic, NoffHeader.swapHeader, wordToHost_big rfl] at both
          exact both
        have unswapped : ¬ (NoffHeader.ofMemory m
            (executable.readAt stack 0 noffHeaderSize 0)).noffMagic = noffMagicNumber := by
          intro right
          rw [right] at foundMagic
          exact swapWord_magic foundMagic.symm
        unfold AddrSpace.header at accepted
        dsimp only at accepted
        rw [wordToHost_little big, if_neg (fun swapped => unswapped swapped.2)] at accepted
        exact absurd accepted unswapped

/-! ### The image -/

/-- What a program is to find at the addresses below `size`: its sections of
code and of initialised data, and zeros everywhere else. -/
structure InputFile.Image (F : InputFile) (size : Nat) (image : Memory) : Prop where
  sections : ∀ s ∈ F.sections, s.kind = .text ∨ s.kind = .data →
    ∀ k : Nat, k < s.sSize.toNat → s.sPaddr.toNat + k < size ∧
      F.bytes[s.sScnptr.toNat + k]? = some (image (s.sPaddr.toNat + k))
  zero : ∀ a : Nat, a < size →
    (∀ s ∈ F.sections, s.kind = .text ∨ s.kind = .data → ¬ s.Covers a) → image a = 0

/-- No address belongs both to the code and to the initialised data. -/
def InputFile.Apart (F : InputFile) : Prop :=
  ∀ t ∈ ofKind .text F.sections, ∀ d ∈ ofKind .data F.sections, ∀ a : Nat,
    ¬ (t.Covers a ∧ d.Covers a)

/-- A section that has been placed is copied to its address. -/
theorem copyIn_placed {noffH : NoffHeader} {written : List UInt8} {segment : Segment}
    {t : ScnHdr} (reads : executable.Reads (noffH.toBytes bigEndian ++ written))
    (small : noffHeaderSize + written.length < 2 ^ 31) (placed : Placed F written segment t)
    (regular : t.Regular) (size : segment.size = t.sSize) (mainMemory : Memory) {k : Nat}
    (inside : k < t.sSize.toNat) :
    F.bytes[t.sScnptr.toNat + k]? =
      some (segment.copyIn executable mainMemory (segment.virtualAddr.toInt + k)) := by
  obtain ⟨byte, read, here⟩ := placed.bytes k inside
  have low := placed.low
  have high := placed.high
  have natural := BitVec.toInt_eq_toNat_of_msb (x := t.sSize)
    (by rw [BitVec.msb_eq_toInt]; simpa using regular.1)
  simp only [noffHeaderSize] at low high small here
  have offset : segment.inFileAddr.toInt = segment.inFileAddr.toNat :=
    BitVec.toInt_eq_toNat_of_lt (by omega)
  have delivered := reads mainMemory segment.virtualAddr.toInt segment.size.toInt
    segment.inFileAddr.toInt (segment.virtualAddr.toInt + k) (by omega)
    (by rw [List.length_append, length_toBytes, size]; omega) (by omega)
    (by rw [size]; omega)
  rw [show (segment.inFileAddr.toInt + (segment.virtualAddr.toInt + k -
    segment.virtualAddr.toInt)).toNat = segment.inFileAddr.toNat + k by omega,
    behind_header (by omega),
    show segment.inFileAddr.toNat + k - 40 = segment.inFileAddr.toNat - (40 : Int).toNat + k
      by omega, here] at delivered
  have positive : 0 < segment.size.toInt := by
    rw [size]
    omega
  rw [Segment.copyIn, if_pos positive, read, delivered]

/-- What is copied into main memory lies in the pages of the program. -/
def NoffHeader.InPages (noffH : NoffHeader) : Prop :=
  ∀ segment ∈ [noffH.code, noffH.initData], 0 < segment.size.toInt →
    0 ≤ segment.virtualAddr.toInt ∧
      segment.virtualAddr.toInt + segment.size.toInt ≤ noffH.numPages.toNat * pageSize

/-- Where a segment is that lies in the pages. -/
theorem NoffHeader.InPages.addr_eq {noffH : NoffHeader} (inPages : noffH.InPages)
    {segment : Segment} (member : segment ∈ [noffH.code, noffH.initData])
    (positive : 0 < segment.size.toInt) :
    segment.virtualAddr.toInt = segment.virtualAddr.toNat ∧
      segment.virtualAddr.toNat + segment.size.toInt ≤ noffH.numPages.toNat * pageSize := by
  obtain ⟨low, high⟩ := inPages segment member positive
  have natural : segment.virtualAddr.toInt = segment.virtualAddr.toNat :=
    BitVec.toInt_eq_toNat_of_msb (by rw [BitVec.msb_eq_toInt]; simpa using low)
  exact ⟨natural, natural ▸ high⟩

/-- Nothing is copied to an address that no section of the kind covers. -/
theorem copyIn_uncovered {segment : Segment} {sections : List ScnHdr} {a : Nat}
    (of : segment.Of sections)
    (natural : 0 < segment.size.toInt → segment.virtualAddr.toInt = segment.virtualAddr.toNat)
    (uncovered : ∀ s ∈ sections, ¬ s.Covers a) (mainMemory : Memory) :
    segment.copyIn executable mainMemory a = mainMemory a := by
  apply AddrSpace.copyIn_outside
  intro positive
  have some : segment.size ≠ 0 := by
    intro zero
    rw [zero] at positive
    exact absurd positive (by decide)
  obtain ⟨t, member, addr, size⟩ := of some
  have outside := uncovered t member
  have most : t.sSize.toInt ≤ t.sSize.toNat := by
    rw [BitVec.toInt_eq_toNat_cond]
    split <;> omega
  rw [natural positive, addr, size]
  simp only [ScnHdr.Covers, not_and, Nat.not_lt] at outside
  omega

/-- The bytes of a section that is copied, at its address. -/
theorem copyIn_section {noffH : NoffHeader} {written : List UInt8} {segment : Segment}
    {s t : ScnHdr} (reads : executable.Reads (noffH.toBytes bigEndian ++ written))
    (small : noffHeaderSize + written.length < 2 ^ 31) (placed : Placed F written segment t)
    (regular : t.Regular) (addr : segment.virtualAddr = t.sPaddr)
    (size : segment.size = t.sSize) (inPages : noffH.InPages)
    (member : segment ∈ [noffH.code, noffH.initData]) (repeats : s.Repeats F t)
    (mainMemory : Memory) {k : Nat} (inside : k < s.sSize.toNat) :
    s.sPaddr.toNat + k < noffH.numPages.toNat * pageSize ∧
      F.bytes[s.sScnptr.toNat + k]? =
        some (segment.copyIn executable mainMemory (s.sPaddr.toNat + k)) := by
  obtain ⟨sameAddr, shorter, sameBytes⟩ := repeats
  have natural := BitVec.toInt_eq_toNat_of_msb (x := t.sSize)
    (by rw [BitVec.msb_eq_toInt]; simpa using regular.1)
  obtain ⟨place, high⟩ := inPages.addr_eq member (by rw [size]; omega)
  have copied := copyIn_placed reads small placed regular size mainMemory
    (show k < t.sSize.toNat by omega)
  rw [place, addr, ← sameAddr, ← sameBytes k inside] at copied
  rw [addr, size, ← sameAddr] at high
  exact ⟨by omega, copied⟩

theorem accepted_of_construct {bits : Int → BitVec 32} {heap : Int → Option OpenFile}
    {space : AddrSpace}
    (constructed : AddrSpace.construct executable stack bits heap m = some (space, m')) :
    (AddrSpace.header executable stack m).noffMagic = noffMagicNumber := by
  unfold AddrSpace.construct at constructed
  dsimp only at constructed
  split at constructed
  · rename_i checked
    exact checked.1
  · cases constructed

/-- Main memory after the constructor. -/
theorem image_of_construct {bits : Int → BitVec 32} {heap : Int → Option OpenFile}
    {space : AddrSpace} (converted : F.convert bigEndian frame = some noff)
    (reads : executable.Reads noff.bytes) (faithful : F.Faithful) (apart : F.Apart)
    (inPages : noff.header.InPages)
    (constructed : AddrSpace.construct executable stack bits heap m = some (space, m')) :
    F.Image (space.numPages.toNat * pageSize) m'.mainMemory := by
  have sameHeader := header_of_constructed converted reads (accepted_of_construct constructed)
  obtain ⟨most, pages, -, rfl⟩ := AddrSpace.construct_eq_some constructed
  have describes := describes_of_faithful converted faithful
  have code := describes.code
  have initData := describes.initData
  obtain ⟨c, run, header, bytes⟩ := convert_eq_some converted
  have noted := noted_of_exec run
  have laid := laid_of_exec run faithful.regular
  rw [sameHeader] at most pages ⊢
  rw [bytes] at reads
  rw [header] at inPages most pages code initData ⊢
  rw [pages]
  have codeMember : c.noffH.code ∈ [c.noffH.code, c.noffH.initData] := List.mem_cons_self
  have dataMember : c.noffH.initData ∈ [c.noffH.code, c.noffH.initData] :=
    List.mem_cons_of_mem _ List.mem_cons_self
  have noCode (a : Nat) (mainMemory : Memory)
      (uncovered : ∀ s ∈ ofKind .text F.sections, ¬ s.Covers a) :
      c.noffH.code.copyIn executable mainMemory a = mainMemory a :=
    copyIn_uncovered code (fun positive => (inPages.addr_eq codeMember positive).1)
      uncovered mainMemory
  have noData (a : Nat) (mainMemory : Memory)
      (uncovered : ∀ s ∈ ofKind .data F.sections, ¬ s.Covers a) :
      c.noffH.initData.copyIn executable mainMemory a = mainMemory a :=
    copyIn_uncovered initData (fun positive => (inPages.addr_eq dataMember positive).1)
      uncovered mainMemory
  constructor
  · intro s member kinds k inside
    rcases kinds with kind | kind
    · have here := mem_ofKind.mpr ⟨member, kind⟩
      obtain ⟨t, last⟩ : ∃ t, (ofKind .text F.sections).getLast? = some t := by
        apply Option.isSome_iff_exists.mp
        exact List.getLast?_isSome.mpr (List.ne_nil_of_mem here)
      obtain ⟨addr, size⟩ := noted.code t last
      have inText := List.mem_of_getLast? last
      have regular := faithful.regular t (mem_ofKind.mp inText).1 (.inl (mem_ofKind.mp inText).2)
      have copied (mainMemory : Memory) := copyIn_section reads laid.small (laid.code t last)
        regular addr size inPages codeMember (faithful.text t last s here) mainMemory inside
      -- the data are copied in later, but to other addresses
      have later (mainMemory : Memory) := noData (s.sPaddr.toNat + k) mainMemory
        (fun d isData covers => apart s here d isData (s.sPaddr.toNat + k)
          ⟨⟨by omega, by omega⟩, covers⟩)
      simp only [Nat.cast_add] at later
      refine ⟨(copied fun _ => 0).1, ?_⟩
      rw [(copied _).2]
      exact congrArg some (later _).symm
    · have here := mem_ofKind.mpr ⟨member, kind⟩
      obtain ⟨-, addr, size⟩ := noted.data s here
      exact copyIn_section reads laid.small (laid.data s here)
        (faithful.regular s member (.inr kind)) addr size inPages dataMember (.refl F s) _ inside
  · intro a low uncovered
    have data (mainMemory : Memory) := noData a mainMemory fun d isData =>
      uncovered d (mem_ofKind.mp isData).1 (.inr (mem_ofKind.mp isData).2)
    have code (mainMemory : Memory) := noCode a mainMemory fun t isText =>
      uncovered t (mem_ofKind.mp isText).1 (.inl (mem_ofKind.mp isText).2)
    have zeroed : Memory.copy (fun _ => 0) 0 m.mainMemory 0 (c.noffH.numPages * 128).toNat a =
        0 := by
      apply Memory.copy_inside
      · omega
      · rw [BitVec.toNat_mul, show (128 : BitVec 32).toNat = 128 from rfl]
        simp only [pageSize] at low
        omega
    exact (data _).trans ((code _).trans zeroed)

end

/-! ### The program at its addresses -/

/-- The pages of a program: each is valid, may be written, and is in the frame of
its own number. -/
structure IdentityMapped (numPages : Nat) (m : Processor) : Prop where
  noTlb : m.tlb = none
  few : numPages ≤ numPhysPages
  table : ∃ pageTable, m.pageTable = some pageTable ∧ pageTable.length = numPages ∧
    ∀ (i : Nat) (entry : TranslationEntry), pageTable[i]? = some entry →
      entry.valid = true ∧ entry.readOnly = false ∧ entry.physicalPage.toNat = i

/-- Where the addresses of the program are. -/
def identityPlace (numPages virtAddr : Nat) : Option Nat :=
  if virtAddr < numPages * pageSize then some virtAddr else none

namespace IdentityMapped

variable {numPages : Nat} {m : Processor}

theorem place_eq (mapped : IdentityMapped numPages m) :
    m.place = identityPlace numPages := by
  obtain ⟨pageTable, table, length, entries⟩ := mapped.table
  have few := mapped.few
  funext a
  simp only [Processor.place, mapped.noTlb, table, identityPlace, pageSize, numPhysPages] at *
  split
  · rename_i inside
    have page : a / 128 < pageTable.length := by omega
    have here := List.getElem?_eq_getElem page
    obtain ⟨valid, -, frame⟩ := entries _ _ here
    rw [here, Option.bind_some, if_pos ⟨valid, by omega⟩, frame]
    congr 1
    omega
  · rename_i outside
    rw [List.getElem?_eq_none (by omega)]
    rfl

/-- An aligned access inside the pages is translated to the same address, and
only bits of the page table change. -/
theorem translate (mapped : IdentityMapped numPages m) {virtAddr : BitVec 32} {size : Nat}
    (known : Processor.AccessSize size) (aligned : ¬ Processor.misaligned virtAddr size)
    (inside : virtAddr.toNat < numPages * pageSize) (writing : Bool) :
    ∃ m', m.translate virtAddr size writing = some (.ok (virtAddr.toNat, m')) ∧
      IdentityMapped numPages m' := by
  have offset := Processor.offset_add_le known aligned
  obtain ⟨pageTable, table, length, entries⟩ := mapped.table
  have few := mapped.few
  simp only [pageSize, numPhysPages] at *
  have page : virtAddr.toNat / 128 < pageTable.length := by omega
  have here := List.getElem?_eq_getElem page
  obtain ⟨valid, writable, frame⟩ := entries _ _ here
  unfold Processor.translate
  simp only [if_neg aligned, mapped.noTlb, table, pageSize, here, valid, ↓reduceIte,
    Processor.translateBy, frame, writable, Bool.false_eq_true, false_and, numPhysPages,
    memorySize]
  rw [if_neg (by omega), if_pos (by omega), Nat.div_add_mod']
  refine ⟨_, rfl, rfl, few, _, rfl, by rw [List.length_set, length], ?_⟩
  intro i entry found
  rw [List.getElem?_set] at found
  split at found
  · rename_i same
    subst same
    cases found
    exact ⟨rfl, rfl, frame⟩
  · exact entries i entry found

end IdentityMapped

/-- The machine as the loaded program finds it. -/
theorem identityMapped_restoreState {space : AddrSpace} {m : Processor} (noTLB : m.tlb = none)
    (table : space.pageTable = AddrSpace.identityTable space.numPages)
    (most : space.numPages.toNat ≤ 32) :
    IdentityMapped space.numPages.toNat (space.initRegisters (space.restoreState m)) := by
  refine ⟨noTLB, most, space.pageTable, rfl, ?_, ?_⟩
  · rw [table]
    simp [AddrSpace.identityTable]
  · intro i entry found
    rw [table, AddrSpace.identityTable_entry] at found
    split at found
    · cases found
      refine ⟨rfl, rfl, ?_⟩
      rw [BitVec.toNat_ofNat]
      omega
    · cases found

def MemoryCall.addr : MemoryCall → BitVec 32
  | .read addr _ => addr
  | .write addr _ _ => addr

/-- The call that has succeeded. -/
def MemoryEvent.call : MemoryEvent → MemoryCall
  | .read addr size _ => .read addr size
  | .write addr size value => .write addr size value

/-- An aligned call for an address below `size`. -/
structure MemoryCall.Within (size : Nat) (call : MemoryCall) : Prop where
  known : Processor.AccessSize call.size
  aligned : ¬ Processor.misaligned call.addr call.size
  inside : call.addr.toNat < size

section

variable {handler : Handler} {numPages : Nat} {s : Simulation} {bytes : Memory}

theorem identityPlace_injective {a b q : Nat} (first : identityPlace numPages a = some q)
    (second : identityPlace numPages b = some q) : a = b := by
  unfold identityPlace at first second
  split at first
  · split at second
    · rw [Option.some.inj first, Option.some.inj second]
    · cases second
  · cases first

/-- A call within the pages succeeds, and the machine goes on to show the array
of bytes that the call leaves. -/
theorem perform_within (mapped : IdentityMapped numPages s.toProcessor)
    (shows : Shows (identityPlace numPages) s.toProcessor bytes) {call : MemoryCall}
    (within : call.Within (numPages * pageSize)) :
    ∃ event s' bytes', call.perform handler s = .returns (some event) s' ∧ event.call = call ∧
      IdentityMapped numPages s'.toProcessor ∧ byteArray.step bytes event = some bytes' ∧
      Shows (identityPlace numPages) s'.toProcessor bytes' := by
  obtain ⟨known, aligned, inside⟩ := within
  cases call with
  | read addr size =>
      simp only [MemoryCall.size, MemoryCall.addr] at known aligned inside
      obtain ⟨m, translated, still⟩ := mapped.translate known aligned inside false
      obtain ⟨value, read⟩ : ∃ value, s.readMem handler addr size =
          .returns (some value) { s with toProcessor := m.stamp addr.toNat } := by
        unfold Simulation.readMem
        rw [translated]
        rcases known with rfl | rfl | rfl
        · exact ⟨_, rfl⟩
        · exact ⟨_, rfl⟩
        · exact ⟨_, rfl⟩
      have performed : (MemoryCall.read addr size).perform handler s =
          .returns (some (.read addr size value))
            { s with toProcessor := m.stamp addr.toNat } := by
        rw [MemoryCall.perform, read]
        rfl
      obtain ⟨physAddr, located, bytesRead⟩ :=
        Simulation.readMem_succeeds known shows.noTlb read
      cases shows.read located bytesRead with
      | succeeds step shows =>
          exact ⟨_, _, _, performed, rfl, ⟨still.noTlb, still.few, still.table⟩, step, shows⟩
  | write addr size value =>
      simp only [MemoryCall.size, MemoryCall.addr] at known aligned inside
      obtain ⟨m, translated, still⟩ := mapped.translate known aligned inside true
      obtain ⟨mainMemory, wrote⟩ : ∃ mainMemory, s.writeMem handler addr size value =
          .returns (some ()) { s with
            toProcessor := { m with mainMemory := mainMemory }.stamp addr.toNat } := by
        unfold Simulation.writeMem
        rw [translated]
        rcases known with rfl | rfl | rfl
        · exact ⟨_, rfl⟩
        · exact ⟨_, rfl⟩
        · exact ⟨_, rfl⟩
      have performed : (MemoryCall.write addr size value).perform handler s =
          .returns (some (.write addr size value)) { s with
            toProcessor := { m with mainMemory := mainMemory }.stamp addr.toNat } := by
        rw [MemoryCall.perform, wrote]
        rfl
      obtain ⟨physAddr, stored⟩ := Simulation.writeMem_succeeds known shows.noTlb wrote
      cases shows.wrote (fun a b q => identityPlace_injective) stored with
      | succeeds step shows =>
          exact ⟨_, _, _, performed, rfl, ⟨still.noTlb, still.few, still.table⟩, step, shows⟩

/-- Any number of calls within the pages. -/
theorem performAll_within (mapped : IdentityMapped numPages s.toProcessor)
    (shows : Shows (identityPlace numPages) s.toProcessor bytes) (calls : List MemoryCall)
    (within : ∀ call ∈ calls, call.Within (numPages * pageSize)) :
    (performAll handler calls s).1.map MemoryEvent.call = calls ∧
      ∃ bytes', byteArray.exec bytes (performAll handler calls s).1 = some bytes' := by
  induction calls generalizing s bytes with
  | nil => exact ⟨rfl, bytes, rfl⟩
  | cons call calls inductionHypothesis =>
      obtain ⟨event, s', bytes', performed, same, mapped, step, shows⟩ :=
        perform_within mapped shows (within call List.mem_cons_self)
      obtain ⟨answered, last, run⟩ := inductionHypothesis mapped shows
        fun call member => within call (List.mem_cons_of_mem _ member)
      rw [performAll, performed]
      refine ⟨?_, last, (Lib.Machine.exec_cons_eq_some byteArray).mpr ⟨bytes', step, run⟩⟩
      rw [List.map_cons, same, answered]

end

/-- An object file that the converter has made into a NOFF file, and that the
constructor of `AddrSpace` has loaded, on hosts of whatever kinds: every aligned
access of the program below the end of its address space succeeds, and the
accesses are answered as by an array of bytes that holds the sections of code
and of data at their addresses and zeros everywhere else. -/
theorem program_runs_on_its_sections {F : InputFile} {bigEndian : Bool} {frame : NoffHeader}
    {noff : NoffFile} {executable : Executable} {stack : Memory} {m m' : Processor}
    {bits : Int → BitVec 32} {heap : Int → Option OpenFile} {space : AddrSpace}
    (converted : F.convert bigEndian frame = some noff)
    (reads : executable.Reads noff.bytes) (faithful : F.Faithful) (apart : F.Apart)
    (inPages : noff.header.InPages) (noTLB : m.tlb = none)
    (constructed : AddrSpace.construct executable stack bits heap m = some (space, m')) :
    ∃ image, F.Image (space.numPages.toNat * pageSize) image ∧
      ∀ (handler : Handler) (s : Simulation),
        s.toProcessor = space.initRegisters (space.restoreState m') →
        ∀ calls : List MemoryCall,
          (∀ call ∈ calls, call.Within (space.numPages.toNat * pageSize)) →
          (performAll handler calls s).1.map MemoryEvent.call = calls ∧
            ∃ image', byteArray.exec image (performAll handler calls s).1 = some image' := by
  refine ⟨m'.mainMemory,
    image_of_construct converted reads faithful apart inPages constructed, ?_⟩
  intro handler s started calls within
  obtain ⟨most, pages, table, rfl⟩ := AddrSpace.construct_eq_some constructed
  rw [← pages] at most table
  have mapped : IdentityMapped space.numPages.toNat s.toProcessor := by
    rw [started]
    exact identityMapped_restoreState noTLB table most
  refine performAll_within mapped ⟨mapped.noTlb, mapped.place_eq, ?_⟩ calls within
  intro a q here
  unfold identityPlace at here
  split at here
  · cases here
    rw [started]
    rfl
  · cases here

/-- Eight bytes of code, four of data behind them and 16 of .bss. -/
def linkedSections : List ScnHdr :=
  [⟨[0x2e, 0x74, 0x65, 0x78, 0x74, 0, 0, 0], 0, 8, 196⟩,
    ⟨[0x2e, 0x64, 0x61, 0x74, 0x61, 0, 0, 0], 8, 4, 204⟩,
    ⟨[0x2e, 0x62, 0x73, 0x73, 0, 0, 0, 0], 12, 16, 0⟩]

def linkedFile : InputFile where
  bytes := coffBytes linkedSections [1, 2, 3, 4, 5, 6, 7, 8, 9, 10, 11, 12]
  small := by decide +kernel

theorem sections_linkedFile : linkedFile.sections = linkedSections := by
  decide +kernel

theorem faithful_linkedFile : linkedFile.Faithful := by
  have texts : ofKind .text linkedSections =
      [⟨[0x2e, 0x74, 0x65, 0x78, 0x74, 0, 0, 0], 0, 8, 196⟩] := by decide
  refine ⟨?_, ?_, ?_⟩
  · rw [sections_linkedFile]
    decide
  · rw [sections_linkedFile, texts]
    intro t last s member
    obtain rfl := List.mem_singleton.mp member
    cases last
    exact .refl _ _
  · rw [sections_linkedFile]
    exact .inl (by decide)

theorem apart_linkedFile : linkedFile.Apart := by
  have texts : ofKind .text linkedSections =
      [⟨[0x2e, 0x74, 0x65, 0x78, 0x74, 0, 0, 0], 0, 8, 196⟩] := by decide
  have datas : ofKind .data linkedSections =
      [⟨[0x2e, 0x64, 0x61, 0x74, 0x61, 0, 0, 0], 8, 4, 204⟩] := by decide
  intro t isText d isData a
  rw [sections_linkedFile, texts, List.mem_singleton] at isText
  rw [sections_linkedFile, datas, List.mem_singleton] at isData
  subst isText isData
  simp only [ScnHdr.Covers, BitVec.ofNat_eq_ofNat, BitVec.reduceToNat]
  omega

/-- Converted on a little-endian host and loaded on a big-endian one. -/
theorem program_runs_on_its_sections_linkedFile :
    ∃ noff space m', linkedFile.convert false noHeader = some noff ∧
      AddrSpace.construct (.ofContent (Memory.ofList noff.bytes)) (fun _ => 0) (fun _ => 0)
        (fun _ => none) { onePage 0 fun _ => 0 with hostIsBigEndian := true } =
          some (space, m') ∧
      ∃ image, linkedFile.Image (space.numPages.toNat * pageSize) image ∧
        ∀ (handler : Handler) (s : Simulation),
          s.toProcessor = space.initRegisters (space.restoreState m') →
          ∀ calls : List MemoryCall,
            (∀ call ∈ calls, call.Within (space.numPages.toNat * pageSize)) →
            (performAll handler calls s).1.map MemoryEvent.call = calls ∧
              ∃ image', byteArray.exec image (performAll handler calls s).1 = some image' := by
  have accepted : ((linkedFile.convert false noHeader).bind fun noff =>
      AddrSpace.construct (.ofContent (Memory.ofList noff.bytes)) (fun _ => 0) (fun _ => 0)
        (fun _ => none) { onePage 0 fun _ => 0 with hostIsBigEndian := true }).isSome := by
    decide +kernel
  obtain ⟨result, accepted⟩ := Option.isSome_iff_exists.mp accepted
  obtain ⟨noff, converted, constructed⟩ := Option.bind_eq_some_iff.mp accepted
  have headers : (linkedFile.convert false noHeader).map NoffFile.header =
      some ⟨noffMagicNumber, ⟨0, 40, 8⟩, ⟨8, 48, 4⟩, ⟨12, 0, 16⟩⟩ := by decide +kernel
  have header : noff.header = ⟨noffMagicNumber, ⟨0, 40, 8⟩, ⟨8, 48, 4⟩, ⟨12, 0, 16⟩⟩ := by
    rw [converted] at headers
    exact Option.some.inj headers
  have inPages : noff.header.InPages := by
    rw [header]
    intro segment member
    simp only [List.mem_cons, List.not_mem_nil, or_false] at member
    rcases member with rfl | rfl
    · decide
    · decide
  exact ⟨noff, result.1, result.2, converted, constructed,
    program_runs_on_its_sections converted (Executable.reads_ofContent _) faithful_linkedFile
      apart_linkedFile inPages rfl constructed⟩

end Nachos
