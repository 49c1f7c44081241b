/-
Module: Nachos.UserProg.Coff
Purpose: The converter of coff2noff.c from MIPS object files in the COFF format
  to the NOFF format that `AddrSpace` loads, and what a NOFF file has to say
  about the sections of the COFF file.
Trusted boundary: a `long` has 32 bits, as in the files; a file has less than
  2^31 bytes, and the disk has room for the output up to that length; memory for
  a section is there.
Main exports: InputFile, ScnHdr, SectionKind, Conversion, Conversion.step,
  sectionLoop, InputFile.convert, NoffFile, NoffFile.Describes
-/
import Nachos.Lib.Transition
import Nachos.UserProg.AddrSpace

namespace Nachos

open Lib

/-! ### COFF files -/

/-- The file to be converted; `lseek` reaches every place in it. -/
structure InputFile where
  bytes : List UInt8
  small : bytes.length < 2 ^ 31

/-- `struct scnhdr` of coff.h as far as it is used. -/
structure ScnHdr where
  sName : List UInt8
  sPaddr : BitVec 32
  sSize : BitVec 32
  sScnptr : BitVec 32
deriving DecidableEq

/-- `MIPSELMAGIC` and `OMAGIC` of coff.h. -/
abbrev mipselMagic : Nat := 0x0162

abbrev oMagic : Nat := 0x0107

/-- The sizes of `struct filehdr`, `struct aouthdr` and `struct scnhdr`. -/
abbrev fileHdrSize : Nat := 20

abbrev aoutHdrSize : Nat := 56

abbrev scnHdrSize : Nat := 40

/-- The short word at an offset; `ShortToHost` makes it the same number on every
host. -/
def getShort (m : Memory) (offset : Int) : Nat :=
  (m offset).toNat + 256 * (m (offset + 1)).toNat

/-- What the loop over the section headers does with a section. -/
inductive SectionKind where
  | empty
  | text
  | data
  | bss
  | unknown
deriving DecidableEq

namespace ScnHdr

/-- The section header at an offset. -/
def ofMemory (m : Memory) (offset : Int) : ScnHdr where
  sName := (m.drop offset).toList 8
  sPaddr := m.getWord (offset + 8)
  sSize := m.getWord (offset + 16)
  sScnptr := m.getWord (offset + 20)

/-- The name as `strcmp` sees it.  A name of eight letters goes on behind the
array, but has already been found to be none of the known ones. -/
def name (s : ScnHdr) : List UInt8 :=
  s.sName.takeWhile (· ≠ 0)

/-- ".text", ".data", ".rdata", ".bss" and ".sbss". -/
def textName : List UInt8 := [0x2e, 0x74, 0x65, 0x78, 0x74]

def dataName : List UInt8 := [0x2e, 0x64, 0x61, 0x74, 0x61]

def rdataName : List UInt8 := [0x2e, 0x72, 0x64, 0x61, 0x74, 0x61]

def bssName : List UInt8 := [0x2e, 0x62, 0x73, 0x73]

def sbssName : List UInt8 := [0x2e, 0x73, 0x62, 0x73, 0x73]

def kind (s : ScnHdr) : SectionKind :=
  if s.sSize = 0 then .empty
  else if s.name = textName then .text
  else if s.name = dataName ∨ s.name = rdataName then .data
  else if s.name = bssName ∨ s.name = sbssName then .bss
  else .unknown

end ScnHdr

namespace InputFile

def content (F : InputFile) : Memory :=
  Memory.ofList F.bytes

/-- `f_nscns`. -/
def numSections (F : InputFile) : Nat :=
  getShort F.content 2

/-- Where the section headers end. -/
def headersEnd (F : InputFile) : Nat :=
  fileHdrSize + aoutHdrSize + F.numSections * scnHdrSize

/-- The section headers. -/
def sections (F : InputFile) : List ScnHdr :=
  (List.range F.numSections).map fun i : Nat =>
    ScnHdr.ofMemory F.content (fileHdrSize + aoutHdrSize + i * scnHdrSize)

/-- The headers are all there, and the magic numbers are right. -/
def WellFormed (F : InputFile) : Prop :=
  getShort F.content 0 = mipselMagic ∧ getShort F.content fileHdrSize = oMagic ∧
    F.headersEnd ≤ F.bytes.length

instance (F : InputFile) : Decidable F.WellFormed :=
  inferInstanceAs (Decidable (_ ∧ _ ∧ _))

/-- `Read` at a position: the buffer and the new position, or `none` when the
file is too short.  To ask for a negative number of bytes makes `read` return
-1, which the check takes for success when -1 bytes were asked for. -/
def readAt (F : InputFile) (position : Nat) (nBytes : Int) : Option (List UInt8 × Nat) :=
  if nBytes = -1 then some ([], position)
  else if 0 ≤ nBytes ∧ position + nBytes ≤ F.bytes.length then
    some ((F.bytes.drop position).take nBytes.toNat, position + nBytes.toNat)
  else none

end InputFile

/-- `Write` behind the header and what has been written: what has been written
then, or `none`. -/
def writeBehind (written buffer : List UInt8) (nBytes : Int) : Option (List UInt8) :=
  if nBytes = -1 then some written
  else if 0 ≤ nBytes ∧ noffHeaderSize + written.length + nBytes < 2 ^ 31 then
    some (written ++ buffer)
  else none

/-! ### The loop over the sections -/

/-- The variables of `main` in the loop; `position` is that of the input file,
and `written` is the output behind the header. -/
structure Conversion where
  noffH : NoffHeader
  inNoffFile : BitVec 32
  position : Nat
  written : List UInt8

namespace Conversion

/-- The contents of a section are copied; `lseek` to a negative offset fails and
leaves the position. -/
def copySection (F : InputFile) (s : ScnHdr) (c : Conversion) : Option Conversion :=
  let position := if 0 ≤ s.sScnptr.toInt then s.sScnptr.toNat else c.position
  (F.readAt position s.sSize.toInt).bind fun buffer =>
    (writeBehind c.written buffer.1 s.sSize.toInt).map fun written =>
      { c with
        inNoffFile := c.inNoffFile + s.sSize
        position := buffer.2
        written := written }

/-- The segment for a section that is copied. -/
def segment (s : ScnHdr) (c : Conversion) : Segment where
  virtualAddr := s.sPaddr
  inFileAddr := c.inNoffFile
  size := s.sSize

/-- The body of the loop; `none` for `exit(1)`. -/
def step (F : InputFile) (c : Conversion) (s : ScnHdr) : Option Conversion :=
  match s.kind with
  | .empty => some c
  | .text => copySection F s { c with noffH := { c.noffH with code := c.segment s } }
  | .data =>
      if c.noffH.initData.size ≠ 0 then none
      else copySection F s { c with noffH := { c.noffH with initData := c.segment s } }
  | .bss =>
      let uninitData := c.noffH.uninitData
      if uninitData.size ≠ 0 then
        if s.sPaddr = uninitData.virtualAddr + uninitData.size then none
        else
          some { c with noffH := { c.noffH with
            uninitData := { uninitData with size := uninitData.size + s.sSize } } }
      else
        some { c with noffH := { c.noffH with
          uninitData := { uninitData with virtualAddr := s.sPaddr, size := s.sSize } } }
  | .unknown => none

/-- Before the loop; `frame` is what the stack held where the header is. -/
def start (frame : NoffHeader) (position : Nat) : Conversion where
  noffH :=
    { noffMagic := noffMagicNumber
      code := { frame.code with size := 0 }
      initData := { frame.initData with size := 0 }
      uninitData := { frame.uninitData with size := 0 } }
  inNoffFile := 40
  position := position
  written := []

end Conversion

/-- The loop as a machine whose actions are the section headers. -/
def sectionLoop (F : InputFile) : Machine Conversion ScnHdr :=
  ⟨Conversion.step F⟩

/-! ### NOFF files -/

/-- The words of a header in their order. -/
def NoffHeader.words (noffH : NoffHeader) : List (BitVec 32) :=
  [noffH.noffMagic, noffH.code.virtualAddr, noffH.code.inFileAddr, noffH.code.size,
    noffH.initData.virtualAddr, noffH.initData.inFileAddr, noffH.initData.size,
    noffH.uninitData.virtualAddr, noffH.uninitData.inFileAddr, noffH.uninitData.size]

/-- The header as the host has it in memory. -/
def NoffHeader.toBytes (bigEndian : Bool) (noffH : NoffHeader) : List UInt8 :=
  (Memory.ofWords fun w =>
    let word := noffH.words.getD w.toNat 0
    if bigEndian then Processor.swapWord word else word).toList noffHeaderSize.toNat

/-- The output: the header and all bytes. -/
structure NoffFile where
  header : NoffHeader
  bytes : List UInt8

/-- `coff2noff`, or `none` when it gives up. -/
def InputFile.convert (F : InputFile) (bigEndian : Bool) (frame : NoffHeader) :
    Option NoffFile :=
  if F.WellFormed then
    ((sectionLoop F).exec (.start frame F.headersEnd) F.sections).map fun c =>
      ⟨c.noffH, c.noffH.toBytes bigEndian ++ c.written⟩
  else none

/-! ### What a NOFF file says about the sections -/

/-- The sections of a kind, in the order of their headers. -/
def ofKind (kind : SectionKind) (sections : List ScnHdr) : List ScnHdr :=
  sections.filter fun s => s.kind = kind

/-- Every byte of a section is found in the file where the segment says. -/
def Segment.Holds (segment : Segment) (F : InputFile) (bytes : List UInt8) (s : ScnHdr) : Prop :=
  ∀ k : Nat, k < s.sSize.toNat →
    segment.virtualAddr = s.sPaddr ∧ k < segment.size.toNat ∧
      ∃ byte, F.bytes[s.sScnptr.toNat + k]? = some byte ∧
        bytes[segment.inFileAddr.toNat + k]? = some byte

/-- A segment is that of one of the sections. -/
def Segment.Of (segment : Segment) (sections : List ScnHdr) : Prop :=
  segment.size ≠ 0 → ∃ s ∈ sections, segment.virtualAddr = s.sPaddr ∧ segment.size = s.sSize

/-- The addresses of a section. -/
def ScnHdr.Covers (s : ScnHdr) (x : Nat) : Prop :=
  s.sPaddr.toNat ≤ x ∧ x < s.sPaddr.toNat + s.sSize.toNat

/-- `size` addresses from `virtualAddr` on are those of the sections. -/
def Tiles (virtualAddr size : BitVec 32) (sections : List ScnHdr) : Prop :=
  ∀ x : Nat, (virtualAddr.toNat ≤ x ∧ x < virtualAddr.toNat + size.toNat) ↔
    ∃ s ∈ sections, s.Covers x

/-- The NOFF file describes exactly the sections that are not empty. -/
structure NoffFile.Describes (noff : NoffFile) (F : InputFile) : Prop where
  text : ∀ s ∈ ofKind .text F.sections, noff.header.code.Holds F noff.bytes s
  data : ∀ s ∈ ofKind .data F.sections, noff.header.initData.Holds F noff.bytes s
  code : noff.header.code.Of (ofKind .text F.sections)
  initData : noff.header.initData.Of (ofKind .data F.sections)
  uninitData : Tiles noff.header.uninitData.virtualAddr noff.header.uninitData.size
    (ofKind .bss F.sections)
  behindHeader : ∀ segment ∈ [noff.header.code, noff.header.initData], segment.size ≠ 0 →
    noffHeaderSize ≤ segment.inFileAddr.toNat
  apart : noff.header.code.size ≠ 0 → noff.header.initData.size ≠ 0 →
    noff.header.code.inFileAddr.toNat + noff.header.code.size.toNat ≤
        noff.header.initData.inFileAddr.toNat ∨
      noff.header.initData.inFileAddr.toNat + noff.header.initData.size.toNat ≤
        noff.header.code.inFileAddr.toNat

end Nachos
