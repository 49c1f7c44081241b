/-
Module: Nachos.UserProg.Conversions
Purpose: When the output of coff2noff describes its input.  The loop keeps the
  last of several sections of code, and it merges sections of uninitialised
  data only where they are not contiguous.
Trusted boundary: none
Main exports: mergedRange, Noted, Laid, InputFile.Faithful,
  converts_faithfully_iff
-/
import Mathlib.Data.List.Induction
import Mathlib.Tactic.IntervalCases
import Nachos.UserProg.Coff

namespace Nachos

open Lib

/-! ### One turn of the loop -/

/-- What the loop makes of a range and a section of uninitialised data. -/
def merge (range : BitVec 32 × BitVec 32) (s : ScnHdr) : BitVec 32 × BitVec 32 :=
  if range.2 = 0 then (s.sPaddr, s.sSize) else (range.1, range.2 + s.sSize)

/-- The address of the first section and the sum of the sizes; a sum that comes
to 0 makes the loop start anew. -/
def mergedRange (sections : List ScnHdr) : BitVec 32 × BitVec 32 :=
  sections.foldl merge (0, 0)

theorem ScnHdr.size_ne_zero {s : ScnHdr} (some : s.kind ≠ .empty) : s.sSize ≠ 0 := by
  intro zero
  exact some (if_pos zero)

theorem mem_ofKind {kind : SectionKind} {sections : List ScnHdr} {s : ScnHdr} :
    s ∈ ofKind kind sections ↔ s ∈ sections ∧ s.kind = kind := by
  simp [ofKind]

theorem ofKind_snoc (kind : SectionKind) (done : List ScnHdr) (s : ScnHdr) :
    ofKind kind (done ++ [s]) = ofKind kind done ++ if s.kind = kind then [s] else [] := by
  by_cases same : s.kind = kind
  · simp [ofKind, same]
  · simp [ofKind, same]

namespace Conversion

variable {F : InputFile} {c c' : Conversion} {s : ScnHdr}

theorem copySection_noffH (copied : copySection F s c = some c') : c'.noffH = c.noffH := by
  unfold copySection at copied
  obtain ⟨buffer, -, copied⟩ := Option.bind_eq_some_iff.mp copied
  obtain ⟨written, -, rfl⟩ := Option.map_eq_some_iff.mp copied
  rfl

/-- What one turn of the loop can do. -/
theorem step_cases (step : Conversion.step F c s = some c') :
    (s.kind = .empty ∧ c' = c) ∨
      (s.kind = .text ∧
        copySection F s { c with noffH := { c.noffH with code := c.segment s } } = some c') ∨
      (s.kind = .data ∧ c.noffH.initData.size = 0 ∧
        copySection F s { c with noffH := { c.noffH with initData := c.segment s } } =
          some c') ∨
      (s.kind = .bss ∧
        (c.noffH.uninitData.size ≠ 0 →
          s.sPaddr ≠ c.noffH.uninitData.virtualAddr + c.noffH.uninitData.size) ∧
        c' = { c with noffH := { c.noffH with uninitData :=
          { c.noffH.uninitData with
            virtualAddr :=
              (merge (c.noffH.uninitData.virtualAddr, c.noffH.uninitData.size) s).1
            size :=
              (merge (c.noffH.uninitData.virtualAddr, c.noffH.uninitData.size) s).2 } } }) := by
  unfold Conversion.step at step
  cases kind : s.kind with
  | empty =>
      simp only [kind, Option.some.injEq] at step
      exact .inl ⟨rfl, step.symm⟩
  | text =>
      simp only [kind] at step
      exact .inr (.inl ⟨rfl, step⟩)
  | data =>
      simp only [kind] at step
      split at step
      · cases step
      · rename_i first
        exact .inr (.inr (.inl ⟨rfl, not_not.mp first, step⟩))
  | bss =>
      simp only [kind] at step
      refine .inr (.inr (.inr ⟨rfl, ?_⟩))
      split at step
      · rename_i some
        split at step
        · cases step
        · rename_i apart
          cases step
          refine ⟨fun _ => apart, ?_⟩
          rw [merge, if_neg some]
      · rename_i none
        rw [not_not] at none
        cases step
        refine ⟨fun some => absurd none some, ?_⟩
        rw [merge, if_pos none]
  | unknown => simp [kind] at step

end Conversion

/-! ### What the header says -/

/-- After the sections `done` the header has the last section of code, the only
section of data and the merged range of the uninitialised sections. -/
structure Noted (done : List ScnHdr) (noffH : NoffHeader) : Prop where
  magic : noffH.noffMagic = noffMagicNumber
  noCode : ofKind .text done = [] → noffH.code.size = 0
  code : ∀ t, (ofKind .text done).getLast? = some t →
    noffH.code.virtualAddr = t.sPaddr ∧ noffH.code.size = t.sSize
  noData : ofKind .data done = [] → noffH.initData.size = 0
  data : ∀ d ∈ ofKind .data done, ofKind .data done = [d] ∧
    noffH.initData.virtualAddr = d.sPaddr ∧ noffH.initData.size = d.sSize
  uninitSize : noffH.uninitData.size = (mergedRange (ofKind .bss done)).2
  uninitAddr : ofKind .bss done ≠ [] →
    noffH.uninitData.virtualAddr = (mergedRange (ofKind .bss done)).1
  apart : ∀ b s rest, ofKind .bss done = b :: s :: rest → s.sPaddr ≠ b.sPaddr + b.sSize

namespace Noted

variable {done : List ScnHdr} {noffH : NoffHeader} {s : ScnHdr}

/-- A section of another kind leaves what is noted about a kind. -/
theorem ofKind_other {kind : SectionKind} (other : s.kind ≠ kind) :
    ofKind kind (done ++ [s]) = ofKind kind done := by
  rw [ofKind_snoc, if_neg other, List.append_nil]

theorem ofKind_same {kind : SectionKind} (same : s.kind = kind) :
    ofKind kind (done ++ [s]) = ofKind kind done ++ [s] := by
  rw [ofKind_snoc, if_pos same]

theorem text (noted : Noted done noffH) (kind : s.kind = .text) {code : Segment}
    (addr : code.virtualAddr = s.sPaddr) (size : code.size = s.sSize) :
    Noted (done ++ [s]) { noffH with code := code } := by
  have data : ofKind .data (done ++ [s]) = ofKind .data done := ofKind_other (by simp [kind])
  have bss : ofKind .bss (done ++ [s]) = ofKind .bss done := ofKind_other (by simp [kind])
  refine ⟨noted.magic, ?_, ?_, ?_, ?_, ?_, ?_, ?_⟩
  · rw [ofKind_same kind]
    simp
  · rw [ofKind_same kind, List.getLast?_concat]
    rintro t ⟨⟩
    exact ⟨addr, size⟩
  · rw [data]
    exact noted.noData
  · rw [data]
    exact noted.data
  · rw [bss]
    exact noted.uninitSize
  · rw [bss]
    exact noted.uninitAddr
  · rw [bss]
    exact noted.apart

theorem dataSection (noted : Noted done noffH) (kind : s.kind = .data)
    (first : noffH.initData.size = 0) {initData : Segment}
    (addr : initData.virtualAddr = s.sPaddr) (size : initData.size = s.sSize) :
    Noted (done ++ [s]) { noffH with initData := initData } := by
  have text : ofKind .text (done ++ [s]) = ofKind .text done := ofKind_other (by simp [kind])
  have bss : ofKind .bss (done ++ [s]) = ofKind .bss done := ofKind_other (by simp [kind])
  have none : ofKind .data done = [] := by
    rw [List.eq_nil_iff_forall_not_mem]
    intro d member
    have same := (noted.data d member).2.2
    rw [first] at same
    exact ScnHdr.size_ne_zero (by simp [(mem_ofKind.mp member).2]) same.symm
  refine ⟨noted.magic, ?_, ?_, ?_, ?_, ?_, ?_, ?_⟩
  · rw [text]
    exact noted.noCode
  · rw [text]
    exact noted.code
  · rw [ofKind_same kind]
    simp
  · rw [ofKind_same kind, none]
    intro d member
    obtain rfl : d = s := by simpa using member
    exact ⟨rfl, addr, size⟩
  · rw [bss]
    exact noted.uninitSize
  · rw [bss]
    exact noted.uninitAddr
  · rw [bss]
    exact noted.apart

theorem bss (noted : Noted done noffH) (kind : s.kind = .bss)
    (apart : noffH.uninitData.size ≠ 0 →
      s.sPaddr ≠ noffH.uninitData.virtualAddr + noffH.uninitData.size) {uninitData : Segment}
    (merged : (uninitData.virtualAddr, uninitData.size) =
      merge (noffH.uninitData.virtualAddr, noffH.uninitData.size) s) :
    Noted (done ++ [s]) { noffH with uninitData := uninitData } := by
  have text : ofKind .text (done ++ [s]) = ofKind .text done := ofKind_other (by simp [kind])
  have data : ofKind .data (done ++ [s]) = ofKind .data done := ofKind_other (by simp [kind])
  have range : mergedRange (ofKind .bss (done ++ [s])) =
      (uninitData.virtualAddr, uninitData.size) := by
    rw [ofKind_same kind, mergedRange, List.foldl_append, merged]
    change merge (mergedRange (ofKind .bss done)) s = _
    by_cases none : ofKind .bss done = []
    · have zero : noffH.uninitData.size = 0 := by
        rw [noted.uninitSize, none]
        rfl
      rw [none]
      exact (if_pos rfl).trans (if_pos zero).symm
    · rw [noted.uninitSize, noted.uninitAddr none]
  refine ⟨noted.magic, ?_, ?_, ?_, ?_, ?_, ?_, ?_⟩
  · rw [text]
    exact noted.noCode
  · rw [text]
    exact noted.code
  · rw [data]
    exact noted.noData
  · rw [data]
    exact noted.data
  · rw [range]
  · rw [range]
    exact fun _ => rfl
  · intro b s' rest split
    rw [ofKind_same kind] at split
    cases earlier : ofKind .bss done with
    | nil =>
        rw [earlier] at split
        simp at split
    | cons first others =>
        rw [earlier, List.cons_append] at split
        cases others with
        | nil =>
            -- the second section: the check compares it with the first one
            obtain ⟨rfl, rfl, -⟩ : first = b ∧ s = s' ∧ [] = rest := by simpa using split
            have some : first.sSize ≠ 0 := by
              apply ScnHdr.size_ne_zero
              have member : first ∈ ofKind .bss done := by simp [earlier]
              simp [(mem_ofKind.mp member).2]
            have size := noted.uninitSize
            have addr := noted.uninitAddr (by simp [earlier])
            rw [earlier] at size addr
            simp only [mergedRange, List.foldl_cons, List.foldl_nil, merge, ↓reduceIte]
              at size addr
            have compared := apart (by rwa [size])
            rwa [size, addr] at compared
        | cons second others =>
            obtain ⟨rfl, rfl, -⟩ : first = b ∧ second = s' ∧ others ++ [s] = rest := by
              simpa using split
            exact noted.apart first second others earlier

end Noted

/-- What the header says after the loop. -/
theorem noted_of_exec {F : InputFile} {frame : NoffHeader} {position : Nat}
    {done : List ScnHdr} {c : Conversion}
    (run : (sectionLoop F).exec (.start frame position) done = some c) : Noted done c.noffH := by
  induction done using List.reverseRecOn generalizing c with
  | nil =>
      cases run
      exact ⟨rfl, fun _ => rfl, by simp [ofKind], fun _ => rfl, by simp [ofKind], rfl,
        by simp [ofKind], by simp [ofKind]⟩
  | append_singleton done s inductionHypothesis =>
      obtain ⟨before, run, step⟩ := (Machine.exec_snoc_eq_some _).mp run
      have noted := inductionHypothesis run
      rcases Conversion.step_cases step with
        ⟨kind, rfl⟩ | ⟨kind, copied⟩ | ⟨kind, first, copied⟩ | ⟨kind, apart, rfl⟩
      · have same (other : SectionKind) (different : other ≠ .empty) :
            ofKind other (done ++ [s]) = ofKind other done :=
          Noted.ofKind_other (by rw [kind]; exact different.symm)
        have text := same .text (by decide)
        have data := same .data (by decide)
        have bss := same .bss (by decide)
        exact ⟨noted.magic, by rw [text]; exact noted.noCode, by rw [text]; exact noted.code,
          by rw [data]; exact noted.noData, by rw [data]; exact noted.data,
          by rw [bss]; exact noted.uninitSize, by rw [bss]; exact noted.uninitAddr,
          by rw [bss]; exact noted.apart⟩
      · rw [Conversion.copySection_noffH copied]
        exact noted.text kind rfl rfl
      · rw [Conversion.copySection_noffH copied]
        exact noted.dataSection kind first rfl rfl
      · exact noted.bss kind apart rfl

/-! ### Where the contents of the sections are -/

/-- A section whose contents can be read from the file. -/
def ScnHdr.Regular (s : ScnHdr) : Prop :=
  0 ≤ s.sSize.toInt ∧ 0 ≤ s.sScnptr.toInt

instance (s : ScnHdr) : Decidable s.Regular :=
  inferInstanceAs (Decidable (_ ∧ _))

/-- The contents of a section have been written where the segment says. -/
structure Placed (F : InputFile) (written : List UInt8) (segment : Segment) (s : ScnHdr) :
    Prop where
  low : noffHeaderSize ≤ segment.inFileAddr.toNat
  high : segment.inFileAddr.toNat + s.sSize.toNat ≤ noffHeaderSize + written.length
  bytes : ∀ k : Nat, k < s.sSize.toNat → ∃ byte, F.bytes[s.sScnptr.toNat + k]? = some byte ∧
    written[segment.inFileAddr.toNat - noffHeaderSize.toNat + k]? = some byte

/-- The running file offset is the length of the output, and what the header
notes of the regular sections `done` has been written, one behind the other. -/
structure Laid (F : InputFile) (done : List ScnHdr) (c : Conversion) : Prop where
  offset : (c.inNoffFile.toNat : Int) = noffHeaderSize + c.written.length
  small : noffHeaderSize + c.written.length < 2 ^ 31
  code : ∀ t, (ofKind .text done).getLast? = some t → Placed F c.written c.noffH.code t
  data : ∀ d ∈ ofKind .data done, Placed F c.written c.noffH.initData d
  apart : ∀ t, (ofKind .text done).getLast? = some t → ∀ d ∈ ofKind .data done,
    c.noffH.code.inFileAddr.toNat + t.sSize.toNat ≤ c.noffH.initData.inFileAddr.toNat ∨
      c.noffH.initData.inFileAddr.toNat + d.sSize.toNat ≤ c.noffH.code.inFileAddr.toNat

theorem Placed.append {F : InputFile} {written : List UInt8} {segment : Segment} {s : ScnHdr}
    (placed : Placed F written segment s) (buffer : List UInt8) :
    Placed F (written ++ buffer) segment s := by
  have low := placed.low
  have high := placed.high
  simp only [noffHeaderSize] at low high
  refine ⟨placed.low, ?_, ?_⟩
  · simp only [noffHeaderSize, List.length_append]
    omega
  · intro k inside
    obtain ⟨byte, read, here⟩ := placed.bytes k inside
    refine ⟨byte, read, ?_⟩
    rw [List.getElem?_append_left, here]
    exact (List.getElem?_eq_some_iff.mp here).1

namespace Conversion

variable {F : InputFile} {c c' : Conversion} {s : ScnHdr}

/-- What is done for a regular section. -/
theorem copySection_regular (regular : s.Regular) (copied : copySection F s c = some c') :
    s.sScnptr.toNat + s.sSize.toNat ≤ F.bytes.length ∧
      noffHeaderSize + c.written.length + s.sSize.toNat < 2 ^ 31 ∧
      c' = { c with
        inNoffFile := c.inNoffFile + s.sSize
        position := s.sScnptr.toNat + s.sSize.toNat
        written := c.written ++ (F.bytes.drop s.sScnptr.toNat).take s.sSize.toNat } := by
  obtain ⟨some, reachable⟩ := regular
  have natural : s.sSize.toInt = s.sSize.toNat :=
    BitVec.toInt_eq_toNat_of_msb (by rw [BitVec.msb_eq_toInt]; simpa using some)
  have notOne : ¬ s.sSize.toInt = -1 := by omega
  unfold copySection at copied
  rw [if_pos reachable] at copied
  obtain ⟨buffer, read, copied⟩ := Option.bind_eq_some_iff.mp copied
  obtain ⟨written, wrote, rfl⟩ := Option.map_eq_some_iff.mp copied
  unfold InputFile.readAt at read
  rw [if_neg notOne] at read
  split at read
  · rename_i there
    cases read
    unfold writeBehind at wrote
    rw [if_neg notOne] at wrote
    split at wrote
    · rename_i room
      cases wrote
      rw [natural] at there room ⊢
      exact ⟨by omega, room.2, rfl⟩
    · cases wrote
  · cases read

end Conversion

theorem slice_getElem? {bytes : List UInt8} {start count k : Nat} (inside : k < count) :
    ((bytes.drop start).take count)[k]? = bytes[start + k]? := by
  rw [List.getElem?_take_of_lt inside, List.getElem?_drop]

/-- A section that has just been copied. -/
theorem placed_copied {F : InputFile} {written : List UInt8} {segment : Segment} {s : ScnHdr}
    (there : s.sScnptr.toNat + s.sSize.toNat ≤ F.bytes.length)
    (offset : (segment.inFileAddr.toNat : Int) = noffHeaderSize + written.length) :
    Placed F (written ++ (F.bytes.drop s.sScnptr.toNat).take s.sSize.toNat) segment s := by
  simp only [noffHeaderSize] at offset
  refine ⟨by simp only [noffHeaderSize]; omega, ?_, ?_⟩
  · simp only [noffHeaderSize, List.length_append, List.length_take, List.length_drop]
    omega
  · intro k inside
    have place : segment.inFileAddr.toNat - noffHeaderSize.toNat = written.length := by
      simp only [noffHeaderSize]
      omega
    have present : s.sScnptr.toNat + k < F.bytes.length := by omega
    refine ⟨F.bytes[s.sScnptr.toNat + k], List.getElem?_eq_getElem _, ?_⟩
    rw [place, List.getElem?_append_right (Nat.le_add_right _ _), Nat.add_sub_cancel_left,
      slice_getElem? inside]
    exact List.getElem?_eq_getElem _

namespace Laid

variable {F : InputFile} {done : List ScnHdr} {c c' : Conversion} {s : ScnHdr}

/-- The next offset after a section of which everything has been written. -/
theorem offset_next (laid : Laid F done c)
    (there : s.sScnptr.toNat + s.sSize.toNat ≤ F.bytes.length)
    (room : noffHeaderSize + c.written.length + s.sSize.toNat < 2 ^ 31) :
    ((c.inNoffFile + s.sSize).toNat : Int) = noffHeaderSize +
        (c.written ++ (F.bytes.drop s.sScnptr.toNat).take s.sSize.toNat).length ∧
      noffHeaderSize +
        (c.written ++ (F.bytes.drop s.sScnptr.toNat).take s.sSize.toNat).length < 2 ^ 31 := by
  have offset := laid.offset
  rw [BitVec.toNat_add]
  simp only [noffHeaderSize, List.length_append, List.length_take, List.length_drop] at *
  omega

/-- A section that is not copied. -/
theorem skip (laid : Laid F done c) (noText : s.kind ≠ .text) (noData : s.kind ≠ .data)
    (offset : c'.inNoffFile = c.inNoffFile) (written : c'.written = c.written)
    (code : c'.noffH.code = c.noffH.code) (initData : c'.noffH.initData = c.noffH.initData) :
    Laid F (done ++ [s]) c' := by
  have texts : ofKind .text (done ++ [s]) = ofKind .text done := Noted.ofKind_other noText
  have datas : ofKind .data (done ++ [s]) = ofKind .data done := Noted.ofKind_other noData
  constructor
  · rw [offset, written]
    exact laid.offset
  · rw [written]
    exact laid.small
  · rw [texts, written, code]
    exact laid.code
  · rw [datas, written, initData]
    exact laid.data
  · rw [texts, datas, code, initData]
    exact laid.apart

theorem text (laid : Laid F done c) (kind : s.kind = .text) (regular : s.Regular)
    (copied : Conversion.copySection F s
      { c with noffH := { c.noffH with code := c.segment s } } = some c') :
    Laid F (done ++ [s]) c' := by
  obtain ⟨there, room, rfl⟩ := Conversion.copySection_regular regular copied
  obtain ⟨offset, small⟩ := laid.offset_next there room
  have datas : ofKind .data (done ++ [s]) = ofKind .data done :=
    Noted.ofKind_other (by simp [kind])
  have last : (ofKind .text (done ++ [s])).getLast? = some s := by
    rw [Noted.ofKind_same kind, List.getLast?_concat]
  refine ⟨offset, small, ?_, ?_, ?_⟩
  · rw [last]
    rintro t ⟨⟩
    exact placed_copied there laid.offset
  · rw [datas]
    exact fun d member => (laid.data d member).append _
  · rw [last, datas]
    rintro t ⟨⟩ d member
    have placed := (laid.data d member).high
    have offset := laid.offset
    right
    simp only [Conversion.segment, noffHeaderSize] at *
    omega

theorem dataSection (laid : Laid F done c) (noted : Noted (done ++ [s]) c'.noffH)
    (kind : s.kind = .data) (regular : s.Regular)
    (copied : Conversion.copySection F s
      { c with noffH := { c.noffH with initData := c.segment s } } = some c') :
    Laid F (done ++ [s]) c' := by
  obtain ⟨there, room, rfl⟩ := Conversion.copySection_regular regular copied
  obtain ⟨offset, small⟩ := laid.offset_next there room
  have texts : ofKind .text (done ++ [s]) = ofKind .text done :=
    Noted.ofKind_other (by simp [kind])
  have only (d : ScnHdr) (member : d ∈ ofKind .data (done ++ [s])) : d = s := by
    have alone := (noted.data d member).1
    have here : s ∈ ofKind .data (done ++ [s]) := by
      rw [Noted.ofKind_same kind]
      simp
    rw [alone, List.mem_singleton] at here
    exact here.symm
  refine ⟨offset, small, ?_, ?_, ?_⟩
  · rw [texts]
    exact fun t last => (laid.code t last).append _
  · intro d member
    rw [only d member]
    exact placed_copied there laid.offset
  · rw [texts]
    intro t last d member
    have placed := (laid.code t last).high
    have offset := laid.offset
    left
    simp only [Conversion.segment, noffHeaderSize] at *
    omega

end Laid

/-- Where the contents of regular sections are after the loop. -/
theorem laid_of_exec {F : InputFile} {frame : NoffHeader} {position : Nat}
    {done : List ScnHdr} {c : Conversion}
    (run : (sectionLoop F).exec (.start frame position) done = some c)
    (regular : ∀ s ∈ done, s.kind = .text ∨ s.kind = .data → s.Regular) : Laid F done c := by
  induction done using List.reverseRecOn generalizing c with
  | nil =>
      cases run
      exact ⟨rfl, by simp [Conversion.start, noffHeaderSize], by simp [ofKind],
        by simp [ofKind], by simp [ofKind]⟩
  | append_singleton done s inductionHypothesis =>
      have noted := noted_of_exec run
      obtain ⟨before, run, step⟩ := (Machine.exec_snoc_eq_some _).mp run
      have laid := inductionHypothesis run fun s member => regular s (by simp [member])
      have here : s ∈ done ++ [s] := by simp
      rcases Conversion.step_cases step with
        ⟨kind, rfl⟩ | ⟨kind, copied⟩ | ⟨kind, -, copied⟩ | ⟨kind, -, rfl⟩
      · exact laid.skip (by simp [kind]) (by simp [kind]) rfl rfl rfl rfl
      · exact laid.text kind (regular s here (.inl kind)) copied
      · exact laid.dataSection noted kind (regular s here (.inr kind)) copied
      · exact laid.skip (by simp [kind]) (by simp [kind]) rfl rfl rfl rfl

/-! ### Merging two sections -/

/-- Two sections of uninitialised data that are not contiguous are not what the
merged range covers. -/
theorem not_tiles_two {b s : ScnHdr} (first : b.sSize ≠ 0) (second : s.sSize ≠ 0)
    (apart : s.sPaddr ≠ b.sPaddr + b.sSize) :
    ¬ Tiles (mergedRange [b, s]).1 (mergedRange [b, s]).2 [b, s] := by
  have merged : mergedRange [b, s] = (b.sPaddr, b.sSize + s.sSize) := by
    simp only [mergedRange, List.foldl_cons, List.foldl_nil, merge, ↓reduceIte, if_neg first]
  rw [merged]
  intro tiles
  have covers (x : Nat) : (b.sPaddr.toNat ≤ x ∧ x < b.sPaddr.toNat + (b.sSize + s.sSize).toNat) ↔
      (b.sPaddr.toNat ≤ x ∧ x < b.sPaddr.toNat + b.sSize.toNat) ∨
        (s.sPaddr.toNat ≤ x ∧ x < s.sPaddr.toNat + s.sSize.toNat) := by
    rw [tiles x]
    simp [ScnHdr.Covers]
  have firstPositive : 0 < b.sSize.toNat := BitVec.toNat_pos_of_ne_zero first
  have secondPositive : 0 < s.sSize.toNat := BitVec.toNat_pos_of_ne_zero second
  have different : s.sPaddr.toNat ≠ b.sPaddr.toNat + b.sSize.toNat := by
    intro same
    apply apart
    apply BitVec.eq_of_toNat_eq
    rw [BitVec.toNat_add, ← same, Nat.mod_eq_of_lt s.sPaddr.isLt]
  have low := b.sSize.isLt
  have high := s.sSize.isLt
  rw [BitVec.toNat_add] at covers
  by_cases wraps : b.sSize.toNat + s.sSize.toNat < 2 ^ 32
  · rw [Nat.mod_eq_of_lt wraps] at covers
    -- the address behind the first section, and the last one of the range
    have behind := (covers (b.sPaddr.toNat + b.sSize.toNat)).mp ⟨by omega, by omega⟩
    have last := (covers (b.sPaddr.toNat + b.sSize.toNat + s.sSize.toNat - 1)).mp
      ⟨by omega, by omega⟩
    omega
  · have last := (covers (b.sPaddr.toNat + b.sSize.toNat - 1)).mpr (.inl ⟨by omega, by omega⟩)
    omega

/-- One section is what the merged range covers. -/
theorem tiles_one (s : ScnHdr) : Tiles (mergedRange [s]).1 (mergedRange [s]).2 [s] := by
  have merged : mergedRange [s] = (s.sPaddr, s.sSize) := by
    simp [mergedRange, merge]
  rw [merged]
  intro x
  simp [ScnHdr.Covers]

/-! ### The output describes the input -/

/-- A section of code has the address of another one, is not longer and has the
same bytes. -/
def ScnHdr.Repeats (F : InputFile) (s t : ScnHdr) : Prop :=
  s.sPaddr = t.sPaddr ∧ s.sSize.toNat ≤ t.sSize.toNat ∧
    ∀ k : Nat, k < s.sSize.toNat →
      F.bytes[s.sScnptr.toNat + k]? = F.bytes[t.sScnptr.toNat + k]?

/-- No section that is copied has a negative size or offset, all sections of
code say what the last one says, and there is at most one section of
uninitialised data, or there are three or more that happen to tile the range
into which they are merged. -/
structure InputFile.Faithful (F : InputFile) : Prop where
  regular : ∀ s ∈ F.sections, s.kind = .text ∨ s.kind = .data → s.Regular
  text : ∀ t, (ofKind .text F.sections).getLast? = some t →
    ∀ s ∈ ofKind .text F.sections, s.Repeats F t
  bss : (ofKind .bss F.sections).length ≤ 1 ∨
    (3 ≤ (ofKind .bss F.sections).length ∧
      Tiles (mergedRange (ofKind .bss F.sections)).1 (mergedRange (ofKind .bss F.sections)).2
        (ofKind .bss F.sections))

theorem length_toBytes (bigEndian : Bool) (noffH : NoffHeader) :
    (noffH.toBytes bigEndian).length = 40 :=
  Memory.length_toList _ _

/-- What is behind the header. -/
theorem behind_header {bigEndian : Bool} {noffH : NoffHeader} {written : List UInt8} {i : Nat}
    (behind : 40 ≤ i) :
    (noffH.toBytes bigEndian ++ written)[i]? = written[i - 40]? := by
  rw [List.getElem?_append_right (by rw [length_toBytes]; exact behind), length_toBytes]

section

variable {F : InputFile} {bigEndian : Bool} {frame : NoffHeader} {noff : NoffFile}

theorem convert_eq_some (converted : F.convert bigEndian frame = some noff) :
    ∃ c, (sectionLoop F).exec (.start frame F.headersEnd) F.sections = some c ∧
      noff.header = c.noffH ∧ noff.bytes = c.noffH.toBytes bigEndian ++ c.written := by
  unfold InputFile.convert at converted
  split at converted
  · obtain ⟨c, run, rfl⟩ := Option.map_eq_some_iff.mp converted
    exact ⟨c, run, rfl, rfl⟩
  · cases converted

/-- A section whose bytes are all in the file is regular. -/
theorem Segment.Holds.regular {segment : Segment} {bytes : List UInt8} {s : ScnHdr}
    (holds : segment.Holds F bytes s) (some : s.sSize ≠ 0) : s.Regular := by
  have positive : 0 < s.sSize.toNat := BitVec.toNat_pos_of_ne_zero some
  have there (k : Nat) (inside : k < s.sSize.toNat) :
      s.sScnptr.toNat + k < F.bytes.length := by
    obtain ⟨-, -, byte, read, -⟩ := holds k inside
    exact (List.getElem?_eq_some_iff.mp read).1
  have small := F.small
  have first := there 0 positive
  have last := there (s.sSize.toNat - 1) (by omega)
  constructor
  · rw [BitVec.toInt_eq_toNat_of_lt (by omega)]
    omega
  · rw [BitVec.toInt_eq_toNat_of_lt (by omega)]
    omega

/-- A placed section is found in the output. -/
theorem Placed.holds {segment : Segment} {noffH : NoffHeader} {written : List UInt8}
    {s t : ScnHdr} (placed : Placed F written segment t) (addr : segment.virtualAddr = t.sPaddr)
    (size : segment.size = t.sSize) (repeats : s.Repeats F t) :
    segment.Holds F (noffH.toBytes bigEndian ++ written) s := by
  intro k inside
  obtain ⟨sameAddr, shorter, sameBytes⟩ := repeats
  have low := placed.low
  simp only [noffHeaderSize] at low
  obtain ⟨byte, read, here⟩ := placed.bytes k (by omega)
  refine ⟨addr.trans sameAddr.symm, by rw [size]; omega, byte, ?_, ?_⟩
  · rw [sameBytes k inside, read]
  · rw [behind_header (by omega), ← here]
    congr 1
    simp only [noffHeaderSize]
    omega

/-- What is found in the output where a section is placed is that section. -/
theorem Placed.repeats {segment : Segment} {noffH : NoffHeader} {written : List UInt8}
    {s t : ScnHdr} (placed : Placed F written segment t) (addr : segment.virtualAddr = t.sPaddr)
    (size : segment.size = t.sSize) (some : s.sSize ≠ 0)
    (holds : segment.Holds F (noffH.toBytes bigEndian ++ written) s) : s.Repeats F t := by
  have positive : 0 < s.sSize.toNat := BitVec.toNat_pos_of_ne_zero some
  have shorter : s.sSize.toNat ≤ t.sSize.toNat := by
    have last := (holds (s.sSize.toNat - 1) (by omega)).2.1
    rw [size] at last
    omega
  refine ⟨(holds 0 positive).1.symm.trans addr, shorter, ?_⟩
  intro k inside
  have low := placed.low
  simp only [noffHeaderSize] at low
  obtain ⟨-, -, byte, read, here⟩ := holds k inside
  obtain ⟨byte', read', here'⟩ := placed.bytes k (by omega)
  rw [behind_header (by omega)] at here
  have same : byte = byte' := by
    apply Option.some.inj
    rw [← here, ← here']
    congr 1
    simp only [noffHeaderSize]
    omega
  rw [read, read', same]

theorem ScnHdr.Repeats.refl (F : InputFile) (s : ScnHdr) : s.Repeats F s :=
  ⟨rfl, Nat.le_refl _, fun _ _ => rfl⟩

theorem kind_ne_empty {kind : SectionKind} {sections : List ScnHdr} {s : ScnHdr}
    (member : s ∈ ofKind kind sections) (some : kind ≠ .empty) : s.sSize ≠ 0 :=
  ScnHdr.size_ne_zero (by rw [(mem_ofKind.mp member).2]; exact some)

/-- The merged range covers the sections of an accepted file, if there is at
most one, and never if there are two. -/
theorem tiles_iff {done : List ScnHdr} {noffH : NoffHeader} (noted : Noted done noffH) :
    Tiles noffH.uninitData.virtualAddr noffH.uninitData.size (ofKind .bss done) ↔
      (ofKind .bss done).length ≤ 1 ∨ (3 ≤ (ofKind .bss done).length ∧
        Tiles (mergedRange (ofKind .bss done)).1 (mergedRange (ofKind .bss done)).2
          (ofKind .bss done)) := by
  have size := noted.uninitSize
  have addr := noted.uninitAddr
  have apart := noted.apart
  have nonempty (s : ScnHdr) (member : s ∈ ofKind .bss done) : s.sSize ≠ 0 :=
    kind_ne_empty member (by decide)
  generalize ofKind .bss done = bss at *
  match bss with
  | [] =>
      refine iff_of_true ?_ (.inl (by simp))
      intro x
      rw [size, show mergedRange [] = (0, 0) from rfl, show (0 : BitVec 32).toNat = 0 from rfl]
      simp only [List.not_mem_nil, false_and, exists_false, iff_false]
      omega
  | [s] =>
      rw [size, addr (by simp)]
      exact iff_of_true (tiles_one s) (.inl (by simp))
  | [b, s] =>
      rw [size, addr (by simp)]
      refine iff_of_false (not_tiles_two (nonempty b (by simp)) (nonempty s (by simp))
        (apart b s [] rfl)) ?_
      simp
  | a :: b :: s :: rest =>
      rw [size, addr (by simp)]
      simp

/-- A file that its output describes. -/
theorem faithful_of_describes (converted : F.convert bigEndian frame = some noff)
    (describes : noff.Describes F) : F.Faithful := by
  obtain ⟨c, run, header, bytes⟩ := convert_eq_some converted
  have noted := noted_of_exec run
  have regular (s : ScnHdr) (member : s ∈ F.sections)
      (copied : s.kind = .text ∨ s.kind = .data) : s.Regular := by
    rcases copied with kind | kind
    · have here := mem_ofKind.mpr ⟨member, kind⟩
      exact (describes.text s here).regular (kind_ne_empty here (by decide))
    · have here := mem_ofKind.mpr ⟨member, kind⟩
      exact (describes.data s here).regular (kind_ne_empty here (by decide))
  have laid := laid_of_exec run regular
  refine ⟨regular, ?_, ?_⟩
  · intro t last s member
    obtain ⟨addr, size⟩ := noted.code t last
    have holds := describes.text s member
    rw [header, bytes] at holds
    exact (laid.code t last).repeats addr size (kind_ne_empty member (by decide)) holds
  · have tiles := describes.uninitData
    rw [header] at tiles
    exact (tiles_iff noted).mp tiles

/-- A segment of code that is not empty comes from the last section of code. -/
theorem Noted.code_cases {done : List ScnHdr} {noffH : NoffHeader} (noted : Noted done noffH)
    (some : noffH.code.size ≠ 0) : ∃ t, (ofKind .text done).getLast? = .some t := by
  apply Option.isSome_iff_exists.mp
  exact List.getLast?_isSome.mpr fun none => some (noted.noCode none)

/-- A segment of data that is not empty comes from a section. -/
theorem Noted.data_cases {done : List ScnHdr} {noffH : NoffHeader} (noted : Noted done noffH)
    (some : noffH.initData.size ≠ 0) : ∃ d, d ∈ ofKind .data done := by
  apply List.exists_mem_of_ne_nil
  exact fun none => some (noted.noData none)

/-- The output describes a faithful file. -/
theorem describes_of_faithful (converted : F.convert bigEndian frame = some noff)
    (faithful : F.Faithful) : noff.Describes F := by
  obtain ⟨c, run, header, bytes⟩ := convert_eq_some converted
  have noted := noted_of_exec run
  have laid := laid_of_exec run faithful.regular
  constructor
  · intro s member
    obtain ⟨t, last⟩ : ∃ t, (ofKind .text F.sections).getLast? = some t := by
      apply Option.isSome_iff_exists.mp
      exact List.getLast?_isSome.mpr (List.ne_nil_of_mem member)
    obtain ⟨addr, size⟩ := noted.code t last
    rw [header, bytes]
    exact (laid.code t last).holds addr size (faithful.text t last s member)
  · intro d member
    obtain ⟨-, addr, size⟩ := noted.data d member
    rw [header, bytes]
    exact (laid.data d member).holds addr size (.refl F d)
  · rw [header]
    intro some
    obtain ⟨t, last⟩ := noted.code_cases some
    exact ⟨t, List.mem_of_getLast? last, noted.code t last⟩
  · rw [header]
    intro some
    obtain ⟨d, member⟩ := noted.data_cases some
    exact ⟨d, member, (noted.data d member).2⟩
  · rw [header]
    exact (tiles_iff noted).mpr faithful.bss
  · rw [header]
    intro segment member some
    simp only [List.mem_cons, List.not_mem_nil, or_false] at member
    rcases member with rfl | rfl
    · obtain ⟨t, last⟩ := noted.code_cases some
      exact (laid.code t last).low
    · obtain ⟨d, here⟩ := noted.data_cases some
      exact (laid.data d here).low
  · rw [header]
    intro someCode someData
    obtain ⟨t, last⟩ := noted.code_cases someCode
    obtain ⟨d, member⟩ := noted.data_cases someData
    have apart := laid.apart t last d member
    rwa [(noted.code t last).2, (noted.data d member).2.2]

/-- A file whose first two sections of uninitialised data are contiguous is not
converted. -/
theorem convert_contiguous {b s : ScnHdr} {rest : List ScnHdr}
    (sections : ofKind .bss F.sections = b :: s :: rest)
    (contiguous : s.sPaddr = b.sPaddr + b.sSize) : F.convert bigEndian frame = none := by
  cases converted : F.convert bigEndian frame with
  | none => rfl
  | some noff =>
      obtain ⟨c, run, -, -⟩ := convert_eq_some converted
      exact absurd contiguous ((noted_of_exec run).apart b s rest sections)

end

/-- A file that is converted is described by the output exactly when it is
faithful; a file whose .bss and .sbss are contiguous is never converted. -/
theorem converts_faithfully_iff (F : InputFile) (bigEndian : Bool) (frame : NoffHeader) :
    (∀ noff, F.convert bigEndian frame = some noff → (noff.Describes F ↔ F.Faithful)) ∧
      ((∃ b s rest, ofKind .bss F.sections = b :: s :: rest ∧
        s.sPaddr = b.sPaddr + b.sSize) → F.convert bigEndian frame = none) := by
  constructor
  · exact fun noff converted =>
      ⟨faithful_of_describes converted, describes_of_faithful converted⟩
  · rintro ⟨b, s, rest, sections, contiguous⟩
    exact convert_contiguous sections contiguous

/-! ### Files with three sections -/

/-- The bytes of a word. -/
def wordBytes (word : BitVec 32) : List UInt8 :=
  (Memory.ofWords fun _ => word).toList 4

/-- A section header of a COFF file. -/
def ScnHdr.toBytes (s : ScnHdr) : List UInt8 :=
  s.sName ++ wordBytes s.sPaddr ++ wordBytes 0 ++ wordBytes s.sSize ++ wordBytes s.sScnptr ++
    List.replicate 16 0

/-- A COFF file with sections and contents. -/
def coffBytes (sections : List ScnHdr) (contents : List UInt8) : List UInt8 :=
  [0x62, 0x01, UInt8.ofNat sections.length, 0] ++ List.replicate 16 0 ++
    ([0x07, 0x01] ++ List.replicate 54 0) ++ sections.flatMap ScnHdr.toBytes ++ contents

/-- Four bytes of code, and 16 bytes of .bss and of .sbss. -/
def threeSections (bss sbss : BitVec 32) (sbssSize : BitVec 32) : List ScnHdr :=
  [⟨[0x2e, 0x74, 0x65, 0x78, 0x74, 0, 0, 0], 0, 4, 196⟩,
    ⟨[0x2e, 0x62, 0x73, 0x73, 0, 0, 0, 0], bss, 16, 0⟩,
    ⟨[0x2e, 0x73, 0x62, 0x73, 0x73, 0, 0, 0], sbss, sbssSize, 0⟩]

theorem threeSections_small (bss sbss sbssSize : BitVec 32) :
    (coffBytes (threeSections bss sbss sbssSize) [1, 2, 3, 4]).length < 2 ^ 31 := by
  simp [coffBytes, threeSections, ScnHdr.toBytes, wordBytes, Memory.toList]

def threeSectionFile (bss sbss sbssSize : BitVec 32) : InputFile :=
  ⟨coffBytes (threeSections bss sbss sbssSize) [1, 2, 3, 4], threeSections_small bss sbss sbssSize⟩

/-- What the stack holds before the conversion. -/
def noHeader : NoffHeader :=
  ⟨0, ⟨0, 0, 0⟩, ⟨0, 0, 0⟩, ⟨0, 0, 0⟩⟩

/-- With an empty .sbss the file is converted, and the output describes it. -/
theorem converts_faithfully_emptySbss :
    ∃ noff, (threeSectionFile 4 0 0).convert false noHeader = some noff ∧
      noff.Describes (threeSectionFile 4 0 0) := by
  have sections : (threeSectionFile 4 0 0).sections = threeSections 4 0 0 := by decide +kernel
  obtain ⟨noff, converted⟩ : ∃ noff,
      (threeSectionFile 4 0 0).convert false noHeader = some noff :=
    Option.isSome_iff_exists.mp (by decide +kernel)
  refine ⟨noff, converted, ?_⟩
  refine ((converts_faithfully_iff _ false noHeader).1 noff converted).mpr ⟨?_, ?_, ?_⟩
  · rw [sections]
    decide
  · rw [sections]
    intro t last s member
    have texts : ofKind .text (threeSections 4 0 0) =
        [⟨[0x2e, 0x74, 0x65, 0x78, 0x74, 0, 0, 0], 0, 4, 196⟩] := by decide
    rw [texts] at last member
    obtain rfl := List.mem_singleton.mp member
    cases last
    exact .refl _ _
  · rw [sections]
    exact .inl (by decide)

/-- With .sbss right behind .bss the file is rejected, with a gap between them
the output takes the gap for the place of .sbss. -/
theorem bss_and_sbss_merged :
    (threeSectionFile 4 20 16).convert false noHeader = none ∧
      (threeSectionFile 4 20 0).convert false noHeader ≠ none ∧
      ∃ noff, (threeSectionFile 4 36 16).convert false noHeader = some noff ∧
        ¬ noff.Describes (threeSectionFile 4 36 16) := by
  refine ⟨Option.isNone_iff_eq_none.mp (by decide +kernel),
    Option.isSome_iff_ne_none.mp (by decide +kernel), ?_⟩
  have sections : (threeSectionFile 4 36 16).sections = threeSections 4 36 16 := by
    decide +kernel
  have merged : ((threeSectionFile 4 36 16).convert false noHeader).map
      (fun noff => noff.header.uninitData) = some ⟨4, 0, 32⟩ := by decide +kernel
  obtain ⟨noff, converted, uninitData⟩ := Option.map_eq_some_iff.mp merged
  refine ⟨noff, converted, fun describes => ?_⟩
  have gap := (describes.uninitData 20).mp
  rw [uninitData, sections] at gap
  have covered := gap (by decide)
  simp only [ScnHdr.Covers] at covered
  revert covered
  decide

/-! ### The converted file is loaded -/

theorem swapWord_swapWord (word : BitVec 32) :
    Processor.swapWord (Processor.swapWord word) = word := by
  apply BitVec.eq_of_getLsbD_eq
  intro i bound
  interval_cases i <;> simp [Processor.swapWord]

/-- The words of the header that the loader reads. -/
theorem wordToHost_toBytes (m : Processor) (noffH : NoffHeader) (bytes : Memory)
    (same : ∀ i : Nat, i < 40 →
      (noffH.toBytes m.hostIsBigEndian)[i]? = some (bytes i)) {w : Nat} (inside : w < 10) :
    m.wordToHost (bytes.getWord (4 * w)) = noffH.words.getD w 0 := by
  have agree : Memory.Agree 40 bytes (Memory.ofWords fun w =>
      if m.hostIsBigEndian then Processor.swapWord (noffH.words.getD w.toNat 0)
      else noffH.words.getD w.toNat 0) := by
    intro i low high
    have here := same i.toNat (by omega)
    rw [NoffHeader.toBytes, Memory.toList, List.getElem?_map,
      List.getElem?_range (by simp only [noffHeaderSize]; omega), Option.map_some,
      Int.toNat_of_nonneg low] at here
    exact (Option.some.inj here).symm
  rw [agree.getWord_eq (by omega) (by omega), Memory.getWord_ofWords, Processor.wordToHost]
  by_cases big : m.hostIsBigEndian = true
  · rw [if_pos big, if_pos big, swapWord_swapWord]
    rfl
  · rw [if_neg big, if_neg big]
    rfl

/-- The header that a host of the same kind finds in a buffer. -/
theorem ofMemory_toBytes (m : Processor) (noffH : NoffHeader) (buffer : Memory)
    (same : ∀ i : Nat, i < 40 →
      (noffH.toBytes m.hostIsBigEndian)[i]? = some (buffer i)) :
    NoffHeader.ofMemory m buffer = noffH := by
  have word {w : Nat} (inside : w < 10) := wordToHost_toBytes m noffH buffer same inside
  unfold NoffHeader.ofMemory Segment.ofMemory
  obtain ⟨magic, ⟨_, _, _⟩, ⟨_, _, _⟩, ⟨_, _, _⟩⟩ := noffH
  rw [NoffHeader.mk.injEq, Segment.mk.injEq, Segment.mk.injEq, Segment.mk.injEq]
  exact ⟨word (w := 0) (by decide),
    ⟨word (w := 1) (by decide), word (w := 2) (by decide), word (w := 3) (by decide)⟩,
    ⟨word (w := 4) (by decide), word (w := 5) (by decide), word (w := 6) (by decide)⟩,
    word (w := 7) (by decide), word (w := 8) (by decide), word (w := 9) (by decide)⟩

end Nachos
