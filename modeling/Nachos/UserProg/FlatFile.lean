/-
Module: Nachos.UserProg.FlatFile
Purpose: The converter of coff2flat.c, which writes the sections of an object file
  one behind the other without looking at their addresses.  Of a file whose sections
  have been linked without gaps from address 0 on it makes what `AddrSpace` loads of
  the output of coff2noff.c.
Trusted boundary: the structures of the system's COFF headers have the layout of
  those in coff.h, a `long` has 32 bits and the words have the host's order; a file
  has less than 2^31 bytes; memory for a section is there.
Main exports: Flattening, Flattening.step, InputFile.flatten, InputFile.Packed,
  flat_file_is_loaded_image
-/
import Nachos.UserProg.Loading

namespace Nachos

open Lib

/-! ### The converter -/

/-- `Write` at a place, with zeros in the hole that `lseek` has left. -/
def writeAtPlace (file : List UInt8) (place : Nat) (buffer : List UInt8) (nBytes : Int) :
    Option (List UInt8) :=
  if nBytes = -1 then some file
  else if 0 ≤ nBytes ∧ place + nBytes < 2 ^ 31 then
    some (file.take place ++ List.replicate (place - file.length) 0 ++ buffer ++
      file.drop (place + buffer.length))
  else none

/-- The variables of `main` in the loop; `position` is that of the input file, and
`written` is the output. -/
structure Flattening where
  top : BitVec 32
  position : Nat
  written : List UInt8

/-- "no need to copy if .bss" -/
def ScnHdr.Copied (s : ScnHdr) : Prop :=
  s.name ≠ ScnHdr.bssName ∧ s.name ≠ ScnHdr.sbssName

instance (s : ScnHdr) : Decidable s.Copied :=
  inferInstanceAs (Decidable (_ ∧ _))

/-- Code and data are copied. -/
theorem ScnHdr.copied_of_kind {s : ScnHdr} (kind : s.kind = .text ∨ s.kind = .data) :
    s.Copied := by
  refine ⟨fun name => ?_, fun name => ?_⟩
  · unfold ScnHdr.kind at kind
    rw [name] at kind
    split at kind
    · simp at kind
    · revert kind
      decide
  · unfold ScnHdr.kind at kind
    rw [name] at kind
    split at kind
    · simp at kind
    · revert kind
      decide

/-- What is copied is code or data, if its name is known. -/
theorem ScnHdr.kind_of_copied {s : ScnHdr} (copied : s.Copied) (some : s.sSize ≠ 0)
    (known : s.kind ≠ .unknown) : s.kind = .text ∨ s.kind = .data := by
  unfold ScnHdr.kind at known ⊢
  rw [if_neg some] at known ⊢
  split
  · exact .inl rfl
  · rename_i noText
    rw [if_neg noText] at known
    split
    · exact .inr rfl
    · rename_i noData
      rw [if_neg noData, if_neg (by rintro (bss | sbss); exacts [copied.1 bss, copied.2 sbss])]
        at known
      exact absurd rfl known

/-- `StackSize` of coff2flat.c. -/
def flatStackSize : BitVec 32 := 1024

namespace Flattening

/-- The body of the loop; `none` for `exit(1)`.  `lseek` to a negative offset fails
and leaves the position. -/
def step (F : InputFile) (c : Flattening) (s : ScnHdr) : Option Flattening :=
  let top := if c.top.toInt < (s.sPaddr + s.sSize).toInt then s.sPaddr + s.sSize else c.top
  if s.Copied then
    let position := if 0 ≤ s.sScnptr.toInt then s.sScnptr.toNat else c.position
    (F.readAt position s.sSize.toInt).bind fun buffer =>
      (writeAtPlace c.written c.written.length buffer.1 s.sSize.toInt).map fun written =>
        { top := top, position := buffer.2, written := written }
  else some { c with top := top }

/-- "put a blank word at the end, so we know where the end is!" -/
def putBlankWord (c : Flattening) : Option (List UInt8) :=
  let place := c.top + flatStackSize - 4
  writeAtPlace c.written (if 0 ≤ place.toInt then place.toNat else c.written.length)
    [0, 0, 0, 0] 4

end Flattening

/-- The loop as a machine whose actions are the section headers. -/
def flatLoop (F : InputFile) : Machine Flattening ScnHdr :=
  ⟨Flattening.step F⟩

/-- `coff2flat`, or `none` when it gives up. -/
def InputFile.flatten (F : InputFile) : Option (List UInt8) :=
  if F.WellFormed then
    ((flatLoop F).exec { top := 0, position := F.headersEnd, written := [] } F.sections).bind
      Flattening.putBlankWord
  else none

/-! ### Sections without gaps -/

/-- How many bytes the sections have. -/
def sizeOfSections (sections : List ScnHdr) : Nat :=
  (sections.map fun s => s.sSize.toNat).sum

/-- Every section begins where the one before it ends. -/
def Contiguous (a : Nat) : List ScnHdr → Prop
  | [] => True
  | s :: rest => s.sPaddr.toNat = a ∧ Contiguous (a + s.sSize.toNat) rest

/-- The linker has put the sections one behind the other, from address 0 on, those
without contents at the end, and there is room for a stack. -/
structure InputFile.Packed (F : InputFile) : Prop where
  contiguous : Contiguous 0 F.sections
  last : F.sections.Pairwise fun s later => s.Copied ∨ ¬ later.Copied ∨ later.sSize = 0
  small : sizeOfSections F.sections + flatStackSize.toNat < 2 ^ 31

/-! ### Where packed sections are -/

@[simp] theorem sizeOfSections_nil : sizeOfSections [] = 0 := rfl

@[simp] theorem sizeOfSections_cons (s : ScnHdr) (rest : List ScnHdr) :
    sizeOfSections (s :: rest) = s.sSize.toNat + sizeOfSections rest := by
  simp [sizeOfSections]

@[simp] theorem sizeOfSections_append (sections rest : List ScnHdr) :
    sizeOfSections (sections ++ rest) = sizeOfSections sections + sizeOfSections rest := by
  simp [sizeOfSections]

namespace Contiguous

variable {a : Nat} {sections : List ScnHdr} {s : ScnHdr}

theorem snoc (contiguous : Contiguous a (sections ++ [s])) :
    Contiguous a sections ∧ s.sPaddr.toNat = a + sizeOfSections sections := by
  induction sections generalizing a with
  | nil => exact ⟨trivial, contiguous.1⟩
  | cons first rest inductionHypothesis =>
      obtain ⟨addr, contiguous⟩ := contiguous
      obtain ⟨before, last⟩ := inductionHypothesis contiguous
      refine ⟨⟨addr, before⟩, ?_⟩
      rw [last, sizeOfSections_cons]
      omega

theorem low (contiguous : Contiguous a sections) (member : s ∈ sections) :
    a ≤ s.sPaddr.toNat := by
  induction sections generalizing a with
  | nil => cases member
  | cons first rest inductionHypothesis =>
      obtain ⟨addr, contiguous⟩ := contiguous
      cases member with
      | head => exact Nat.le_of_eq addr.symm
      | tail _ later =>
          have := inductionHypothesis contiguous later
          omega

/-- A section ends before a later one begins. -/
theorem pairwise (contiguous : Contiguous a sections) :
    sections.Pairwise fun s later => s.sPaddr.toNat + s.sSize.toNat ≤ later.sPaddr.toNat := by
  induction sections generalizing a with
  | nil => exact .nil
  | cons first rest inductionHypothesis =>
      obtain ⟨addr, contiguous⟩ := contiguous
      refine .cons ?_ (inductionHypothesis contiguous)
      intro later member
      rw [addr]
      exact contiguous.low member

/-- Two sections have no address in common. -/
theorem disjoint (contiguous : Contiguous a sections) :
    sections.Pairwise fun s later => ∀ x, ¬ (s.Covers x ∧ later.Covers x) := by
  refine contiguous.pairwise.imp ?_
  intro s later before x both
  obtain ⟨⟨-, high⟩, ⟨low, -⟩⟩ := both
  omega

theorem apart {t : ScnHdr} (contiguous : Contiguous a sections) (member : s ∈ sections)
    (member' : t ∈ sections) (different : s ≠ t) (x : Nat) : ¬ (s.Covers x ∧ t.Covers x) := by
  have disjoint := contiguous.disjoint
  clear contiguous
  induction disjoint with
  | nil => cases member
  | cons first rest inductionHypothesis =>
      cases member with
      | head =>
          cases member' with
          | head => exact absurd rfl different
          | tail _ later => exact first t later x
      | tail _ later =>
          cases member' with
          | head => exact fun both => first s later x both.symm
          | tail _ later' => exact inductionHypothesis later later'

/-- The sections of one kind end where all sections end, at the latest. -/
theorem ofKind_le (contiguous : Contiguous a sections) {kind : SectionKind}
    {rest : List ScnHdr} (first : ofKind kind sections = s :: rest) :
    s.sPaddr.toNat + sizeOfSections (s :: rest) ≤ a + sizeOfSections sections := by
  have shorter (sections : List ScnHdr) :
      sizeOfSections (ofKind kind sections) ≤ sizeOfSections sections := by
    induction sections with
    | nil => exact Nat.le_refl 0
    | cons other rest inductionHypothesis =>
        by_cases same : other.kind = kind
        · simpa [ofKind, same] using inductionHypothesis
        · rw [sizeOfSections_cons, ofKind, List.filter_cons_of_neg (by simpa using same)]
          exact Nat.le_trans inductionHypothesis (Nat.le_add_left _ _)
  induction sections generalizing a with
  | nil => cases first
  | cons other later inductionHypothesis =>
      obtain ⟨addr, contiguous⟩ := contiguous
      by_cases same : other.kind = kind
      · have whole := shorter (other :: later)
        rw [first] at whole
        rw [ofKind, List.filter_cons_of_pos (by simpa using same), List.cons.injEq] at first
        rw [← first.1, addr]
        rw [← first.1] at whole
        omega
      · rw [ofKind, List.filter_cons_of_neg (by simpa using same)] at first
        have := inductionHypothesis contiguous first
        rw [sizeOfSections_cons other]
        omega

end Contiguous

/-! ### What the flat file holds -/

/-- After the sections `done`: the output has the contents of those that are copied,
each at its address, and nothing else. -/
structure Flattened (F : InputFile) (done : List ScnHdr) (c : Flattening) : Prop where
  top : c.top.toNat = sizeOfSections done
  length : c.written.length ≤ sizeOfSections done
  full : (∀ s ∈ done, s.Copied ∨ s.sSize = 0) → c.written.length = sizeOfSections done
  holds : ∀ s ∈ done, s.Copied → ∀ k : Nat, k < s.sSize.toNat →
    ∃ byte, F.bytes[s.sScnptr.toNat + k]? = some byte ∧
      c.written[s.sPaddr.toNat + k]? = some byte
  covered : ∀ a : Nat, a < c.written.length → ∃ s ∈ done, s.Copied ∧ s.Covers a

theorem writeAtPlace_end {file buffer written : List UInt8} {nBytes : Int}
    (some : nBytes ≠ -1)
    (wrote : writeAtPlace file file.length buffer nBytes = .some written) :
    written = file ++ buffer := by
  unfold writeAtPlace at wrote
  rw [if_neg some] at wrote
  split at wrote
  · cases wrote
    rw [List.take_length, Nat.sub_self, List.replicate_zero, List.append_nil,
      List.drop_eq_nil_of_le (Nat.le_add_right _ _), List.append_nil]
  · cases wrote

theorem readAt_eq_some {F : InputFile} {position : Nat} {nBytes : Int}
    {buffer : List UInt8 × Nat} (natural : 0 ≤ nBytes)
    (read : F.readAt position nBytes = some buffer) :
    position + nBytes.toNat ≤ F.bytes.length ∧
      buffer.1 = (F.bytes.drop position).take nBytes.toNat := by
  unfold InputFile.readAt at read
  rw [if_neg (by omega)] at read
  split at read
  · rename_i there
    cases read
    exact ⟨by omega, rfl⟩
  · cases read

namespace Flattened

variable {F : InputFile} {done : List ScnHdr} {c c' : Flattening} {s : ScnHdr}

/-- The end of the sections so far. -/
theorem top_next (flattened : Flattened F done c) (addr : s.sPaddr.toNat = sizeOfSections done)
    (small : sizeOfSections (done ++ [s]) < 2 ^ 31) :
    (if c.top.toInt < (s.sPaddr + s.sSize).toInt then s.sPaddr + s.sSize else c.top).toNat =
      sizeOfSections (done ++ [s]) := by
  have top := flattened.top
  rw [sizeOfSections_append, sizeOfSections_cons, sizeOfSections_nil] at *
  have last : (s.sPaddr + s.sSize).toNat = sizeOfSections done + s.sSize.toNat := by
    rw [BitVec.toNat_add, addr]
    omega
  rw [BitVec.toInt_eq_toNat_of_lt (by omega), BitVec.toInt_eq_toNat_of_lt (by omega), top, last]
  split
  · rw [last]
    omega
  · omega

/-- A section that is not copied, or is empty. -/
theorem keep (flattened : Flattened F done c) (nothing : ¬ s.Copied ∨ s.sSize = 0)
    (top : c'.top.toNat = sizeOfSections (done ++ [s])) (written : c'.written = c.written) :
    Flattened F (done ++ [s]) c' := by
  have empty : s.Copied → s.sSize = 0 := fun copied =>
    nothing.resolve_left fun not => not copied
  refine ⟨top, ?_, ?_, ?_, ?_⟩
  · rw [written, sizeOfSections_append]
    exact Nat.le_trans flattened.length (Nat.le_add_right _ _)
  · intro all
    have zero : s.sSize = 0 := (all s (by simp)).elim empty id
    rw [written, sizeOfSections_append, sizeOfSections_cons, zero,
      flattened.full fun other member => all other (List.mem_append_left _ member)]
    rfl
  · intro other member copied k inside
    rcases List.mem_append.mp member with earlier | now
    · rw [written]
      exact flattened.holds other earlier copied k inside
    · rw [List.mem_singleton] at now
      subst now
      rw [empty copied] at inside
      cases inside
  · intro a inside
    rw [written] at inside
    obtain ⟨other, member, covers⟩ := flattened.covered a inside
    exact ⟨other, List.mem_append_left _ member, covers⟩

/-- A section that is copied while the output has no gaps. -/
theorem copy (flattened : Flattened F done c) (copied : s.Copied)
    (addr : s.sPaddr.toNat = c.written.length)
    (full : c.written.length = sizeOfSections done)
    (there : s.sScnptr.toNat + s.sSize.toNat ≤ F.bytes.length)
    (top : c'.top.toNat = sizeOfSections (done ++ [s]))
    (written : c'.written = c.written ++ (F.bytes.drop s.sScnptr.toNat).take s.sSize.toNat) :
    Flattened F (done ++ [s]) c' := by
  have length : c'.written.length = c.written.length + s.sSize.toNat := by
    rw [written, List.length_append, List.length_take, List.length_drop]
    omega
  have whole : c'.written.length = sizeOfSections (done ++ [s]) := by
    rw [length, full, sizeOfSections_append, sizeOfSections_cons, sizeOfSections_nil,
      Nat.add_zero]
  refine ⟨top, Nat.le_of_eq whole, fun _ => whole, ?_, ?_⟩
  · intro other member otherCopied k inside
    rcases List.mem_append.mp member with earlier | now
    · obtain ⟨byte, read, here⟩ := flattened.holds other earlier otherCopied k inside
      refine ⟨byte, read, ?_⟩
      rw [written, List.getElem?_append_left (List.getElem?_eq_some_iff.mp here).1, here]
    · rw [List.mem_singleton] at now
      subst now
      have present : other.sScnptr.toNat + k < F.bytes.length := by omega
      refine ⟨F.bytes[other.sScnptr.toNat + k], List.getElem?_eq_getElem present, ?_⟩
      rw [written, addr, List.getElem?_append_right (Nat.le_add_right _ _),
        Nat.add_sub_cancel_left, slice_getElem? inside]
      exact List.getElem?_eq_getElem present
  · intro a inside
    by_cases earlier : a < c.written.length
    · obtain ⟨other, member, covers⟩ := flattened.covered a earlier
      exact ⟨other, List.mem_append_left _ member, covers⟩
    · exact ⟨s, by simp, copied, by omega, by omega⟩

/-- One turn of the loop. -/
theorem step (flattened : Flattened F done c) (addr : s.sPaddr.toNat = sizeOfSections done)
    (last : ∀ other ∈ done, other.Copied ∨ ¬ s.Copied ∨ s.sSize = 0)
    (small : sizeOfSections (done ++ [s]) < 2 ^ 31)
    (reachable : s.Copied → s.sSize ≠ 0 → 0 ≤ s.sScnptr.toInt)
    (step : c.step F s = some c') : Flattened F (done ++ [s]) c' := by
  have top := flattened.top_next addr small
  have natural : s.sSize.toInt = s.sSize.toNat := by
    apply BitVec.toInt_eq_toNat_of_lt
    rw [sizeOfSections_append, sizeOfSections_cons] at small
    omega
  unfold Flattening.step at step
  dsimp only at step
  by_cases copied : s.Copied
  · rw [if_pos copied] at step
    obtain ⟨buffer, read, step⟩ := Option.bind_eq_some_iff.mp step
    obtain ⟨written, wrote, rfl⟩ := Option.map_eq_some_iff.mp step
    have wrote := writeAtPlace_end (by omega) wrote
    obtain ⟨there, contents⟩ := readAt_eq_some (by omega) read
    rw [natural, Int.toNat_natCast] at there contents
    by_cases empty : s.sSize = 0
    · refine flattened.keep (.inr empty) top ?_
      rw [wrote, contents, empty]
      exact List.append_nil _
    · have start := reachable copied empty
      rw [if_pos start] at there contents
      have full : c.written.length = sizeOfSections done := by
        apply flattened.full
        intro other member
        refine .inl ((last other member).resolve_right ?_)
        rintro (other | zero)
        · exact other copied
        · exact empty zero
      exact flattened.copy copied (addr.trans full.symm) full there top (by rw [wrote, contents])
  · rw [if_neg copied] at step
    cases step
    exact flattened.keep (.inl copied) top rfl

end Flattened

/-- The output after the loop. -/
theorem flattened_of_exec {F : InputFile} {position : Nat} {done : List ScnHdr}
    {c : Flattening} (contiguous : Contiguous 0 done)
    (last : done.Pairwise fun s later => s.Copied ∨ ¬ later.Copied ∨ later.sSize = 0)
    (small : sizeOfSections done < 2 ^ 31)
    (reachable : ∀ s ∈ done, s.Copied → s.sSize ≠ 0 → 0 ≤ s.sScnptr.toInt)
    (run : (flatLoop F).exec { top := 0, position := position, written := [] } done = some c) :
    Flattened F done c := by
  induction done using List.reverseRecOn generalizing c with
  | nil =>
      cases run
      exact ⟨rfl, Nat.le_refl 0, fun _ => rfl, nofun, fun a inside => nomatch inside⟩
  | append_singleton done s inductionHypothesis =>
      obtain ⟨before, run, step⟩ := (Machine.exec_snoc_eq_some _).mp run
      obtain ⟨contiguous, addr⟩ := contiguous.snoc
      obtain ⟨lastBefore, -, lastHere⟩ := List.pairwise_append.mp last
      have smaller : sizeOfSections done < 2 ^ 31 := by
        rw [sizeOfSections_append] at small
        omega
      have flattened := inductionHypothesis contiguous lastBefore smaller
        (fun other member => reachable other (List.mem_append_left _ member)) run
      exact flattened.step (addr.trans (Nat.zero_add _))
        (fun other member => lastHere other member s (by simp)) small
        (reachable s (by simp)) step

theorem ofList_natCast (bytes : List UInt8) (i : Nat) :
    Memory.ofList bytes i = bytes.getD i 0 :=
  if_pos (Int.natCast_nonneg i)

/-- What `coff2flat` puts out: the contents of the sections at their addresses, and
zeros up to the end of the stack. -/
theorem image_of_flatten {F : InputFile} {flat : List UInt8} (packed : F.Packed)
    (reachable : ∀ s ∈ F.sections, s.Copied → s.sSize ≠ 0 → 0 ≤ s.sScnptr.toInt)
    (kinds : ∀ s ∈ F.sections, s.kind ≠ .unknown) (flattened : F.flatten = some flat) :
    flat.length = sizeOfSections F.sections + flatStackSize.toNat ∧
      F.Image flat.length (Memory.ofList flat) := by
  have small := packed.small
  have stack : flatStackSize.toNat = 1024 := rfl
  unfold InputFile.flatten at flattened
  split at flattened
  · obtain ⟨c, run, blank⟩ := Option.bind_eq_some_iff.mp flattened
    have written := flattened_of_exec packed.contiguous packed.last (by omega) reachable run
    have top := written.top
    have length := written.length
    have place : (c.top + flatStackSize - 4).toNat = sizeOfSections F.sections + 1020 := by
      rw [BitVec.toNat_sub, BitVec.toNat_add, top, stack,
        show (4 : BitVec 32).toNat = 4 from rfl]
      omega
    have zeros : List.replicate (sizeOfSections F.sections + 1020 - c.written.length) 0 ++
        [0, 0, 0, 0] =
          List.replicate (sizeOfSections F.sections + 1024 - c.written.length) (0 : UInt8) := by
      rw [show [0, 0, 0, 0] = List.replicate 4 (0 : UInt8) from rfl,
        List.replicate_append_replicate]
      exact congrArg (List.replicate · 0) (by omega)
    have behind : flat = c.written ++
        List.replicate (sizeOfSections F.sections + 1024 - c.written.length) 0 := by
      have sign : 0 ≤ (c.top + flatStackSize - 4).toInt := by
        rw [BitVec.toInt_eq_toNat_of_lt (by omega)]
        omega
      unfold Flattening.putBlankWord writeAtPlace at blank
      dsimp only at blank
      rw [if_pos sign, place, if_neg (by decide), if_pos (by omega)] at blank
      cases blank
      rw [List.take_of_length_le (by omega), List.drop_eq_nil_of_le (by omega), List.append_nil,
        List.append_assoc, zeros]
    have whole : flat.length = sizeOfSections F.sections + flatStackSize.toNat := by
      rw [behind, List.length_append, List.length_replicate]
      omega
    refine ⟨whole, ?_, ?_⟩
    · intro s member kind k inside
      have copied : s.Copied := ScnHdr.copied_of_kind kind
      obtain ⟨byte, read, here⟩ := written.holds s member copied k inside
      have low := (List.getElem?_eq_some_iff.mp here).1
      refine ⟨by omega, ?_⟩
      rw [read, ← Int.natCast_add, ofList_natCast, behind, List.getD_eq_getElem?_getD,
        List.getElem?_append_left low, here]
      rfl
    · intro a low uncovered
      have outside : c.written.length ≤ a := by
        by_contra inside
        obtain ⟨s, member, copied, covers⟩ := written.covered a (Nat.lt_of_not_le inside)
        refine uncovered s member (ScnHdr.kind_of_copied copied ?_ (kinds s member)) covers
        intro zero
        obtain ⟨low, high⟩ := covers
        rw [zero] at high
        exact absurd high (Nat.not_lt.mpr low)
      rw [ofList_natCast, behind, List.getD_eq_getElem?_getD, List.getElem?_append_right outside,
        List.getElem?_replicate]
      split
      · rfl
      · rfl
  · cases flattened

/-! ### The two converters agree -/

/-- The size that is noted of the uninitialised sections. -/
theorem mergedRange_size (sections : List ScnHdr) :
    (mergedRange sections).2.toNat = sizeOfSections sections % 2 ^ 32 := by
  induction sections using List.reverseRecOn with
  | nil => rfl
  | append_singleton sections s inductionHypothesis =>
      have added : (mergedRange (sections ++ [s])).2 = (mergedRange sections).2 + s.sSize := by
        rw [mergedRange, List.foldl_concat, ← mergedRange, merge]
        split
        · rename_i zero
          rw [zero]
          exact (BitVec.zero_add _).symm
        · rfl
      rw [added, BitVec.toNat_add, inductionHypothesis, sizeOfSections_append,
        sizeOfSections_cons, sizeOfSections_nil]
      omega

/-- The address that is noted is that of the first one. -/
theorem mergedRange_addr {first : ScnHdr} {rest : List ScnHdr} (some : first.sSize ≠ 0)
    (small : sizeOfSections (first :: rest) < 2 ^ 32) :
    (mergedRange (first :: rest)).1 = first.sPaddr := by
  induction rest using List.reverseRecOn with
  | nil => simp [mergedRange, merge]
  | append_singleton rest s inductionHypothesis =>
      rw [← List.cons_append, sizeOfSections_append] at small
      have size := mergedRange_size (first :: rest)
      have positive : 0 < first.sSize.toNat := BitVec.toNat_pos_of_ne_zero some
      rw [Nat.mod_eq_of_lt (by omega), sizeOfSections_cons] at size
      rw [← List.cons_append, mergedRange, List.foldl_concat, ← mergedRange, merge, if_neg]
      · exact inductionHypothesis (by omega)
      · intro zero
        rw [zero, show (0 : BitVec 32).toNat = 0 from rfl] at size
        omega

/-- A segment is that of a range of sections: it has their size and begins where the
first one does. -/
def Segment.Spans (segment : Segment) (sections : List ScnHdr) : Prop :=
  segment.size.toNat = sizeOfSections sections ∧
    ∀ first rest, sections = first :: rest → segment.virtualAddr = first.sPaddr

theorem spans_one {segment : Segment} {s : ScnHdr} (addr : segment.virtualAddr = s.sPaddr)
    (size : segment.size = s.sSize) : segment.Spans [s] := by
  refine ⟨by rw [size]; simp, ?_⟩
  intro first rest same
  cases same
  exact addr

theorem spans_nil {segment : Segment} (size : segment.size = 0) : segment.Spans [] :=
  ⟨by rw [size]; rfl, nofun⟩

section

variable {F : InputFile} {bigEndian : Bool} {frame : NoffHeader} {noff : NoffFile}

/-- Sections that are not empty have known names in a file that is accepted. -/
theorem known_of_exec {done : List ScnHdr} {c c' : Conversion}
    (run : (sectionLoop F).exec c done = some c') : ∀ s ∈ done, s.kind ≠ .unknown := by
  induction done using List.reverseRecOn generalizing c' with
  | nil => exact nofun
  | append_singleton done s inductionHypothesis =>
      obtain ⟨before, run, step⟩ := (Machine.exec_snoc_eq_some _).mp run
      intro other member
      rcases List.mem_append.mp member with earlier | now
      · exact inductionHypothesis run other earlier
      · rw [List.mem_singleton] at now
        subst now
        rcases Conversion.step_cases step with
          ⟨kind, -⟩ | ⟨kind, -⟩ | ⟨kind, -⟩ | ⟨kind, -⟩
        · simp [kind]
        · simp [kind]
        · simp [kind]
        · simp [kind]

/-- Every section has its kind. -/
theorem sizeOfSections_kinds {sections : List ScnHdr}
    (known : ∀ s ∈ sections, s.kind ≠ .unknown) :
    sizeOfSections sections = sizeOfSections (ofKind .text sections) +
      sizeOfSections (ofKind .data sections) + sizeOfSections (ofKind .bss sections) := by
  induction sections with
  | nil => rfl
  | cons s rest inductionHypothesis =>
      have later := inductionHypothesis fun other member => known other (.tail _ member)
      rw [sizeOfSections_cons, later]
      cases kind : s.kind with
      | empty =>
          have zero : s.sSize = 0 := by
            by_contra some
            have := known s (.head _)
            unfold ScnHdr.kind at kind
            rw [if_neg some] at kind
            split at kind
            · cases kind
            · split at kind
              · cases kind
              · split at kind <;> cases kind
          simp [ofKind, kind, zero]
      | text =>
          simp [ofKind, kind]
          omega
      | data =>
          simp [ofKind, kind]
          omega
      | bss =>
          simp [ofKind, kind]
          omega
      | unknown => exact absurd kind (known s (.head _))

/-- There is only one section of code in a packed file, if all say the same. -/
theorem InputFile.Packed.one_text (packed : F.Packed) (faithful : F.Faithful) :
    (ofKind .text F.sections).length ≤ 1 := by
  have disjoint := packed.contiguous.disjoint.filter fun s => s.kind = .text
  have repeats := faithful.text
  rw [← ofKind] at disjoint
  have covers (s : ScnHdr) (member : s ∈ ofKind .text F.sections) : s.Covers s.sPaddr.toNat := by
    have := BitVec.toNat_pos_of_ne_zero (kind_ne_empty member (by decide))
    exact ⟨Nat.le_refl _, by omega⟩
  generalize ofKind .text F.sections = texts at *
  cases texts with
  | nil => exact Nat.zero_le 1
  | cons s rest =>
      cases rest with
      | nil => exact Nat.le_refl 1
      | cons t rest =>
          obtain ⟨last, isLast⟩ := Option.isSome_iff_exists.mp
            (List.getLast?_isSome.mpr (List.cons_ne_nil s (t :: rest)))
          have first := (repeats last isLast s (by simp)).1
          have second := (repeats last isLast t (by simp)).1
          have both := covers s (by simp)
          have both' := covers t (by simp)
          rw [second, ← first] at both'
          exact absurd ⟨both, both'⟩ ((List.pairwise_cons.mp disjoint).1 t (by simp) _)

/-- The segments in the header of a packed file. -/
theorem InputFile.Packed.spans (packed : F.Packed) (faithful : F.Faithful) {noffH : NoffHeader}
    (noted : Noted F.sections noffH) :
    noffH.code.Spans (ofKind .text F.sections) ∧ noffH.initData.Spans (ofKind .data F.sections) ∧
      noffH.uninitData.Spans (ofKind .bss F.sections) := by
  refine ⟨?_, ?_, ?_⟩
  · have one := packed.one_text faithful
    have noCode := noted.noCode
    have code := noted.code
    generalize ofKind .text F.sections = texts at *
    cases texts with
    | nil => exact spans_nil (noCode rfl)
    | cons t rest =>
        cases rest with
        | nil => exact spans_one (code t rfl).1 (code t rfl).2
        | cons u rest =>
            simp only [List.length_cons] at one
            omega
  · cases datas : ofKind .data F.sections with
    | nil => exact spans_nil (noted.noData datas)
    | cons d rest =>
        obtain ⟨one, addr, size⟩ := noted.data d (by simp [datas])
        rw [← datas, one]
        exact spans_one addr size
  · have small := packed.small
    have shorter : sizeOfSections (ofKind .bss F.sections) < 2 ^ 32 := by
      cases bss : ofKind .bss F.sections with
      | nil => decide
      | cons b rest =>
          have := packed.contiguous.ofKind_le bss
          omega
    have size := noted.uninitSize
    have addr := noted.uninitAddr
    constructor
    · rw [size, mergedRange_size, Nat.mod_eq_of_lt shorter]
    · intro first rest same
      have member : first ∈ ofKind .bss F.sections := by simp [same]
      have some : first.sSize ≠ 0 := kind_ne_empty member (by decide)
      rw [same] at addr shorter
      rw [addr (List.cons_ne_nil _ _), mergedRange_addr some shorter]

/-- The header asks for as many bytes as the sections have. -/
theorem InputFile.Packed.total (packed : F.Packed) (faithful : F.Faithful) {noffH : NoffHeader}
    (noted : Noted F.sections noffH) (known : ∀ s ∈ F.sections, s.kind ≠ .unknown) :
    noffH.total.toNat = sizeOfSections F.sections := by
  obtain ⟨code, data, bss⟩ := packed.spans faithful noted
  have small := packed.small
  have kinds := sizeOfSections_kinds known
  unfold NoffHeader.total
  rw [BitVec.toNat_add, BitVec.toNat_add, code.1, data.1, bss.1]
  omega

/-- Code and data are within the pages. -/
theorem InputFile.Packed.inPages (packed : F.Packed) (faithful : F.Faithful) {noffH : NoffHeader}
    (noted : Noted F.sections noffH) (known : ∀ s ∈ F.sections, s.kind ≠ .unknown) :
    noffH.InPages := by
  obtain ⟨code, data, -⟩ := packed.spans faithful noted
  have total := packed.total faithful noted known
  have small := packed.small
  have within {segment : Segment} {kind : SectionKind}
      (spans : segment.Spans (ofKind kind F.sections)) (positive : 0 < segment.size.toInt) :
      0 ≤ segment.virtualAddr.toInt ∧
        segment.virtualAddr.toInt + segment.size.toInt ≤ noffH.numPages.toNat * pageSize := by
    rw [AddrSpace.numPages_toNat]
    simp only [pageSize]
    obtain ⟨size, addr⟩ := spans
    cases sections : ofKind kind F.sections with
    | nil =>
        rw [sections, sizeOfSections_nil] at size
        rw [BitVec.toInt_eq_toNat_of_lt (by omega), size] at positive
        omega
    | cons first rest =>
        have last := packed.contiguous.ofKind_le sections
        rw [← addr first rest sections, ← sections, ← size] at last
        rw [BitVec.toInt_eq_toNat_of_lt (by omega), BitVec.toInt_eq_toNat_of_lt (by omega)]
        omega
  intro segment member positive
  simp only [List.mem_cons, List.not_mem_nil, or_false] at member
  rcases member with rfl | rfl
  · exact within code positive
  · exact within data positive

/-- Code and data have no address in common. -/
theorem InputFile.Packed.apart (packed : F.Packed) : F.Apart := by
  intro t isText d isData a both
  obtain ⟨textMember, text⟩ := mem_ofKind.mp isText
  obtain ⟨dataMember, data⟩ := mem_ofKind.mp isData
  have different : t ≠ d := by
    rintro rfl
    rw [text] at data
    cases data
  exact packed.contiguous.apart textMember dataMember different a both

end

/-- Two images of one file agree where both are given. -/
theorem InputFile.Image.agree {F : InputFile} {size size' : Nat} {image image' : Memory}
    (first : F.Image size image) (second : F.Image size' image') {a : Nat} (low : a < size)
    (low' : a < size') : image a = image' a := by
  by_cases covered : ∃ s ∈ F.sections, (s.kind = .text ∨ s.kind = .data) ∧ s.Covers a
  · obtain ⟨s, member, kind, covers⟩ := covered
    obtain ⟨k, rfl⟩ := Nat.exists_eq_add_of_le covers.1
    have inside : k < s.sSize.toNat := Nat.lt_of_add_lt_add_left covers.2
    have read := (first.sections s member kind k inside).2
    rw [(second.sections s member kind k inside).2, Option.some.injEq] at read
    rw [Int.natCast_add]
    exact read.symm
  · have uncovered : ∀ s ∈ F.sections, s.kind = .text ∨ s.kind = .data → ¬ s.Covers a :=
      fun s member kind covers => covered ⟨s, member, kind, covers⟩
    rw [first.zero a low uncovered, second.zero a low' uncovered]

/-- An object file whose sections lie one behind the other from address 0 on is given
to both converters.  When `AddrSpace` has loaded the NOFF file, the main memory of the
program is the flat file, with zeros behind it up to the end of the last page. -/
theorem flat_file_is_loaded_image {F : InputFile} {bigEndian : Bool} {frame : NoffHeader}
    {noff : NoffFile} {flat : List UInt8} {executable : Executable} {stack : Memory}
    {m m' : Processor} {bits : Int → BitVec 32} {heap : Int → Option OpenFile}
    {space : AddrSpace} (packed : F.Packed) (faithful : F.Faithful)
    (converted : F.convert bigEndian frame = some noff) (flattened : F.flatten = some flat)
    (reads : executable.Reads noff.bytes)
    (constructed : AddrSpace.construct executable stack bits heap m = some (space, m')) :
    flat.length ≤ space.numPages.toNat * pageSize ∧
      space.numPages.toNat * pageSize < flat.length + pageSize ∧
      ∀ a : Nat, a < space.numPages.toNat * pageSize → m'.mainMemory a = flat.getD a 0 := by
  obtain ⟨c, run, header, -⟩ := convert_eq_some converted
  have noted := noted_of_exec run
  have known := known_of_exec run
  have inPages := packed.inPages faithful noted known
  have total := packed.total faithful noted known
  rw [← header] at inPages total
  have loaded := image_of_construct converted reads faithful packed.apart inPages constructed
  have reachable (s : ScnHdr) (member : s ∈ F.sections) (copied : s.Copied)
      (some : s.sSize ≠ 0) : 0 ≤ s.sScnptr.toInt :=
    (faithful.regular s member (ScnHdr.kind_of_copied copied some (known s member))).2
  obtain ⟨length, image⟩ := image_of_flatten packed reachable known flattened
  have sameHeader := header_of_constructed converted reads (accepted_of_construct constructed)
  obtain ⟨-, pages, -, -⟩ := AddrSpace.construct_eq_some constructed
  have stack : flatStackSize.toNat = 1024 := rfl
  have size : space.numPages.toNat = (sizeOfSections F.sections + 127) / 128 + 8 := by
    rw [pages, sameHeader, AddrSpace.numPages_toNat, total]
  have enough : flat.length ≤ space.numPages.toNat * pageSize := by
    simp only [pageSize]
    omega
  refine ⟨enough, by simp only [pageSize]; omega, ?_⟩
  intro a low
  rw [← ofList_natCast]
  by_cases inside : a < flat.length
  · exact loaded.agree image low inside
  · rw [ofList_natCast, List.getD_eq_getElem?_getD,
      List.getElem?_eq_none (Nat.le_of_not_lt inside)]
    apply loaded.zero a low
    intro s member kind covers
    obtain ⟨k, rfl⟩ := Nat.exists_eq_add_of_le covers.1
    exact inside (image.sections s member kind k (Nat.lt_of_add_lt_add_left covers.2)).1

theorem packed_linkedFile : linkedFile.Packed := by
  refine ⟨?_, ?_, ?_⟩
  · rw [sections_linkedFile]
    exact ⟨rfl, rfl, rfl, trivial⟩
  · rw [sections_linkedFile]
    decide
  · rw [sections_linkedFile]
    decide

/-- A file of code, data and .bss, converted on a little-endian host and loaded on a
big-endian one. -/
theorem flat_file_is_loaded_image_linkedFile :
    ∃ noff flat space m', linkedFile.convert false noHeader = some noff ∧
      linkedFile.flatten = some flat ∧
      AddrSpace.construct (.ofContent (Memory.ofList noff.bytes)) (fun _ => 0) (fun _ => 0)
        (fun _ => none) { onePage 0 fun _ => 0 with hostIsBigEndian := true } =
          some (space, m') ∧
      flat.length ≤ space.numPages.toNat * pageSize ∧
      space.numPages.toNat * pageSize < flat.length + pageSize ∧
      ∀ a : Nat, a < space.numPages.toNat * pageSize → m'.mainMemory a = flat.getD a 0 := by
  have accepted : ((linkedFile.convert false noHeader).bind fun noff =>
      AddrSpace.construct (.ofContent (Memory.ofList noff.bytes)) (fun _ => 0) (fun _ => 0)
        (fun _ => none) { onePage 0 fun _ => 0 with hostIsBigEndian := true }).isSome := by
    decide +kernel
  have given : linkedFile.flatten.isSome := by decide +kernel
  obtain ⟨result, accepted⟩ := Option.isSome_iff_exists.mp accepted
  obtain ⟨flat, flattened⟩ := Option.isSome_iff_exists.mp given
  obtain ⟨noff, converted, constructed⟩ := Option.bind_eq_some_iff.mp accepted
  exact ⟨noff, flat, result.1, result.2, converted, flattened, constructed,
    flat_file_is_loaded_image packed_linkedFile faithful_linkedFile converted flattened
      (Executable.reads_ofContent _) constructed⟩

end Nachos
