/-
Module: Nachos.Machine.Protection
Purpose: The address translation of translate.cc as a protection mechanism: for
  which accesses it gives a physical address, which of its checks reports a
  failure, and that a TLB which agrees with a page table protects as the page
  table does.
Trusted boundary: none
Main exports: Processor.MapsAt, Checked, translate_checked, Coherent,
  tlb_agrees
-/
import Nachos.Machine.Translation

namespace Nachos

/-! ### The entry of a page -/

/-- The entry is valid and for the virtual page. -/
def TranslationEntry.Names (entry : TranslationEntry) (vpn : Nat) : Prop :=
  entry.valid = true ∧ entry.virtualPage.toNat = vpn

/-- The number of a frame, which is an `int`, is that of a page of main
memory. -/
def TranslationEntry.InMemory (entry : TranslationEntry) : Prop :=
  0 ≤ entry.physicalPage.toInt ∧ entry.physicalPage.toInt < numPhysPages

/-- `Machine::Translate` compares the number as an `unsigned int`. -/
theorem inMemory_iff (entry : TranslationEntry) :
    entry.InMemory ↔ entry.physicalPage.toNat < numPhysPages := by
  have bound := entry.physicalPage.isLt
  unfold TranslationEntry.InMemory
  rw [BitVec.toInt_eq_toNat_cond]
  simp only [numPhysPages]
  split
  · omega
  · omega

namespace Processor

/-- The TLB or the page table, whichever there is. -/
def entries (m : Processor) : List TranslationEntry :=
  (m.tlb <|> m.pageTable).getD []

/-- The machine with another entry at an index of its TLB or page table. -/
def putEntry (m : Processor) (i : Nat) (entry : TranslationEntry) : Processor :=
  { m with
    tlb := m.tlb.map fun tlb => tlb.set i entry
    pageTable := m.pageTable.map fun pageTable => pageTable.set i entry }

/-- The entry at index `i` maps the virtual page: the first valid one for it in
the TLB, or the valid one at its index in the page table. -/
def MapsAt (m : Processor) (vpn i : Nat) (entry : TranslationEntry) : Prop :=
  m.entries[i]? = some entry ∧
    if m.tlb.isSome then
      entry.Names vpn ∧ ∀ j < i, ∀ other, m.entries[j]? = some other → ¬ other.Names vpn
    else i = vpn ∧ entry.valid = true

/-- The exception for a page that no entry maps: the page table alone knows
addresses that are too large. -/
def unmappedException (m : Processor) (vpn : Nat) : ExceptionType :=
  if m.tlb.isNone ∧ m.entries.length ≤ vpn then .addressErrorException else .pageFaultException

section

variable {m : Processor} {tlb table : List TranslationEntry}

theorem entries_tlb (cached : m.tlb = some tlb) : m.entries = tlb := by
  unfold entries
  rw [cached]
  rfl

theorem entries_pageTable (noTlb : m.tlb = none) (direct : m.pageTable = some table) :
    m.entries = table := by
  unfold entries
  rw [noTlb, direct]
  rfl

theorem putEntry_tlb (cached : m.tlb = some tlb) (noTable : m.pageTable = none) (i : Nat)
    (entry : TranslationEntry) :
    m.putEntry i entry = { m with tlb := some (tlb.set i entry), pageTable := none } := by
  unfold putEntry
  rw [cached, noTable]
  rfl

theorem putEntry_pageTable (noTlb : m.tlb = none) (direct : m.pageTable = some table) (i : Nat)
    (entry : TranslationEntry) :
    m.putEntry i entry = { m with tlb := none, pageTable := some (table.set i entry) } := by
  unfold putEntry
  rw [noTlb, direct]
  rfl

/-- No two entries map a page. -/
theorem MapsAt.unique {vpn i j : Nat} {entry other : TranslationEntry}
    (first : m.MapsAt vpn i entry) (second : m.MapsAt vpn j other) : i = j ∧ entry = other := by
  obtain ⟨atI, first⟩ := first
  obtain ⟨atJ, second⟩ := second
  have same : i = j := by
    by_cases cached : m.tlb.isSome = true
    · rw [if_pos cached] at first second
      rcases Nat.lt_trichotomy i j with before | same | after
      · exact absurd first.1 (second.2 i before entry atI)
      · exact same
      · exact absurd second.1 (first.2 j after other atJ)
    · rw [if_neg cached] at first second
      exact first.1.trans second.1.symm
  subst same
  exact ⟨rfl, Option.some.inj (atI.symm.trans atJ)⟩

end

/-! ### The search -/

variable {m : Processor} {tlb table : List TranslationEntry} {vpn : Nat}

/-- The condition of the loop over the TLB. -/
theorem names_iff (entry : TranslationEntry) (vpn : Nat) :
    (entry.valid && entry.virtualPage.toNat == vpn) = true ↔ entry.Names vpn := by
  unfold TranslationEntry.Names
  rw [Bool.and_eq_true, beq_iff_eq]

/-- The loop over the TLB stops at the entry that maps the page. -/
theorem mapsAt_findIdx (cached : m.tlb = some tlb) {entry : TranslationEntry}
    (found : tlb[tlb.findIdx fun e => e.valid && e.virtualPage.toNat == vpn]? = some entry) :
    m.MapsAt vpn (tlb.findIdx fun e => e.valid && e.virtualPage.toNat == vpn) entry := by
  unfold MapsAt
  rw [entries_tlb cached, if_pos (by rw [cached]; rfl)]
  have stopped : (entry.valid && entry.virtualPage.toNat == vpn) = true :=
    List.findIdx_of_getElem?_eq_some
      (p := fun e : TranslationEntry => e.valid && e.virtualPage.toNat == vpn) found
  refine ⟨found, (names_iff entry vpn).mp stopped, ?_⟩
  intro j before other atJ names
  obtain ⟨inside, rfl⟩ := List.getElem?_eq_some_iff.mp atJ
  have passed := List.not_of_lt_findIdx before
  rw [(names_iff _ vpn).mpr names] at passed
  cases passed

/-- A loop over the TLB that runs to its end has met no entry for the page. -/
theorem not_mapsAt_of_findIdx (cached : m.tlb = some tlb)
    (missed : tlb[tlb.findIdx fun e => e.valid && e.virtualPage.toNat == vpn]? = none) (i : Nat)
    (entry : TranslationEntry) : ¬ m.MapsAt vpn i entry := by
  unfold MapsAt
  rw [entries_tlb cached, if_pos (by rw [cached]; rfl)]
  rintro ⟨atI, names, -⟩
  have inside := List.findIdx_lt_length_of_exists
    (p := fun e : TranslationEntry => e.valid && e.virtualPage.toNat == vpn)
    ⟨entry, List.mem_of_getElem? atI, (names_iff entry vpn).mpr names⟩
  have outside := List.getElem?_eq_none_iff.mp missed
  omega

theorem mapsAt_pageTable (noTlb : m.tlb = none) (direct : m.pageTable = some table) (i : Nat)
    (entry : TranslationEntry) :
    m.MapsAt vpn i entry ↔ i = vpn ∧ table[vpn]? = some entry ∧ entry.valid = true := by
  unfold MapsAt
  rw [entries_pageTable noTlb direct, if_neg (by rw [noTlb]; exact Bool.false_ne_true)]
  constructor
  · rintro ⟨atI, rfl, valid⟩
    exact ⟨rfl, atI, valid⟩
  · rintro ⟨rfl, atI, valid⟩
    exact ⟨atI, rfl, valid⟩

/-- The number of the page of an address, and the offset in it. -/
def vpnOf (virtAddr : BitVec 32) : Nat :=
  virtAddr.toNat / pageSize

def offsetOf (virtAddr : BitVec 32) : Nat :=
  virtAddr.toNat % pageSize

/-- What an aligned access comes to: either an entry maps the page, and the rest
depends on it, or none does. -/
def LooksUp (m : Processor) (virtAddr : BitVec 32) (size : Nat) (writing : Bool) : Prop :=
  (∃ i entry, m.MapsAt (vpnOf virtAddr) i entry ∧
      m.translate virtAddr size writing =
        translateBy entry (m.putEntry i) (offsetOf virtAddr) size writing) ∨
    ((∀ i entry, ¬ m.MapsAt (vpnOf virtAddr) i entry) ∧
      m.translate virtAddr size writing =
        some (.error (m.unmappedException (vpnOf virtAddr))))

section

variable {virtAddr : BitVec 32} {size : Nat} {writing : Bool}

/-- The entry of the page table at the number of the page. -/
theorem looksUp_pageTable (noTlb : m.tlb = none) (direct : m.pageTable = some table)
    (aligned : ¬ misaligned virtAddr size) : m.LooksUp virtAddr size writing := by
  have entries : ∀ i entry, m.MapsAt (vpnOf virtAddr) i entry ↔
      i = vpnOf virtAddr ∧ table[vpnOf virtAddr]? = some entry ∧ entry.valid = true :=
    mapsAt_pageTable noTlb direct
  unfold LooksUp translate
  rw [if_neg aligned, noTlb, direct]
  dsimp only
  cases found : table[virtAddr.toNat / pageSize]? with
  | none =>
      right
      refine ⟨fun i entry maps => ?_, ?_⟩
      · cases found.symm.trans ((entries i entry).mp maps).2.1
      · have large := List.getElem?_eq_none_iff.mp found
        unfold unmappedException
        rw [entries_pageTable noTlb direct, if_pos ⟨by rw [noTlb]; rfl, large⟩]
  | some entry =>
      dsimp only
      split
      · rename_i valid
        left
        refine ⟨_, entry, (entries _ entry).mpr ⟨rfl, found, valid⟩, ?_⟩
        congr 1
        funext changed
        exact (putEntry_pageTable noTlb direct _ changed).symm
      · rename_i invalid
        right
        refine ⟨fun i other maps => ?_, ?_⟩
        · obtain ⟨-, atI, valid⟩ := (entries i other).mp maps
          obtain rfl := Option.some.inj (found.symm.trans atI)
          exact invalid valid
        · obtain ⟨inside, -⟩ := List.getElem?_eq_some_iff.mp found
          unfold unmappedException
          rw [entries_pageTable noTlb direct, if_neg fun large =>
            Nat.not_le_of_lt inside large.2]

/-- The first entry of the TLB that names the page. -/
theorem looksUp_tlb (cached : m.tlb = some tlb) (noTable : m.pageTable = none)
    (aligned : ¬ misaligned virtAddr size) : m.LooksUp virtAddr size writing := by
  unfold LooksUp translate
  rw [if_neg aligned, cached, noTable]
  dsimp only
  split
  · rename_i missed
    right
    refine ⟨not_mapsAt_of_findIdx cached missed, ?_⟩
    unfold unmappedException
    rw [if_neg fun large => by simp [cached] at large]
  · rename_i entry found
    left
    refine ⟨_, entry, mapsAt_findIdx cached found, ?_⟩
    congr 1
    funext changed
    exact (putEntry_tlb cached noTable _ changed).symm

theorem translate_cases (mapped : m.Mapped) (aligned : ¬ misaligned virtAddr size) :
    m.LooksUp virtAddr size writing := by
  cases cached : m.tlb with
  | none =>
      cases direct : m.pageTable with
      | none => simp [Mapped, cached, direct] at mapped
      | some table => exact looksUp_pageTable cached direct aligned
  | some tlb =>
      cases direct : m.pageTable with
      | some table => simp [Mapped, cached, direct] at mapped
      | none => exact looksUp_tlb cached direct aligned

end

end Processor

/-! ### The checks in their order -/

/-- What `Machine::Translate` must give: the exception of the first check that
fails, or the physical address and the machine with the bits of the entry
set. -/
inductive Checked (m : Processor) (virtAddr : BitVec 32) (size : Nat) (writing : Bool) :
    Except ExceptionType (Nat × Processor) → Prop where
  | alignment (unaligned : Processor.misaligned virtAddr size) :
      Checked m virtAddr size writing (.error .addressErrorException)
  | mapping (aligned : ¬ Processor.misaligned virtAddr size)
      (unmapped : ∀ i entry, ¬ m.MapsAt (Processor.vpnOf virtAddr) i entry) :
      Checked m virtAddr size writing
        (.error (m.unmappedException (Processor.vpnOf virtAddr)))
  | readOnly (aligned : ¬ Processor.misaligned virtAddr size) {i : Nat}
      {entry : TranslationEntry} (maps : m.MapsAt (Processor.vpnOf virtAddr) i entry)
      (guarded : entry.readOnly = true ∧ writing = true) :
      Checked m virtAddr size writing (.error .readOnlyException)
  | frame (aligned : ¬ Processor.misaligned virtAddr size) {i : Nat}
      {entry : TranslationEntry} (maps : m.MapsAt (Processor.vpnOf virtAddr) i entry)
      (permitted : ¬ (entry.readOnly = true ∧ writing = true)) (outside : ¬ entry.InMemory) :
      Checked m virtAddr size writing (.error .busErrorException)
  | allowed (aligned : ¬ Processor.misaligned virtAddr size) {i : Nat}
      {entry : TranslationEntry} (maps : m.MapsAt (Processor.vpnOf virtAddr) i entry)
      (permitted : ¬ (entry.readOnly = true ∧ writing = true)) (inside : entry.InMemory) :
      Checked m virtAddr size writing
        (.ok (entry.physicalPage.toNat * pageSize + Processor.offsetOf virtAddr,
          m.putEntry i { entry with use := true, dirty := entry.dirty || writing }))

section

variable {m : Processor} {virtAddr : BitVec 32} {size : Nat} {writing : Bool}
  {result : Except ExceptionType (Nat × Processor)}

/-- `Machine::Translate` with the entry at hand; its last assertion holds, as an
aligned access stays within its page. -/
theorem checked_translateBy (known : Processor.AccessSize size)
    (aligned : ¬ Processor.misaligned virtAddr size) {i : Nat} {entry : TranslationEntry}
    (maps : m.MapsAt (Processor.vpnOf virtAddr) i entry) :
    ∃ result,
      Processor.translateBy entry (m.putEntry i) (Processor.offsetOf virtAddr) size writing =
        some result ∧ Checked m virtAddr size writing result := by
  have within := Processor.offset_add_le known aligned
  unfold Processor.translateBy
  split
  · rename_i guarded
    exact ⟨_, rfl, Checked.readOnly aligned maps guarded⟩
  · rename_i permitted
    split
    · rename_i large
      exact ⟨_, rfl, Checked.frame aligned maps permitted
        fun inside => Nat.not_lt_of_le large ((inMemory_iff entry).mp inside)⟩
    · rename_i small
      have inside : entry.InMemory := (inMemory_iff entry).mpr (Nat.lt_of_not_le small)
      dsimp only
      rw [if_pos]
      · exact ⟨_, rfl, Checked.allowed aligned maps permitted inside⟩
      · simp only [Processor.offsetOf, numPhysPages, pageSize, memorySize] at *
        omega

theorem exists_checked (mapped : m.Mapped) (known : Processor.AccessSize size)
    (virtAddr : BitVec 32) (writing : Bool) :
    ∃ result, m.translate virtAddr size writing = some result ∧
      Checked m virtAddr size writing result := by
  by_cases unaligned : Processor.misaligned virtAddr size
  · exact ⟨_, Processor.translate_misaligned unaligned, Checked.alignment unaligned⟩
  · rcases Processor.translate_cases mapped unaligned with
      ⟨i, entry, maps, translates⟩ | ⟨unmapped, translates⟩
    · rw [translates]
      exact checked_translateBy known unaligned maps
    · exact ⟨_, translates, Checked.mapping unaligned unmapped⟩

/-- A physical address that is given is followed by as many bytes of main
memory as are accessed. -/
theorem Checked.inside {physAddr : Nat} {m' : Processor} (known : Processor.AccessSize size)
    (checked : Checked m virtAddr size writing (.ok (physAddr, m'))) :
    physAddr + size ≤ memorySize := by
  cases checked with
  | allowed aligned maps permitted inside =>
      have within := Processor.offset_add_le known aligned
      have small := (inMemory_iff _).mp inside
      simp only [Processor.offsetOf, numPhysPages, pageSize, memorySize] at *
      omega

/-- The entry that maps the page is the one that `Machine::Translate` finds. -/
theorem translate_of_mapsAt (mapped : m.Mapped) (aligned : ¬ Processor.misaligned virtAddr size)
    {i : Nat} {entry : TranslationEntry} (maps : m.MapsAt (Processor.vpnOf virtAddr) i entry) :
    m.translate virtAddr size writing =
      Processor.translateBy entry (m.putEntry i) (Processor.offsetOf virtAddr) size writing := by
  rcases Processor.translate_cases mapped aligned with
    ⟨j, other, maps', translates⟩ | ⟨unmapped, -⟩
  · obtain ⟨rfl, rfl⟩ := maps.unique maps'
    exact translates
  · exact absurd maps (unmapped i entry)

/-- The checks leave only one result. -/
theorem translate_of_checked (mapped : m.Mapped) (known : Processor.AccessSize size)
    (checked : Checked m virtAddr size writing result) :
    m.translate virtAddr size writing = some result := by
  cases checked with
  | alignment unaligned => exact Processor.translate_misaligned unaligned
  | mapping aligned unmapped =>
      rcases Processor.translate_cases mapped aligned with
        ⟨i, entry, maps, -⟩ | ⟨-, translates⟩
      · exact absurd maps (unmapped i entry)
      · exact translates
  | readOnly aligned maps guarded =>
      rw [translate_of_mapsAt mapped aligned maps]
      exact if_pos guarded
  | frame aligned maps permitted outside =>
      rw [translate_of_mapsAt mapped aligned maps]
      refine (if_neg permitted).trans (if_pos ?_)
      exact Nat.le_of_not_lt fun small => outside ((inMemory_iff _).mpr small)
  | allowed aligned maps permitted inside =>
      have bound := (Checked.allowed aligned maps permitted inside).inside known
      rw [translate_of_mapsAt mapped aligned maps]
      refine (if_neg permitted).trans ((if_neg ?_).trans (if_pos bound))
      exact Nat.not_le_of_lt ((inMemory_iff _).mp inside)

/-- `Machine::Translate` gives a physical address exactly if the access is
aligned, an entry maps the page, the entry permits it and the frame is in main
memory.  In each case it gives just what the checks in their order leave, and
its last assertion holds; the routines that call it then raise the exception in
the machine as it was. -/
theorem translate_checked (m : Processor) (mapped : m.Mapped) (virtAddr : BitVec 32) (size : Nat)
    (known : Processor.AccessSize size) (writing : Bool) :
    ((∃ physAddr m', m.translate virtAddr size writing = some (.ok (physAddr, m'))) ↔
        ¬ Processor.misaligned virtAddr size ∧
          ∃ i entry, m.MapsAt (Processor.vpnOf virtAddr) i entry ∧
            ¬ (entry.readOnly = true ∧ writing = true) ∧ entry.InMemory) ∧
      (∃ result, m.translate virtAddr size writing = some result) ∧
      (∀ result, m.translate virtAddr size writing = some result ↔
        Checked m virtAddr size writing result) ∧
      (∀ physAddr m', m.translate virtAddr size writing = some (.ok (physAddr, m')) →
        physAddr + size ≤ memorySize) ∧
      ∀ which, m.translate virtAddr size writing = some (.error which) →
        ∀ handler raised,
          (writing = false → Simulation.readMem handler virtAddr size ⟨m, raised⟩ =
            Simulation.raiseException handler which virtAddr none ⟨m, raised⟩) ∧
          (writing = true → ∀ value,
            Simulation.writeMem handler virtAddr size value ⟨m, raised⟩ =
              Simulation.raiseException handler which virtAddr none ⟨m, raised⟩) := by
  obtain ⟨result, translates, checked⟩ := exists_checked mapped known virtAddr writing
  have exactly (other : Except ExceptionType (Nat × Processor)) :
      m.translate virtAddr size writing = some other ↔ Checked m virtAddr size writing other := by
    constructor
    · intro same
      obtain rfl := Option.some.inj (translates.symm.trans same)
      exact checked
    · exact translate_of_checked mapped known
  refine ⟨?_, ⟨result, translates⟩, exactly, ?_, ?_⟩
  · constructor
    · rintro ⟨physAddr, m', ok⟩
      cases (exactly _).mp ok with
      | allowed aligned maps permitted inside =>
          exact ⟨aligned, _, _, maps, permitted, inside⟩
    · rintro ⟨aligned, i, entry, maps, permitted, inside⟩
      exact ⟨_, _, (exactly _).mpr (Checked.allowed aligned maps permitted inside)⟩
  · intro physAddr m' ok
    exact ((exactly _).mp ok).inside known
  · intro which error handler raised
    constructor
    · rintro rfl
      unfold Simulation.readMem
      rw [error]
    · rintro rfl value
      unfold Simulation.writeMem
      rw [error]

/-- A machine with a page table of two pages, the second one in no frame. -/
def twoPages : Processor where
  registers := fun _ => 0
  mainMemory := fun _ => 0
  tlb := none
  pageTable := some [⟨0, 3, true, true, false, false⟩, ⟨1, -1, true, false, false, false⟩]
  lastUsed := fun _ => 0
  totalTicks := 0
  status := .userMode
  hostIsBigEndian := false
  loaded := []

theorem translate_checked_twoPages :
    ∃ physAddr m', twoPages.translate 100 4 false = some (.ok (physAddr, m')) :=
  (translate_checked twoPages (by decide) 100 4 (Or.inr (Or.inr rfl)) false).1.mpr
    ⟨by decide, 0, _, ⟨rfl, rfl, rfl⟩, by decide, (inMemory_iff _).mpr (by decide)⟩

end

/-! ### A TLB in front of a page table -/

/-- Each valid entry of the TLB says of its page what the page table says. -/
def Coherent (tlb table : List TranslationEntry) : Prop :=
  ∀ entry ∈ tlb, entry.valid = true →
    ∃ mapping, table[entry.virtualPage.toNat]? = some mapping ∧ mapping.valid = true ∧
      mapping.physicalPage = entry.physicalPage ∧ mapping.readOnly = entry.readOnly

namespace Processor

/-- What the caller of `Machine::Translate` sees: the exception, or the physical
address. -/
def answer (m : Processor) (virtAddr : BitVec 32) (size : Nat) (writing : Bool) :
    Option (Except ExceptionType Nat) :=
  (m.translate virtAddr size writing).map fun result => result.map Prod.fst

/-- The machine with a TLB, and the one with a page table. -/
def withTlb (m : Processor) (tlb : List TranslationEntry) : Processor :=
  { m with tlb := some tlb, pageTable := none }

def withPageTable (m : Processor) (table : List TranslationEntry) : Processor :=
  { m with tlb := none, pageTable := some table }

end Processor

/-- The answer depends on the frame and on the protection of the entry alone. -/
theorem translateBy_answer {entry mapping : TranslationEntry}
    (frame : mapping.physicalPage = entry.physicalPage)
    (guarded : mapping.readOnly = entry.readOnly) (store store' : TranslationEntry → Processor)
    (offset size : Nat) (writing : Bool) :
    (Processor.translateBy entry store offset size writing).map (fun result =>
        result.map Prod.fst) =
      (Processor.translateBy mapping store' offset size writing).map fun result =>
        result.map Prod.fst := by
  unfold Processor.translateBy
  rw [frame, guarded]
  split
  · rfl
  · split
    · rfl
    · dsimp only
      split
      · rfl
      · rfl

/-- The entry of a TLB that maps a page has its counterpart in the page table. -/
theorem Processor.MapsAt.through {m : Processor} {tlb table : List TranslationEntry}
    {vpn i : Nat} {entry : TranslationEntry} (maps : (m.withTlb tlb).MapsAt vpn i entry)
    (coherent : Coherent tlb table) :
    ∃ mapping, mapping.physicalPage = entry.physicalPage ∧ mapping.readOnly = entry.readOnly ∧
      (m.withPageTable table).MapsAt vpn vpn mapping := by
  obtain ⟨atI, names, -⟩ := maps
  obtain ⟨valid, rfl⟩ := names
  obtain ⟨mapping, atPage, valid', frame, guarded⟩ :=
    coherent entry (List.mem_of_getElem? atI) valid
  exact ⟨mapping, frame, guarded, (Processor.mapsAt_pageTable rfl rfl _ _).mpr
    ⟨rfl, atPage, valid'⟩⟩

/-- Through a TLB that agrees with the page table an access is answered as the
page table answers it, or with the exception that asks the kernel to load the
entry. -/
theorem tlb_agrees (m : Processor) (tlb table : List TranslationEntry)
    (coherent : Coherent tlb table) (virtAddr : BitVec 32) (size : Nat)
    (known : Processor.AccessSize size) (writing : Bool) :
    (m.withTlb tlb).answer virtAddr size writing = some (.error .pageFaultException) ∨
      ∃ answer, (m.withTlb tlb).answer virtAddr size writing = some answer ∧
        (m.withPageTable table).answer virtAddr size writing = some answer := by
  have mapped : (m.withTlb tlb).Mapped := Bool.false_ne_true.symm
  have mapped' : (m.withPageTable table).Mapped := Bool.false_ne_true
  obtain ⟨result, gives, -⟩ := exists_checked mapped known virtAddr writing
  unfold Processor.answer
  by_cases unaligned : Processor.misaligned virtAddr size
  · right
    rw [Processor.translate_misaligned unaligned, Processor.translate_misaligned unaligned]
    exact ⟨_, rfl, rfl⟩
  · rcases Processor.translate_cases mapped unaligned with
      ⟨i, entry, maps, translates⟩ | ⟨unmapped, translates⟩
    · right
      obtain ⟨mapping, frame, guarded, maps'⟩ := maps.through coherent
      rw [gives]
      refine ⟨_, rfl, ?_⟩
      rw [translate_of_mapsAt mapped' unaligned maps', ← translateBy_answer frame guarded,
        ← translates, gives]
      rfl
    · left
      rw [translates]
      rfl

/-- A TLB with an entry that is no longer valid and one that is there twice. -/
theorem tlb_agrees_stale :
    (twoPages.withTlb [⟨1, 7, false, false, true, true⟩, ⟨0, 3, true, true, true, false⟩,
        ⟨0, 3, true, true, false, false⟩]).answer 100 4 true = some (.error .pageFaultException) ∨
      ∃ answer,
        (twoPages.withTlb [⟨1, 7, false, false, true, true⟩, ⟨0, 3, true, true, true, false⟩,
          ⟨0, 3, true, true, false, false⟩]).answer 100 4 true = some answer ∧
        (twoPages.withPageTable [⟨0, 3, true, true, false, false⟩]).answer 100 4 true =
          some answer :=
  tlb_agrees twoPages _ _
    (by
      intro entry mem valid
      simp only [List.mem_cons, List.not_mem_nil, or_false] at mem
      rcases mem with rfl | rfl | rfl
      · cases valid
      · exact ⟨_, rfl, rfl, rfl, rfl⟩
      · exact ⟨_, rfl, rfl, rfl, rfl⟩)
    100 4 (Or.inr (Or.inr rfl)) true

end Nachos
