/-
Module: Nachos.FileSys.BitSets
Purpose: The bit map of bitmap.cc as a finite set of numbers below its size, over
  any sequence of calls.
Trusted boundary: the arguments of `Mark`, `Clear` and `Test` are in range, as
  their assertions demand.
Main exports: BitMapCall, BitMapAnswer, SetStep, BitMap.call, BitMap.members,
  BitMap.call_members, BitMap.StandsFor, bitMap_behaves_as_set
-/
import Mathlib.Data.Finset.Card
import Nachos.FileSys.BitMap
import Nachos.Lib.Answers

namespace Nachos

open Lib

/-! ### The set -/

/-- A call of a `BitMap`. -/
inductive BitMapCall where
  | mark (which : Int)
  | clear (which : Int)
  | test (which : Int)
  | find
  | numClear
deriving DecidableEq, Repr

/-- What a call returns. -/
inductive BitMapAnswer where
  | nothing
  | flag (isSet : Bool)
  | number (n : Int)
deriving DecidableEq, Repr

/-- A call passes the assertions on its argument. -/
def BitMapCall.InRange (numBits : Int) : BitMapCall → Prop
  | .mark which | .clear which | .test which => 0 ≤ which ∧ which < numBits
  | .find | .numClear => True

instance (numBits : Int) : DecidablePred (BitMapCall.InRange numBits)
  | .mark _ | .clear _ | .test _ => inferInstanceAs (Decidable (_ ∧ _))
  | .find | .numClear => isTrue trivial

/-- What the calls do to a set of numbers below `numBits`, and what they
return. -/
inductive SetStep (numBits : Int) (members : Finset Int) :
    BitMapCall → BitMapAnswer → Finset Int → Prop where
  | mark (which : Int) : SetStep numBits members (.mark which) .nothing (insert which members)
  | clear (which : Int) :
      SetStep numBits members (.clear which) .nothing (members.erase which)
  | test (which : Int) :
      SetStep numBits members (.test which) (.flag (decide (which ∈ members))) members
  | found (least : Int) (low : 0 ≤ least) (high : least < numBits)
      (free : least ∉ members) (before : ∀ j, 0 ≤ j → j < least → j ∈ members) :
      SetStep numBits members .find (.number least) (insert least members)
  | full (all : ∀ j, 0 ≤ j → j < numBits → j ∈ members) :
      SetStep numBits members .find (.number (-1)) members
  | numClear : SetStep numBits members .numClear (.number (numBits - members.card)) members

/-! ### The bit map -/

namespace BitMap

/-- What a call returns and leaves of a bit map. -/
def call (b : BitMap) : BitMapCall → BitMapAnswer × BitMap
  | .mark which => (.nothing, b.mark which)
  | .clear which => (.nothing, b.clear which)
  | .test which => (.flag (b.test which), b)
  | .find => (.number b.find.1, b.find.2)
  | .numClear => (.number b.numClear, b)

/-- The numbers of the bits that are set. -/
def members (b : BitMap) : Finset Int :=
  ((Finset.range b.numBits.toNat).filter fun i : Nat => b.test i).image fun i : Nat => (i : Int)

theorem mem_members {b : BitMap} {i : Int} :
    i ∈ b.members ↔ (0 ≤ i ∧ i < b.numBits) ∧ b.test i = true := by
  simp only [members, Finset.mem_image, Finset.mem_filter, Finset.mem_range]
  constructor
  · rintro ⟨n, ⟨inside, marked⟩, rfl⟩
    exact ⟨by omega, marked⟩
  · rintro ⟨⟨low, high⟩, marked⟩
    refine ⟨i.toNat, ⟨by omega, ?_⟩, Int.toNat_of_nonneg low⟩
    rw [Int.toNat_of_nonneg low]
    exact marked

theorem members_mark {b : BitMap} {i : Int} (low : 0 ≤ i) (high : i < b.numBits) :
    (b.mark i).members = insert i b.members := by
  ext j
  rw [Finset.mem_insert, mem_members, mem_members, mark_numBits, test_mark,
    Bool.or_eq_true, decide_eq_true_eq]
  constructor
  · rintro ⟨inside, marked | rfl⟩
    · exact .inr ⟨inside, marked⟩
    · exact .inl rfl
  · rintro (rfl | ⟨inside, marked⟩)
    · exact ⟨⟨low, high⟩, .inr rfl⟩
    · exact ⟨inside, .inl marked⟩

theorem members_clear (b : BitMap) (i : Int) :
    (b.clear i).members = b.members.erase i := by
  ext j
  rw [Finset.mem_erase, mem_members, mem_members, clear_numBits, test_clear,
    Bool.and_eq_true, decide_eq_true_eq]
  constructor
  · rintro ⟨inside, marked, other⟩
    exact ⟨other, inside, marked⟩
  · rintro ⟨other, inside, marked⟩
    exact ⟨inside, marked, other⟩

/-- `NumClear` counts what is not in the set. -/
theorem numClear_eq {b : BitMap} (size : 0 ≤ b.numBits) :
    b.numClear = b.numBits - b.members.card := by
  have injective : Function.Injective fun i : Nat => (i : Int) :=
    fun _ _ same => Int.ofNat.inj same
  have set : b.members.card =
      (List.range b.numBits.toNat).countP fun i : Nat => b.test i := by
    rw [members, Finset.card_image_of_injective _ injective, List.countP_eq_length_filter]
    show ((List.range b.numBits.toNat).filter fun i : Nat => decide (b.test i = true)).length = _
    simp only [Bool.decide_eq_true]
  have together := List.length_eq_countP_add_countP (fun i : Nat => b.test i)
    (l := List.range b.numBits.toNat)
  rw [List.length_range] at together
  simp only [Bool.not_eq_true, Bool.decide_eq_false] at together
  rw [set, numClear]
  omega

/-- `Find` takes the least number that is not in the set, or there is none. -/
theorem find_members (b : BitMap) :
    SetStep b.numBits b.members .find (.number b.find.1) b.find.2.members := by
  rcases find_cases b with ⟨none, full⟩ | ⟨i, found, low, high, free⟩
  · rw [none]
    exact .full fun j jLow jHigh => mem_members.mpr ⟨⟨jLow, jHigh⟩, full j jLow jHigh⟩
  · have first : firstIndex (fun i => !b.test i) b.numBits.toNat 0 = i := by
      have index := congrArg Prod.fst found
      simp only [find] at index
      split at index
      · simp only at index
        omega
      · exact index
    rw [found, members_mark low high]
    refine .found i low high (fun member => ?_) fun j jLow before => ?_
    · rw [(mem_members.mp member).2] at free
      cases free
    · have marked := not_found_before (Int.le_refl 0) jLow (first.symm ▸ before)
      exact mem_members.mpr ⟨⟨jLow, by omega⟩, by simpa using marked⟩

/-- A call is answered as by the set, and leaves what it leaves of the set. -/
theorem call_members {b : BitMap} {call : BitMapCall} (size : 0 ≤ b.numBits)
    (inRange : call.InRange b.numBits) :
    SetStep b.numBits b.members call (b.call call).1 (b.call call).2.members ∧
      (b.call call).2.numBits = b.numBits := by
  cases call with
  | mark which =>
      refine ⟨?_, rfl⟩
      simp only [BitMap.call, members_mark inRange.1 inRange.2]
      exact .mark which
  | clear which =>
      refine ⟨?_, rfl⟩
      simp only [BitMap.call, members_clear]
      exact .clear which
  | test which =>
      refine ⟨?_, rfl⟩
      have isMember : b.test which = decide (which ∈ b.members) := by
        rw [Bool.eq_iff_iff, decide_eq_true_eq, mem_members]
        exact ⟨fun marked => ⟨inRange, marked⟩, fun member => member.2⟩
      simp only [BitMap.call, isMember]
      exact .test which
  | find =>
      refine ⟨find_members b, ?_⟩
      rcases find_cases b with ⟨none, -⟩ | ⟨i, found, -⟩
      · simp only [BitMap.call, none]
      · simp only [BitMap.call, found, mark_numBits]
  | numClear =>
      refine ⟨?_, rfl⟩
      simp only [BitMap.call, numClear_eq size]
      exact .numClear

/-- A bit map of `numBits` bits stands for a set. -/
structure StandsFor (numBits : Int) (b : BitMap) (members : Finset Int) : Prop where
  size : b.numBits = numBits
  members : b.members = members

theorem StandsFor.call {numBits : Int} {b b' : BitMap} {members : Finset Int}
    {call : BitMapCall} {answer : BitMapAnswer} (size : 0 ≤ numBits)
    (standsFor : StandsFor numBits b members) (inRange : call.InRange numBits)
    (step : b.call call = (answer, b')) :
    ∃ members', SetStep numBits members call answer members' ∧
      StandsFor numBits b' members' := by
  obtain ⟨rfl, rfl⟩ := standsFor
  obtain ⟨setStep, kept⟩ := call_members size inRange
  rw [step] at setStep kept
  exact ⟨b'.members, setStep, kept, rfl⟩

theorem construct_members (nitems : Int) (heap : Int → BitVec 32) :
    (construct nitems heap).members = ∅ := by
  ext i
  rw [mem_members, construct_numBits]
  constructor
  · rintro ⟨⟨low, high⟩, marked⟩
    rw [construct_test nitems heap low high] at marked
    cases marked
  · intro member
    cases member

end BitMap

/-- Whatever the words held before: a new bit map is the empty set of numbers below
its size, and every sequence of calls is answered as by that set. -/
theorem bitMap_behaves_as_set {nitems : Int} (size : 0 ≤ nitems)
    (heap : Int → BitVec 32) {calls : List BitMapCall}
    (inRange : ∀ call ∈ calls, call.InRange nitems) :
    let result := answers BitMap.call (.construct nitems heap) calls
    Answered (SetStep nitems) ∅ calls result.1 result.2.members ∧
      ∀ i ∈ result.2.members, 0 ≤ i ∧ i < nitems := by
  intro result
  have start : BitMap.StandsFor nitems (.construct nitems heap) ∅ :=
    ⟨BitMap.construct_numBits nitems heap, BitMap.construct_members nitems heap⟩
  have run := answered_answers BitMap.call (.construct nitems heap) calls
  obtain ⟨members, answered, numBits, rfl⟩ :
      ∃ members, Answered (SetStep nitems) ∅ calls result.1 members ∧
        BitMap.StandsFor nitems result.2 members := by
    refine Answered.simulate (BitMap.StandsFor nitems) ?_ start inRange run
    intro b b' members call answer standsFor valid step
    exact standsFor.call size valid step
  refine ⟨answered, fun i member => ?_⟩
  have inside := (BitMap.mem_members.mp member).1
  rw [numBits] at inside
  exact inside

/-- Bits on both sides of a word boundary, in a map of 34 bits. -/
def boundaryCalls : List BitMapCall :=
  [.mark 31, .mark 33, .find, .test 32, .clear 31, .test 33, .numClear]

theorem bitMap_behaves_at_boundary :
    let result := answers BitMap.call (.construct 34 fun _ => 0xFFFFFFFF#32) boundaryCalls
    result.1 =
        [.nothing, .nothing, .number 0, .flag false, .nothing, .flag true, .number 32] ∧
      Answered (SetStep 34) ∅ boundaryCalls result.1 result.2.members :=
  ⟨by decide, (bitMap_behaves_as_set (by decide) (fun _ => 0xFFFFFFFF#32) (by decide)).1⟩

end Nachos
