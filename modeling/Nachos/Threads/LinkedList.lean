/-
Module: Nachos.Threads.LinkedList
Purpose: The lists of list.cc with their pointers: a heap of list elements, and the
  pointers to the first and the last.  Every call keeps them a finite sequence
  and does to it what the call says; a list that is used only through its sorted
  calls gives back the least key first, and equal keys in the order of arrival.
Trusted boundary: `new` returns an address at which nothing is allocated.
Main exports: LinkedList, ListCall, ListAnswer, LinkedList.Performs, SequenceStep,
  QueueStep, LinkedList.Holds, LinkedList.Represents.sortedInsert,
  LinkedList.Represents.sortedRemove, list_represents_sequence
-/
import Mathlib.Data.List.Induction
import Nachos.Lib.Answers
import Nachos.Lib.Chains
import Nachos.Threads.SortedList

namespace Nachos

open Lib

/-! ### Data model -/

/-- Addresses other than NULL. -/
abbrev Address := Nat

/-- `class List`, with the `ListElement`s that are allocated; the value of a node
is its item and its key. -/
structure LinkedList (α : Type) where
  first : Option Address
  last : Option Address
  heap : Heap Address (ListElement α)

namespace LinkedList

variable {α : Type}

/-- `List::List`. -/
def construct (heap : Heap Address (ListElement α)) : LinkedList α where
  first := none
  last := none
  heap := heap

/-- `ListElement *element = new ListElement(item, sortKey)`. -/
def newElement (element : Address) (item : α) (sortKey : Int) (l : LinkedList α) :
    LinkedList α :=
  { l with heap := Function.update l.heap element (some ⟨⟨item, sortKey⟩, none⟩) }

/-- `ptr->next = next`; `none` when `ptr` does not lead to an element. -/
def setNext (ptr : Address) (next : Option Address) (l : LinkedList α) :
    Option (LinkedList α) :=
  (l.heap ptr).map fun node =>
    { l with heap := Function.update l.heap ptr (some { node with next := next }) }

/-- `List::IsEmpty`. -/
def isEmpty (l : LinkedList α) : Bool :=
  l.first.isNone

/-! ### Operations -/

/-- The new element is the only one. -/
def onlyElement (element : Address) (l : LinkedList α) : LinkedList α :=
  { l with first := some element, last := some element }

/-- `last->next = element; last = element`. -/
def putLast (element : Address) (l : LinkedList α) : Option (LinkedList α) :=
  l.last.bind fun last =>
    (l.setNext last (some element)).map fun l => { l with last := some element }

/-- `element->next = first; first = element`. -/
def putFirst (element : Address) (l : LinkedList α) : Option (LinkedList α) :=
  (l.setNext element l.first).map fun l => { l with first := some element }

/-- `List::Append`, `element` being the address that `new` returns. -/
def append (element : Address) (item : α) (l : LinkedList α) : Option (LinkedList α) :=
  let l := l.newElement element item 0
  if l.isEmpty then some (l.onlyElement element) else l.putLast element

/-- `List::Prepend`. -/
def prepend (element : Address) (item : α) (l : LinkedList α) : Option (LinkedList α) :=
  let l := l.newElement element item 0
  if l.isEmpty then some (l.onlyElement element) else l.putFirst element

/-- The loop of `List::SortedInsert`, for as many elements as `fuel` says, and what
follows it. -/
def insertFrom (element : Address) (sortKey : Int) :
    Nat → Address → LinkedList α → Option (LinkedList α)
  | 0, _, _ => none
  | fuel + 1, ptr, l =>
      (l.heap ptr).bind fun node =>
        match node.next with
        | none => l.putLast element
        | some next =>
            (l.heap next).bind fun behind =>
              if sortKey < behind.value.key then
                (l.setNext element (some next)).bind fun l => l.setNext ptr (some element)
              else insertFrom element sortKey fuel next l

/-- `List::SortedInsert`. -/
def sortedInsert (fuel : Nat) (element : Address) (item : α) (sortKey : Int)
    (l : LinkedList α) : Option (LinkedList α) :=
  let l := l.newElement element item sortKey
  match l.first with
  | none => some (l.onlyElement element)
  | some first =>
      (l.heap first).bind fun head =>
        if sortKey < head.value.key then l.putFirst element
        else insertFrom element sortKey fuel first l

/-- `List::SortedRemove`: what it returns, and what it stores at `keyPtr`. -/
def sortedRemove (null : α) (l : LinkedList α) :
    Option ((α × Option Int) × LinkedList α) :=
  match l.first with
  | none => some ((null, none), l)
  | some element =>
      (l.heap element).map fun node =>
        let l := if l.first = l.last then { l with first := none, last := none }
          else { l with first := node.next }
        ((node.value.item, some node.value.key),
          { l with heap := Function.update l.heap element none })

/-- `List::Remove`. -/
def remove (null : α) (l : LinkedList α) : Option (α × LinkedList α) :=
  (l.sortedRemove null).map fun result => (result.1.1, result.2)

end LinkedList

/-- A call of a `List`, with the address that `new` returns in it. -/
inductive ListCall (α : Type) where
  | append (element : Address) (item : α)
  | prepend (element : Address) (item : α)
  | sortedInsert (element : Address) (item : α) (sortKey : Int)
  | remove
  | sortedRemove
deriving DecidableEq, Repr

/-- What a call returns, and what it stores at `keyPtr`. -/
inductive ListAnswer (α : Type) where
  | nothing
  | thing (item : α)
  | thingAndKey (item : α) (key : Option Int)
deriving DecidableEq, Repr

/-- A call of one of the sorted routines. -/
def ListCall.IsSorted {α : Type} : ListCall α → Prop
  | .sortedInsert _ _ _ | .sortedRemove => True
  | _ => False

namespace LinkedList

variable {α : Type}

/-- `new` returns an address at which nothing is allocated. -/
def Fresh (l : LinkedList α) : ListCall α → Prop
  | .append element _ | .prepend element _ | .sortedInsert element _ _ =>
      l.heap element = none
  | .remove | .sortedRemove => True

/-- What a call returns and leaves; `none` when it follows a pointer to nowhere,
or its loop has not ended. -/
def call (null : α) (fuel : Nat) (l : LinkedList α) :
    ListCall α → Option (ListAnswer α × LinkedList α)
  | .append element item => (l.append element item).map fun l => (.nothing, l)
  | .prepend element item => (l.prepend element item).map fun l => (.nothing, l)
  | .sortedInsert element item sortKey =>
      (l.sortedInsert fuel element item sortKey).map fun l => (.nothing, l)
  | .remove => (l.remove null).map fun result => (.thing result.1, result.2)
  | .sortedRemove =>
      (l.sortedRemove null).map fun result =>
        (.thingAndKey result.1.1 result.1.2, result.2)

/-- A call is performed: with enough fuel it comes to its end. -/
def Performs (null : α) (l : LinkedList α) (call : ListCall α) (answer : ListAnswer α)
    (l' : LinkedList α) : Prop :=
  l.Fresh call ∧ ∃ bound, ∀ fuel, bound ≤ fuel → l.call null fuel call = some (answer, l')

end LinkedList

/-! ### Sequences -/

section

variable {α : Type}

/-- What the calls do to a finite sequence, and what they return. -/
inductive SequenceStep (null : α) :
    List (ListElement α) → ListCall α → ListAnswer α → List (ListElement α) → Prop where
  | append (elements : List (ListElement α)) (element : Address) (item : α) :
      SequenceStep null elements (.append element item) .nothing
        (elements ++ [{ item, key := 0 }])
  | prepend (elements : List (ListElement α)) (element : Address) (item : α) :
      SequenceStep null elements (.prepend element item) .nothing
        ({ item, key := 0 } :: elements)
  | sortedInsert (before after : List (ListElement α)) (element : Address) (item : α)
      (sortKey : Int) (notLarger : ∀ other ∈ before, ¬ sortKey < other.key)
      (larger : ∀ other ∈ after.head?, sortKey < other.key) :
      SequenceStep null (before ++ after) (.sortedInsert element item sortKey) .nothing
        (before ++ { item, key := sortKey } :: after)
  | remove (first : ListElement α) (rest : List (ListElement α)) :
      SequenceStep null (first :: rest) .remove (.thing first.item) rest
  | removeEmpty : SequenceStep null [] .remove (.thing null) []
  | sortedRemove (first : ListElement α) (rest : List (ListElement α)) :
      SequenceStep null (first :: rest) .sortedRemove
        (.thingAndKey first.item (some first.key)) rest
  | sortedRemoveEmpty : SequenceStep null [] .sortedRemove (.thingAndKey null none) []

/-- What the sorted calls do to the elements that wait, in the order of their
arrival: the one with the least key is served, among equal ones the first. -/
inductive QueueStep (null : α) :
    List (ListElement α) → ListCall α → ListAnswer α → List (ListElement α) → Prop where
  | arrive (arrivals : List (ListElement α)) (element : Address) (item : α)
      (sortKey : Int) :
      QueueStep null arrivals (.sortedInsert element item sortKey) .nothing
        (arrivals ++ [{ item, key := sortKey }])
  | serve (before after : List (ListElement α)) (least : ListElement α)
      (smaller : ∀ other ∈ before, least.key < other.key)
      (notLarger : ∀ other ∈ after, least.key ≤ other.key) :
      QueueStep null (before ++ least :: after) .sortedRemove
        (.thingAndKey least.item (some least.key)) (before ++ after)
  | empty : QueueStep null [] .sortedRemove (.thingAndKey null none) []

/-- The place of a new element is that of the sorted insertion into the
sequence. -/
theorem insertElement_append {before after : List (ListElement α)}
    {element : ListElement α} (notLarger : ∀ other ∈ before, ¬ element.key < other.key)
    (larger : ∀ other ∈ after.head?, element.key < other.key) :
    insertElement element (before ++ after) = before ++ element :: after := by
  induction before with
  | nil =>
      cases after with
      | nil => rfl
      | cons ptr rest => exact if_pos (larger ptr rfl)
  | cons ptr before inductionHypothesis =>
      rw [List.cons_append, insertElement, if_neg (notLarger ptr (.head _)),
        inductionHypothesis fun other member => notLarger other (.tail _ member)]
      rfl

/-- The sorted calls are the sorted operations on sequences. -/
theorem SequenceStep.sortedInsert_eq {null : α} {elements elements' : List (ListElement α)}
    {element : Address} {item : α} {sortKey : Int} {answer : ListAnswer α}
    (step : SequenceStep null elements (.sortedInsert element item sortKey) answer elements') :
    elements' = Nachos.sortedInsert item sortKey elements := by
  cases step with
  | sortedInsert before after _ _ _ notLarger larger =>
      exact (insertElement_append notLarger larger).symm

theorem SequenceStep.sortedRemove_eq {null : α} {elements elements' : List (ListElement α)}
    {answer : ListAnswer α}
    (step : SequenceStep null elements .sortedRemove answer elements') :
    match Nachos.sortedRemove elements with
    | none => answer = .thingAndKey null none ∧ elements' = []
    | some (item, key, rest) => answer = .thingAndKey item (some key) ∧ elements' = rest := by
  cases step with
  | sortedRemove first rest => exact ⟨rfl, rfl⟩
  | sortedRemoveEmpty => exact ⟨rfl, rfl⟩

/-! ### The order of service -/

/-- Elements inserted one after another into the empty list. -/
def arrange (arrivals : List (ListElement α)) : List (ListElement α) :=
  arrivals.foldl (fun elements element => insertElement element elements) []

theorem arrange_concat (arrivals : List (ListElement α)) (element : ListElement α) :
    arrange (arrivals ++ [element]) = insertElement element (arrange arrivals) := by
  simp [arrange]

theorem arrange_perm (arrivals : List (ListElement α)) :
    (arrange arrivals).Perm arrivals := by
  induction arrivals using List.reverseRecOn with
  | nil => exact List.Perm.refl _
  | append_singleton arrivals element inductionHypothesis =>
      rw [arrange_concat]
      refine (insertElement_perm element _).trans ?_
      exact (inductionHypothesis.cons element).trans (List.perm_append_singleton element _).symm

theorem arrange_sorted (arrivals : List (ListElement α)) : Sorted (arrange arrivals) := by
  induction arrivals using List.reverseRecOn with
  | nil => exact List.Pairwise.nil
  | append_singleton arrivals element inductionHypothesis =>
      rw [arrange_concat]
      exact inductionHypothesis.insertElement

/-- What is not larger than everything before and after it comes out first. -/
theorem arrange_least {before after : List (ListElement α)} {least : ListElement α}
    (smaller : ∀ other ∈ before, least.key < other.key)
    (notLarger : ∀ other ∈ after, least.key ≤ other.key) :
    arrange (before ++ least :: after) = least :: arrange (before ++ after) := by
  induction after using List.reverseRecOn with
  | nil =>
      rw [List.append_nil, arrange_concat]
      have larger : ∀ other ∈ (arrange before).head?, least.key < other.key := by
        intro other head
        exact smaller other ((arrange_perm before).mem_iff.mp (List.mem_of_mem_head? head))
      rw [← List.nil_append (arrange before), insertElement_append (by simp) larger]
      rfl
  | append_singleton after element inductionHypothesis =>
      have later := notLarger element (by simp)
      rw [← List.cons_append, ← List.append_assoc, arrange_concat,
        inductionHypothesis fun other member => notLarger other (by simp [member]),
        ← List.append_assoc, arrange_concat, insertElement, if_neg (Int.not_lt.mpr later)]

/-- Among elements that wait there is a first one with the least key. -/
theorem exists_least {arrivals : List (ListElement α)} (waiting : arrivals ≠ []) :
    ∃ before least after, arrivals = before ++ least :: after ∧
      (∀ other ∈ before, least.key < other.key) ∧
      ∀ other ∈ after, least.key ≤ other.key := by
  induction arrivals with
  | nil => exact absurd rfl waiting
  | cons first rest inductionHypothesis =>
      by_cases alone : rest = []
      · exact ⟨[], first, [], by rw [alone]; rfl, by simp, by simp⟩
      · obtain ⟨before, least, after, rfl, smaller, notLarger⟩ := inductionHypothesis alone
        by_cases earlier : first.key ≤ least.key
        · refine ⟨[], first, before ++ least :: after, rfl, by simp, ?_⟩
          intro other member
          rcases List.mem_append.mp member with front | back
          · exact Int.le_trans earlier (Int.le_of_lt (smaller other front))
          · rcases List.mem_cons.mp back with rfl | behind
            · exact earlier
            · exact Int.le_trans earlier (notLarger other behind)
        · refine ⟨first :: before, least, after, rfl, ?_, notLarger⟩
          intro other member
          rcases List.mem_cons.mp member with rfl | front
          · exact Int.not_le.mp earlier
          · exact smaller other front

/-- Used through its sorted calls only, a sequence that starts sorted serves the
elements in their order. -/
theorem SequenceStep.serves {null : α} {elements elements' arrivals : List (ListElement α)}
    {call : ListCall α} {answer : ListAnswer α} (arranged : elements = arrange arrivals)
    (isSorted : call.IsSorted) (step : SequenceStep null elements call answer elements') :
    ∃ arrivals', QueueStep null arrivals call answer arrivals' ∧
      elements' = arrange arrivals' := by
  cases step with
  | append _ _ _ | prepend _ _ _ | remove _ _ | removeEmpty => cases isSorted
  | sortedInsert before after element item sortKey notLarger larger =>
      refine ⟨_, .arrive arrivals element item sortKey, ?_⟩
      rw [arrange_concat, ← arranged]
      exact (insertElement_append notLarger larger).symm
  | sortedRemove first rest =>
      have waiting : arrivals ≠ [] := by
        rintro rfl
        cases arranged
      obtain ⟨before, least, after, rfl, smaller, notLarger⟩ := exists_least waiting
      rw [arrange_least smaller notLarger] at arranged
      obtain ⟨rfl, rfl⟩ := List.cons.inj arranged
      exact ⟨before ++ after, .serve before after first smaller notLarger, rfl⟩
  | sortedRemoveEmpty =>
      have empty : arrivals = [] := by
        have permuted := arrange_perm arrivals
        rw [← arranged] at permuted
        exact permuted.symm.eq_nil
      rw [empty]
      exact ⟨[], .empty, rfl⟩

/-- The service of a whole run. -/
theorem sequence_serves {null : α} {calls : List (ListCall α)}
    {answers : List (ListAnswer α)} {elements : List (ListElement α)}
    (answered : Answered (SequenceStep null) [] calls answers elements)
    (sorted : ∀ call ∈ calls, call.IsSorted) :
    ∃ arrivals, Answered (QueueStep null) [] calls answers arrivals ∧
      elements = arrange arrivals := by
  refine Answered.simulate (fun elements arrivals => elements = arrange arrivals) ?_ rfl
    sorted answered
  intro elements elements' arrivals call answer arranged isSorted step
  exact step.serves arranged isSorted

end

namespace LinkedList

variable {α : Type} {l : LinkedList α} {cells : List (Address × ListElement α)}
  {element : Address} {value : ListElement α} {item : α} {sortKey : Int}

/-! ### The pointers hold a sequence -/

/-- Following `next` from `first` visits the cells and comes to NULL, and `last`
leads to the last of them. -/
structure Holds (l : LinkedList α) (cells : List (Address × ListElement α)) : Prop where
  chain : Chain l.heap l.first cells none
  last : l.last = cells.getLast?.map Prod.fst

theorem Holds.first (holds : l.Holds cells) : l.first = cells.head?.map Prod.fst := by
  cases cells with
  | nil => exact holds.chain
  | cons cell cells => exact holds.chain.1

theorem holds_construct (heap : Heap Address (ListElement α)) :
    (construct heap).Holds [] where
  chain := rfl
  last := rfl

/-- A list and a new element that is not yet on it. -/
structure Holding (l : LinkedList α) (cells : List (Address × ListElement α))
    (element : Address) (value : ListElement α) : Prop extends Holds l cells where
  points : l.heap element = some ⟨value, none⟩
  absent : element ∉ cells.map Prod.fst

theorem Holds.newElement (holds : l.Holds cells) (fresh : l.heap element = none) :
    (l.newElement element item sortKey).Holding cells element ⟨item, sortKey⟩ := by
  have absent : element ∉ cells.map Prod.fst :=
    fun member => holds.chain.allocated member fresh
  refine ⟨⟨holds.chain.frame fun a member => ?_, holds.last⟩, Function.update_self .., absent⟩
  have other : a ≠ element := fun equal => absent (equal ▸ member)
  exact Function.update_of_ne other ..

theorem setNext_eq {ptr : Address} {node : Node Address (ListElement α)}
    (points : l.heap ptr = some node) (next : Option Address) :
    l.setNext ptr next =
      some { l with heap := Function.update l.heap ptr (some ⟨node.value, next⟩) } := by
  rw [setNext, points, Option.map_some]

/-- The only element of a list. -/
theorem Holding.only (holding : l.Holding [] element value) :
    (l.onlyElement element).Holds [(element, value)] where
  chain := ⟨rfl, none, holding.points, rfl⟩
  last := rfl

theorem Holding.putFirst {cell : Address × ListElement α}
    (holding : l.Holding (cell :: cells) element value) :
    ∃ l', l.putFirst element = some l' ∧ l'.Holds ((element, value) :: cell :: cells) := by
  simp only [LinkedList.putFirst, setNext_eq holding.points, Option.map_some]
  refine ⟨_, rfl, ?_, ?_⟩
  · apply holding.chain.prepend holding.absent
    · exact fun a other => Function.update_of_ne other ..
    · exact Function.update_self ..
  · rw [List.getLast?_cons_cons]
    exact holding.last

theorem Holding.putLast {before : List (Address × ListElement α)} {a : Address}
    {final : ListElement α} (holding : l.Holding (before ++ [(a, final)]) element value) :
    ∃ l', l.putLast element = some l' ∧
      l'.Holds (before ++ [(a, final), (element, value)]) := by
  have last : l.last = some a := by
    rw [holding.last, List.getLast?_concat]
    rfl
  obtain ⟨next, points, rfl⟩ := holding.chain.points
  have other : element ≠ a := fun equal => holding.absent (by simp [equal])
  simp only [LinkedList.putLast, last, Option.bind_some, setNext_eq points, Option.map_some]
  refine ⟨_, rfl, ?_, ?_⟩
  · apply holding.chain.insertBehind points holding.absent
    · exact fun c notLast _ => Function.update_of_ne notLast ..
    · exact Function.update_self ..
    · exact (Function.update_of_ne other ..).trans holding.points
  · simp

/-- A new element goes behind the one that `ptr` leads to. -/
theorem Holding.between {before after : List (Address × ListElement α)} {ptr next : Address}
    {here behind : ListElement α}
    (holding : l.Holding (before ++ (ptr, here) :: (next, behind) :: after) element value) :
    ∃ l', (l.setNext element (some next)).bind (·.setNext ptr (some element)) = some l' ∧
      l'.Holds (before ++ (ptr, here) :: (element, value) :: (next, behind) :: after) := by
  obtain ⟨next', points, rest⟩ := holding.chain.points
  obtain rfl : next' = some next := rest.1
  have other : ptr ≠ element := fun equal => holding.absent (by simp [equal])
  have kept : Function.update l.heap element (some ⟨value, some next⟩) ptr =
      some ⟨here, some next⟩ := by
    rw [Function.update_of_ne other]
    exact points
  rw [setNext_eq holding.points, Option.bind_some, setNext_eq kept]
  refine ⟨_, rfl, ?_, ?_⟩
  · apply holding.chain.insertBehind points holding.absent
    · intro c notPtr notElement
      exact (Function.update_of_ne notPtr ..).trans (Function.update_of_ne notElement ..)
    · exact Function.update_self ..
    · exact (Function.update_of_ne other.symm ..).trans (Function.update_self ..)
  · rw [holding.last]
    simp

/-- A place for a new key: behind everything up to it that is not larger, and
before something larger or at the end. -/
structure PlaceFor (sortKey : Int) (before after : List (Address × ListElement α)) :
    Prop where
  notLarger : ∀ cell ∈ before, ¬ sortKey < cell.2.key
  larger : ∀ cell ∈ after.head?, sortKey < cell.2.key

/-- The loop of `SortedInsert` finds the place. -/
theorem Holding.insertFrom {before after : List (Address × ListElement α)} {ptr : Address}
    {here : ListElement α} (holding : l.Holding (before ++ (ptr, here) :: after) element value)
    (notLarger : ∀ cell ∈ before ++ [(ptr, here)], ¬ sortKey < cell.2.key) :
    ∃ l' front back, before ++ (ptr, here) :: after = front ++ back ∧
      PlaceFor sortKey front back ∧ l'.Holds (front ++ (element, value) :: back) ∧
      ∀ fuel, after.length < fuel → l.insertFrom element sortKey fuel ptr = some l' := by
  induction after generalizing before ptr here with
  | nil =>
      obtain ⟨next, points, rfl⟩ := holding.chain.points
      obtain ⟨l', put, holds⟩ := holding.putLast
      refine ⟨l', before ++ [(ptr, here)], [], by simp, ⟨notLarger, by simp⟩, ?_, ?_⟩
      · rw [List.append_assoc]
        exact holds
      · intro fuel enough
        obtain ⟨rest, rfl⟩ := Nat.exists_eq_add_one.mpr (Nat.zero_lt_of_lt enough)
        simp only [LinkedList.insertFrom, points, Option.bind_some]
        exact put
  | cons cell after inductionHypothesis =>
      obtain ⟨next, behind⟩ := cell
      obtain ⟨next', points, rest⟩ := holding.chain.points
      obtain ⟨rfl, next'', pointsNext, -⟩ := rest
      by_cases smaller : sortKey < behind.key
      · obtain ⟨l', put, holds⟩ := holding.between
        refine ⟨l', before ++ [(ptr, here)], (next, behind) :: after, by simp,
          ⟨notLarger, by simpa using smaller⟩, ?_, ?_⟩
        · rw [List.append_assoc]
          exact holds
        · intro fuel enough
          obtain ⟨rest, rfl⟩ := Nat.exists_eq_add_one.mpr (Nat.zero_lt_of_lt enough)
          simp only [LinkedList.insertFrom, points, pointsNext, Option.bind_some,
            if_pos smaller]
          exact put
      · have shifted : before ++ (ptr, here) :: (next, behind) :: after =
            (before ++ [(ptr, here)]) ++ (next, behind) :: after := by simp
        rw [shifted] at holding ⊢
        obtain ⟨l', front, back, split, place, holds, returns⟩ :=
          inductionHypothesis holding (by
            intro cell member
            rcases List.mem_append.mp member with old | new
            · exact notLarger cell old
            · rw [List.mem_singleton.mp new]
              exact smaller)
        refine ⟨l', front, back, split, place, holds, ?_⟩
        intro fuel enough
        obtain ⟨rest, rfl⟩ := Nat.exists_eq_add_one.mpr (Nat.zero_lt_of_lt enough)
        simp only [LinkedList.insertFrom, points, pointsNext, Option.bind_some,
          if_neg smaller]
        exact returns rest (by simpa using enough)

/-! ### Calls -/

theorem Holds.append (holds : l.Holds cells) (item : α) (fresh : l.heap element = none) :
    ∃ l', l.append element item = some l' ∧
      l'.Holds (cells ++ [(element, { item, key := 0 })]) := by
  have holding : (l.newElement element item 0).Holding cells element ⟨item, 0⟩ :=
    holds.newElement fresh
  rcases List.eq_nil_or_concat' cells with rfl | ⟨before, ⟨a, final⟩, rfl⟩
  · have empty : (l.newElement element item 0).isEmpty = true := by
      rw [isEmpty, holding.first]
      rfl
    simp only [LinkedList.append, empty, if_true]
    exact ⟨_, rfl, holding.only⟩
  · have nonempty : (l.newElement element item 0).isEmpty = false := by
      rw [isEmpty, holding.first]
      cases before <;> rfl
    simp only [LinkedList.append, nonempty, Bool.false_eq_true, if_false]
    obtain ⟨l', put, holds'⟩ := holding.putLast
    refine ⟨l', put, ?_⟩
    rw [List.append_assoc]
    exact holds'

theorem Holds.prepend (holds : l.Holds cells) (item : α) (fresh : l.heap element = none) :
    ∃ l', l.prepend element item = some l' ∧
      l'.Holds ((element, { item, key := 0 }) :: cells) := by
  have holding : (l.newElement element item 0).Holding cells element ⟨item, 0⟩ :=
    holds.newElement fresh
  have empty : (l.newElement element item 0).isEmpty = cells.isEmpty := by
    rw [isEmpty, holding.first]
    cases cells <;> rfl
  cases cells with
  | nil =>
      simp only [LinkedList.prepend, empty, List.isEmpty_nil, if_true]
      exact ⟨_, rfl, holding.only⟩
  | cons cell cells =>
      simp only [LinkedList.prepend, empty, List.isEmpty_cons, Bool.false_eq_true, if_false]
      exact holding.putFirst

theorem Holds.sortedInsert (holds : l.Holds cells) (item : α) (sortKey : Int)
    (fresh : l.heap element = none) :
    ∃ l' front back, cells = front ++ back ∧ PlaceFor sortKey front back ∧
      l'.Holds (front ++ (element, { item, key := sortKey }) :: back) ∧
      ∀ fuel, cells.length < fuel →
        l.sortedInsert fuel element item sortKey = some l' := by
  have holding : (l.newElement element item sortKey).Holding cells element
      ⟨item, sortKey⟩ := holds.newElement fresh
  have first := holding.first
  cases cells with
  | nil =>
      refine ⟨_, [], [], rfl, ⟨by simp, by simp⟩, holding.only, fun fuel enough => ?_⟩
      simp only [LinkedList.sortedInsert, first, List.head?_nil, Option.map_none]
  | cons cell cells =>
      obtain ⟨a, head⟩ := cell
      obtain ⟨-, next, points, -⟩ := holding.chain
      by_cases smaller : sortKey < head.key
      · obtain ⟨l', put, holds'⟩ := holding.putFirst
        refine ⟨l', [], (a, head) :: cells, rfl, ⟨by simp, by simpa using smaller⟩, holds',
          fun fuel enough => ?_⟩
        simp only [LinkedList.sortedInsert, first, List.head?_cons, Option.map_some, points,
          Option.bind_some, if_pos smaller]
        exact put
      · have atFirst : (l.newElement element item sortKey).Holding
            ([] ++ (a, head) :: cells) element ⟨item, sortKey⟩ := holding
        obtain ⟨l', front, back, split, place, holds', returns⟩ :=
          atFirst.insertFrom (by simpa using smaller)
        refine ⟨l', front, back, split, place, holds', fun fuel enough => ?_⟩
        simp only [LinkedList.sortedInsert, first, List.head?_cons, Option.map_some, points,
          Option.bind_some, if_neg smaller]
        exact returns fuel (by simp only [List.length_cons] at enough; omega)

/-- An empty list gives NULL and stores no key. -/
theorem Holds.sortedRemove_nil (null : α) (holds : l.Holds []) :
    l.sortedRemove null = some ((null, none), l) := by
  have first : l.first = none := holds.first
  simp only [LinkedList.sortedRemove, first]

/-- `SortedRemove` compares `first` with `last` to see whether the list holds one
element. -/
theorem Holds.sortedRemove_cons (null : α) {cell : Address × ListElement α}
    (holds : l.Holds (cell :: cells)) :
    ∃ l', l.sortedRemove null = some ((cell.2.item, some cell.2.key), l') ∧
      l'.Holds cells := by
  obtain ⟨a, head⟩ := cell
  have once := holds.chain.nodup
  obtain ⟨here, next, points, rest⟩ := holds.chain
  have removed : ∀ l' : LinkedList α, l'.heap = Function.update l.heap a none →
      l'.first = next → l'.last = cells.getLast?.map Prod.fst → l'.Holds cells := by
    intro l' heap first last
    refine ⟨?_, last⟩
    rw [heap, first]
    exact holds.chain.removeFirst points fun c other => Function.update_of_ne other ..
  have last := holds.last
  simp only [LinkedList.sortedRemove, here, points, Option.map_some]
  refine ⟨_, rfl, ?_⟩
  cases cells with
  | nil =>
      have alone : some a = l.last := last.symm
      rw [if_pos alone]
      have ends : next = none := rest
      exact removed _ rfl ends.symm rfl
  | cons second cells =>
      rw [List.getLast?_cons_cons] at last
      have more : some a ≠ l.last := by
        intro alone
        obtain ⟨final, isLast, address⟩ := Option.map_eq_some_iff.mp (alone.trans last).symm
        apply (List.nodup_cons.mp once).1
        exact List.mem_map.mpr ⟨final, List.mem_of_getLast? isLast, address⟩
      rw [if_neg more]
      exact removed _ rfl rfl last

/-- Every call that is given a fresh address comes to its end, does to the sequence
what it says, and keeps the pointers right. -/
theorem Holds.call (null : α) {call : ListCall α} (holds : l.Holds cells)
    (fresh : l.Fresh call) :
    ∃ answer l' cells', l'.Holds cells' ∧
      SequenceStep null (cells.map Prod.snd) call answer (cells'.map Prod.snd) ∧
      ∀ fuel, cells.length < fuel → l.call null fuel call = some (answer, l') := by
  cases call with
  | append element item =>
      obtain ⟨l', returns, holds'⟩ := holds.append item fresh
      refine ⟨.nothing, l', _, holds', ?_, fun fuel _ => ?_⟩
      · rw [List.map_append]
        exact .append _ element item
      · simp only [LinkedList.call, returns, Option.map_some]
  | prepend element item =>
      obtain ⟨l', returns, holds'⟩ := holds.prepend item fresh
      refine ⟨.nothing, l', _, holds', .prepend _ element item, fun fuel _ => ?_⟩
      simp only [LinkedList.call, returns, Option.map_some]
  | sortedInsert element item sortKey =>
      obtain ⟨l', front, back, rfl, place, holds', returns⟩ :=
        holds.sortedInsert item sortKey fresh
      refine ⟨.nothing, l', _, holds', ?_, fun fuel enough => ?_⟩
      · simp only [List.map_append, List.map_cons]
        apply SequenceStep.sortedInsert
        · intro other member
          obtain ⟨cell, before, rfl⟩ := List.mem_map.mp member
          exact place.notLarger cell before
        · intro other head
          rw [List.head?_map] at head
          obtain ⟨cell, first, rfl⟩ := Option.map_eq_some_iff.mp head
          exact place.larger cell first
      · simp only [LinkedList.call, returns fuel enough, Option.map_some]
  | remove =>
      cases cells with
      | nil =>
          refine ⟨.thing null, l, [], holds, .removeEmpty, fun fuel _ => ?_⟩
          simp only [LinkedList.call, LinkedList.remove, holds.sortedRemove_nil null,
            Option.map_some]
      | cons cell cells =>
          obtain ⟨l', returns, holds'⟩ := holds.sortedRemove_cons null
          refine ⟨.thing cell.2.item, l', cells, holds', .remove _ _, fun fuel _ => ?_⟩
          simp only [LinkedList.call, LinkedList.remove, returns, Option.map_some]
  | sortedRemove =>
      cases cells with
      | nil =>
          refine ⟨.thingAndKey null none, l, [], holds, .sortedRemoveEmpty, fun fuel _ => ?_⟩
          simp only [LinkedList.call, holds.sortedRemove_nil null, Option.map_some]
      | cons cell cells =>
          obtain ⟨l', returns, holds'⟩ := holds.sortedRemove_cons null
          refine ⟨.thingAndKey cell.2.item (some cell.2.key), l', cells, holds',
            .sortedRemove _ _, fun fuel _ => ?_⟩
          simp only [LinkedList.call, returns, Option.map_some]

/-- A list stands for a sequence. -/
def Represents (l : LinkedList α) (elements : List (ListElement α)) : Prop :=
  ∃ cells, l.Holds cells ∧ cells.map Prod.snd = elements

/-- What a call returns and leaves does not depend on the fuel that was enough. -/
theorem Represents.performs {null : α} {l' : LinkedList α} {elements : List (ListElement α)}
    {call : ListCall α} {answer : ListAnswer α} (represents : l.Represents elements)
    (performs : l.Performs null call answer l') :
    ∃ elements', SequenceStep null elements call answer elements' ∧
      l'.Represents elements' := by
  obtain ⟨cells, holds, rfl⟩ := represents
  obtain ⟨fresh, bound, returns⟩ := performs
  obtain ⟨answer', l'', cells', holds', step, returns'⟩ := holds.call null fresh
  have same := (returns (bound + cells.length + 1) (by omega)).symm.trans
    (returns' (bound + cells.length + 1) (by omega))
  cases same
  exact ⟨_, step, cells', holds', rfl⟩

/-- On what a list stands for, `SortedInsert` is the sorted insertion. -/
theorem Represents.sortedInsert {null : α} {l' : LinkedList α}
    {elements : List (ListElement α)} {answer : ListAnswer α}
    (represents : l.Represents elements)
    (performs : l.Performs null (.sortedInsert element item sortKey) answer l') :
    l'.Represents (Nachos.sortedInsert item sortKey elements) := by
  obtain ⟨elements', step, after⟩ := represents.performs performs
  rw [← step.sortedInsert_eq]
  exact after

/-- On what a list stands for, `SortedRemove` takes the first element. -/
theorem Represents.sortedRemove {null : α} {l' : LinkedList α}
    {elements : List (ListElement α)} {answer : ListAnswer α}
    (represents : l.Represents elements)
    (performs : l.Performs null .sortedRemove answer l') :
    match Nachos.sortedRemove elements with
    | none => answer = .thingAndKey null none ∧ l'.Represents []
    | some (item, key, rest) =>
        answer = .thingAndKey item (some key) ∧ l'.Represents rest := by
  obtain ⟨elements', step, after⟩ := represents.performs performs
  have same := step.sortedRemove_eq
  split
  · rename_i empty
    rw [empty] at same
    exact ⟨same.1, same.2 ▸ after⟩
  · rename_i item key rest taken
    rw [taken] at same
    exact ⟨same.1, same.2 ▸ after⟩

end LinkedList

/-- A run from the empty list is answered as by the empty sequence. -/
theorem LinkedList.performs_sequence {α : Type} {null : α}
    {heap : Heap Address (ListElement α)} {calls : List (ListCall α)}
    {answers : List (ListAnswer α)} {l : LinkedList α}
    (run : Answered (Performs null) (construct heap) calls answers l) :
    ∃ elements, Answered (SequenceStep null) [] calls answers elements ∧
      l.Represents elements := by
  have start : (construct heap).Represents [] := ⟨[], holds_construct heap, rfl⟩
  have every : ∀ call ∈ calls, (fun _ => True) call := fun _ _ => trivial
  refine Answered.simulate Represents ?_ start every run
  intro l l' elements call answer represents _ performs
  exact represents.performs performs

open LinkedList

/-- Whatever calls are made of an initially empty list, at whatever fresh addresses:
`next` leads from `first` over distinct elements to `last`, whose `next` is NULL,
`first` is NULL if and only if `last` is, and the calls were answered as by a
finite sequence, which the elements hold; every further call comes to its end.  If
only the sorted calls were made, the list is sorted, holds what has arrived and
was not served, and served the least key first, the first to arrive among equals. -/
theorem list_represents_sequence {α : Type} {null : α}
    {heap : Heap Address (ListElement α)} {calls : List (ListCall α)}
    {answers : List (ListAnswer α)} {l : LinkedList α}
    (run : Answered (Performs null) (construct heap) calls answers l) :
    ∃ cells : List (Address × ListElement α),
      Chain l.heap l.first cells none ∧ (cells.map Prod.fst).Nodup ∧
      l.last = cells.getLast?.map Prod.fst ∧ (l.first = none ↔ l.last = none) ∧
      Answered (SequenceStep null) [] calls answers (cells.map Prod.snd) ∧
      (∀ call, l.Fresh call → ∃ answer l', l.Performs null call answer l') ∧
      ((∀ call ∈ calls, call.IsSorted) →
        Sorted (cells.map Prod.snd) ∧ ∃ arrivals,
          (cells.map Prod.snd).Perm arrivals ∧
            Answered (QueueStep null) [] calls answers arrivals) := by
  obtain ⟨_, answered, cells, holds, rfl⟩ := performs_sequence run
  refine ⟨cells, holds.chain, holds.chain.nodup, holds.last, ?_, answered, ?_, ?_⟩
  · rw [holds.first, holds.last]
    cases cells <;> simp
  · intro call fresh
    obtain ⟨answer, l', _, -, -, returns⟩ := holds.call null fresh
    exact ⟨answer, l', fresh, cells.length + 1, returns⟩
  · intro sorted
    obtain ⟨arrivals, served, arranged⟩ := sequence_serves answered sorted
    rw [arranged]
    exact ⟨arrange_sorted arrivals, arrivals, arrange_perm arrivals, served⟩

/-- A call that returns whatever the fuel beyond three. -/
theorem LinkedList.performs_of_call {α : Type} {null : α} {l l' : LinkedList α}
    {call : ListCall α} {answer : ListAnswer α} (fresh : l.Fresh call)
    (returns : ∀ rest, l.call null (rest + 3) call = some (answer, l')) :
    l.Performs null call answer l' := by
  refine ⟨fresh, 3, fun fuel enough => ?_⟩
  obtain ⟨rest, rfl⟩ : ∃ rest, fuel = rest + 3 := ⟨fuel - 3, by omega⟩
  exact returns rest

/-- Two equal keys and a smaller one, served until the list is empty; the address 3
is then free again. -/
def servedCalls : List (ListCall Nat) :=
  [.sortedInsert 1 10 7, .sortedInsert 2 20 7, .sortedInsert 3 30 5, .sortedRemove,
    .sortedRemove, .sortedInsert 3 40 9, .sortedRemove, .sortedRemove, .sortedRemove]

def servedAnswers : List (ListAnswer Nat) :=
  [.nothing, .nothing, .nothing, .thingAndKey 30 (some 5), .thingAndKey 10 (some 7),
    .nothing, .thingAndKey 20 (some 7), .thingAndKey 40 (some 9), .thingAndKey 0 none]

theorem served_run :
    ∃ l, Answered (Performs 0) (construct fun _ => none) servedCalls servedAnswers l := by
  exact ⟨_,
    .cons (performs_of_call rfl fun rest => rfl) <|
    .cons (performs_of_call rfl fun rest => rfl) <|
    .cons (performs_of_call rfl fun rest => rfl) <|
    .cons (performs_of_call trivial fun rest => rfl) <|
    .cons (performs_of_call trivial fun rest => rfl) <|
    .cons (performs_of_call rfl fun rest => rfl) <|
    .cons (performs_of_call trivial fun rest => rfl) <|
    .cons (performs_of_call trivial fun rest => rfl) <|
    .cons (performs_of_call trivial fun rest => rfl) <| .nil _⟩

theorem list_represents_served :
    ∃ (l : LinkedList Nat) (cells : List (Address × ListElement Nat)),
      Answered (Performs 0) (construct fun _ => none) servedCalls servedAnswers l ∧
      Chain l.heap l.first cells none ∧
      Answered (SequenceStep 0) [] servedCalls servedAnswers (cells.map Prod.snd) ∧
      ∃ arrivals, Answered (QueueStep 0) [] servedCalls servedAnswers arrivals := by
  obtain ⟨l, run⟩ := served_run
  obtain ⟨cells, chain, -, -, -, answered, -, sorted⟩ := list_represents_sequence run
  obtain ⟨-, arrivals, -, served⟩ := sorted (by simp [servedCalls, ListCall.IsSorted])
  exact ⟨l, cells, run, chain, answered, arrivals, served⟩

end Nachos
