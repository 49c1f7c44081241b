/-
Module: Nachos.Threads.SortedList
Purpose: The sorted part of list.cc as operations on the sequence of list
  elements: `SortedInsert` puts an item behind all items with a key that is
  not larger, `SortedRemove` takes the first one.
Trusted boundary: none
Main exports: ListElement, sortedInsert, sortedRemove, Sorted,
  Sorted.sortedInsert, sortedInsert_perm
-/
import Mathlib.Data.List.Perm.Basic

namespace Nachos

/-- `class ListElement`. -/
structure ListElement (α : Type) where
  item : α
  key : Int
deriving DecidableEq, Repr

variable {α : Type}

/-- The search of `List::SortedInsert` for the first element with a larger
key, before which the new one goes. -/
def insertElement (element : ListElement α) :
    List (ListElement α) → List (ListElement α)
  | [] => [element]
  | ptr :: rest =>
      if element.key < ptr.key then element :: ptr :: rest
      else ptr :: insertElement element rest

/-- `List::SortedInsert`. -/
def sortedInsert (item : α) (sortKey : Int) (elements : List (ListElement α)) :
    List (ListElement α) :=
  insertElement { item, key := sortKey } elements

/-- `List::SortedRemove`: the item, its key, and what is left of the list;
`none` stands for NULL. -/
def sortedRemove : List (ListElement α) →
    Option (α × Int × List (ListElement α))
  | [] => none
  | first :: rest => some (first.item, first.key, rest)

/-- The keys do not decrease along the list. -/
def Sorted (elements : List (ListElement α)) : Prop :=
  elements.Pairwise fun first second => first.key ≤ second.key

theorem insertElement_perm (element : ListElement α)
    (elements : List (ListElement α)) :
    (insertElement element elements).Perm (element :: elements) := by
  induction elements with
  | nil => exact List.Perm.refl _
  | cons ptr rest inductionHypothesis =>
      rw [insertElement]
      split
      · exact List.Perm.refl _
      · exact (inductionHypothesis.cons ptr).trans (List.Perm.swap element ptr rest)

/-- The list holds what it held and the new item. -/
theorem sortedInsert_perm (item : α) (sortKey : Int)
    (elements : List (ListElement α)) :
    (sortedInsert item sortKey elements).Perm ({ item, key := sortKey } :: elements) :=
  insertElement_perm _ elements

theorem mem_sortedInsert {item : α} {sortKey : Int} {element : ListElement α}
    {elements : List (ListElement α)} :
    element ∈ sortedInsert item sortKey elements ↔
      element = { item, key := sortKey } ∨ element ∈ elements := by
  rw [(sortedInsert_perm item sortKey elements).mem_iff, List.mem_cons]

theorem Sorted.insertElement {element : ListElement α}
    {elements : List (ListElement α)} (sorted : Sorted elements) :
    Sorted (insertElement element elements) := by
  induction elements with
  | nil => exact List.pairwise_singleton _ _
  | cons ptr rest inductionHypothesis =>
      obtain ⟨smallest, sortedRest⟩ := List.pairwise_cons.mp sorted
      rw [Nachos.insertElement]
      split
      · rename_i smaller
        apply List.pairwise_cons.mpr
        refine ⟨fun other member => ?_, sorted⟩
        rcases List.mem_cons.mp member with rfl | behind
        · exact Int.le_of_lt smaller
        · exact Int.le_trans (Int.le_of_lt smaller) (smallest other behind)
      · rename_i larger
        apply List.pairwise_cons.mpr
        refine ⟨fun other member => ?_, inductionHypothesis sortedRest⟩
        rcases List.mem_cons.mp ((insertElement_perm element rest).mem_iff.mp member)
          with rfl | behind
        · exact Int.not_lt.mp larger
        · exact smallest other behind

/-- `SortedInsert` keeps the list sorted. -/
theorem Sorted.sortedInsert {elements : List (ListElement α)} (item : α)
    (sortKey : Int) (sorted : Sorted elements) :
    Sorted (sortedInsert item sortKey elements) :=
  sorted.insertElement

/-- The first element of a sorted list has the smallest key. -/
theorem Sorted.first_le {first element : ListElement α}
    {rest : List (ListElement α)} (sorted : Sorted (first :: rest))
    (member : element ∈ first :: rest) : first.key ≤ element.key := by
  rcases List.mem_cons.mp member with rfl | behind
  · exact Int.le_refl _
  · exact (List.pairwise_cons.mp sorted).1 element behind

theorem Sorted.tail {first : ListElement α} {rest : List (ListElement α)}
    (sorted : Sorted (first :: rest)) : Sorted rest :=
  (List.pairwise_cons.mp sorted).2

end Nachos
