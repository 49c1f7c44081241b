/-
Module: Nachos.Lib.Slots
Purpose: Histories of a table of slots that many parties use at once: an item
  takes a slot, the party that put it there is told the slot, the slot is
  looked at and is emptied.  What callers may rely on is stated on the history,
  and follows when each event fits what occupies its slot.  Nothing here
  mentions a particular program.
Trusted boundary: none
Main exports: SlotEvent, Occupant, occupant, SlotEvent.Fits, Fitting, Lawful,
  Fitting.lawful
-/
import Mathlib.Data.List.Basic
import Mathlib.Tactic.Common

namespace Nachos.Lib

/-- What happens to a slot; an item may be null, that is `none`. -/
inductive SlotEvent (ι α : Type*) where
  /-- a slot is taken for an item -/
  | took (i : ι) (item : Option α)
  /-- the party that put the item is told its slot -/
  | returned (i : ι) (item : Option α)
  /-- the slot is emptied, with an answer -/
  | removed (i : ι) (answer : Option α)
  /-- the slot is looked at, with an answer -/
  | got (i : ι) (answer : Option α)
deriving DecidableEq

/-- What is in a slot. -/
inductive Occupant (α : Type*) where
  | untouched
  | free
  /-- taken for an item whose party has not been told yet -/
  | taken (item : Option α)
  | settled (item : Option α)

variable {ι α : Type*}

/-! ### What callers may rely on -/

/-- In a history, newest first, the slot was taken for an item and has not been
emptied since. -/
def Holds (i : ι) (item : Option α) (history : List (SlotEvent ι α)) : Prop :=
  ∃ later earlier, history = later ++ .took i item :: earlier ∧
    ∀ answer, .removed i answer ∉ later

/-- A party was told that the slot holds its item, and the slot has not been
emptied since. -/
def Told (i : ι) (item : Option α) (history : List (SlotEvent ι α)) : Prop :=
  ∃ later earlier, history = later ++ .returned i item :: earlier ∧
    ∀ answer, .removed i answer ∉ later

/-- An event is as the callers expect after the events before it. -/
def SlotEvent.Expected (history : List (SlotEvent ι α)) : SlotEvent ι α → Prop
  | .took _ _ => True
  | .returned i _ => ∀ later earlier item, history = later ++ .returned i item :: earlier →
      .removed i item ∈ later
  | .removed i answer => answer = none ∨ Holds i answer history
  | .got i answer => (answer = none ∨ Holds i answer history) ∧
      ∀ item, Told i item history → answer = item

/-- Every event of a history is as expected. -/
def Lawful : List (SlotEvent ι α) → Prop
  | [] => True
  | event :: history => event.Expected history ∧ Lawful history

theorem Holds.cons {history : List (SlotEvent ι α)} {i : ι} {item : Option α}
    {event : SlotEvent ι α} (holds : Holds i item history)
    (stays : ∀ answer, event ≠ .removed i answer) : Holds i item (event :: history) := by
  obtain ⟨later, earlier, split, kept⟩ := holds
  refine ⟨event :: later, earlier, by rw [split]; rfl, ?_⟩
  intro answer member
  rcases List.mem_cons.mp member with same | among
  · exact stays answer same.symm
  · exact kept answer among

/-! ### Events that fit -/

section

variable [DecidableEq ι]

/-- What is in a slot after a history. -/
def occupant (i : ι) : List (SlotEvent ι α) → Occupant α
  | [] => .untouched
  | .took j item :: history => if j = i then .taken item else occupant i history
  | .returned j item :: history => if j = i then .settled item else occupant i history
  | .removed j _ :: history =>
      if j = i then
        match occupant i history with
        | .untouched => .untouched
        | _ => .free
      else occupant i history
  | .got _ _ :: history => occupant i history

/-- An event fits what is in its slot. -/
def SlotEvent.Fits (history : List (SlotEvent ι α)) : SlotEvent ι α → Prop
  | .took i _ => occupant i history = .untouched ∨ occupant i history = .free
  | .returned i item => occupant i history = .taken item
  | .removed i answer =>
      occupant i history = .settled answer ∨
        (answer = none ∧ (occupant i history = .untouched ∨ occupant i history = .free))
  | .got i answer =>
      match occupant i history with
      | .settled item => answer = item
      | .taken item => answer = none ∨ answer = item
      | _ => answer = none

/-- A slot that has been taken once stays so. -/
theorem touched_cons {i : ι} {history : List (SlotEvent ι α)} (event : SlotEvent ι α)
    (touched : occupant i history ≠ .untouched) :
    occupant i (event :: history) ≠ .untouched := by
  cases event with
  | took j item =>
      unfold occupant
      split
      · simp
      · exact touched
  | returned j item =>
      unfold occupant
      split
      · simp
      · exact touched
  | removed j answer =>
      unfold occupant
      split
      · split
        · contradiction
        · simp
      · exact touched
  | got j answer => exact touched

/-- Every event of a history fits. -/
def Fitting : List (SlotEvent ι α) → Prop
  | [] => True
  | event :: history => event.Fits history ∧ Fitting history

variable {history : List (SlotEvent ι α)} {i : ι} {item : Option α}

/-- What is in a slot was put there. -/
theorem Fitting.holds (fitting : Fitting history)
    (occupied : occupant i history = .taken item ∨ occupant i history = .settled item) :
    Holds i item history := by
  induction history with
  | nil =>
      rcases occupied with none | none
      · cases none
      · cases none
  | cons event history inductionHypothesis =>
      obtain ⟨fits, fitting⟩ := fitting
      cases event with
      | took j other =>
          by_cases here : j = i
          · subst here
            simp only [occupant, ↓reduceIte, Occupant.taken.injEq, reduceCtorEq, or_false]
              at occupied
            rw [occupied]
            exact ⟨[], history, rfl, fun _ => List.not_mem_nil⟩
          · simp only [occupant, if_neg here] at occupied
            exact (inductionHypothesis fitting occupied).cons fun _ same => by cases same
      | returned j other =>
          by_cases here : j = i
          · subst here
            simp only [occupant, ↓reduceIte, Occupant.settled.injEq, reduceCtorEq, false_or]
              at occupied
            rw [occupied] at fits
            exact (inductionHypothesis fitting (.inl fits)).cons fun _ same => by cases same
          · simp only [occupant, if_neg here] at occupied
            exact (inductionHypothesis fitting occupied).cons fun _ same => by cases same
      | removed j answer =>
          by_cases here : j = i
          · simp only [occupant, if_pos here] at occupied
            split at occupied
            · simp at occupied
            · simp at occupied
          · simp only [occupant, if_neg here] at occupied
            refine (inductionHypothesis fitting occupied).cons fun answer same => ?_
            cases same
            exact here rfl
      | got j answer =>
          exact (inductionHypothesis fitting occupied).cons fun _ same => by cases same

/-- A slot stays as its party was told until it is emptied. -/
theorem Fitting.settled {later earlier : List (SlotEvent ι α)}
    (fitting : Fitting (later ++ .returned i item :: earlier))
    (kept : ∀ answer, .removed i answer ∉ later) :
    occupant i (later ++ .returned i item :: earlier) = .settled item := by
  induction later with
  | nil => simp [occupant]
  | cons event later inductionHypothesis =>
      obtain ⟨fits, fitting⟩ := fitting
      have before := inductionHypothesis fitting fun answer member =>
        kept answer (List.mem_cons_of_mem _ member)
      rw [List.cons_append]
      rw [List.append_eq] at fits
      cases event with
      | took j other =>
          by_cases here : j = i
          · simp [SlotEvent.Fits, here, before] at fits
          · rw [occupant, if_neg here, before]
      | returned j other =>
          by_cases here : j = i
          · simp [SlotEvent.Fits, here, before] at fits
          · rw [occupant, if_neg here, before]
      | removed j answer =>
          by_cases here : j = i
          · exact absurd (by rw [here]; exact List.mem_cons_self) (kept answer)
          · rw [occupant, if_neg here, before]
      | got j answer => rw [occupant, before]

/-- The first that empties a slot its party was told of gets the item. -/
theorem Fitting.emptied {later earlier : List (SlotEvent ι α)}
    (fitting : Fitting (later ++ .returned i item :: earlier))
    (gone : ∃ answer, .removed i answer ∈ later) : .removed i item ∈ later := by
  induction later with
  | nil =>
      obtain ⟨answer, member⟩ := gone
      exact absurd member List.not_mem_nil
  | cons event later inductionHypothesis =>
      obtain ⟨fits, fitting⟩ := fitting
      rw [List.append_eq] at fits
      by_cases before : ∃ answer, SlotEvent.removed i answer ∈ later
      · exact List.mem_cons_of_mem _ (inductionHypothesis fitting before)
      · have kept : ∀ answer, SlotEvent.removed i answer ∉ later := not_exists.mp before
        obtain ⟨answer, member⟩ := gone
        rcases List.mem_cons.mp member with same | among
        · subst same
          simp only [SlotEvent.Fits, fitting.settled kept, Occupant.settled.injEq, reduceCtorEq,
            or_self, and_false, or_false] at fits
          rw [fits]
          exact List.mem_cons_self
        · exact absurd among (kept answer)

/-- When every event fits what is in its slot, every event is as callers
expect. -/
theorem Fitting.lawful (fitting : Fitting history) : Lawful history := by
  induction history with
  | nil => trivial
  | cons event history inductionHypothesis =>
      obtain ⟨fits, fitting⟩ := fitting
      refine ⟨?_, inductionHypothesis fitting⟩
      cases event with
      | took i item => trivial
      | returned i item =>
          rintro later earlier other rfl
          apply fitting.emptied
          by_contra kept
          have before := fitting.settled (not_exists.mp kept)
          simp only [SlotEvent.Fits] at fits
          rw [before] at fits
          cases fits
      | removed i answer =>
          rcases fits with settled | ⟨none, -⟩
          · exact .inr (fitting.holds (.inr settled))
          · exact .inl none
      | got i answer =>
          constructor
          · simp only [SlotEvent.Fits] at fits
            split at fits
            · rename_i item settled
              rw [fits]
              exact .inr (fitting.holds (.inr settled))
            · rename_i item taken
              rcases fits with none | same
              · exact .inl none
              · rw [same]
                exact .inr (fitting.holds (.inl taken))
            · exact .inl fits
          · rintro item ⟨later, earlier, rfl, kept⟩
            simp only [SlotEvent.Fits, fitting.settled kept] at fits
            exact fits

end

end Nachos.Lib
