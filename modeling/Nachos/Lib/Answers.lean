/-
Module: Nachos.Lib.Answers
Purpose: Objects that answer calls, given by the relation between a state, a call,
  its answer and the next state; sequences of calls with their answers, and the
  rule that carries them from one object to another.  Nothing here mentions a
  particular program.
Trusted boundary: none
Main exports: Answered, Answered.simulate, answers, answers_snoc, answered_answers
-/
import Mathlib.Logic.Basic

namespace Nachos.Lib

variable {σ τ κ α : Type*}

/-- A sequence of calls, with their answers and the state that they leave. -/
inductive Answered (step : σ → κ → α → σ → Prop) :
    σ → List κ → List α → σ → Prop where
  | nil (s : σ) : Answered step s [] [] s
  | cons {s s' s'' : σ} {call : κ} {answer : α} {calls : List κ} {answers : List α}
      (first : step s call answer s') (rest : Answered step s' calls answers s'') :
      Answered step s (call :: calls) (answer :: answers) s''

/-- When every call that is answered is answered alike by a related object, which
stays related, so is every sequence of calls. -/
theorem Answered.simulate {step : σ → κ → α → σ → Prop} {step' : τ → κ → α → τ → Prop}
    (related : σ → τ → Prop) {valid : κ → Prop}
    (simulates : ∀ {s s' : σ} {t : τ} {call : κ} {answer : α}, related s t → valid call →
      step s call answer s' → ∃ t', step' t call answer t' ∧ related s' t')
    {s s' : σ} {t : τ} {calls : List κ} {answers : List α} (start : related s t)
    (allValid : ∀ call ∈ calls, valid call) (answered : Answered step s calls answers s') :
    ∃ t', Answered step' t calls answers t' ∧ related s' t' := by
  induction answered generalizing t with
  | nil s => exact ⟨t, .nil t, start⟩
  | cons first rest inductionHypothesis =>
      obtain ⟨next, step, after⟩ := simulates start (allValid _ (.head _)) first
      obtain ⟨last, others, finish⟩ :=
        inductionHypothesis after fun call member => allValid call (.tail _ member)
      exact ⟨last, .cons step others, finish⟩

/-- The answers of an object that always returns. -/
def answers (call : σ → κ → α × σ) : σ → List κ → List α × σ
  | s, [] => ([], s)
  | s, c :: calls =>
      let result := call s c
      let rest := answers call result.2 calls
      (result.1 :: rest.1, rest.2)

/-- The last of a sequence of calls is answered in the state that the others leave. -/
theorem answers_snoc (call : σ → κ → α × σ) (s : σ) (calls : List κ) (last : κ) :
    answers call s (calls ++ [last]) =
      ((answers call s calls).1 ++ [(call (answers call s calls).2 last).1],
        (call (answers call s calls).2 last).2) := by
  induction calls generalizing s with
  | nil => rfl
  | cons c calls inductionHypothesis =>
      simp only [List.cons_append, answers, inductionHypothesis]

theorem answered_answers (call : σ → κ → α × σ) (s : σ) (calls : List κ) :
    Answered (fun s c answer s' => call s c = (answer, s')) s calls
      (answers call s calls).1 (answers call s calls).2 := by
  induction calls generalizing s with
  | nil => exact .nil s
  | cons c calls inductionHypothesis => exact .cons rfl (inductionHypothesis (call s c).2)

end Nachos.Lib
