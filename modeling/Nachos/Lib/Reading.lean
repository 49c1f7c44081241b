/-
Module: Nachos.Lib.Reading
Purpose: Reading the answers to a list of questions from a stream of tokens.
  A question passes over the tokens that it skips and is answered by the first
  token that it takes, and the next question goes on behind that token.  What
  skips and what takes is a parameter, so that two readers of one stream can be
  compared.
Trusted boundary: none
Main exports: Reads, Reads.tokens_used, Reads.forall₂, reads_cons_iff, Reads.mono
-/
import Mathlib.Data.List.Basic
import Mathlib.Tactic.Common

namespace Nachos.Lib

variable {Q T A : Type*}

/-- From position `p` on, the questions are answered by `answers`, and the
tokens before position `e` are used up.  A position without a token is the end
of the stream. -/
inductive Reads (skips : Q → T → Prop) (takes : Q → T → A → Prop)
    (tokens : Nat → Option T) : List Q → Nat → List A → Nat → Prop where
  | done (p : Nat) : Reads skips takes tokens [] p [] p
  | skip {q : Q} {rest : List Q} {p e : Nat} {answers : List A} {t : T}
      (here : tokens p = some t) (skipped : skips q t)
      (reads : Reads skips takes tokens (q :: rest) (p + 1) answers e) :
      Reads skips takes tokens (q :: rest) p answers e
  | take {q : Q} {rest : List Q} {p e : Nat} {answers : List A} {t : T} {a : A}
      (here : tokens p = some t) (taken : takes q t a)
      (reads : Reads skips takes tokens rest (p + 1) answers e) :
      Reads skips takes tokens (q :: rest) p (a :: answers) e

variable {skips skips' : Q → T → Prop} {takes takes' : Q → T → A → Prop}
  {tokens : Nat → Option T} {questions : List Q} {p e : Nat} {answers : List A}

theorem Reads.le (reads : Reads skips takes tokens questions p answers e) : p ≤ e := by
  induction reads with
  | done p => exact Nat.le_refl _
  | skip here skipped reads inductionHypothesis => omega
  | take here taken reads inductionHypothesis => omega

/-- What holds of every token that is skipped or taken holds of all tokens used. -/
theorem Reads.tokens_used {P : T → Prop}
    (reads : Reads skips takes tokens questions p answers e)
    (skip : ∀ q t, skips q t → P t) (take : ∀ q t a, takes q t a → P t) :
    ∀ j, p ≤ j → j < e → ∃ t, tokens j = some t ∧ P t := by
  induction reads with
  | done p => omega
  | @skip q _ p e _ t here skipped reads inductionHypothesis =>
      intro j from_p before
      rcases Nat.eq_or_lt_of_le from_p with rfl | after
      · exact ⟨t, here, skip q t skipped⟩
      · exact inductionHypothesis j after before
  | @take q _ p e _ t a here taken reads inductionHypothesis =>
      intro j from_p before
      rcases Nat.eq_or_lt_of_le from_p with rfl | after
      · exact ⟨t, here, take q t a taken⟩
      · exact inductionHypothesis j after before

/-- Every question is answered by a token that it takes. -/
theorem Reads.forall₂ {P : Q → A → Prop}
    (reads : Reads skips takes tokens questions p answers e)
    (take : ∀ q t a, takes q t a → P q a) : List.Forall₂ P questions answers := by
  induction reads with
  | done p => exact .nil
  | skip here skipped reads inductionHypothesis => exact inductionHypothesis
  | take here taken reads inductionHypothesis =>
      exact .cons (take _ _ _ taken) inductionHypothesis

/-- A question passes over any number of tokens. -/
theorem Reads.skip_to {q : Q} {rest : List Q} {k : Nat}
    (reads : Reads skips takes tokens (q :: rest) k answers e) (le : p ≤ k)
    (skipped : ∀ j, p ≤ j → j < k → ∃ t, tokens j = some t ∧ skips q t) :
    Reads skips takes tokens (q :: rest) p answers e := by
  obtain ⟨n, rfl⟩ := Nat.exists_eq_add_of_le le
  induction n generalizing p with
  | zero => exact reads
  | succ n inductionHypothesis =>
      obtain ⟨t, here, skips⟩ := skipped p (Nat.le_refl p) (by omega)
      have shift : p + (n + 1) = p + 1 + n := by omega
      refine .skip here skips (inductionHypothesis (p := p + 1) ?_ (by omega) ?_)
      · rwa [← shift]
      · intro j after before
        exact skipped j (by omega) (by omega)

/-- The first question skips tokens up to the one that answers it. -/
theorem reads_cons_iff {q : Q} {rest : List Q} :
    Reads skips takes tokens (q :: rest) p answers e ↔
      ∃ k t a later, p ≤ k ∧
        (∀ j, p ≤ j → j < k → ∃ t, tokens j = some t ∧ skips q t) ∧
        tokens k = some t ∧ takes q t a ∧ answers = a :: later ∧
        Reads skips takes tokens rest (k + 1) later e := by
  constructor
  · intro reads
    generalize asked : q :: rest = questions at reads
    induction reads with
    | done p => cases asked
    | @skip _ _ p e answers t here skipped reads inductionHypothesis =>
        cases asked
        obtain ⟨k, t', a, later, le, skipped', answered⟩ := inductionHypothesis rfl
        refine ⟨k, t', a, later, by omega, fun j from_p before => ?_, answered⟩
        rcases Nat.eq_or_lt_of_le from_p with rfl | after
        · exact ⟨t, here, skipped⟩
        · exact skipped' j after before
    | @take _ _ p e answers t a here taken reads _ =>
        cases asked
        exact ⟨p, t, a, answers, (Nat.le_refl _), by omega, here, taken, rfl, reads⟩
  · rintro ⟨k, t, a, later, le, skipped, here, taken, rfl, reads⟩
    exact (Reads.take here taken reads).skip_to le skipped

/-- A reader that skips and takes more on the tokens used reads the same. -/
theorem Reads.mono (reads : Reads skips takes tokens questions p answers e)
    (skip : ∀ q ∈ questions, ∀ j t, p ≤ j → j < e → tokens j = some t →
      skips q t → skips' q t)
    (take : ∀ q ∈ questions, ∀ t a, takes q t a → takes' q t a) :
    Reads skips' takes' tokens questions p answers e := by
  induction reads with
  | done p => exact .done p
  | @skip q rest p e answers t here skipped reads inductionHypothesis =>
      have le := reads.le
      refine .skip here (skip q (by simp) p t (Nat.le_refl _) (by omega) here skipped) ?_
      exact inductionHypothesis
        (fun q member j t from_p before => skip q member j t (by omega) before) take
  | @take q rest p e answers t a here taken reads inductionHypothesis =>
      refine .take here (take q (by simp) t a taken) ?_
      refine inductionHypothesis (fun q member j t from_p before => ?_)
        fun q member => take q (List.mem_cons_of_mem _ member)
      exact skip q (List.mem_cons_of_mem _ member) j t (by omega) before

end Nachos.Lib
