/-
Module: Nachos.Lib.Transition
Purpose: Transition systems given by a partial step function, their finite
  runs, and the induction rules for properties of whole runs.  Nothing here
  mentions a particular program.
Trusted boundary: none
Main exports: Machine, Machine.exec, Machine.Along, Machine.Steps,
  Machine.invariant, Machine.along_of_guarded, Machine.along_iff_steps,
  Machine.steps_congr_of_invariant, Machine.exec_congr_of_invariant,
  Machine.exec_of_simulation
-/
import Mathlib.Order.Basic
import Mathlib.Data.List.Basic

namespace Nachos.Lib

/-- A labelled transition system whose step is a partial function: an action
that is not enabled in a state gives `none`. -/
structure Machine (σ α : Type*) where
  step : σ → α → Option σ

namespace Machine

variable {σ α : Type*} (M : Machine σ α)

/-- Perform a list of actions in order; `none` when one of them is not
enabled where it is reached. -/
def exec : σ → List α → Option σ
  | s, [] => some s
  | s, a :: acts => (M.step s a).bind fun s' => exec s' acts

/-- `P` holds in every state that the run of `acts` from `s` goes through,
the first and the last one included. -/
def Along (P : σ → Prop) : σ → List α → Prop
  | s, [] => P s
  | s, a :: acts => P s ∧ ∀ s', M.step s a = some s' → Along P s' acts

/-- Every step of the run of `acts` from `s` meets `C`, a condition on the
state before the step and on the action. -/
def Steps (C : σ → α → Prop) : σ → List α → Prop
  | _, [] => True
  | s, a :: acts => C s a ∧ ∀ s', M.step s a = some s' → Steps C s' acts

@[simp] theorem exec_nil (s : σ) : M.exec s [] = some s := rfl

theorem exec_cons_eq_some {s s'' : σ} {a : α} {acts : List α} :
    M.exec s (a :: acts) = some s'' ↔
      ∃ s', M.step s a = some s' ∧ M.exec s' acts = some s'' := by
  simp only [exec, Option.bind_eq_some_iff]

/-- Evaluate the first step of a run. -/
theorem exec_cons_of_step {M : Machine σ α} {s s' : σ} {a : α} {acts : List α}
    (step : M.step s a = some s') : M.exec s (a :: acts) = M.exec s' acts := by
  rw [exec, step, Option.bind_some]

/-- Runs compose: performing a concatenation is performing its parts. -/
theorem exec_append (s : σ) (first second : List α) :
    M.exec s (first ++ second) =
      (M.exec s first).bind fun s' => M.exec s' second := by
  induction first generalizing s with
  | nil => rfl
  | cons a acts inductionHypothesis =>
      simp only [List.cons_append, exec]
      cases M.step s a with
      | none => rfl
      | some s' => exact inductionHypothesis s'

/-- Expose the last step of a run. -/
theorem exec_snoc_eq_some {s s'' : σ} {a : α} {acts : List α} :
    M.exec s (acts ++ [a]) = some s'' ↔
      ∃ s', M.exec s acts = some s' ∧ M.step s' a = some s'' := by
  rw [exec_append, Option.bind_eq_some_iff]
  constructor
  · rintro ⟨s', run, last⟩
    obtain ⟨next, step, stop⟩ := (M.exec_cons_eq_some).mp last
    cases stop
    exact ⟨s', run, step⟩
  · rintro ⟨s', run, step⟩
    exact ⟨s', run, (M.exec_cons_eq_some).mpr ⟨s'', step, rfl⟩⟩

variable {M}

theorem Along.start {P : σ → Prop} {s : σ} {acts : List α}
    (along : M.Along P s acts) : P s := by
  cases acts with
  | nil => exact along
  | cons => exact along.1

/-- A property of every state of a run holds where the run ends. -/
theorem Along.finish {P : σ → Prop} {s s' : σ} {acts : List α}
    (along : M.Along P s acts) (run : M.exec s acts = some s') : P s' := by
  induction acts generalizing s with
  | nil =>
      cases run
      exact along
  | cons a acts inductionHypothesis =>
      obtain ⟨next, step, rest⟩ := (M.exec_cons_eq_some).mp run
      exact inductionHypothesis (along.2 next step) rest

theorem Along.mono {P Q : σ → Prop} {s : σ} {acts : List α}
    (along : M.Along P s acts) (imp : ∀ s, P s → Q s) :
    M.Along Q s acts := by
  induction acts generalizing s with
  | nil => exact imp s along
  | cons a acts inductionHypothesis =>
      exact ⟨imp s along.1,
        fun next step => inductionHypothesis (along.2 next step)⟩

/-- The trivial condition is met by every run. -/
theorem steps_true (s : σ) (acts : List α) : M.Steps (fun _ _ => True) s acts := by
  induction acts generalizing s with
  | nil => trivial
  | cons a acts inductionHypothesis =>
      exact ⟨trivial, fun next _ => inductionHypothesis next⟩

/-- A condition on actions alone. -/
theorem steps_of_forall {C : α → Prop} (s : σ) {acts : List α}
    (all : ∀ a ∈ acts, C a) : M.Steps (fun _ a => C a) s acts := by
  induction acts generalizing s with
  | nil => trivial
  | cons a acts inductionHypothesis =>
      constructor
      · exact all a (by simp)
      · intro next _
        exact inductionHypothesis next fun b member => all b (by simp [member])

theorem forall_of_steps {C : α → Prop} {s s' : σ} {acts : List α}
    (run : M.exec s acts = some s') (steps : M.Steps (fun _ a => C a) s acts) :
    ∀ a ∈ acts, C a := by
  induction acts generalizing s with
  | nil => simp
  | cons a acts inductionHypothesis =>
      obtain ⟨next, step, rest⟩ := (M.exec_cons_eq_some).mp run
      intro b member
      rcases List.mem_cons.mp member with rfl | later
      · exact steps.1
      · exact inductionHypothesis rest (steps.2 next step) b later

theorem Steps.mono {C D : σ → α → Prop} {s : σ} {acts : List α}
    (steps : M.Steps C s acts) (imp : ∀ s a, C s a → D s a) :
    M.Steps D s acts := by
  induction acts generalizing s with
  | nil => trivial
  | cons a acts inductionHypothesis =>
      exact ⟨imp s a steps.1,
        fun next step => inductionHypothesis (steps.2 next step)⟩

theorem Steps.and {C D : σ → α → Prop} {s : σ} {acts : List α}
    (left : M.Steps C s acts) (right : M.Steps D s acts) :
    M.Steps (fun s a => C s a ∧ D s a) s acts := by
  induction acts generalizing s with
  | nil => trivial
  | cons a acts inductionHypothesis =>
      exact ⟨⟨left.1, right.1⟩,
        fun next step =>
          inductionHypothesis (left.2 next step) (right.2 next step)⟩

/-- A step condition follows along a run from a property of its states and
another step condition. -/
theorem Along.steps {I : σ → Prop} {C D : σ → α → Prop} {s : σ} {acts : List α}
    (along : M.Along I s acts) (steps : M.Steps C s acts)
    (imp : ∀ s a, I s → C s a → D s a) : M.Steps D s acts := by
  induction acts generalizing s with
  | nil => trivial
  | cons a acts inductionHypothesis =>
      exact ⟨imp s a along.1 steps.1, fun next step =>
        inductionHypothesis (along.2 next step) (steps.2 next step)⟩

/-- The induction rule for guarded invariants: what every step meeting `C`
preserves holds along every run whose steps all meet `C`. -/
theorem along_of_guarded {I : σ → Prop} {C : σ → α → Prop}
    (preserved : ∀ s a s', I s → C s a → M.step s a = some s' → I s')
    {s : σ} {acts : List α} (start : I s) (steps : M.Steps C s acts) :
    M.Along I s acts := by
  induction acts generalizing s with
  | nil => exact start
  | cons a acts inductionHypothesis =>
      exact ⟨start, fun next step =>
        inductionHypothesis (preserved s a next start steps.1 step)
          (steps.2 next step)⟩

/-- The induction rule for invariants, read at the end of a run. -/
theorem invariant {I : σ → Prop}
    (preserved : ∀ s a s', I s → M.step s a = some s' → I s')
    {s s' : σ} {acts : List α} (start : I s)
    (run : M.exec s acts = some s') : I s' := by
  induction acts generalizing s with
  | nil =>
      cases run
      exact start
  | cons a acts inductionHypothesis =>
      obtain ⟨next, step, rest⟩ := (M.exec_cons_eq_some).mp run
      exact inductionHypothesis (preserved s a next start step) rest

/-- When steps that meet `C` preserve `I`, and a step that does not meet `C`
leads from `I` to a state without `P`, then `P` holds along a run exactly when
all steps of the run meet `C`.  Both may rely on an assumption `A` about every
step of the run. -/
theorem along_iff_steps {I P : σ → Prop} {A C : σ → α → Prop}
    (preserved : ∀ s a s', I s → A s a → C s a → M.step s a = some s' → I s')
    (sound : ∀ s, I s → P s)
    (sharp : ∀ s a s', I s → A s a → ¬ C s a → M.step s a = some s' → ¬ P s')
    {s s' : σ} {acts : List α} (start : I s) (assumed : M.Steps A s acts)
    (run : M.exec s acts = some s') :
    M.Along P s acts ↔ M.Steps C s acts := by
  constructor
  · intro along
    induction acts generalizing s with
    | nil => trivial
    | cons a acts inductionHypothesis =>
        obtain ⟨next, step, rest⟩ := (M.exec_cons_eq_some).mp run
        have after : M.Along P next acts := along.2 next step
        have good : C s a := by
          by_contra bad
          exact sharp s a next start assumed.1 bad step after.start
        refine ⟨good, fun other otherStep => ?_⟩
        obtain rfl : next = other := Option.some.inj (step.symm.trans otherStep)
        exact inductionHypothesis (preserved s a next start assumed.1 good step)
          (assumed.2 next step) rest after
  · intro steps
    have guarded := assumed.and steps
    exact (along_of_guarded
      (fun s a s' invariant both => preserved s a s' invariant both.1 both.2)
      start guarded).mono sound

/-- Two step conditions that agree wherever a step is taken from a state with
the invariant are met by the same runs. -/
theorem steps_congr_of_invariant {I : σ → Prop} {C D : σ → α → Prop}
    (preserved : ∀ s a s', I s → M.step s a = some s' → I s')
    (agree : ∀ s a s', I s → M.step s a = some s' → (C s a ↔ D s a))
    {s s' : σ} {acts : List α} (start : I s) (run : M.exec s acts = some s') :
    M.Steps C s acts ↔ M.Steps D s acts := by
  induction acts generalizing s with
  | nil => exact Iff.rfl
  | cons a acts inductionHypothesis =>
      obtain ⟨next, step, rest⟩ := (M.exec_cons_eq_some).mp run
      have tail := inductionHypothesis (preserved s a next start step) rest
      apply and_congr (agree s a next start step)
      simp only [step, Option.some.injEq, forall_eq']
      exact tail

/-- Read a step condition at one step of a run. -/
theorem Steps.at_step {C : σ → α → Prop} {s s' : σ} {first rest : List α} {a : α}
    (steps : M.Steps C s (first ++ a :: rest))
    (run : M.exec s first = some s') : C s' a := by
  induction first generalizing s with
  | nil =>
      cases run
      exact steps.1
  | cons b first inductionHypothesis =>
      obtain ⟨next, step, others⟩ := (M.exec_cons_eq_some).mp run
      exact inductionHypothesis (steps.2 next step) others

/-- A step condition can be evaluated along a concrete run. -/
instance decidableSteps (C : σ → α → Prop) [∀ s a, Decidable (C s a)] :
    ∀ (s : σ) (acts : List α), Decidable (M.Steps C s acts)
  | _, [] => isTrue trivial
  | s, a :: acts =>
      match step : M.step s a with
      | none => decidable_of_iff (C s a) (by simp [Steps, step])
      | some s' =>
          have := decidableSteps C s' acts
          decidable_of_iff (C s a ∧ M.Steps C s' acts) (by simp [Steps, step])

/-- A state property can be evaluated along a concrete run. -/
instance decidableAlong (P : σ → Prop) [∀ s, Decidable (P s)] :
    ∀ (s : σ) (acts : List α), Decidable (M.Along P s acts)
  | s, [] => inferInstanceAs (Decidable (P s))
  | s, a :: acts =>
      match step : M.step s a with
      | none => decidable_of_iff (P s) (by simp [Along, step])
      | some s' =>
          have := decidableAlong P s' acts
          decidable_of_iff (P s ∧ M.Along P s' acts) (by simp [Along, step])

/-- Two machines that agree where an invariant of the first one holds have the
same runs there. -/
theorem exec_congr_of_invariant {N : Machine σ α} {I : σ → Prop}
    (agrees : ∀ s a s', I s → M.step s a = some s' → N.step s a = some s' ∧ I s')
    {s s' : σ} {acts : List α} (start : I s) (run : M.exec s acts = some s') :
    N.exec s acts = some s' ∧ I s' := by
  induction acts generalizing s with
  | nil =>
      cases run
      exact ⟨rfl, start⟩
  | cons a acts inductionHypothesis =>
      obtain ⟨next, step, rest⟩ := (M.exec_cons_eq_some).mp run
      obtain ⟨same, kept⟩ := agrees s a next start step
      obtain ⟨tail, finish⟩ := inductionHypothesis kept rest
      exact ⟨(N.exec_cons_eq_some).mpr ⟨next, same, tail⟩, finish⟩

/-- A simulation by a function on states carries runs to runs.  A step may
also leave the image where it is. -/
theorem exec_of_simulation {τ β : Type*} {N : Machine τ β} {view : σ → τ}
    (simulates : ∀ s a s', M.step s a = some s' →
      view s' = view s ∨ ∃ b, N.step (view s) b = some (view s'))
    {s s' : σ} {acts : List α} (run : M.exec s acts = some s') :
    ∃ acts', N.exec (view s) acts' = some (view s') := by
  induction acts generalizing s with
  | nil =>
      cases run
      exact ⟨[], rfl⟩
  | cons a acts inductionHypothesis =>
      obtain ⟨next, step, rest⟩ := (M.exec_cons_eq_some).mp run
      obtain ⟨tail, tailRun⟩ := inductionHypothesis rest
      rcases simulates s a next step with same | ⟨b, moves⟩
      · exact ⟨tail, same ▸ tailRun⟩
      · exact ⟨b :: tail, (N.exec_cons_eq_some).mpr ⟨view next, moves, tailRun⟩⟩

end Machine

end Nachos.Lib
