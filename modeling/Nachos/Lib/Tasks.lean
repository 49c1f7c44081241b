/-
Module: Nachos.Lib.Tasks
Purpose: What switching between tasks is for: every task has a context of its
  own, which nothing changes but its own computing; and the rule by which a
  machine that keeps the contexts in one memory behaves so.  Nothing here
  mentions a particular program.
Trusted boundary: none
Main exports: Tasks, TaskAction, tasks, Tasks.context_kept, Keeper,
  Keeper.step, Keeper.exec, Keeper.kept, Keeper.resumed
-/
import Mathlib.Logic.Function.Basic
import Nachos.Lib.Transition

namespace Nachos.Lib

variable {T C σ α : Type*} [DecidableEq T]

/-- Tasks that share a processor, each of which has a context. -/
structure Tasks (T C : Type*) where
  current : T
  context : T → C

inductive TaskAction (T C : Type*) where
  /-- the current task changes its context -/
  | compute (c : C)
  /-- a task that is not current is given a context to start in -/
  | create (t : T) (c : C)
  | switch (next : T)

/-- Tasks as a machine. -/
def tasks (T C : Type*) [DecidableEq T] : Machine (Tasks T C) (TaskAction T C) where
  step s
    | .compute c => some { s with context := Function.update s.context s.current c }
    | .create t c =>
        if t = s.current then none
        else some { s with context := Function.update s.context t c }
    | .switch next => some { s with current := next }

/-- The action neither gives the CPU to the task nor starts it again. -/
def TaskAction.Spares (t : T) : TaskAction T C → Prop
  | .compute _ => True
  | .create other _ => other ≠ t
  | .switch next => next ≠ t

/-- A task that is not given the CPU finds its context as it left it. -/
theorem Tasks.context_kept {s s' : Tasks T C} {actions : List (TaskAction T C)} {t : T}
    (away : s.current ≠ t) (spares : ∀ action ∈ actions, action.Spares t)
    (run : (tasks T C).exec s actions = some s') :
    s'.current ≠ t ∧ s'.context t = s.context t := by
  induction actions generalizing s with
  | nil =>
      cases run
      exact ⟨away, rfl⟩
  | cons action actions inductionHypothesis =>
      obtain ⟨next, step, rest⟩ := ((tasks T C).exec_cons_eq_some).mp run
      have spared : action.Spares t := spares action (.head _)
      have later := fun other member => spares other (.tail action member)
      cases action with
      | compute c =>
          simp only [tasks, Option.some.injEq] at step
          subst step
          obtain ⟨out, same⟩ :=
            inductionHypothesis (s := ⟨_, Function.update s.context s.current c⟩) away later rest
          exact ⟨out, same.trans (Function.update_of_ne away.symm ..)⟩
      | create other c =>
          simp only [tasks, Option.ite_none_left_eq_some, Option.some.injEq] at step
          obtain ⟨-, rfl⟩ := step
          obtain ⟨out, same⟩ :=
            inductionHypothesis (s := ⟨_, Function.update s.context other c⟩) away later rest
          exact ⟨out, same.trans (Function.update_of_ne (Ne.symm spared) ..)⟩
      | switch next =>
          simp only [tasks, Option.some.injEq] at step
          subst step
          exact inductionHypothesis (s := ⟨next, s.context⟩) spared later rest

/-! ### Machines that keep contexts -/

/-- A machine that keeps the contexts of tasks: the processor works with one of
them, and the others are saved.  `means` tells what its actions are for the
tasks. -/
structure Keeper (T C σ α : Type*) [DecidableEq T] where
  machine : Machine σ α
  current : σ → T
  Live : σ → C → Prop
  Saved : σ → T → C → Prop
  Means : α → TaskAction T C → Prop
  keeps : ∀ {s s' : σ} {action : α} {c : C} {context : T → C},
    machine.step s action = some s' → Live s c → (∀ t, t ≠ current s → Saved s t (context t)) →
      ∃ what, Means action what ∧
        match what with
        | .compute c' => current s' = current s ∧ Live s' c' ∧
            ∀ t, t ≠ current s → Saved s' t (context t)
        | .create t c' => t ≠ current s ∧ current s' = current s ∧ Live s' c ∧ Saved s' t c' ∧
            ∀ t', t' ≠ current s → t' ≠ t → Saved s' t' (context t')
        | .switch next => current s' = next ∧
            Live s' (if next = current s then c else context next) ∧
            (current s ≠ next → Saved s' (current s) c) ∧
            ∀ t, t ≠ current s → t ≠ next → Saved s' t (context t)

namespace Keeper

variable (K : Keeper T C σ α)

/-- The machine holds the contexts of these tasks. -/
structure Holds (s : σ) (a : Tasks T C) : Prop where
  current : K.current s = a.current
  live : K.Live s (a.context a.current)
  saved : ∀ t, t ≠ a.current → K.Saved s t (a.context t)

variable {K}

/-- A step does to the contexts what it means. -/
theorem step {s s' : σ} {a : Tasks T C} {action : α} (holds : K.Holds s a)
    (moved : K.machine.step s action = some s') :
    ∃ what a', K.Means action what ∧ (tasks T C).step a what = some a' ∧ K.Holds s' a' := by
  obtain ⟨same, live, saved⟩ := holds
  rw [← same] at live saved
  obtain ⟨what, means, effect⟩ := K.keeps moved live saved
  refine ⟨what, ?_⟩
  cases what with
  | compute c =>
      obtain ⟨stays, live', saved'⟩ := effect
      refine ⟨_, means, rfl, stays.trans same, ?_, ?_⟩
      · simpa using live'
      · intro t other
        rw [← same] at other
        simpa [← same, Function.update_of_ne other] using saved' t other
  | create t c =>
      obtain ⟨other, stays, live', created, saved'⟩ := effect
      rw [same] at other
      refine ⟨_, means, if_neg other, stays.trans same, ?_, ?_⟩
      · simpa [Function.update_of_ne (Ne.symm other), same] using live'
      · intro t' away
        by_cases this : t' = t
        · subst this
          simpa using created
        · rw [← same] at away
          simpa [Function.update_of_ne this] using saved' t' away this
  | switch next =>
      obtain ⟨goes, live', left, saved'⟩ := effect
      refine ⟨_, means, rfl, goes, ?_, ?_⟩
      · by_cases back : next = K.current s
        · rw [if_pos back] at live'
          simpa [back] using live'
        · rw [if_neg back] at live'
          exact live'
      · intro t away
        by_cases this : t = K.current s
        · subst this
          exact left away
        · exact saved' t this away

/-- So does a run. -/
theorem exec {s s' : σ} {a : Tasks T C} {actions : List α} (holds : K.Holds s a)
    (run : K.machine.exec s actions = some s') :
    ∃ meanings a', List.Forall₂ K.Means actions meanings ∧
      (tasks T C).exec a meanings = some a' ∧ K.Holds s' a' := by
  induction actions generalizing s a with
  | nil =>
      cases run
      exact ⟨[], a, .nil, rfl, holds⟩
  | cons action actions inductionHypothesis =>
      obtain ⟨next, moved, rest⟩ := (K.machine.exec_cons_eq_some).mp run
      obtain ⟨what, b, means, stepped, after⟩ := K.step holds moved
      obtain ⟨meanings, a', all, ran, finish⟩ := inductionHypothesis after rest
      exact ⟨what :: meanings, a', .cons means all,
        ((tasks T C).exec_cons_eq_some).mpr ⟨b, stepped, ran⟩, finish⟩

/-- What is saved stays saved while the task is not given the CPU. -/
theorem kept {s s' : σ} {a : Tasks T C} {actions : List α} {t : T}
    (holds : K.Holds s a) (away : a.current ≠ t)
    (spares : ∀ action ∈ actions, ∀ what, K.Means action what → what.Spares t)
    (run : K.machine.exec s actions = some s') :
    ∃ a', K.Holds s' a' ∧ a'.current ≠ t ∧ a'.context t = a.context t := by
  obtain ⟨meanings, a', all, ran, finish⟩ := exec holds run
  have spared : ∀ what ∈ meanings, what.Spares t := by
    clear run ran finish holds
    induction all with
    | nil => intro what member; cases member
    | cons means rest inductionHypothesis =>
        intro what member
        rcases List.mem_cons.mp member with rfl | later
        · exact spares _ (.head _) _ means
        · exact inductionHypothesis (fun action more => spares action (.tail _ more)) what later
  obtain ⟨out, same⟩ := Tasks.context_kept away spared ran
  exact ⟨a', finish, out, same⟩

/-- A task that is given the CPU again works with what it left, whatever was
done meanwhile. -/
theorem resumed {s s' s'' : σ} {a : Tasks T C} {actions : List α} {back : α} {t : T}
    (holds : K.Holds s a) (away : a.current ≠ t)
    (spares : ∀ action ∈ actions, ∀ what, K.Means action what → what.Spares t)
    (run : K.machine.exec s actions = some s')
    (returns : ∀ what, K.Means back what → what = .switch t)
    (step : K.machine.step s' back = some s'') :
    K.current s'' = t ∧ K.Live s'' (a.context t) := by
  obtain ⟨a', meanwhile, -, same⟩ := kept holds away spares run
  obtain ⟨what, a'', means, moved, after⟩ := K.step meanwhile step
  obtain rfl := returns what means
  simp only [tasks, Option.some.injEq] at moved
  subst moved
  exact ⟨after.current, same ▸ after.live⟩

end Keeper

end Nachos.Lib
