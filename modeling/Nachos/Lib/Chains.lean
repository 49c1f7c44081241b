/-
Module: Nachos.Lib.Chains
Purpose: Singly linked chains of nodes in a heap: a chain that ends is determined
  by its start and visits no node twice; and the edits that put a node at the
  front, put one behind another, and take the first one away.  Nothing here
  mentions a particular program.
Trusted boundary: none
Main exports: Node, Heap, Chain, chain_append, Chain.frame, Chain.unique,
  Chain.nodup, Chain.prepend, Chain.insertBehind, Chain.removeFirst
-/
import Mathlib.Data.List.Nodup
import Mathlib.Tactic.Common

namespace Nachos.Lib

/-- A value and a pointer to the next node, `none` being the null pointer. -/
structure Node (A V : Type*) where
  value : V
  next : Option A

/-- The nodes that are allocated. -/
abbrev Heap (A V : Type*) := A → Option (Node A V)

variable {A V : Type*} {heap heap' : Heap A V} {start stop : Option A}
  {cells : List (A × V)}

/-- Following the pointers from `start` visits the cells in their order and then
comes to `stop`. -/
def Chain (heap : Heap A V) : Option A → List (A × V) → Option A → Prop
  | start, [], stop => start = stop
  | start, cell :: cells, stop =>
      start = some cell.1 ∧
        ∃ next, heap cell.1 = some ⟨cell.2, next⟩ ∧ Chain heap next cells stop

/-- A chain is cut at any of its cells. -/
theorem chain_append {first second : List (A × V)} :
    Chain heap start (first ++ second) stop ↔
      ∃ middle, Chain heap start first middle ∧ Chain heap middle second stop := by
  induction first generalizing start with
  | nil => simp [Chain]
  | cons cell first inductionHypothesis =>
      simp only [List.cons_append, Chain, inductionHypothesis]
      constructor
      · rintro ⟨here, next, points, middle, before, after⟩
        exact ⟨middle, ⟨here, next, points, before⟩, after⟩
      · rintro ⟨middle, ⟨here, next, points, before⟩, after⟩
        exact ⟨here, next, points, middle, before, after⟩

/-- A chain does not depend on the nodes outside. -/
theorem Chain.frame (chain : Chain heap start cells stop)
    (same : ∀ a ∈ cells.map Prod.fst, heap' a = heap a) :
    Chain heap' start cells stop := by
  induction cells generalizing start with
  | nil => exact chain
  | cons cell cells inductionHypothesis =>
      obtain ⟨here, next, points, rest⟩ := chain
      refine ⟨here, next, (same cell.1 (.head _)).trans points, ?_⟩
      exact inductionHypothesis rest fun a member => same a (.tail _ member)

/-- Every node of a chain is allocated. -/
theorem Chain.allocated (chain : Chain heap start cells stop) {a : A}
    (member : a ∈ cells.map Prod.fst) : heap a ≠ none := by
  induction cells generalizing start with
  | nil => cases member
  | cons cell cells inductionHypothesis =>
      obtain ⟨-, next, points, rest⟩ := chain
      rcases List.mem_cons.mp member with rfl | later
      · simp [points]
      · exact inductionHypothesis rest later

/-- What a node of a chain points to, and what follows it. -/
theorem Chain.points {before after : List (A × V)} {a : A} {value : V}
    (chain : Chain heap start (before ++ (a, value) :: after) stop) :
    ∃ next, heap a = some ⟨value, next⟩ ∧ Chain heap next after stop := by
  obtain ⟨middle, -, -, next, points, rest⟩ := chain_append.mp chain
  exact ⟨next, points, rest⟩

/-- Only one chain leads from a pointer to the end. -/
theorem Chain.unique {cells' : List (A × V)} (chain : Chain heap start cells none)
    (chain' : Chain heap start cells' none) : cells' = cells := by
  induction cells generalizing start cells' with
  | nil =>
      cases cells' with
      | nil => rfl
      | cons cell cells' => cases chain.symm.trans chain'.1
  | cons cell cells inductionHypothesis =>
      obtain ⟨here, next, points, rest⟩ := chain
      cases cells' with
      | nil => cases here.symm.trans chain'
      | cons cell' cells' =>
          obtain ⟨here', next', points', rest'⟩ := chain'
          have address : cell'.1 = cell.1 := Option.some.inj (here'.symm.trans here)
          rw [address, points] at points'
          have node := Option.some.inj points'
          obtain ⟨value, rfl⟩ := Node.mk.inj node
          rw [inductionHypothesis rest rest', Prod.ext address value.symm]

/-- A chain that comes to its end visits no node twice. -/
theorem Chain.nodup (chain : Chain heap start cells none) :
    (cells.map Prod.fst).Nodup := by
  induction cells generalizing start with
  | nil => exact List.nodup_nil
  | cons cell cells inductionHypothesis =>
      obtain ⟨here, next, points, rest⟩ := chain
      refine List.nodup_cons.mpr ⟨fun again => ?_, inductionHypothesis rest⟩
      -- the chain from the second visit on would be the whole chain
      obtain ⟨twin, member, address⟩ := List.mem_map.mp again
      obtain ⟨before, after, split⟩ := List.append_of_mem member
      have whole : Chain heap (some cell.1) (cell :: cells) none :=
        ⟨rfl, next, points, rest⟩
      rw [split] at rest
      obtain ⟨middle, -, tail⟩ := chain_append.mp rest
      have again : middle = some cell.1 := address ▸ tail.1
      rw [again] at tail
      have same := congrArg List.length (whole.unique tail)
      rw [split] at same
      simp at same
      omega

/-! ### Edits -/

/-- A new node that points to the start. -/
theorem Chain.prepend (chain : Chain heap start cells stop) {b : A} {value : V}
    (absent : b ∉ cells.map Prod.fst) (same : ∀ a, a ≠ b → heap' a = heap a)
    (points : heap' b = some ⟨value, start⟩) :
    Chain heap' (some b) ((b, value) :: cells) stop :=
  ⟨rfl, start, points,
    chain.frame fun a member => same a fun equal => absent (equal ▸ member)⟩

/-- A new node between a node of the chain and what follows it. -/
theorem Chain.insertBehind {before after : List (A × V)} {a b : A} {value value' : V}
    {next : Option A} (chain : Chain heap start (before ++ (a, value) :: after) none)
    (pointed : heap a = some ⟨value, next⟩)
    (absent : b ∉ (before ++ (a, value) :: after).map Prod.fst)
    (same : ∀ c, c ≠ a → c ≠ b → heap' c = heap c)
    (points : heap' a = some ⟨value, some b⟩) (links : heap' b = some ⟨value', next⟩) :
    Chain heap' start (before ++ (a, value) :: (b, value') :: after) none := by
  have once := chain.nodup
  obtain ⟨middle, first, here, next', pointed', rest⟩ := chain_append.mp chain
  obtain rfl : next' = next := by
    rw [pointed] at pointed'
    exact (Node.mk.inj (Option.some.inj pointed')).2.symm
  simp only [List.map_append, List.map_cons] at once absent
  obtain ⟨-, onceRest, apart⟩ := List.nodup_append.mp once
  obtain ⟨notAfter, -⟩ := List.nodup_cons.mp onceRest
  refine chain_append.mpr ⟨middle, first.frame fun c member => ?_, here, some b, points,
    rfl, next', links, rest.frame fun c member => ?_⟩
  · refine same c (fun equal => apart c member a (.head _) equal) fun equal => ?_
    exact absent (List.mem_append_left _ (equal ▸ member))
  · refine same c (fun equal => notAfter (equal ▸ member)) fun equal => ?_
    exact absent (List.mem_append_right _ (.tail _ (equal ▸ member)))

/-- The first node is taken away. -/
theorem Chain.removeFirst {a : A} {value : V} {next : Option A}
    (chain : Chain heap start ((a, value) :: cells) none)
    (pointed : heap a = some ⟨value, next⟩)
    (same : ∀ c, c ≠ a → heap' c = heap c) : Chain heap' next cells none := by
  obtain ⟨notAfter, -⟩ := List.nodup_cons.mp chain.nodup
  obtain ⟨-, next', pointed', rest⟩ := chain
  obtain rfl : next' = next := by
    rw [pointed] at pointed'
    exact (Node.mk.inj (Option.some.inj pointed')).2.symm
  exact rest.frame fun c member => same c fun equal => notAfter (equal ▸ member)

end Nachos.Lib
