/-
Module: Nachos.Threads.SynchList
Purpose: The synchronized list of synchlist.cc on top of the lock and the
  condition of the thread system.  Any number of threads call `Append` and
  `Remove`, and between these calls whatever they like; the code between two
  calls of the thread system is one step, since threads switch only where
  interrupts are turned on again or a thread sleeps.
Trusted boundary: none
Main exports: SynchList, SynchListMove, SynchList.step, synchListMachine,
  SynchList.Consistent, synchList_keeps_order
-/
import Nachos.Threads.Pending

namespace Nachos

variable {T S L C I : Type}
variable [DecidableEq T] [DecidableEq S] [DecidableEq L] [DecidableEq C]

/-! ### Data model -/

/-- Where a thread is in synchlist.cc. -/
inductive SynchListPc (I : Type) where
  | outside
  /-- in `Append`, in `lock->Acquire` or back from it -/
  | appending (item : Option I)
  /-- in `Append`, in `listEmpty->Signal` or back from it -/
  | signalled
  /-- in `Remove`, in `lock->Acquire` or back from it -/
  | testing
  /-- in `Remove`, in `listEmpty->Wait` or back from it -/
  | waiting
deriving DecidableEq, Repr

/-- `class SynchList`, its threads and the thread system.  An item is a
pointer, `none` being NULL. -/
structure SynchList (T S L C I : Type) where
  kernel : Kernel T S L C
  list : List (Option I)
  pc : T → SynchListPc I
  /-- `ASSERT(item != NULL)` has failed -/
  failed : Bool
  /-- every item appended so far, the first one first; no routine reads it -/
  appended : List (Option I)
  /-- every item that has left the inner list, the first one first; no routine
  reads it -/
  removed : List (Option I)
  /-- the threads that a `Signal` has woken and that have not tested the list
  since; no routine reads it -/
  woken : List T

/-- What can happen next. -/
inductive SynchListMove (T S L C I : Type) where
  /-- the running thread calls `Append` -/
  | append (item : Option I)
  /-- the running thread calls `Remove` -/
  | remove
  /-- the running thread goes on in `Append` or `Remove` -/
  | proceed
  /-- the running thread calls something else -/
  | other (op : Op T S L C)
  /-- a step of the thread system that is not a call -/
  | system (action : Action T S L C)
deriving DecidableEq, Repr

/-- The condition that a call is about. -/
def Op.condition : Op T S L C → Option C
  | .wait c _ | .signal c _ | .broadcast c _ => some c
  | _ => none

namespace SynchList

/-- The running thread calls a routine of the thread system, `after` being
what becomes of the list meanwhile. -/
def call (d : Discipline) (op : Op T S L C) (s : SynchList T S L C I)
    (after : Kernel T S L C → SynchList T S L C I) :
    Option (SynchList T S L C I) :=
  (s.kernel.step d (.call op)).map after

/-- The running thread is at the given place. -/
def setPc (pc : SynchListPc I) (s : SynchList T S L C I) : T → SynchListPc I :=
  Function.update s.pc s.kernel.currentThread pc

/-- `SynchList::Append` and `SynchList::Remove` up to the call of `Acquire`. -/
def begin (lock : L) (d : Discipline) (pc : SynchListPc I)
    (s : SynchList T S L C I) : Option (SynchList T S L C I) :=
  s.call d (.acquire lock) fun k => { s with kernel := k, pc := s.setPc pc }

/-- `list->Append(item); listEmpty->Signal("", lock);` -/
def appendAndSignal (lock : L) (listEmpty : C) (d : Discipline)
    (item : Option I) (s : SynchList T S L C I) :
    Option (SynchList T S L C I) :=
  s.call d (.signal listEmpty (some lock)) fun k =>
    { s with
      kernel := k
      list := s.list ++ [item]
      pc := s.setPc .signalled
      appended := s.appended ++ [item]
      woken := s.woken ++ (s.kernel.conditions listEmpty).waitQueue.filter
        fun t => t ∉ (k.conditions listEmpty).waitQueue }

/-- `lock->Release("");` at the end of `Append`. -/
def leave (lock : L) (d : Discipline) (s : SynchList T S L C I) :
    Option (SynchList T S L C I) :=
  s.call d (.release lock) fun k => { s with kernel := k, pc := s.setPc .outside }

/-- The while loop of `Remove` and what follows it: the list is tested, and
either `Wait` is called or an item removed and `Release` called. -/
def testAndRemove (lock : L) (listEmpty : C) (d : Discipline)
    (s : SynchList T S L C I) : Option (SynchList T S L C I) :=
  let tested := { s with woken := s.woken.erase s.kernel.currentThread }
  if s.list.isEmpty then
    s.call d (.wait listEmpty (some lock)) fun k =>
      { tested with kernel := k, pc := s.setPc .waiting }
  else
    -- `List::Remove` returns NULL on an empty list
    let item := s.list.head?.join
    if item = none then
      if s.kernel.phase = .running then some { tested with failed := true } else none
    else
      s.call d (.release lock) fun k =>
        { tested with
          kernel := k
          list := s.list.tail
          pc := s.setPc .outside
          removed := s.removed ++ [item] }

/-- One step.  `listEmpty` is a private member, so that nobody else calls
anything on it; a failed assertion ends the program. -/
def step (lock : L) (listEmpty : C) (d : Discipline) (s : SynchList T S L C I)
    (move : SynchListMove T S L C I) : Option (SynchList T S L C I) :=
  if s.failed then none
  else
    match move, s.pc s.kernel.currentThread with
    | .append item, .outside => s.begin lock d (.appending item)
    | .remove, .outside => s.begin lock d .testing
    | .proceed, .appending item => s.appendAndSignal lock listEmpty d item
    | .proceed, .signalled => s.leave lock d
    | .proceed, .testing => s.testAndRemove lock listEmpty d
    | .proceed, .waiting => s.testAndRemove lock listEmpty d
    | .other op, .outside =>
        if op.condition = some listEmpty then none
        else s.call d op fun k => { s with kernel := k }
    | .system (.call _), _ => none
    | .system action, _ =>
        (s.kernel.step d action).map fun k => { s with kernel := k }
    | _, _ => none

/-- `SynchList::SynchList` in a system that has just started. -/
def boot (main : T) (initialValue : S → Int) (lockMemory : L → Lock T)
    (conditionMemory : C → Condition T L) : SynchList T S L C I where
  kernel := .boot main initialValue lockMemory conditionMemory
  list := []
  pc := fun _ => .outside
  failed := false
  appended := []
  removed := []
  woken := []

end SynchList

/-- A synchronized list and its threads as a machine. -/
def synchListMachine (lock : L) (listEmpty : C) (d : Discipline) :
    Lib.Machine (SynchList T S L C I) (SynchListMove T S L C I) where
  step := SynchList.step lock listEmpty d

/-! ### What holds between two steps -/

namespace SynchList

/-- The condition is bound to no other lock, only consumers sleep on it, the
woken ones are known, and there are no more items than woken consumers while
anybody sleeps. -/
structure Consistent (lock : L) (listEmpty : C) (s : SynchList T S L C I) :
    Prop where
  wf : s.kernel.WellFormed
  bound : (s.kernel.conditions listEmpty).waitingLock = some lock ∨
    ((s.kernel.conditions listEmpty).waitingLock = none ∧
      (s.kernel.conditions listEmpty).waitQueue = [])
  asleep : ∀ t ∈ (s.kernel.conditions listEmpty).waitQueue, s.pc t = .waiting
  wokenOnce : s.woken.Nodup
  woken : ∀ t, t ∈ s.woken ↔
    s.pc t = .waiting ∧ t ∉ (s.kernel.conditions listEmpty).waitQueue
  supply : (s.kernel.conditions listEmpty).waitQueue ≠ [] →
    s.list.length ≤ s.woken.length
  order : s.appended = s.removed ++ s.list
  nonNull : ∀ item ∈ s.list, item ≠ none
  pending : ∀ t, s.pc t ≠ .appending none
  running : s.failed = false

section Steps

variable {lock : L} {listEmpty : C} {d : Discipline} {s s' : SynchList T S L C I}

theorem call_eq_some {op : Op T S L C}
    {after : Kernel T S L C → SynchList T S L C I}
    (step : s.call d op after = some s') :
    ∃ k, s.kernel.step d (.call op) = some k ∧ s' = after k := by
  obtain ⟨k, kernelStep, rfl⟩ := Option.map_eq_some_iff.mp step
  exact ⟨k, kernelStep, rfl⟩

/-- A thread that calls is not asleep. -/
theorem Consistent.awake (consistent : s.Consistent lock listEmpty)
    {op : Op T S L C} {k : Kernel T S L C}
    (step : s.kernel.step d (.call op) = some k) :
    s.kernel.currentThread ∉ (s.kernel.conditions listEmpty).waitQueue := by
  intro asleep
  have running : s.kernel.phase = .running := by
    by_contra other
    simp [Kernel.step, other] at step
  have blocked := (consistent.wf.asleep_in_wait asleep).1
  rw [(consistent.wf.awake (.inl running)).1] at blocked
  cases blocked

/-- Steps that touch neither the items nor the condition. -/
theorem Consistent.quiet (consistent : s.Consistent lock listEmpty)
    {action : Action T S L C} {k : Kernel T S L C}
    (step : s.kernel.step d action = some k)
    (condition : s.kernel.conditionAfter listEmpty action =
      s.kernel.conditions listEmpty)
    {pc : T → SynchListPc I} (waiting : ∀ t, pc t = .waiting ↔ s.pc t = .waiting)
    (pending : ∀ t, pc t ≠ .appending none) :
    Consistent lock listEmpty { s with kernel := k, pc := pc } := by
  have same : k.conditions listEmpty = s.kernel.conditions listEmpty :=
    (consistent.wf.condition_of_step step listEmpty).trans condition
  exact
    { wf := consistent.wf.step step
      bound := by
        rw [same]
        exact consistent.bound
      asleep := by
        intro t asleep
        rw [same] at asleep
        exact (waiting t).mpr (consistent.asleep t asleep)
      wokenOnce := consistent.wokenOnce
      woken := by
        intro t
        rw [same, waiting]
        exact consistent.woken t
      supply := by
        rw [same]
        exact consistent.supply
      order := consistent.order
      nonNull := consistent.nonNull
      pending := pending
      running := consistent.running }

section

omit [DecidableEq S] [DecidableEq L] [DecidableEq C]

theorem Consistent.setPc_pending (consistent : s.Consistent lock listEmpty)
    {pc : SynchListPc I} (nonNull : pc ≠ .appending none) (t : T) :
    s.setPc pc t ≠ .appending none := by
  by_cases same : t = s.kernel.currentThread
  · simpa [setPc, same] using nonNull
  · simpa [setPc, same] using consistent.pending t

/-- A thread moves between two places outside `Wait`. -/
theorem setPc_waiting {pc : SynchListPc I}
    (before : s.pc s.kernel.currentThread ≠ .waiting) (after : pc ≠ .waiting) (t : T) :
    s.setPc pc t = .waiting ↔ s.pc t = .waiting := by
  by_cases same : t = s.kernel.currentThread
  · subst same
    simp [setPc, before, after]
  · simp [setPc, same]

end

theorem Consistent.begin (consistent : s.Consistent lock listEmpty)
    {pc : SynchListPc I} (outside : s.pc s.kernel.currentThread = .outside)
    (after : pc ≠ .waiting) (nonNull : pc ≠ .appending none)
    (step : s.begin lock d pc = some s') : s'.Consistent lock listEmpty := by
  obtain ⟨k, kernelStep, rfl⟩ := call_eq_some step
  exact consistent.quiet kernelStep rfl
    (setPc_waiting (by simp [outside]) after) (consistent.setPc_pending nonNull)

theorem Consistent.leave (consistent : s.Consistent lock listEmpty)
    (signalled : s.pc s.kernel.currentThread = .signalled)
    (step : s.leave lock d = some s') : s'.Consistent lock listEmpty := by
  obtain ⟨k, kernelStep, rfl⟩ := call_eq_some step
  exact consistent.quiet kernelStep rfl
    (setPc_waiting (by simp [signalled]) (by simp)) (consistent.setPc_pending (by simp))

theorem Consistent.other (consistent : s.Consistent lock listEmpty)
    {op : Op T S L C} (elsewhere : op.condition ≠ some listEmpty)
    (step : s.call d op (fun k => { s with kernel := k }) = some s') :
    s'.Consistent lock listEmpty := by
  obtain ⟨k, kernelStep, rfl⟩ := call_eq_some step
  refine consistent.quiet kernelStep ?_ (fun _ => Iff.rfl) consistent.pending
  cases op with
  | wait c conditionLock =>
      have different : c ≠ listEmpty := fun same => elsewhere (same ▸ rfl)
      cases conditionLock with
      | none => rfl
      | some l => simp [Kernel.conditionAfter, different]
  | signal c conditionLock =>
      have different : c ≠ listEmpty := fun same => elsewhere (same ▸ rfl)
      simp [Kernel.conditionAfter, different]
  | broadcast c conditionLock =>
      have different : c ≠ listEmpty := fun same => elsewhere (same ▸ rfl)
      simp [Kernel.conditionAfter, different]
  | _ => rfl

/-- `Signal` takes the first consumer off the queue, whether or not the
condition is bound. -/
theorem Consistent.signal_condition (consistent : s.Consistent lock listEmpty)
    {k : Kernel T S L C}
    (step : s.kernel.step d (.call (.signal listEmpty (some lock))) = some k) :
    k.conditions listEmpty =
      { s.kernel.conditions listEmpty with
        waitQueue := (s.kernel.conditions listEmpty).waitQueue.tail } := by
  rw [consistent.wf.condition_of_step step, Kernel.conditionAfter]
  rcases consistent.bound with bound | ⟨unbound, empty⟩
  · rw [if_pos ⟨rfl, bound⟩]
  · rw [if_neg (by simp [unbound]), empty, List.tail_nil, ← empty]

/-- The threads that leave a queue of which the first one is taken. -/
theorem filter_notMem_tail {queue : List T} (once : queue.Nodup) :
    (queue.filter fun t => t ∉ queue.tail) = queue.take 1 := by
  cases queue with
  | nil => rfl
  | cons t rest =>
      have first : t ∉ rest := (List.nodup_cons.mp once).1
      have others : (rest.filter fun t => t ∉ rest) = [] := by
        rw [List.filter_eq_nil_iff]
        simp
      rw [List.tail_cons, List.filter_cons_of_pos (by simpa using first), others]
      rfl

/-- An item comes, and with it a woken consumer if any sleeps. -/
theorem Consistent.appendAndSignal (consistent : s.Consistent lock listEmpty)
    {item : Option I} (nonNull : item ≠ none)
    (appending : s.pc s.kernel.currentThread = .appending item)
    (step : s.appendAndSignal lock listEmpty d item = some s') :
    s'.Consistent lock listEmpty := by
  obtain ⟨k, kernelStep, rfl⟩ := call_eq_some step
  have condition := consistent.signal_condition kernelStep
  have once : (s.kernel.conditions listEmpty).waitQueue.Nodup :=
    consistent.wf.queuedOnce (.condition listEmpty)
  have places : ∀ t, s.setPc .signalled t = .waiting ↔ s.pc t = .waiting :=
    setPc_waiting (by simp [appending]) (by simp)
  have signalled : (s.kernel.conditions listEmpty).waitQueue.filter
      (fun t => t ∉ (k.conditions listEmpty).waitQueue) =
        (s.kernel.conditions listEmpty).waitQueue.take 1 := by
    rw [condition]
    exact filter_notMem_tail once
  have supply := consistent.supply
  have woken := consistent.woken
  have asleep := consistent.asleep
  refine
    { wf := consistent.wf.step kernelStep
      bound := ?_
      asleep := ?_
      wokenOnce := ?_
      woken := ?_
      supply := ?_
      order := ?_
      nonNull := ?_
      pending := consistent.setPc_pending (by simp)
      running := consistent.running }
  · rw [condition]
    rcases consistent.bound with bound | ⟨unbound, empty⟩
    · exact .inl bound
    · exact .inr ⟨unbound, by simp [empty]⟩
  · intro t member
    rw [condition] at member
    exact (places t).mpr (asleep t (List.mem_of_mem_tail member))
  · simp only [signalled]
    generalize (s.kernel.conditions listEmpty).waitQueue = queue at *
    cases queue with
    | nil => simpa using consistent.wokenOnce
    | cons first rest =>
        have fresh : first ∉ s.woken := fun member => ((woken first).mp member).2 (by simp)
        rw [List.nodup_append]
        refine ⟨consistent.wokenOnce, by simp, ?_⟩
        intro t member t' last
        rw [List.take_one, List.head?_cons, Option.toList_some, List.mem_singleton] at last
        rintro rfl
        exact fresh (last ▸ member)
  · intro t
    simp only [signalled]
    simp only [condition, places, List.mem_append, woken]
    generalize (s.kernel.conditions listEmpty).waitQueue = queue at *
    cases queue with
    | nil => simp
    | cons first rest =>
        have waits := asleep first (by simp)
        have first_once := (List.nodup_cons.mp once).1
        by_cases same : t = first
        · simp [same, waits, first_once]
        · simp [same]
  · simp only [signalled]
    simp only [condition]
    generalize (s.kernel.conditions listEmpty).waitQueue = queue at *
    cases queue with
    | nil => simp
    | cons first rest =>
        intro _
        simpa using supply (by simp)
  · simp [consistent.order]
  · intro other member
    rcases List.mem_append.mp member with old | new
    · exact consistent.nonNull other old
    · rw [List.mem_singleton.mp new]
      exact nonNull

section

omit [DecidableEq S] [DecidableEq L] [DecidableEq C]

/-- A thread that tests the list no longer counts as woken. -/
theorem Consistent.erase_iff (consistent : s.Consistent lock listEmpty) (t : T) :
    t ∈ s.woken.erase s.kernel.currentThread ↔
      t ≠ s.kernel.currentThread ∧ s.pc t = .waiting ∧
        t ∉ (s.kernel.conditions listEmpty).waitQueue := by
  rw [consistent.wokenOnce.mem_erase_iff, consistent.woken]

end

/-- The list is empty, and the consumer sleeps. -/
theorem Consistent.wait (consistent : s.Consistent lock listEmpty)
    (empty : s.list = []) {k : Kernel T S L C}
    (step : s.kernel.step d (.call (.wait listEmpty (some lock))) = some k) :
    Consistent lock listEmpty
      { s with
        woken := s.woken.erase s.kernel.currentThread
        kernel := k
        pc := s.setPc .waiting } := by
  have accepted : s.kernel.Accepts listEmpty lock :=
    consistent.bound.imp id And.left
  have condition : k.conditions listEmpty =
      { waitQueue := (s.kernel.conditions listEmpty).waitQueue ++
          [s.kernel.currentThread]
        waitingLock := some lock } := by
    rw [consistent.wf.condition_of_step step, Kernel.conditionAfter,
      if_pos ⟨rfl, accepted⟩]
  exact
    { wf := consistent.wf.step step
      bound := by simp [condition]
      asleep := by
        intro t member
        by_cases same : t = s.kernel.currentThread
        · simp [setPc, same]
        · have old : t ∈ (s.kernel.conditions listEmpty).waitQueue := by
            simpa [condition, same] using member
          simpa [setPc, same] using consistent.asleep t old
      wokenOnce := consistent.wokenOnce.erase _
      woken := by
        intro t
        rw [consistent.erase_iff]
        by_cases same : t = s.kernel.currentThread
        · simp [same, condition]
        · simp [same, condition, setPc]
      supply := by simp [empty]
      order := consistent.order
      nonNull := consistent.nonNull
      pending := consistent.setPc_pending (by simp)
      running := consistent.running }

/-- The first item goes, and with it one woken consumer at most. -/
theorem Consistent.remove (consistent : s.Consistent lock listEmpty)
    {item : Option I} {rest : List (Option I)} (contents : s.list = item :: rest)
    {k : Kernel T S L C} (step : s.kernel.step d (.call (.release lock)) = some k) :
    Consistent lock listEmpty
      { s with
        woken := s.woken.erase s.kernel.currentThread
        kernel := k
        list := rest
        pc := s.setPc .outside
        removed := s.removed ++ [item] } := by
  have same : k.conditions listEmpty = s.kernel.conditions listEmpty :=
    consistent.wf.condition_of_step step listEmpty
  have awake := consistent.awake step
  exact
    { wf := consistent.wf.step step
      bound := by
        rw [same]
        exact consistent.bound
      asleep := by
        intro t member
        rw [same] at member
        have other : t ≠ s.kernel.currentThread := by
          rintro rfl
          exact awake member
        simpa [setPc, other] using consistent.asleep t member
      wokenOnce := consistent.wokenOnce.erase _
      woken := by
        intro t
        rw [consistent.erase_iff, same]
        by_cases current : t = s.kernel.currentThread
        · simp [current, setPc]
        · simp [current, setPc]
      supply := by
        intro asleep
        rw [same] at asleep
        have before := consistent.supply asleep
        rw [contents, List.length_cons] at before
        have erased := List.length_erase (a := s.kernel.currentThread) (l := s.woken)
        split at erased <;> simp only [erased] <;> omega
      order := by simp [consistent.order, contents]
      nonNull := by
        intro other member
        exact consistent.nonNull other (by simp [contents, member])
      pending := consistent.setPc_pending (by simp)
      running := consistent.running }

theorem Consistent.testAndRemove (consistent : s.Consistent lock listEmpty)
    (step : s.testAndRemove lock listEmpty d = some s') :
    s'.Consistent lock listEmpty := by
  unfold SynchList.testAndRemove at step
  cases contents : s.list with
  | nil =>
      simp only [contents, List.isEmpty_nil, if_true] at step
      obtain ⟨k, kernelStep, rfl⟩ := call_eq_some step
      simpa only [contents] using consistent.wait contents kernelStep
  | cons item rest =>
      have nonNull : item ≠ none := consistent.nonNull item (by simp [contents])
      simp only [contents, List.isEmpty_cons, Bool.false_eq_true, if_false,
        List.head?_cons, Option.join_some, nonNull, List.tail_cons] at step
      obtain ⟨k, kernelStep, rfl⟩ := call_eq_some step
      exact consistent.remove contents kernelStep

/-- Every step keeps the list consistent. -/
theorem Consistent.step (consistent : s.Consistent lock listEmpty)
    {move : SynchListMove T S L C I} (nonNull : move ≠ .append none)
    (step : s.step lock listEmpty d move = some s') :
    s'.Consistent lock listEmpty := by
  unfold SynchList.step at step
  rw [if_neg (by simp [consistent.running])] at step
  split at step
  · exact consistent.begin ‹_› (by simp) (by simpa using nonNull) step
  · exact consistent.begin ‹_› (by simp) (by simp) step
  · rename_i item appending
    have pointer : item ≠ none := by
      rintro rfl
      exact consistent.pending _ appending
    exact consistent.appendAndSignal pointer appending step
  · exact consistent.leave ‹_› step
  · exact consistent.testAndRemove step
  · exact consistent.testAndRemove step
  · split at step
    · cases step
    · exact consistent.other ‹_› step
  · cases step
  · rename_i _ action notCall
    obtain ⟨k, kernelStep, rfl⟩ := Option.map_eq_some_iff.mp step
    refine consistent.quiet kernelStep ?_ (fun _ => Iff.rfl) consistent.pending
    cases action with
    | call op => exact absurd rfl (notCall op)
    | _ => rfl
  · cases step

end Steps

section

omit [DecidableEq S] [DecidableEq L] [DecidableEq C]

theorem boot_consistent {lock : L} {listEmpty : C} (main : T)
    (initialValue : S → Int) (lockMemory : L → Lock T)
    (conditionMemory : C → Condition T L)
    (unbound : (conditionMemory listEmpty).waitingLock = none) :
    (boot main initialValue lockMemory conditionMemory :
      SynchList T S L C I).Consistent lock listEmpty where
  wf := Kernel.boot_wellFormed main initialValue lockMemory conditionMemory
  bound := .inr ⟨unbound, rfl⟩
  asleep t member := by cases member
  wokenOnce := List.nodup_nil
  woken t := by simp [boot]
  supply h := absurd rfl h
  order := rfl
  nonNull item member := by cases member
  pending t := by simp [boot]
  running := rfl

end

end SynchList

/-- In every state of every run of any number of threads, none of which appends
NULL: the items that have left the list are, in this order, the first of those
appended, and the rest are in the list; the assertion has not failed; and while
a consumer sleeps there are no more items in the list than consumers that a
`Signal` has woken and that have not tested the list since, which are the
consumers in `Wait` that are not in its queue. -/
theorem synchList_keeps_order {lock : L} {listEmpty : C} {d : Discipline}
    {main : T} {initialValue : S → Int} {lockMemory : L → Lock T}
    {conditionMemory : C → Condition T L}
    (unbound : (conditionMemory listEmpty).waitingLock = none)
    {moves : List (SynchListMove T S L C I)} (nonNull : .append none ∉ moves)
    {s : SynchList T S L C I}
    (run : (synchListMachine lock listEmpty d).exec
      (.boot main initialValue lockMemory conditionMemory) moves = some s) :
    s.removed <+: s.appended ∧ s.appended = s.removed ++ s.list ∧
    s.failed = false ∧
    ((s.kernel.conditions listEmpty).waitQueue ≠ [] →
      s.list.length ≤ s.woken.length) ∧
    s.woken.Nodup ∧
    (∀ t, t ∈ s.woken ↔
      s.pc t = .waiting ∧ t ∉ (s.kernel.conditions listEmpty).waitQueue) := by
  have start : (SynchList.boot main initialValue lockMemory conditionMemory :
      SynchList T S L C I).Consistent lock listEmpty :=
    SynchList.boot_consistent main initialValue lockMemory conditionMemory unbound
  have pointers : (synchListMachine lock listEmpty d).Steps
      (fun _ move => move ≠ .append none)
      (.boot main initialValue lockMemory conditionMemory) moves :=
    Lib.Machine.steps_of_forall _ fun move member same => nonNull (same ▸ member)
  have consistent : s.Consistent lock listEmpty :=
    (Lib.Machine.along_of_guarded
      (fun _ _ _ consistent nonNull step => consistent.step nonNull step)
      start pointers).finish run
  refine ⟨?_, consistent.order, consistent.running, consistent.supply,
    consistent.wokenOnce, consistent.woken⟩
  rw [consistent.order]
  exact List.prefix_append _ _

/-- Main finds the list empty and sleeps; a producer appends two items, which
wakes it, and main removes both.  Main and a second consumer find the list empty
then, and a third item wakes main, which came first, and not the other one. -/
def twoConsumersAndProducer {T : Type} (producer consumer : T) :
    List (SynchListMove T Empty Unit Unit Nat) :=
  [.other (.fork producer), .system .endTick, .other (.fork consumer),
    .system .endTick, .remove, .system .endTick, .proceed, .system (.dispatch 0),
    .system .endTick, .append (some 7), .system .endTick, .proceed,
    .system .endTick, .proceed, .system .endTick, .append (some 8),
    .system .endTick, .proceed, .system .endTick, .proceed, .system .endTick,
    .other (.yield 0), .system .endTick, .other (.yield 0), .system .endTick,
    .proceed, .system .endTick, .remove, .system .endTick, .proceed,
    .system .endTick, .remove, .system .endTick, .proceed, .system (.dispatch 0),
    .system .endTick, .other (.yield 0), .system .endTick, .remove,
    .system .endTick, .proceed, .system (.dispatch 0), .system .endTick,
    .append (some 9), .system .endTick, .proceed]

theorem order_kept_with_sleeping_consumer :
    ∃ s : SynchList (Fin 3) Empty Unit Unit Nat,
      (synchListMachine () () .fifo).exec
        (.boot 0 Empty.elim (fun _ => ⟨false, none, []⟩) (fun _ => ⟨[], none⟩))
        (twoConsumersAndProducer 1 2) = some s ∧
      s.removed = [some 7, some 8] ∧ s.list = [some 9] ∧
      s.removed <+: s.appended ∧ s.failed = false ∧
      (s.kernel.conditions ()).waitQueue = [2] ∧
      s.list.length ≤ s.woken.length ∧
      (0 ∈ s.woken ↔
        s.pc 0 = .waiting ∧ 0 ∉ (s.kernel.conditions ()).waitQueue) := by
  have outcome : ((synchListMachine () () .fifo).exec
      (.boot (0 : Fin 3) Empty.elim (fun _ => ⟨false, none, []⟩) (fun _ => ⟨[], none⟩))
      (twoConsumersAndProducer 1 2)).map
        (fun s => (s.removed, s.list, (s.kernel.conditions ()).waitQueue)) =
          some ([some 7, some 8], [some 9], [2]) := by
    decide +kernel
  obtain ⟨s, run, seen⟩ := Option.map_eq_some_iff.mp outcome
  obtain ⟨removed, seen⟩ := Prod.mk.inj seen
  obtain ⟨list, asleep⟩ := Prod.mk.inj seen
  obtain ⟨kept, -, unfailed, supply, -, woken⟩ :=
    synchList_keeps_order rfl (by decide) run
  exact ⟨s, run, removed, list, kept, unfailed, asleep,
    supply (by rw [asleep]; decide), woken 0⟩

end Nachos
