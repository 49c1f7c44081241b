/-
Module: Nachos.Office.Phases
Purpose: One counter of the office by itself: the state of its clerk, the
  customers that have chosen its line, the clerks that serve it and its
  condition.  A round of the counter goes through phases in which at most one
  customer visits it, and this module says which phase follows which.
Trusted boundary: none
Main exports: Counter, Counter.Visits, Counter.Queued, Counter.Phase
-/
import Nachos.Office.Programs

namespace Nachos.Office

open LockName CvName

/-- What can be seen of counter `i` of a monitor. -/
@[ext] structure Counter where
  state : ClerkState
  count : Int
  /-- where the customers are that have chosen this line -/
  stage : Nat → Option Stage
  /-- where the clerks are that serve it -/
  clerkPc : Nat → Option ClerkPc
  cv : Condition Who LockName

namespace Counter

/-! ### What happens at a counter -/

@[simps -fullyApplied] def customerTo (n : Nat) (stage : Option Stage) (s : Counter) : Counter :=
  { s with stage := Function.update s.stage n stage }

@[simps -fullyApplied] def clerkTo (k : Nat) (pc : ClerkPc) (s : Counter) : Counter :=
  { s with clerkPc := Function.update s.clerkPc k (some pc) }

@[simps -fullyApplied] def mark (state : ClerkState) (s : Counter) : Counter :=
  { s with state := state }

@[simps -fullyApplied] def fill (count : Int) (s : Counter) : Counter :=
  { s with count := count }

/-- An accepted `Wait`. -/
@[simps -fullyApplied state count stage clerkPc cv]
def sleep (t : Who) (l : LockName) (s : Counter) : Counter :=
  { s with cv := ⟨s.cv.waitQueue ++ [t], some l⟩ }

/-- A `Signal`, which does nothing under the wrong lock. -/
@[simps -fullyApplied] def signal (l : LockName) (s : Counter) : Counter :=
  { s with cv :=
      if s.cv.waitingLock = some l then ⟨s.cv.waitQueue.tail, s.cv.waitingLock⟩
      else s.cv }

def Asleep (s : Counter) (t : Who) : Prop :=
  t ∈ s.cv.waitQueue

/-- Customer `n` is at the counter, or on its way there and not asleep in the
line. -/
def Visits (s : Counter) (n : Nat) : Prop :=
  ∃ stage, s.stage n = some stage ∧
    ∀ j, stage = .take j → ¬ s.Asleep (.customer n)

/-- The line has at most one clerk. -/
def Sole (s : Counter) : Prop :=
  ∀ k k', s.clerkPc k ≠ none → s.clerkPc k' ≠ none → k = k'

/-- Who can be asleep on the condition of the line: customers in the line when
it was bound to the lock of the monitor, and else customers at the counter and
its clerk. -/
structure Queued (m : Kind) (i : Nat) (s : Counter) : Prop where
  once : s.cv.waitQueue.Nodup
  inLine : ∀ n j, s.stage n = some (.take j) → s.Asleep (.customer n) →
    s.cv.waitingLock = some (monitorLock m)
  atCounter : ∀ t, s.Asleep t → s.cv.waitingLock = some (clerkLineLocks m i) →
    (∃ n j, t = .customer n ∧ s.stage n = some (.served j)) ∨
      ∃ k, t = .clerk m k ∧ s.clerkPc k ≠ none

/-! ### Phases -/

/-- The clerk has opened the counter and waits for a customer, or is about
to. -/
def Ready (m : Kind) (s : Counter) (k : Nat) : Prop :=
  s.clerkPc k = some .openMonitor ∨ s.clerkPc k = some .await ∨
    (s.clerkPc k = some .serve ∧ s.Asleep (.clerk m k))

/-- How far a visitor `v` and clerk `k` are with each other. -/
inductive Meets (m : Kind) (s : Counter) (v k : Nat) : Prop where
  | comes (j : Nat)
      (stage : s.stage v = some (.take j) ∨ s.stage v = some (.lock j) ∨
        s.stage v = some (.greet j))
      (ready : s.Ready m k)
  | awaits (j : Nat) (stage : s.stage v = some (.await j))
      (pc : s.clerkPc k = some .openMonitor ∨ s.clerkPc k = some .await ∨
        s.clerkPc k = some .serve)
  | sleeps (j : Nat) (stage : s.stage v = some (.served j))
      (asleep : s.Asleep (.customer v))
      (pc : s.clerkPc k = some .openMonitor ∨ s.clerkPc k = some .await ∨
        s.clerkPc k = some .serve ∨ ∃ n, s.clerkPc k = some (.working n))
  | wakes (j : Nat) (stage : s.stage v = some (.served j))
      (awake : ¬ s.Asleep (.customer v))
      (pc : s.clerkPc k = some .awaitLeave ∨
        (s.clerkPc k = some .close ∧ s.Asleep (.clerk m k)))
  | goes (j : Nat)
      (stage : (∃ n, s.stage v = some (.tooSoon j n)) ∨ s.stage v = some (.leave j))
      (pc : s.clerkPc k = some .close)

/-- Nobody has been here. -/
structure Untouched (s : Counter) : Prop where
  state : s.state = .available
  nobody : ∀ n, ¬ s.Visits n
  count : s.count ≤ 0
  clerks : ∀ k pc, s.clerkPc k = some pc → pc = .enter ∨ pc = .look

/-- The clerk is on its break, at the counter. -/
structure Resting (m : Kind) (s : Counter) (k : Nat) : Prop where
  other : m ≠ .picture
  state : s.state = .onBreak
  nobody : ∀ n, ¬ s.Visits n
  ready : s.Ready m k

/-- A customer visits. -/
structure Taken (m : Kind) (s : Counter) (v k : Nat) : Prop where
  other : m ≠ .picture
  state : s.state = .busy ∨ (s.state = .onBreak ∧
    (∃ j, s.stage v = some (.take j)) ∧ ¬ s.Asleep (.customer v))
  only : ∀ n, s.Visits n → n = v
  meets : s.Meets m v k

/-- The customer has gone, and the clerk has yet to look at its line. -/
structure Closing (m : Kind) (i : Nat) (s : Counter) (k : Nat) : Prop where
  other : m ≠ .picture
  state : s.state = .busy
  nobody : ∀ n, ¬ s.Visits n
  bound : s.cv.waitingLock = some (clerkLineLocks m i)
  pc : s.clerkPc k = some .close ∨ s.clerkPc k = some .enter ∨
    s.clerkPc k = some .look

/-- The picture clerk sleeps on its break, inside its monitor. -/
structure Shut (m : Kind) (s : Counter) (k : Nat) : Prop where
  picture : m = .picture
  state : s.state = .onBreak
  nobody : ∀ n, ¬ s.Visits n
  pc : s.clerkPc k = some .takeLine
  asleep : s.Asleep (.clerk m k)

inductive Phase (m : Kind) (i : Nat) (s : Counter) : Prop where
  | untouched (phase : s.Untouched)
  | resting (k : Nat) (phase : s.Resting m k)
  | taken (v k : Nat) (phase : s.Taken m v k)
  | closing (k : Nat) (phase : s.Closing m i k)
  | shut (k : Nat) (phase : s.Shut m k)

section

variable {m : Kind} {i n v k : Nat} {s s' : Counter}

/-- The phases in which somebody visits. -/
theorem Phase.of_visits (phase : s.Phase m i) (visits : s.Visits v) :
    ∃ k, s.Taken m v k := by
  cases phase with
  | untouched phase => exact absurd visits (phase.nobody v)
  | resting k phase => exact absurd visits (phase.nobody v)
  | taken v' k phase =>
      obtain rfl := phase.only v visits
      exact ⟨k, phase⟩
  | closing k phase => exact absurd visits (phase.nobody v)
  | shut k phase => exact absurd visits (phase.nobody v)

theorem Meets.clerk_ne_none (meets : s.Meets m v k) : s.clerkPc k ≠ none := by
  cases meets with
  | comes j stage ready =>
      rcases ready with pc | pc | ⟨pc, -⟩ <;> simp [pc]
  | awaits j stage pc =>
      rcases pc with pc | pc | pc <;> simp [pc]
  | sleeps j stage asleep pc =>
      rcases pc with pc | pc | pc | ⟨n, pc⟩ <;> simp [pc]
  | wakes j stage awake pc =>
      rcases pc with pc | ⟨pc, -⟩ <;> simp [pc]
  | goes j stage pc => simp [pc]

/-- The phases that a clerk of the line can be in. -/
theorem Phase.of_clerk (phase : s.Phase m i) (sole : s.Sole)
    (here : s.clerkPc k ≠ none) :
    s.Untouched ∨ s.Resting m k ∨ (∃ v, s.Taken m v k) ∨ s.Closing m i k ∨
      s.Shut m k := by
  cases phase with
  | untouched phase => exact .inl phase
  | resting k' phase =>
      have ready := phase.ready
      obtain rfl : k' = k := by
        refine sole k' k ?_ here
        rcases ready with pc | pc | ⟨pc, -⟩ <;> simp [pc]
      exact .inr (.inl phase)
  | taken v k' phase =>
      obtain rfl : k' = k := sole k' k phase.meets.clerk_ne_none here
      exact .inr (.inr (.inl ⟨v, phase⟩))
  | closing k' phase =>
      obtain rfl : k' = k := by
        refine sole k' k ?_ here
        rcases phase.pc with pc | pc | pc <;> simp [pc]
      exact .inr (.inr (.inr (.inl phase)))
  | shut k' phase =>
      obtain rfl : k' = k := sole k' k (by simp [phase.pc]) here
      exact .inr (.inr (.inr (.inr phase)))

/-! ### Sleepers in the line -/

/-- Whoever sleeps in the line goes on sleeping. -/
def Keeps (s s' : Counter) : Prop :=
  ∀ n j, s.stage n = some (.take j) → s.Asleep (.customer n) →
    s'.Asleep (.customer n)

theorem Visits.of_keeps (visits : s'.Visits n) (keeps : s.Keeps s')
    (stage : s'.stage n = s.stage n) : s.Visits n := by
  obtain ⟨at', here, awake⟩ := visits
  refine ⟨at', stage ▸ here, ?_⟩
  rintro j rfl asleep
  exact awake j rfl (keeps n j (stage ▸ here) asleep)

theorem keeps_of_cv (cv : s'.cv = s.cv) : s.Keeps s' := by
  intro n j stage asleep
  rwa [Asleep, cv]

theorem keeps_of_sleep {t : Who} {l : LockName}
    (cv : s'.cv = ⟨s.cv.waitQueue ++ [t], some l⟩) : s.Keeps s' := by
  intro n j stage asleep
  rw [Asleep, cv]
  exact List.mem_append_left _ asleep

/-- A `Signal` under the lock of the counter wakes nobody in the line. -/
theorem keeps_of_signal (queued : s.Queued m i)
    (cv : s'.cv = (s.signal (clerkLineLocks m i)).cv) : s.Keeps s' := by
  intro n j stage asleep
  have bound := queued.inLine n j stage asleep
  rw [Asleep, cv, signal_cv, if_neg (by simp [bound])]
  exact asleep

theorem nobody_of_keeps (nobody : ∀ n, ¬ s.Visits n) (keeps : s.Keeps s')
    (stage : s'.stage = s.stage) : ∀ n, ¬ s'.Visits n :=
  fun n visits => nobody n (visits.of_keeps keeps (by rw [stage]))

/-! ### Customers -/

theorem Meets.stage_ne_none (meets : s.Meets m v k) : s.stage v ≠ none := by
  cases meets with
  | comes j stage ready => rcases stage with stage | stage | stage <;> simp [stage]
  | awaits j stage pc => simp [stage]
  | sleeps j stage asleep pc => simp [stage]
  | wakes j stage awake pc => simp [stage]
  | goes j stage pc => rcases stage with ⟨n, stage⟩ | stage <;> simp [stage]

/-- A customer that finds the clerk busy, and that is really put to sleep,
changes nothing for the visitor. -/
theorem Phase.queueUp (phase : s.Phase m i) (out : s.stage n = none)
    (busy : s.state = .busy)
    (accepted : s.cv.waitingLock = some (monitorLock m) ∨ s.cv.waitingLock = none) :
    Phase m i (((s.customerTo n (some (.take i))).fill (s.count + 1)).sleep
      (.customer n) (monitorLock m)) := by
  cases phase with
  | untouched phase => simp [phase.state] at busy
  | resting k phase => simp [phase.state] at busy
  | closing k phase => simp [phase.bound] at accepted
  | shut k phase => simp [phase.state] at busy
  | taken v k phase =>
      have other : v ≠ n := by
        rintro rfl
        exact phase.meets.stage_ne_none out
      refine .taken v k ⟨phase.other, .inl busy, fun n' visits => ?_, ?_⟩
      · by_cases same : n' = n
        · subst same
          obtain ⟨stage, here, awake⟩ := visits
          have last : stage = .take i := by simpa using here.symm
          exact absurd (by simp [Asleep]) (awake i last)
        · exact phase.only n' (visits.of_keeps (keeps_of_sleep rfl) (by simp [same]))
      · cases phase.meets with
        | comes j stage ready =>
            refine .comes j (by simpa [other] using stage) ?_
            rcases ready with pc | pc | ⟨pc, asleep⟩
            · exact .inl pc
            · exact .inr (.inl pc)
            · exact .inr (.inr ⟨pc, List.mem_append_left _ asleep⟩)
        | awaits j stage pc => exact .awaits j (by simpa [other] using stage) pc
        | sleeps j stage asleep pc =>
            exact .sleeps j (by simpa [other] using stage)
              (List.mem_append_left _ asleep) pc
        | wakes j stage awake pc =>
            refine .wakes j (by simpa [other] using stage) ?_ ?_
            · simpa [Asleep, other] using awake
            · exact pc.imp_right (And.imp_right (List.mem_append_left _))
        | goes j stage pc => exact .goes j (by simpa [other] using stage) pc

/-- A customer that finds the clerk on its break becomes the visitor. -/
theorem Phase.walkUp (phase : s.Phase m i) (onBreak : s.state = .onBreak)
    (awake : ¬ s.Asleep (.customer n))
    (alone : ∀ v j, s.stage v = some (.take j) → s.Asleep (.customer v))
    (noBreak : ∀ k, s.clerkPc k ≠ some .takeLine) :
    Phase m i (s.customerTo n (some (.take i))) := by
  cases phase with
  | untouched phase => simp [phase.state] at onBreak
  | closing k phase => simp [phase.state] at onBreak
  | shut k phase => exact absurd phase.pc (noBreak k)
  | taken v k phase =>
      rcases phase.state with busy | ⟨-, ⟨j, stage⟩, awake⟩
      · simp [busy] at onBreak
      · exact absurd (alone v j stage) awake
  | resting k phase =>
      refine .taken n k ⟨phase.other, .inr ⟨onBreak, ⟨i, by simp⟩, awake⟩,
        fun n' visits => ?_, .comes i (.inl (by simp)) phase.ready⟩
      by_contra other
      exact phase.nobody n' (visits.of_keeps (keeps_of_cv rfl) (by simp [other]))

/-- A step of the visitor that leaves it a visitor. -/
theorem Phase.visitor (phase : s.Phase m i) (visits : s.Visits v)
    (keeps : s.Keeps s') (others : ∀ n, n ≠ v → s'.stage n = s.stage n)
    (busy : s.state = .busy → s'.state = .busy)
    (took : ∀ j, s.stage v = some (.take j) → s'.state = .busy)
    (meets : ∀ k, s.Meets m v k → s'.Meets m v k) : s'.Phase m i := by
  obtain ⟨k, taken⟩ := phase.of_visits visits
  refine .taken v k ⟨taken.other, .inl ?_, fun n visits' => ?_, meets k taken.meets⟩
  · rcases taken.state with state | ⟨-, ⟨j, stage⟩, -⟩
    · exact busy state
    · exact took j stage
  · by_contra other
    exact other (taken.only n (visits'.of_keeps keeps (others n other)))

theorem visits_of_stage {stage : Stage} (here : s.stage v = some stage)
    (past : ∀ j, stage ≠ .take j) : s.Visits v :=
  ⟨stage, here, fun j same => absurd same (past j)⟩

theorem Phase.take (phase : s.Phase m i) (here : s.stage n = some (.take i))
    (awake : ¬ s.Asleep (.customer n)) :
    Phase m i ((s.customerTo n (some (.lock i))).mark .busy) := by
  refine phase.visitor ⟨_, here, fun _ _ => awake⟩ (keeps_of_cv rfl)
    (fun n' other => by simp [other]) (fun _ => rfl) (fun _ _ => rfl) ?_
  intro k meets
  cases meets with
  | comes j stage ready => exact .comes i (.inr (.inl (by simp))) ready
  | awaits j stage pc | sleeps j stage asleep pc | wakes j stage awake pc
  | goes j stage pc => simp [here] at stage

theorem Phase.lock (phase : s.Phase m i) (here : s.stage n = some (.lock i)) :
    Phase m i (s.customerTo n (some (.greet i))) := by
  refine phase.visitor (visits_of_stage here (by simp)) (keeps_of_cv rfl)
    (fun n' other => by simp [other]) id (by simp [here]) ?_
  intro k meets
  cases meets with
  | comes j stage ready => exact .comes i (.inr (.inr (by simp))) ready
  | awaits j stage pc | sleeps j stage asleep pc | wakes j stage awake pc
  | goes j stage pc => simp [here] at stage

theorem Phase.greet (phase : s.Phase m i) (queued : s.Queued m i)
    (here : s.stage n = some (.greet i)) :
    Phase m i ((s.customerTo n (some (.await i))).signal (clerkLineLocks m i)) := by
  refine phase.visitor (visits_of_stage here (by simp)) (keeps_of_signal queued rfl)
    (fun n' other => by simp [other]) id (by simp [here]) ?_
  intro k meets
  cases meets with
  | comes j stage ready =>
      refine .awaits i (by simp) ?_
      rcases ready with pc | pc | ⟨pc, -⟩
      · exact .inl pc
      · exact .inr (.inl pc)
      · exact .inr (.inr pc)
  | awaits j stage pc | sleeps j stage asleep pc | wakes j stage awake pc
  | goes j stage pc => simp [here] at stage

theorem Phase.await (phase : s.Phase m i) (here : s.stage n = some (.await i)) :
    Phase m i ((s.customerTo n (some (.served i))).sleep (.customer n)
      (clerkLineLocks m i)) := by
  refine phase.visitor (visits_of_stage here (by simp)) (keeps_of_sleep rfl)
    (fun n' other => by simp [other]) id (by simp [here]) ?_
  intro k meets
  cases meets with
  | awaits j stage pc =>
      refine .sleeps i (by simp) (by simp [Asleep]) ?_
      rcases pc with pc | pc | pc
      · exact .inl pc
      · exact .inr (.inl pc)
      · exact .inr (.inr (.inl pc))
  | comes j stage ready | sleeps j stage asleep pc | wakes j stage awake pc
  | goes j stage pc => simp [here] at stage

/-- The visitor has been served, and its clerk waits for it to leave. -/
theorem Phase.served {stage' : Stage} (phase : s.Phase m i)
    (here : s.stage n = some (.served i)) (awake : ¬ s.Asleep (.customer n))
    (waits : ∀ k, s.clerkPc k ≠ some .awaitLeave) (keeps : s.Keeps s')
    (stage : s'.stage = Function.update s.stage n (some stage'))
    (clerkPc : s'.clerkPc = s.clerkPc) (state : s'.state = s.state)
    (next : (∃ j, stage' = .tooSoon i j) ∨ stage' = .leave i) : s'.Phase m i := by
  refine phase.visitor (visits_of_stage here (by simp)) keeps
    (fun n' other => by simp [stage, other]) (fun busy => state.trans busy)
    (by simp [here]) ?_
  intro k meets
  cases meets with
  | wakes j stage awake pc =>
      refine .goes i ?_ ?_
      · rcases next with ⟨j, rfl⟩ | rfl <;> simp [*]
      · rw [clerkPc]
        exact (pc.resolve_left (waits k)).1
  | sleeps j stage asleep pc => exact absurd asleep awake
  | comes j stage ready | awaits j stage pc | goes j stage pc => simp [here] at stage

theorem Phase.goes {stage' : Stage} {j : Nat} (phase : s.Phase m i)
    (here : s.stage n = some (.tooSoon i j)) (keeps : s.Keeps s')
    (stage : s'.stage = Function.update s.stage n (some stage'))
    (clerkPc : s'.clerkPc = s.clerkPc) (state : s'.state = s.state)
    (next : (∃ j, stage' = .tooSoon i j) ∨ stage' = .leave i) : s'.Phase m i := by
  refine phase.visitor (visits_of_stage here (by simp)) keeps
    (fun n' other => by simp [stage, other]) (fun busy => state.trans busy)
    (by simp [here]) ?_
  intro k meets
  cases meets with
  | goes j' stage pc =>
      refine .goes i ?_ (clerkPc ▸ pc)
      rcases next with ⟨j, rfl⟩ | rfl <;> simp [*]
  | comes j stage ready | awaits j stage pc | sleeps j stage asleep pc
  | wakes j stage awake pc => simp [here] at stage

/-- When the visitor leaves, its clerk still has the round to close. -/
theorem Phase.leave (phase : s.Phase m i) (here : s.stage n = some (.leave i))
    (bound : ∀ k, s.clerkPc k = some .close →
      s.cv.waitingLock = some (clerkLineLocks m i)) :
    Phase m i (s.customerTo n none) := by
  obtain ⟨k, taken⟩ := phase.of_visits (visits_of_stage here (by simp))
  have busy : s.state = .busy := by
    rcases taken.state with busy | ⟨-, ⟨j, stage⟩, -⟩
    · exact busy
    · simp [here] at stage
  have close : s.clerkPc k = some .close := by
    cases taken.meets with
    | goes j stage pc => exact pc
    | comes j stage ready | awaits j stage pc | sleeps j stage asleep pc
    | wakes j stage awake pc => simp [here] at stage
  refine .closing k ⟨taken.other, busy, fun n' visits => ?_, bound k close, .inl close⟩
  by_cases same : n' = n
  · subst same
    obtain ⟨stage, there, -⟩ := visits
    simp at there
  · exact same (taken.only n' (visits.of_keeps (keeps_of_cv rfl) (by simp [same])))

/-! ### Clerks -/

/-- A clerk starts to serve the line that nobody else serves. -/
theorem Phase.create (phase : s.Phase m i) (none : ∀ k, s.clerkPc k = none) :
    Phase m i (s.clerkTo k .enter) := by
  cases phase with
  | untouched phase =>
      refine .untouched ⟨phase.state,
        nobody_of_keeps phase.nobody (keeps_of_cv rfl) rfl, phase.count, ?_⟩
      intro k' pc here
      by_cases same : k' = k
      · subst same
        exact .inl (by simpa using here.symm)
      · simp [same, none] at here
  | resting k phase =>
      rcases phase.ready with pc | pc | ⟨pc, -⟩ <;> simp [none] at pc
  | taken v k phase => exact absurd (none k) phase.meets.clerk_ne_none
  | closing k phase => rcases phase.pc with pc | pc | pc <;> simp [none] at pc
  | shut k phase => simpa [none] using phase.pc

/-- Where a clerk between its rounds can be. -/
theorem Phase.between (phase : s.Phase m i) (sole : s.Sole)
    (here : s.clerkPc k = some .enter ∨ s.clerkPc k = some .look) :
    s.Untouched ∨ s.Closing m i k := by
  have serves : s.clerkPc k ≠ none := by rcases here with pc | pc <;> simp [pc]
  rcases phase.of_clerk sole serves with phase | phase | ⟨v, phase⟩ | phase | phase
  · exact .inl phase
  · rcases phase.ready with pc | pc | ⟨pc, -⟩ <;> simp [pc] at here
  · cases phase.meets with
    | comes j stage ready =>
        rcases ready with pc | pc | ⟨pc, -⟩ <;> simp [pc] at here
    | awaits j stage pc => rcases pc with pc | pc | pc <;> simp [pc] at here
    | sleeps j stage asleep pc =>
        rcases pc with pc | pc | pc | ⟨n, pc⟩ <;> simp [pc] at here
    | wakes j stage awake pc => rcases pc with pc | ⟨pc, -⟩ <;> simp [pc] at here
    | goes j stage pc => simp [pc] at here
  · exact .inr phase
  · simp [phase.pc] at here

/-- Nobody visits a counter whose clerk is between its rounds. -/
theorem Phase.nobody_between (phase : s.Phase m i) (sole : s.Sole)
    (here : s.clerkPc k = some .enter ∨ s.clerkPc k = some .look) (n : Nat) :
    ¬ s.Visits n := by
  rcases phase.between sole here with phase | phase
  · exact phase.nobody n
  · exact phase.nobody n

theorem Phase.enter (phase : s.Phase m i) (sole : s.Sole)
    (here : s.clerkPc k = some .enter) : Phase m i (s.clerkTo k .look) := by
  rcases phase.between sole (.inl here) with phase | phase
  · refine .untouched ⟨phase.state,
      nobody_of_keeps phase.nobody (keeps_of_cv rfl) rfl, phase.count, ?_⟩
    intro k' pc there
    by_cases same : k' = k
    · subst same
      exact .inr (by simpa using there.symm)
    · exact phase.clerks k' pc (by simpa [same] using there)
  · exact .closing k ⟨phase.other, phase.state,
      nobody_of_keeps phase.nobody (keeps_of_cv rfl) rfl, phase.bound, by simp⟩

/-- A clerk that looks at its line finds nobody in it. -/
theorem Phase.line_empty (phase : s.Phase m i) (sole : s.Sole)
    (here : s.clerkPc k = some .look)
    (filled : 0 < s.count → s.cv.waitingLock = some (monitorLock m)) :
    ¬ 0 < s.count := by
  rcases phase.between sole (.inr here) with phase | phase
  · have count := phase.count
    omega
  · intro positive
    have bound := filled positive
    simp [phase.bound] at bound

theorem Phase.goOnBreak (phase : s.Phase m i) (sole : s.Sole)
    (here : s.clerkPc k = some .look) (other : m ≠ .picture) :
    Phase m i ((s.clerkTo k .openMonitor).mark .onBreak) :=
  .resting k ⟨other, rfl, nobody_of_keeps (phase.nobody_between sole (.inr here))
    (keeps_of_cv rfl) rfl, .inl (by simp)⟩

theorem Phase.goOnPictureBreak (phase : s.Phase m i) (sole : s.Sole)
    (here : s.clerkPc k = some .look) (picture : m = .picture) :
    Phase m i (((s.clerkTo k .takeLine).mark .onBreak).sleep (.clerk m k)
      (clerkLineLocks m i)) :=
  .shut k ⟨picture, rfl, nobody_of_keeps (phase.nobody_between sole (.inr here))
    (keeps_of_sleep rfl) rfl, by simp, by simp [Asleep]⟩

/-- The points of a clerk at its counter. -/
theorem Phase.at_counter {pc : ClerkPc} (phase : s.Phase m i) (sole : s.Sole)
    (here : s.clerkPc k = some pc) (entered : pc ≠ .enter ∧ pc ≠ .look)
    (awake : ¬ s.Asleep (.clerk m k)) :
    m ≠ .picture ∧
      (s.Resting m k ∨ (∃ v, s.Taken m v k) ∨ (s.Closing m i k ∧ pc = .close)) := by
  have serves : s.clerkPc k ≠ none := by simp [here]
  rcases phase.of_clerk sole serves with
    phase | phase | ⟨v, phase⟩ | phase | phase
  · rcases phase.clerks k pc here with rfl | rfl <;> simp at entered
  · exact ⟨phase.other, .inl phase⟩
  · exact ⟨phase.other, .inr (.inl ⟨v, phase⟩)⟩
  · refine ⟨phase.other, .inr (.inr ⟨phase, ?_⟩)⟩
    rcases phase.pc with at' | at' | at' <;> rw [here, Option.some.injEq] at at'
    · exact at'
    · exact absurd at' entered.1
    · exact absurd at' entered.2
  · exact absurd phase.asleep awake

/-- A step of the clerk that leaves the visitor a visitor. -/
theorem Taken.clerk (taken : s.Taken m v k) (keeps : s.Keeps s')
    (stage : s'.stage = s.stage) (state : s'.state = s.state)
    (awake : s'.Asleep (.customer v) → s.Asleep (.customer v))
    (meets : s'.Meets m v k) : s'.Taken m v k := by
  refine ⟨taken.other, ?_, fun n visits => ?_, meets⟩
  · rw [stage, state]
    exact taken.state.imp_right (And.imp_right (And.imp_right (mt awake)))
  · exact taken.only n (visits.of_keeps keeps (by rw [stage]))

theorem Phase.openMonitor (phase : s.Phase m i) (sole : s.Sole)
    (here : s.clerkPc k = some .openMonitor) (awake : ¬ s.Asleep (.clerk m k)) :
    Phase m i (s.clerkTo k .await) := by
  obtain ⟨other, phase | ⟨v, taken⟩ | ⟨-, isClose⟩⟩ :=
    phase.at_counter sole here (by simp) awake
  · exact .resting k ⟨other, phase.state,
      nobody_of_keeps phase.nobody (keeps_of_cv rfl) rfl, .inr (.inl (by simp))⟩
  · refine .taken v k (taken.clerk (keeps_of_cv rfl) rfl rfl id ?_)
    cases taken.meets with
    | comes j stage ready => exact .comes j stage (.inr (.inl (by simp)))
    | awaits j stage pc => exact .awaits j stage (.inr (.inl (by simp)))
    | sleeps j stage asleep pc => exact .sleeps j stage asleep (.inr (.inl (by simp)))
    | wakes j stage awake pc | goes j stage pc => simp [here] at pc
  · cases isClose

theorem Phase.awaitCustomer (phase : s.Phase m i) (sole : s.Sole)
    (here : s.clerkPc k = some .await) (awake : ¬ s.Asleep (.clerk m k)) :
    Phase m i ((s.clerkTo k .serve).sleep (.clerk m k) (clerkLineLocks m i)) := by
  obtain ⟨other, phase | ⟨v, taken⟩ | ⟨-, isClose⟩⟩ :=
    phase.at_counter sole here (by simp) awake
  · refine .resting k ⟨other, phase.state,
      nobody_of_keeps phase.nobody (keeps_of_sleep rfl) rfl, .inr (.inr ⟨?_, ?_⟩)⟩
    · simp
    · simp [Asleep]
  · refine .taken v k (taken.clerk (keeps_of_sleep rfl) rfl rfl ?_ ?_)
    · simp [Asleep]
    · cases taken.meets with
      | comes j stage ready =>
          exact .comes j stage (.inr (.inr ⟨by simp, by simp [Asleep]⟩))
      | awaits j stage pc => exact .awaits j stage (.inr (.inr (by simp)))
      | sleeps j stage asleep pc =>
          exact .sleeps j stage (List.mem_append_left _ asleep)
            (.inr (.inr (.inl (by simp))))
      | wakes j stage awake pc | goes j stage pc => simp [here] at pc
  · cases isClose

/-- A clerk that has been woken has a customer asleep at its counter. -/
theorem Phase.serving {pc : ClerkPc} (phase : s.Phase m i) (sole : s.Sole)
    (here : s.clerkPc k = some pc) (serves : pc = .serve ∨ ∃ n, pc = .working n)
    (awake : ¬ s.Asleep (.clerk m k))
    (alone : ∀ v j, s.stage v ≠ some (.await j)) :
    ∃ v j, s.Taken m v k ∧ s.stage v = some (.served j) ∧ s.Asleep (.customer v) := by
  have entered : pc ≠ .enter ∧ pc ≠ .look := by
    rcases serves with rfl | ⟨n, rfl⟩ <;> simp
  obtain ⟨other, phase | ⟨v, taken⟩ | ⟨-, isClose⟩⟩ :=
    phase.at_counter sole here entered awake
  · rcases phase.ready with at' | at' | ⟨-, asleep⟩
    · rcases serves with rfl | ⟨n, rfl⟩ <;> simp [here] at at'
    · rcases serves with rfl | ⟨n, rfl⟩ <;> simp [here] at at'
    · exact absurd asleep awake
  · refine ⟨v, ?_⟩
    cases taken.meets with
    | comes j stage ready =>
        rcases ready with at' | at' | ⟨-, asleep⟩
        · rcases serves with rfl | ⟨n, rfl⟩ <;> simp [here] at at'
        · rcases serves with rfl | ⟨n, rfl⟩ <;> simp [here] at at'
        · exact absurd asleep awake
    | awaits j stage at' => exact absurd stage (alone v j)
    | sleeps j stage asleep at' => exact ⟨j, taken, stage, asleep⟩
    | wakes j stage awake at' | goes j stage at' =>
        rcases serves with rfl | ⟨n, rfl⟩ <;> simp [here] at at'
  · rcases serves with rfl | ⟨n, rfl⟩ <;> simp at isClose

theorem Phase.work {pc : ClerkPc} {c : Nat} (phase : s.Phase m i) (sole : s.Sole)
    (here : s.clerkPc k = some pc) (serves : pc = .serve ∨ ∃ n, pc = .working n)
    (awake : ¬ s.Asleep (.clerk m k))
    (alone : ∀ v j, s.stage v ≠ some (.await j)) :
    Phase m i (s.clerkTo k (.working c)) := by
  obtain ⟨v, j, taken, stage, asleep⟩ := phase.serving sole here serves awake alone
  exact .taken v k (taken.clerk (keeps_of_cv rfl) rfl rfl id
    (.sleeps j stage asleep (.inr (.inr (.inr ⟨c, by simp⟩)))))

/-- The report of the clerk wakes the visitor, since nobody else is asleep. -/
theorem Phase.report {pc : ClerkPc} (phase : s.Phase m i) (sole : s.Sole)
    (queued : s.Queued m i) (here : s.clerkPc k = some pc)
    (serves : pc = .serve ∨ ∃ n, pc = .working n) (awake : ¬ s.Asleep (.clerk m k))
    (alone : ∀ v j, s.stage v ≠ some (.await j))
    (bound : s.cv.waitingLock = some (clerkLineLocks m i)) :
    Phase m i ((s.clerkTo k .awaitLeave).signal (clerkLineLocks m i)) := by
  obtain ⟨v, j, taken, stage, asleep⟩ := phase.serving sole here serves awake alone
  have onlyVisitor : ∀ t, s.Asleep t → t = .customer v := by
    intro t sleeps
    rcases queued.atCounter t sleeps bound with ⟨n, j', rfl, there⟩ | ⟨k', rfl, there⟩
    · rw [taken.only n (visits_of_stage there (by simp))]
    · obtain rfl : k' = k := sole k' k there (by simp [here])
      exact absurd sleeps awake
  have woken : Who.customer v ∉ s.cv.waitQueue.tail := by
    have once := queued.once
    cases queue : s.cv.waitQueue with
    | nil => simp
    | cons first rest =>
        obtain rfl : first = .customer v := onlyVisitor first (by simp [Asleep, queue])
        rw [queue] at once
        exact (List.nodup_cons.mp once).1
  have awake' : ¬ ((s.clerkTo k .awaitLeave).signal (clerkLineLocks m i)).Asleep
      (.customer v) := by
    simpa [Asleep, bound] using woken
  refine .taken v k (taken.clerk (keeps_of_signal queued rfl) rfl rfl
    (fun _ => asleep) (.wakes j stage awake' (.inl (by simp))))

theorem Phase.awaitLeave (phase : s.Phase m i) (sole : s.Sole)
    (here : s.clerkPc k = some .awaitLeave) (awake : ¬ s.Asleep (.clerk m k)) :
    Phase m i ((s.clerkTo k .close).sleep (.clerk m k) (clerkLineLocks m i)) := by
  obtain ⟨other, phase | ⟨v, taken⟩ | ⟨-, isClose⟩⟩ :=
    phase.at_counter sole here (by simp) awake
  · rcases phase.ready with pc | pc | ⟨pc, -⟩ <;> simp [here] at pc
  · refine .taken v k (taken.clerk (keeps_of_sleep rfl) rfl rfl ?_ ?_)
    · simp [Asleep]
    · cases taken.meets with
      | wakes j stage awake pc =>
          refine .wakes j stage ?_ (.inr ⟨by simp, by simp [Asleep]⟩)
          simpa [Asleep] using awake
      | comes j stage ready =>
          rcases ready with pc | pc | ⟨pc, -⟩ <;> simp [here] at pc
      | awaits j stage pc | sleeps j stage asleep pc | goes j stage pc =>
          simp [here] at pc
  · cases isClose

/-- The clerk ends its round when its customer has gone. -/
theorem Phase.close (phase : s.Phase m i) (sole : s.Sole)
    (here : s.clerkPc k = some .close) (awake : ¬ s.Asleep (.clerk m k))
    (alone : ∀ v j, (∀ n, s.stage v ≠ some (.tooSoon j n)) ∧
      s.stage v ≠ some (.leave j)) :
    Phase m i (s.clerkTo k .enter) := by
  obtain ⟨other, phase | ⟨v, taken⟩ | ⟨phase, -⟩⟩ :=
    phase.at_counter sole here (by simp) awake
  · rcases phase.ready with pc | pc | ⟨pc, -⟩ <;> simp [here] at pc
  · cases taken.meets with
    | goes j stage pc =>
        rcases stage with ⟨n, stage⟩ | stage
        · exact absurd stage ((alone v j).1 n)
        · exact absurd stage (alone v j).2
    | comes j stage ready =>
        rcases ready with pc | pc | ⟨pc, -⟩ <;> simp [here] at pc
    | wakes j stage _ pc =>
        rcases pc with pc | ⟨-, asleep⟩
        · simp [here] at pc
        · exact absurd asleep awake
    | awaits j stage pc | sleeps j stage asleep pc => simp [here] at pc
  · exact .closing k ⟨other, phase.state,
      nobody_of_keeps phase.nobody (keeps_of_cv rfl) rfl, phase.bound, by simp⟩

/-- The other points of a clerk are not reached. -/
theorem Phase.pc_cases {pc : ClerkPc} (phase : s.Phase m i) (sole : s.Sole)
    (here : s.clerkPc k = some pc) (awake : ¬ s.Asleep (.clerk m k)) :
    pc ≠ .markBusy ∧ pc ≠ .takeLine ∧ pc ≠ .develop ∧ pc ≠ .awaitOpinion ∧
      (m = .picture → pc = .enter ∨ pc = .look) := by
  by_cases entered : pc ≠ .enter ∧ pc ≠ .look
  · obtain ⟨other, reached⟩ := phase.at_counter sole here entered awake
    have unlike : pc ≠ .markBusy ∧ pc ≠ .takeLine ∧ pc ≠ .develop ∧
        pc ≠ .awaitOpinion := by
      rcases reached with phase | ⟨v, taken⟩ | ⟨-, rfl⟩
      · rcases phase.ready with at' | at' | ⟨at', -⟩ <;>
          (rw [here, Option.some.injEq] at at'; subst at'; simp)
      · cases taken.meets with
        | comes j stage ready =>
            rcases ready with at' | at' | ⟨at', -⟩ <;>
              (rw [here, Option.some.injEq] at at'; subst at'; simp)
        | awaits j stage at' =>
            rcases at' with at' | at' | at' <;>
              (rw [here, Option.some.injEq] at at'; subst at'; simp)
        | sleeps j stage asleep at' =>
            rcases at' with at' | at' | at' | ⟨n, at'⟩ <;>
              (rw [here, Option.some.injEq] at at'; subst at'; simp)
        | wakes j stage _ at' =>
            rcases at' with at' | ⟨at', -⟩ <;>
              (rw [here, Option.some.injEq] at at'; subst at'; simp)
        | goes j stage at' =>
            rw [here, Option.some.injEq] at at'
            subst at'
            simp
      · simp
    exact ⟨unlike.1, unlike.2.1, unlike.2.2.1, unlike.2.2.2,
      fun picture => absurd picture other⟩
  · have between : pc = .enter ∨ pc = .look := by
      by_contra neither
      exact entered (not_or.mp neither)
    rcases between with rfl | rfl <;> simp

end

end Counter

end Nachos.Office
