/-
Module: Nachos.Machine.Deliveries
Purpose: No interrupt is lost, doubled or early.  Every step of the interrupt
  simulation keeps the books in one of three ways: it reorders the pending list
  at most, enters an interrupt that lies in the future, or takes the first
  pending interrupt and delivers it when its time has come.
Trusted boundary: none
Main exports: Interrupt.Books, Interrupt.step_books, Interrupt.Accounts,
  Interrupt.Moded, interrupts_delivered_once_and_in_time
-/
import Nachos.Machine.Interrupt

namespace Nachos

namespace Interrupt

variable {H : Type}

/-! ### What a step does to the books -/

/-- The ways in which pending list, clock and history can change. -/
inductive Books (s s' : Interrupt H) : Prop where
  | keeps (pending : s'.pending.Perm s.pending)
      (sorted : Sorted s.pending → Sorted s'.pending)
      (clock : s.totalTicks ≤ s'.totalTicks)
      (scheduled : s'.scheduled = s.scheduled)
      (delivered : s'.delivered = s.delivered)
  | enters (toOccur : PendingInterrupt H)
      (future : s.totalTicks < toOccur.when)
      (fresh : toOccur.serial = s.scheduled.length)
      (pending : s'.pending = sortedInsert toOccur toOccur.when s.pending)
      (clock : s'.totalTicks = s.totalTicks)
      (scheduled : s'.scheduled = toOccur :: s.scheduled)
      (delivered : s'.delivered = s.delivered)
  | delivers (element : ListElement (PendingInterrupt H))
      (pending : s.pending = element :: s'.pending)
      (clock : s.totalTicks ≤ s'.totalTicks)
      (due : element.key ≤ s'.totalTicks)
      (scheduled : s'.scheduled = s.scheduled)
      (delivered : s'.delivered = (element.item, s'.totalTicks) :: s.delivered)

/-- The five components of the books are those of another state. -/
theorem Books.of_eq {s s' s'' : Interrupt H} (books : Books s s')
    (pending : s''.pending = s'.pending) (clock : s''.totalTicks = s'.totalTicks)
    (scheduled : s''.scheduled = s'.scheduled)
    (delivered : s''.delivered = s'.delivered) : Books s s'' := by
  cases books with
  | keeps perm sorted later same same' =>
      refine .keeps ?_ ?_ ?_ ?_ ?_
      · rw [pending]; exact perm
      · rw [pending]; exact sorted
      · rw [clock]; exact later
      · rw [scheduled, same]
      · rw [delivered, same']
  | enters toOccur future fresh inserted still added same =>
      refine .enters toOccur future fresh ?_ ?_ ?_ ?_
      · rw [pending, inserted]
      · rw [clock, still]
      · rw [scheduled, added]
      · rw [delivered, same]
  | delivers element first later due same added =>
      refine .delivers element ?_ ?_ ?_ ?_ ?_
      · rw [pending, first]
      · rw [clock]; exact later
      · rw [clock]; exact due
      · rw [scheduled, same]
      · rw [delivered, clock, added]

theorem Books.refl (s : Interrupt H) : Books s s :=
  .keeps (List.Perm.refl _) id (Int.le_refl _) rfl rfl

/-- Putting the first interrupt back in its place. -/
theorem putBack_books {s s' : Interrupt H} {element : ListElement (PendingInterrupt H)}
    {rest : List (ListElement (PendingInterrupt H))}
    (taken : s.pending = element :: rest)
    (pending : s'.pending = sortedInsert element.item element.key rest)
    (clock : s.totalTicks ≤ s'.totalTicks) (scheduled : s'.scheduled = s.scheduled)
    (delivered : s'.delivered = s.delivered) : Books s s' := by
  refine .keeps ?_ ?_ clock scheduled delivered
  · rw [pending, taken]
    exact sortedInsert_perm element.item element.key rest
  · intro sorted
    rw [pending]
    rw [taken] at sorted
    exact sorted.tail.sortedInsert element.item element.key

/-- The state in which a call of `CheckIfDue` returns or calls the handler. -/
def Check.state : Check H → Interrupt H
  | .returnsFalse s => s
  | .calls _ s => s

theorem checkIfDue_books (advanceClock : Bool) (s : Interrupt H) :
    Books s (s.checkIfDue advanceClock).state := by
  generalize checked : s.checkIfDue advanceClock = check
  cases checkIfDue_cases checked with
  | empty contents => exact Books.refl s
  | waits first rest contents stands future =>
      exact putBack_books contents rfl (Int.le_refl _) rfl rfl
  | lone first contents idle timer due =>
      exact putBack_books contents rfl (le_timeOfCheck _ _ _) rfl rfl
  | fires first rest contents works due =>
      exact .delivers first contents (le_timeOfCheck _ _ _) due rfl rfl

theorem afterCheck_books {old : MachineStatus} {loop : Loop}
    {ended : Interrupt H → Interrupt H} (s : Interrupt H) (check : Check H)
    (books : Books s check.state)
    (quiet : ∀ s', (ended s').pending = s'.pending ∧
      (ended s').totalTicks = s'.totalTicks ∧
      (ended s').scheduled = s'.scheduled ∧
      (ended s').delivered = s'.delivered) :
    Books s (afterCheck old loop ended check) := by
  cases check with
  | returnsFalse s' =>
      obtain ⟨pending, clock, scheduled, delivered⟩ := quiet s'
      exact books.of_eq pending clock scheduled delivered
  | calls toOccur s' => exact books.of_eq rfl rfl rfl rfl

theorem endTick_quiet (old : MachineStatus) (s : Interrupt H) :
    (s.endTick old).pending = s.pending ∧
      (s.endTick old).totalTicks = s.totalTicks ∧
      (s.endTick old).scheduled = s.scheduled ∧
      (s.endTick old).delivered = s.delivered := by
  unfold endTick
  split <;> exact ⟨rfl, rfl, rfl, rfl⟩

theorem oneTick_books (s : Interrupt H) : Books s s.oneTick := by
  unfold oneTick
  split
  · refine .keeps (List.Perm.refl _) id ?_ rfl rfl
    simp only [systemTick]
    omega
  · refine .keeps (List.Perm.refl _) id ?_ rfl rfl
    simp only [userTick]
    omega

theorem schedule_books {s s' : Interrupt H} {handler : H} {arg fromNow : Int}
    {type : IntType} (scheduled : s.schedule handler arg fromNow type = some s') :
    Books s s' := by
  obtain ⟨toOccur, -, future, fresh, rfl⟩ := schedule_cases scheduled
  exact .enters toOccur future fresh rfl rfl rfl rfl

theorem setLevel_books {s s' : Interrupt H} {now : IntStatus}
    (set : s.setLevel now = some s') : Books s s' := by
  cases setLevel_cases set with
  | ticks enables free => exact oneTick_books s
  | sets keeps allowed => exact (Books.refl s).of_eq rfl rfl rfl rfl

/-- Every step keeps the books. -/
theorem step_books {s s' : Interrupt H} {call : InterruptCall H}
    (step : s.step call = some s') : Books s s' := by
  cases step_cases step with
  | schedule scheduled => exact schedule_books scheduled
  | setLevel place set => exact setLevel_books set
  | oneTick outside => exact oneTick_books s
  | checkEntry disabled entry =>
      exact afterCheck_books s _ (checkIfDue_books true s) fun _ => ⟨rfl, rfl, rfl, rfl⟩
  | checkIdle disabled atLoop =>
      exact afterCheck_books s _ (checkIfDue_books false s) fun _ => ⟨rfl, rfl, rfl, rfl⟩
  | checkTick disabled atLoop =>
      exact afterCheck_books s _ (checkIfDue_books false s) (endTick_quiet _)
  | idle _ | yieldOnReturn _ | endHandler _ | endYield _ _ | setStatus _ _ =>
      exact (Books.refl s).of_eq rfl rfl rfl rfl

/-! ### The accounts -/

/-- Every scheduled interrupt is pending or delivered, once; deliveries happen
in time and in the order of the due times, and nothing pending is due before
what has been delivered. -/
structure Accounts (s : Interrupt H) : Prop where
  sorted : Sorted s.pending
  keyed : ∀ element ∈ s.pending, element.key = element.item.when
  balanced : (s.pending.map (·.item) ++ s.delivered.map (·.1)).Perm s.scheduled
  serials : ∀ toOccur ∈ s.scheduled, toOccur.serial < s.scheduled.length
  distinct : s.scheduled.Nodup
  inTime : ∀ delivery ∈ s.delivered, delivery.1.when ≤ delivery.2
  past : ∀ delivery ∈ s.delivered, delivery.1.when ≤ s.totalTicks
  ahead : ∀ delivery ∈ s.delivered, ∀ element ∈ s.pending,
    delivery.1.when ≤ element.key
  inOrder : s.delivered.Pairwise fun later earlier =>
    earlier.1.when ≤ later.1.when

theorem construct_accounts : (construct : Interrupt H).Accounts where
  sorted := List.Pairwise.nil
  keyed _ member := by cases member
  balanced := List.Perm.refl _
  serials _ member := by cases member
  distinct := List.nodup_nil
  inTime _ member := by cases member
  past _ member := by cases member
  ahead _ member := by cases member
  inOrder := List.Pairwise.nil

theorem Accounts.keeps {s s' : Interrupt H} (accounts : s.Accounts)
    (pending : s'.pending.Perm s.pending)
    (sorted : Sorted s.pending → Sorted s'.pending)
    (clock : s.totalTicks ≤ s'.totalTicks) (scheduled : s'.scheduled = s.scheduled)
    (delivered : s'.delivered = s.delivered) : s'.Accounts where
  sorted := sorted accounts.sorted
  keyed element member := accounts.keyed element (pending.mem_iff.mp member)
  balanced := by
    rw [delivered, scheduled]
    exact ((pending.map _).append_right _).trans accounts.balanced
  serials := by
    rw [scheduled]
    exact accounts.serials
  distinct := by
    rw [scheduled]
    exact accounts.distinct
  inTime := by
    rw [delivered]
    exact accounts.inTime
  past := by
    rw [delivered]
    exact fun delivery member => Int.le_trans (accounts.past delivery member) clock
  ahead := by
    rw [delivered]
    exact fun delivery member element waiting =>
      accounts.ahead delivery member element (pending.mem_iff.mp waiting)
  inOrder := by
    rw [delivered]
    exact accounts.inOrder

/-- What enters the list lies after the clock, so after every delivery. -/
theorem Accounts.enters {s s' : Interrupt H} (accounts : s.Accounts)
    {toOccur : PendingInterrupt H} (future : s.totalTicks < toOccur.when)
    (fresh : toOccur.serial = s.scheduled.length)
    (pending : s'.pending = sortedInsert toOccur toOccur.when s.pending)
    (clock : s'.totalTicks = s.totalTicks)
    (scheduled : s'.scheduled = toOccur :: s.scheduled)
    (delivered : s'.delivered = s.delivered) : s'.Accounts where
  sorted := by
    rw [pending]
    exact accounts.sorted.sortedInsert _ _
  keyed element member := by
    rw [pending, mem_sortedInsert] at member
    rcases member with rfl | old
    · rfl
    · exact accounts.keyed element old
  balanced := by
    rw [pending, delivered, scheduled]
    have inserted := (sortedInsert_perm toOccur toOccur.when s.pending).map
      (fun element => element.item)
    exact (inserted.append_right _).trans (accounts.balanced.cons toOccur)
  serials := by
    rw [scheduled]
    intro other member
    rcases List.mem_cons.mp member with rfl | old
    · simp [fresh]
    · exact Nat.lt_succ_of_lt (accounts.serials other old)
  distinct := by
    rw [scheduled]
    refine List.nodup_cons.mpr ⟨fun member => ?_, accounts.distinct⟩
    have older := accounts.serials toOccur member
    omega
  inTime := by
    rw [delivered]
    exact accounts.inTime
  past := by
    rw [delivered, clock]
    exact accounts.past
  ahead := by
    rw [delivered, pending]
    intro delivery member element waiting
    rcases mem_sortedInsert.mp waiting with rfl | old
    · exact Int.le_of_lt (Int.lt_of_le_of_lt (accounts.past delivery member) future)
    · exact accounts.ahead delivery member element old
  inOrder := by
    rw [delivered]
    exact accounts.inOrder

/-- The first of the list is delivered when its time has come. -/
theorem Accounts.delivers {s s' : Interrupt H} (accounts : s.Accounts)
    {element : ListElement (PendingInterrupt H)}
    (pending : s.pending = element :: s'.pending)
    (clock : s.totalTicks ≤ s'.totalTicks) (due : element.key ≤ s'.totalTicks)
    (scheduled : s'.scheduled = s.scheduled)
    (delivered : s'.delivered = (element.item, s'.totalTicks) :: s.delivered) :
    s'.Accounts := by
  have sorted := accounts.sorted
  rw [pending] at sorted
  have first : element ∈ s.pending := by simp [pending]
  have behind : ∀ other ∈ s'.pending, other ∈ s.pending := by
    intro other member
    simp [pending, member]
  have key : element.key = element.item.when := accounts.keyed element first
  refine ⟨sorted.tail, fun other member => accounts.keyed other (behind other member),
    ?_, ?_, ?_, ?_, ?_, ?_, ?_⟩
  · have balanced := accounts.balanced
    rw [pending] at balanced
    rw [delivered, scheduled]
    exact List.perm_middle.trans balanced
  · rw [scheduled]
    exact accounts.serials
  · rw [scheduled]
    exact accounts.distinct
  · rw [delivered]
    intro delivery member
    rcases List.mem_cons.mp member with rfl | old
    · simpa [← key] using due
    · exact accounts.inTime delivery old
  · rw [delivered]
    intro delivery member
    rcases List.mem_cons.mp member with rfl | old
    · simpa [← key] using due
    · exact Int.le_trans (accounts.past delivery old) clock
  · rw [delivered]
    intro delivery member other waiting
    rcases List.mem_cons.mp member with rfl | old
    · have smallest := sorted.first_le (List.mem_cons_of_mem _ waiting)
      simpa [← key] using smallest
    · exact accounts.ahead delivery old other (behind other waiting)
  · rw [delivered]
    refine List.pairwise_cons.mpr ⟨fun earlier member => ?_, accounts.inOrder⟩
    have before := accounts.ahead earlier member element first
    simpa [← key] using before

theorem Accounts.step {s s' : Interrupt H} {call : InterruptCall H}
    (accounts : s.Accounts) (step : s.step call = some s') : s'.Accounts := by
  cases step_books step with
  | keeps pending sorted clock scheduled delivered =>
      exact accounts.keeps pending sorted clock scheduled delivered
  | enters toOccur future fresh pending clock scheduled delivered =>
      exact accounts.enters future fresh pending clock scheduled delivered
  | delivers element pending clock due scheduled delivered =>
      exact accounts.delivers pending clock due scheduled delivered

/-! ### The status in which `CheckIfDue` is called -/

/-- `IdleMode` is the status of `Idle` and of nothing else. -/
def ModeOf (status : MachineStatus) : Control H → Prop
  | .outside => status ≠ .idleMode
  | .idleEntry => status = .idleMode
  | .atLoop (.inOneTick old) => status ≠ .idleMode ∧ old ≠ .idleMode
  | .atLoop .inIdle => status = .idleMode
  | .inHandler _ restored (.inOneTick old) =>
      restored ≠ .idleMode ∧ old ≠ .idleMode
  | .inHandler _ restored .inIdle => restored = .idleMode
  | .halted => True

/-- The status fits the place, and the flag `inHandler` is set in handlers. -/
structure Moded (s : Interrupt H) : Prop where
  mode : ModeOf s.status s.control
  yielding : ∀ old ∈ s.yielding, old ≠ .idleMode
  handling : ∀ toOccur old loop, s.control = .inHandler toOccur old loop →
    s.inHandler = true

theorem construct_moded : (construct : Interrupt H).Moded where
  mode := by simp [ModeOf, construct]
  yielding _ member := by cases member
  handling _ _ _ inside := by cases inside

/-- A check leaves the yielding `OneTick`s alone, and changes the status only
to call a handler, with the flag set. -/
structure Kept (s : Interrupt H) (check : Check H) : Prop where
  yielding : check.state.yielding = s.yielding
  returns : ∀ s', check = .returnsFalse s' → s'.status = s.status
  calls : ∀ toOccur s', check = .calls toOccur s' → s'.inHandler = true

theorem checkIfDue_kept (advanceClock : Bool) (s : Interrupt H) :
    Kept s (s.checkIfDue advanceClock) := by
  generalize checked : s.checkIfDue advanceClock = check
  cases checkIfDue_cases checked with
  | empty _ | waits _ _ _ _ _ | lone _ _ _ _ _ =>
      exact ⟨rfl, fun s' returns => by cases returns; rfl, fun _ _ calls => by cases calls⟩
  | fires first rest contents works due =>
      exact ⟨rfl, fun s' returns => (by cases returns), fun _ _ calls => by cases calls; rfl⟩

theorem Moded.afterCheck {s : Interrupt H} {advanceClock : Bool} {loop : Loop}
    {ended : Interrupt H → Interrupt H} (moded : s.Moded)
    (calls : ∀ toOccur : PendingInterrupt H,
      ModeOf .systemMode (.inHandler toOccur s.status loop))
    (returns : ∀ s' : Interrupt H, s'.status = s.status →
      s'.yielding = s.yielding → (ended s').Moded) :
    (Interrupt.afterCheck s.status loop ended (s.checkIfDue advanceClock)).Moded := by
  have kept := checkIfDue_kept advanceClock s
  cases checked : s.checkIfDue advanceClock with
  | returnsFalse s' =>
      rw [checked] at kept
      exact returns s' (kept.returns s' rfl) kept.yielding
  | calls toOccur s' =>
      rw [checked] at kept
      refine ⟨?_, ?_, ?_⟩
      · cases loop <;> exact calls toOccur
      · intro old member
        have same : s'.yielding = s.yielding := kept.yielding
        exact moded.yielding old (same ▸ member)
      · intro _ _ _ _
        exact kept.calls toOccur s' rfl

theorem Moded.oneTick {s : Interrupt H} (moded : s.Moded)
    (busy : s.status ≠ .idleMode) : s.oneTick.Moded := by
  unfold Interrupt.oneTick
  split <;>
    exact ⟨⟨busy, busy⟩, moded.yielding, fun _ _ _ inside => by cases inside⟩

theorem Moded.endTick {s : Interrupt H} {old : MachineStatus}
    (busy : s.status ≠ .idleMode) (busyOld : old ≠ .idleMode)
    (yielding : ∀ old ∈ s.yielding, old ≠ .idleMode) : (s.endTick old).Moded := by
  unfold Interrupt.endTick
  split
  · refine ⟨by simp [ModeOf], ?_, fun _ _ _ inside => by cases inside⟩
    intro other member
    rcases List.mem_cons.mp member with rfl | before
    · exact busyOld
    · exact yielding other before
  · exact ⟨busy, yielding, fun _ _ _ inside => by cases inside⟩

theorem Moded.setLevel {s s' : Interrupt H} {now : IntStatus} (moded : s.Moded)
    (busy : s.inHandler = false → s.status ≠ .idleMode)
    (set : s.setLevel now = some s') : s'.Moded := by
  cases setLevel_cases set with
  | ticks enables free => exact moded.oneTick (busy free)
  | sets keeps allowed => exact ⟨moded.mode, moded.yielding, moded.handling⟩

theorem Moded.schedule {s s' : Interrupt H} {handler : H} {arg fromNow : Int}
    {type : IntType} (moded : s.Moded)
    (scheduled : s.schedule handler arg fromNow type = some s') : s'.Moded := by
  obtain ⟨toOccur, -, -, -, rfl⟩ := schedule_cases scheduled
  exact ⟨moded.mode, moded.yielding, moded.handling⟩

theorem Moded.step {s s' : Interrupt H} {call : InterruptCall H}
    (moded : s.Moded) (step : s.step call = some s') : s'.Moded := by
  have mode := moded.mode
  cases step_cases step with
  | schedule scheduled => exact moded.schedule scheduled
  | setLevel place set =>
      rcases place with outside | ⟨toOccur, old, loop, inside⟩
      · rw [outside] at mode
        exact moded.setLevel (fun _ => mode) set
      · have handling := moded.handling _ _ _ inside
        exact moded.setLevel (fun flag => by simp [handling] at flag) set
  | oneTick outside =>
      rw [outside] at mode
      exact moded.oneTick mode
  | idle outside => exact ⟨rfl, moded.yielding, fun _ _ _ inside => by cases inside⟩
  | checkEntry disabled entry =>
      rw [entry] at mode
      refine moded.afterCheck (fun _ => mode) fun s' _ yielding => ?_
      exact ⟨trivial, yielding ▸ moded.yielding, fun _ _ _ inside => by cases inside⟩
  | checkIdle disabled atLoop =>
      rw [atLoop] at mode
      refine moded.afterCheck (fun _ => mode) fun s' _ yielding => ?_
      exact ⟨by simp [ModeOf, endIdle], yielding ▸ moded.yielding,
        fun _ _ _ inside => by cases inside⟩
  | checkTick disabled atLoop =>
      rw [atLoop] at mode
      refine moded.afterCheck (fun _ => mode) fun s' status yielding => ?_
      exact .endTick (status ▸ mode.1) mode.2 (yielding ▸ moded.yielding)
  | yieldOnReturn handling => exact ⟨moded.mode, moded.yielding, moded.handling⟩
  | @endHandler toOccur restored loop inside =>
      rw [inside] at mode
      refine ⟨?_, moded.yielding, fun _ _ _ inside => by cases inside⟩
      cases loop with
      | inOneTick old => exact mode
      | inIdle => exact mode
  | @endYield old outside member =>
      refine ⟨?_, fun other remains => ?_, fun _ _ _ inside => ?_⟩
      · rw [outside]
        exact moded.yielding old member
      · exact moded.yielding other (List.mem_of_mem_erase remains)
      · cases outside.symm.trans inside
  | setStatus outside busy =>
      refine ⟨?_, moded.yielding, fun _ _ _ inside => ?_⟩
      · rw [outside]
        exact busy
      · cases outside.symm.trans inside

/-! ### When `CheckIfDue` returns FALSE -/

/-- Outside `Idle` the loop ends only when nothing is due. -/
theorem checkIfDue_false_ends {s s' : Interrupt H} (sorted : Sorted s.pending)
    (busy : s.status ≠ .idleMode) (ends : s.checkIfDue false = .returnsFalse s') :
    ∀ element ∈ s'.pending, s'.totalTicks < element.key := by
  cases checkIfDue_cases ends with
  | empty contents => simp [contents]
  | waits first rest contents stands future =>
      intro element member
      have present : element ∈ first :: rest :=
        (sortedInsert_perm first.item first.key rest).mem_iff.mp member
      rw [contents] at sorted
      exact Int.lt_of_lt_of_le future (sorted.first_le present)
  | lone first contents idle timer due => exact absurd idle busy

/-- The list is empty, or holds nothing but one timer interrupt. -/
def NothingToDo (s : Interrupt H) : Prop :=
  s.pending = [] ∨ ∃ element, s.pending = [element] ∧ element.item.type = .timerInt

/-- `CheckIfDue(TRUE)` in `Idle` returns FALSE exactly when nothing is to be
done. -/
theorem checkIfDue_true_returnsFalse_iff {s : Interrupt H}
    (idle : s.status = .idleMode) :
    (∃ s', s.checkIfDue true = .returnsFalse s') ↔ s.NothingToDo := by
  constructor
  · rintro ⟨s', returns⟩
    cases checkIfDue_cases returns with
    | empty contents => exact .inl contents
    | waits first rest contents stands future => cases stands
    | lone first contents idle timer due => exact .inr ⟨first, contents, timer⟩
  · intro nothing
    cases checked : s.checkIfDue true with
    | returnsFalse s' => exact ⟨s', rfl⟩
    | calls toOccur s' =>
        cases checkIfDue_cases checked with
        | fires first rest contents works due =>
            rcases nothing with empty | ⟨element, alone, timer⟩
            · cases empty.symm.trans contents
            · obtain ⟨rfl, rfl⟩ := List.cons.inj (alone.symm.trans contents)
              exact absurd ⟨idle, timer, rfl⟩ works

/-- `OneTick` leaves its loop with nothing due. -/
theorem Accounts.loop_ends {s s' : Interrupt H} {old : MachineStatus}
    (accounts : s.Accounts) (moded : s.Moded)
    (atLoop : s.control = .atLoop (.inOneTick old))
    (step : s.step .checkIfDue = some s') (ended : s'.control = .outside) :
    ∀ element ∈ s'.pending, s'.totalTicks < element.item.when := by
  have after : s'.Accounts := accounts.step step
  have mode := moded.mode
  rw [atLoop] at mode
  cases step_cases step with
  | checkEntry disabled entry => cases atLoop.symm.trans entry
  | checkIdle disabled atIdle => cases atLoop.symm.trans atIdle
  | checkTick disabled atTick =>
      cases atLoop.symm.trans atTick
      cases checked : s.checkIfDue false with
      | calls toOccur called =>
          rw [checked] at ended
          cases ended
      | returnsFalse returned =>
          rw [checked] at after
          obtain ⟨pending, clock, -, -⟩ := endTick_quiet old returned
          intro element member
          have key := after.keyed element member
          simp only [Interrupt.afterCheck] at member key ⊢
          rw [← key, clock]
          rw [pending] at member
          exact checkIfDue_false_ends accounts.sorted mode.1 checked element member

/-- `Idle` halts the machine exactly when nothing is to be done. -/
theorem idle_halts_iff {s called checked : Interrupt H}
    (idles : s.step .idle = some called)
    (checks : called.step .checkIfDue = some checked) :
    checked.control = .halted ↔ s.NothingToDo := by
  cases step_cases idles with
  | idle outside =>
      have decides := checkIfDue_true_returnsFalse_iff (s := s.idle) rfl
      rw [show s.NothingToDo ↔ s.idle.NothingToDo from Iff.rfl, ← decides]
      cases step_cases checks with
      | checkEntry disabled entry =>
          cases result : s.idle.checkIfDue true with
          | returnsFalse s' => simp [afterCheck]
          | calls toOccur s' => simp [afterCheck]
      | checkIdle disabled atLoop => cases atLoop
      | checkTick disabled atLoop => cases atLoop

end Interrupt

open Interrupt

/-- In every state of every run, whatever handlers and devices schedule: every
scheduled interrupt is pending or delivered, not both and not twice; each was
delivered when its time had come; the due times of successive deliveries do not
decrease; `OneTick` leaves its loop with nothing due; and `Idle` halts exactly
when nothing but one timer interrupt is pending. -/
theorem interrupts_delivered_once_and_in_time {H : Type} {s : Interrupt H}
    {calls : List (InterruptCall H)}
    (run : (interruptMachine H).exec construct calls = some s) :
    (s.pending.map (·.item) ++ s.delivered.map (·.1)).Nodup ∧
    (∀ toOccur, toOccur ∈ s.scheduled ↔
      toOccur ∈ s.pending.map (·.item) ∨ toOccur ∈ s.delivered.map (·.1)) ∧
    (∀ delivery ∈ s.delivered, delivery.1.when ≤ delivery.2) ∧
    (s.delivered.reverse.map (·.1.when)).Pairwise (· ≤ ·) ∧
    (∀ old s', s.control = .atLoop (.inOneTick old) →
      s.step .checkIfDue = some s' → s'.control = .outside →
      ∀ element ∈ s'.pending, s'.totalTicks < element.item.when) ∧
    (∀ called checked, s.step .idle = some called →
      called.step .checkIfDue = some checked →
      (checked.control = .halted ↔ s.NothingToDo)) := by
  have invariant : s.Accounts ∧ s.Moded :=
    Lib.Machine.invariant (M := interruptMachine H)
      (I := fun s => s.Accounts ∧ s.Moded)
      (fun _ _ _ both step => ⟨both.1.step step, both.2.step step⟩)
      ⟨construct_accounts, construct_moded⟩ run
  obtain ⟨accounts, moded⟩ := invariant
  refine ⟨?_, ?_, accounts.inTime, ?_, ?_, ?_⟩
  · exact accounts.balanced.nodup_iff.mpr accounts.distinct
  · intro toOccur
    rw [← accounts.balanced.mem_iff, List.mem_append]
  · rw [List.pairwise_map, List.pairwise_reverse]
    exact accounts.inOrder
  · intro old s' atLoop step ended
    exact accounts.loop_ends moded atLoop step ended
  · intro called checked idles checks
    exact idle_halts_iff idles checks

/-- A disk and a timer interrupt are scheduled; the machine idles until the
disk handler runs, which schedules a network interrupt; after that one only the
timer is left. -/
def diskThenNetwork : List (InterruptCall Unit) :=
  [.schedule () 0 30 .diskInt, .schedule () 0 100 .timerInt, .idle, .checkIfDue,
    .schedule () 1 5 .networkSendInt, .endHandler, .checkIfDue, .idle, .checkIfDue,
    .endHandler, .checkIfDue]

theorem delivered_in_time_after_idle :
    ∃ s, (interruptMachine Unit).exec construct diskThenNetwork = some s ∧
      s.delivered.map (·.2) = [35, 30] ∧ s.NothingToDo ∧
      (s.delivered.reverse.map (·.1.when)).Pairwise (· ≤ ·) := by
  obtain ⟨s, run, times, left⟩ : ∃ s,
      (interruptMachine Unit).exec construct diskThenNetwork = some s ∧
      s.delivered.map (·.2) = [35, 30] ∧ s.NothingToDo :=
    ⟨_, rfl, rfl, .inr ⟨_, rfl, rfl⟩⟩
  exact ⟨s, run, times, left, (interrupts_delivered_once_and_in_time run).2.2.2.1⟩

end Nachos
