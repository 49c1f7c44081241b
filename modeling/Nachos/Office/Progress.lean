/-
Module: Nachos.Office.Progress
Purpose: The progress of one customer.  Whatever the clerks, the condition
  variables and the random numbers do, the four flags are set in an order in
  which each rests on the ones before it, are never taken back, and are all
  set when the customer's loop ends.
Trusted boundary: none
Main exports: clientMachine, Client.Sound, Client.Below, customer_progress
-/
import Nachos.Office.System

namespace Nachos.Office

/-- What a customer sees of the rest of the office when it runs a segment. -/
structure Surroundings where
  numClerks : Kind → Nat
  ssnCount : Int
  rand : Nat
  pick : Nat
  desks : Desks

/-- One customer in surroundings that may change in any way between two of
its segments. -/
def clientMachine : Lib.Machine Client Surroundings where
  step c seen :=
    (c.step seen.numClerks seen.ssnCount seen.rand seen.pick seen.desks).map
      Segment.next

namespace Client

/-- The flags of the customer hold for `c'` too. -/
structure Below (c c' : Client) : Prop where
  applicationAccepted : c.applicationAccepted = true → c'.applicationAccepted = true
  pictureTaken : c.pictureTaken = true → c'.pictureTaken = true
  certified : c.certified = true → c'.certified = true
  done : c.done = true → c'.done = true

/-- The order of the flags, and what the end of the loop means. -/
structure Sound (c : Client) : Prop where
  done : c.done = true → c.certified = true
  certified : c.certified = true →
    c.applicationAccepted = true ∧ c.pictureTaken = true
  gone : c.pc = .gone → c.done = true
  create : c.pc = .create → c = .fresh

/-! ### What one segment does to the customer -/

/-- Away from the point at which it is served, a customer only moves on. -/
theorem joinLine_next {m : Kind} {arrive : Desk → Desk}
    {served : Nat → Nat → Desks → Client → Segment Client} {numClerks rand pick : Nat}
    {desks : Desks} {c : Client} {stage : Stage} {segment : Segment Client}
    (elsewhere : ∀ i, stage ≠ .served i)
    (joined : joinLine m arrive served numClerks rand pick desks c stage = some segment) :
    ∃ pc, pc ≠ .create ∧ pc ≠ .gone ∧ segment.next = { c with pc := pc } := by
  cases stage with
  | look =>
      obtain ⟨myLine, -, rfl⟩ := Option.map_eq_some_iff.mp joined
      refine ⟨.join m (.take myLine), by simp, by simp, ?_⟩
      split <;> rfl
  | served i => exact absurd rfl (elsewhere i)
  | tooSoon i yieldCalls =>
      cases yieldCalls with
      | zero =>
          cases joined
          exact ⟨.join m (.leave i), by simp, by simp, rfl⟩
      | succ n =>
          cases joined
          exact ⟨.join m (.tooSoon i n), by simp, by simp, rfl⟩
  | _ =>
      cases joined
      exact ⟨_, by simp, by simp, rfl⟩

theorem passportServed_next (i rand : Nat) (desks : Desks) (c : Client) :
    (∃ pc, pc ≠ .create ∧ pc ≠ .gone ∧
      (passportServed i rand desks c).next = { c with pc := pc }) ∨
    (c.applicationAccepted = true ∧ c.pictureTaken = true ∧
      (passportServed i rand desks c).next =
        { c with certified := true, pc := .join .passport (.leave i) }) := by
  cases both : c.applicationAccepted && c.pictureTaken with
  | true =>
      obtain ⟨accepted, taken⟩ := (Bool.and_eq_true _ _).mp both
      refine .inr ⟨accepted, taken, ?_⟩
      simp [passportServed, both, goodbye]
  | false =>
      refine .inl ⟨.join .passport (.tooSoon i (100 + rand % 999)), by simp, by simp, ?_⟩
      simp [passportServed, both]

theorem cashierServed_next (i rand : Nat) (desks : Desks) (c : Client) :
    (∃ pc, pc ≠ .create ∧ pc ≠ .gone ∧
      (cashierServed i rand desks c).next = { c with pc := pc }) ∨
    (c.certified = true ∧ (cashierServed i rand desks c).next =
      { c with done := true, pc := .join .cashier (.leave i) }) := by
  cases certified : c.certified with
  | true =>
      refine .inr ⟨rfl, ?_⟩
      simp [cashierServed, certified, goodbye]
  | false =>
      refine .inl ⟨.join .cashier (.tooSoon i (100 + rand % 901)), by simp, by simp, ?_⟩
      simp [cashierServed, certified]

/-- A customer in a `join*Line` method moves on, or sets the flag that the
visit is for when what it rests on is set. -/
theorem joinLineOf_next {m : Kind} {numClerks rand pick : Nat} {desks : Desks}
    {c : Client} {stage : Stage} {segment : Segment Client}
    (step : c.joinLineOf m numClerks rand pick desks stage = some segment) :
    (∃ pc, pc ≠ .create ∧ pc ≠ .gone ∧ segment.next = { c with pc := pc }) ∨
    (∃ i, m = .application ∧ stage = .served i ∧ segment.next =
      { c with
        applicationAccepted := true, pc := .join .application (.leave i) }) ∨
    (∃ i, m = .picture ∧ stage = .served i ∧ segment.next =
      { c with pictureTaken := true, pc := .join .picture (.leave i) }) ∨
    (∃ i, m = .passport ∧ stage = .served i ∧
      c.applicationAccepted = true ∧ c.pictureTaken = true ∧
      segment.next =
        { c with certified := true, pc := .join .passport (.leave i) }) ∨
    (∃ i, m = .cashier ∧ stage = .served i ∧ c.certified = true ∧
      segment.next = { c with done := true, pc := .join .cashier (.leave i) }) := by
  by_cases here : ∃ i, stage = .served i
  · obtain ⟨i, rfl⟩ := here
    cases m with
    | application =>
        cases step
        exact .inr (.inl ⟨i, rfl, rfl, rfl⟩)
    | picture =>
        cases step
        unfold pictureServed
        split
        · exact .inl ⟨_, by simp, by simp, rfl⟩
        · exact .inr (.inr (.inl ⟨i, rfl, rfl, rfl⟩))
    | passport =>
        cases step
        rcases passportServed_next i rand desks c with moves | ⟨accepted, taken, next⟩
        · exact .inl moves
        · exact .inr (.inr (.inr (.inl ⟨i, rfl, rfl, accepted, taken, next⟩)))
    | cashier =>
        cases step
        rcases cashierServed_next i rand desks c with moves | ⟨certified, next⟩
        · exact .inl moves
        · exact .inr (.inr (.inr (.inr ⟨i, rfl, rfl, certified, next⟩)))
  · have elsewhere : ∀ i, stage ≠ .served i := fun i same => here ⟨i, same⟩
    left
    cases m with
    | application => exact joinLine_next elsewhere step
    | picture =>
        have joined : joinLine .picture
            (fun desk => { desk with picturesTaken := false }) pictureServed
            numClerks rand pick desks c stage = some segment := step
        exact joinLine_next elsewhere joined
    | passport => exact joinLine_next elsewhere step
    | cashier => exact joinLine_next elsewhere step

theorem Sound.step {numClerks : Kind → Nat} {ssnCount : Int} {rand pick : Nat}
    {desks : Desks} {c : Client} {segment : Segment Client} (sound : c.Sound)
    (step : c.step numClerks ssnCount rand pick desks = some segment) :
    segment.next.Sound ∧ c.Below segment.next := by
  cases pc : c.pc with
  | create =>
      simp only [Client.step, pc] at step
      cases step
      rw [sound.create pc]
      constructor <;> constructor <;> simp [construct, fresh]
  | choose =>
      simp only [Client.step, pc] at step
      split at step
      · rename_i done
        cases step
        exact ⟨⟨sound.done, sound.certified, fun _ => done, by simp⟩,
          ⟨id, id, id, id⟩⟩
      · cases step
        refine ⟨⟨sound.done, sound.certified, ?_, ?_⟩, ⟨id, id, id, id⟩⟩ <;>
          cases c.chooseLine rand <;> simp
  | join m stage =>
      simp only [Client.step, pc] at step
      rcases joinLineOf_next step with ⟨pc', notCreate, notGone, next⟩ |
        ⟨i, -, -, next⟩ | ⟨i, -, -, next⟩ |
        ⟨i, -, -, accepted, taken, next⟩ | ⟨i, -, -, certified, next⟩
      · rw [next]
        exact ⟨⟨sound.done, sound.certified, fun gone => absurd gone notGone,
          fun create => absurd create notCreate⟩, ⟨id, id, id, id⟩⟩
      · rw [next]
        exact ⟨⟨sound.done, fun h => ⟨rfl, (sound.certified h).2⟩, by simp, by simp⟩,
          ⟨fun _ => rfl, id, id, id⟩⟩
      · rw [next]
        exact ⟨⟨sound.done, fun h => ⟨(sound.certified h).1, rfl⟩, by simp, by simp⟩,
          ⟨id, fun _ => rfl, id, id⟩⟩
      · rw [next]
        exact ⟨⟨fun _ => rfl, fun _ => ⟨accepted, taken⟩, by simp, by simp⟩,
          ⟨id, id, fun _ => rfl, id⟩⟩
      · rw [next]
        exact ⟨⟨fun _ => certified, sound.certified, by simp, by simp⟩,
          ⟨id, id, id, fun _ => rfl⟩⟩
  | leaving =>
      simp only [Client.step, pc] at step
      cases step
      exact ⟨⟨sound.done, sound.certified, by simp, by simp⟩, ⟨id, id, id, id⟩⟩
  | gone =>
      simp only [Client.step, pc] at step
      cases step

theorem fresh_sound : Client.fresh.Sound where
  done := by simp [fresh, construct]
  certified := by simp [fresh, construct]
  gone := by simp [fresh, construct]
  create _ := rfl

end Client

/-! ### Whole runs -/

/-- The flags along a run of one customer. -/
theorem client_exec {c c' : Client} {seen : List Surroundings} (sound : c.Sound)
    (run : clientMachine.exec c seen = some c') : c'.Sound ∧ c.Below c' := by
  induction seen generalizing c with
  | nil =>
      cases run
      exact ⟨sound, ⟨id, id, id, id⟩⟩
  | cons first seen inductionHypothesis =>
      obtain ⟨next, step, rest⟩ := (Lib.Machine.exec_cons_eq_some _).mp run
      obtain ⟨segment, stepped, rfl⟩ := Option.map_eq_some_iff.mp step
      obtain ⟨sound', below⟩ := sound.step stepped
      obtain ⟨sound'', below'⟩ := inductionHypothesis sound' rest
      exact ⟨sound'', ⟨fun h => below'.applicationAccepted (below.applicationAccepted h),
        fun h => below'.pictureTaken (below.pictureTaken h),
        fun h => below'.certified (below.certified h),
        fun h => below'.done (below.done h)⟩⟩

/-- A segment of thread `who` concerns customer `n` only if it is his. -/
theorem program_clients {setup : Setup} {rand pick : Nat} {office after : Office}
    {who : Who} {call : Option Call}
    (ran : office.program setup rand pick who = some (after, call)) (n : Nat) :
    after.clients n = office.clients n ∨
    ∃ segment, who = .customer n ∧
      (office.clients n).step setup.numClerks (office.createCustomer n) rand pick
        office.desks = some segment ∧ after.clients n = segment.next := by
  cases who with
  | main =>
      simp only [program] at ran
      split at ran <;> cases ran <;> exact .inl rfl
  | clerk m i =>
      cases ran
      exact .inl rfl
  | manager =>
      cases ran
      exact .inl rfl
  | senator i =>
      cases ran
      exact .inl rfl
  | customer i =>
      obtain ⟨segment, stepped, same⟩ := Option.map_eq_some_iff.mp ran
      cases same
      by_cases this : n = i
      · subst this
        exact .inr ⟨segment, rfl, stepped, by simp⟩
      · exact .inl (by simp [this])

/-- In every office run each customer makes a run of its own. -/
theorem client_exec_of_office {setup : Setup} {d : Discipline}
    {office office' : Office} {moves : List Move} (n : Nat)
    (run : (officeMachine setup d).exec office moves = some office') :
    ∃ seen, clientMachine.exec (office.clients n) seen =
      some (office'.clients n) := by
  have simulates : ∀ (before : Office) (move : Move) (after : Office),
      before.step setup d move = some after →
      after.clients n = before.clients n ∨
        ∃ seen, clientMachine.step (before.clients n) seen = some (after.clients n) := by
    intro before move after step
    rcases step_cases step with ⟨rand, pick, mid, call, -, -, ran, ends⟩ |
      ⟨action, kernel, -, -, -, rfl⟩
    · have clients : after.clients = mid.clients := by
        rcases ends with ⟨-, rfl⟩ | ⟨op, kernel, -, -, rfl⟩ <;> rfl
      rw [clients]
      rcases program_clients ran n with same | ⟨segment, -, stepped, next⟩
      · exact .inl same
      · refine .inr ⟨⟨setup.numClerks, before.createCustomer n, rand, pick,
          before.desks⟩, ?_⟩
        simp [clientMachine, stepped, next]
    · exact .inl rfl
  exact Lib.Machine.exec_of_simulation simulates run

/-- For every run of a customer in any surroundings, and so in every office
run: `done` rests on `certified`, which rests on `applicationAccepted` and
`pictureTaken`; no flag is taken back; and the loop ends with all four set. -/
theorem customer_progress :
    (∀ (seen : List Surroundings) (c : Client),
      clientMachine.exec .fresh seen = some c →
      (c.done = true → c.certified = true) ∧
      (c.certified = true →
        c.applicationAccepted = true ∧ c.pictureTaken = true) ∧
      (c.pc = .gone → c.applicationAccepted = true ∧ c.pictureTaken = true ∧
        c.certified = true ∧ c.done = true) ∧
      ∀ later c', clientMachine.exec c later = some c' → c.Below c') ∧
    (∀ (setup : Setup) (d : Discipline) (moves later : List Move)
      (office office' : Office) (n : Nat),
      (officeMachine setup d).exec (boot setup) moves = some office →
      (officeMachine setup d).exec office later = some office' →
      ∃ seen seenLater,
        clientMachine.exec .fresh seen = some (office.clients n) ∧
        clientMachine.exec (office.clients n) seenLater =
          some (office'.clients n)) := by
  refine ⟨fun seen c run => ?_, fun setup d moves later office office' n run after => ?_⟩
  · have sound := (client_exec Client.fresh_sound run).1
    refine ⟨sound.done, sound.certified, fun gone => ?_,
      fun later c' continued => (client_exec sound continued).2⟩
    have done := sound.gone gone
    have certified := sound.done done
    obtain ⟨accepted, taken⟩ := sound.certified certified
    exact ⟨accepted, taken, certified, done⟩
  · obtain ⟨seen, first⟩ := client_exec_of_office n run
    obtain ⟨seenLater, second⟩ := client_exec_of_office n after
    exact ⟨seen, seenLater, first, second⟩

end Nachos.Office
