/-
Module: Nachos.Office.Waiting
Purpose: Who is in which line of the office.  A customer is in a line from the
  point where it pushes its SSN until it is served; one that walks up to an
  idle clerk is in none.  The customers of a line as a list, and what a segment
  does to it.
Trusted boundary: none
Main exports: queuedIn, InLine, Registered, Members, Client.LineChange,
  Members.afterClient, Members.afterClerk
-/
import Nachos.Office.Segments

namespace Nachos.Office

open LockName CvName

/-! ### Lines and logs -/

/-- The line that a customer has got in since it last chose one. -/
def queuedIn (ssn : Int) : List Remark → Option (Kind × Nat)
  | [] => none
  | .queues ssn' m i :: earlier =>
      if ssn' = ssn then some (m, i) else queuedIn ssn earlier
  | .joins ssn' _ _ :: earlier => if ssn' = ssn then none else queuedIn ssn earlier
  | _ :: earlier => queuedIn ssn earlier

/-- The remark is about a choice of this customer. -/
def Remark.Concerns (ssn : Int) : Remark → Prop
  | .queues ssn' _ _ | .joins ssn' _ _ => ssn' = ssn
  | _ => False

theorem queuedIn_append {ssn : Int} {remarks : List Remark} (log : List Remark)
    (others : ∀ remark ∈ remarks, ¬ remark.Concerns ssn) :
    queuedIn ssn (remarks ++ log) = queuedIn ssn log := by
  induction remarks with
  | nil => rfl
  | cons remark remarks inductionHypothesis =>
      have rest := inductionHypothesis fun r member => others r (by simp [member])
      have first := others remark (by simp)
      cases remark with
      | queues ssn' m i | joins ssn' m i =>
          rw [List.cons_append, queuedIn, if_neg (by simpa [Remark.Concerns] using first)]
          exact rest
      | _ => exact rest

namespace Client

/-- The customer has chosen line `i` of monitor `m` and has not been served. -/
def AtLine (m : Kind) (i : Nat) (c : Client) : Prop :=
  match c.pc with
  | .join m' (.take i') | .join m' (.lock i') | .join m' (.greet i')
  | .join m' (.await i') | .join m' (.served i') => m' = m ∧ i' = i
  | _ => False

/-- The customer has got in line `i` of monitor `m` and has not been served. -/
def InLine (log : List Remark) (m : Kind) (i : Nat) (c : Client) : Prop :=
  c.AtLine m i ∧ queuedIn c.ssn log = some (m, i)

instance (m : Kind) (i : Nat) (c : Client) : Decidable (c.AtLine m i) := by
  unfold AtLine
  split <;> infer_instance

instance (log : List Remark) (m : Kind) (i : Nat) (c : Client) :
    Decidable (c.InLine log m i) :=
  inferInstanceAs (Decidable (_ ∧ _))

end Client

/-- Customer `n` has got in line `i` of monitor `m` and has not been served. -/
def InLine (office : Office) (m : Kind) (i n : Nat) : Prop :=
  (office.clients n).InLine office.log m i

instance (office : Office) (m : Kind) (i n : Nat) : Decidable (office.InLine m i n) :=
  inferInstanceAs (Decidable (Client.InLine _ _ _ _))

/-- The customers that are in line `i` of monitor `m`, each once. -/
structure Members (office : Office) (m : Kind) (i : Nat) (waiting : List Nat) : Prop where
  once : waiting.Nodup
  mem_iff : ∀ n, n ∈ waiting ↔ office.InLine m i n

/-! ### Customers have numbers of their own -/

namespace Client.Does

variable {numClerks : Kind → Nat} {ssnCount : Int} {rand pick : Nat} {desks : Desks}
variable {c : Client} {segment : Segment Client}

theorem started (does : c.Does numClerks ssnCount rand pick desks segment) :
    segment.next.pc ≠ .create := by
  cases does <;> simp [construct]

theorem ssn_eq (does : c.Does numClerks ssnCount rand pick desks segment) :
    segment.next.ssn = if c.pc = .create then ssnCount else c.ssn := by
  cases does with
  | create pc => simp [construct, pc]
  | served m i pc satisfied => cases m <;> simp [stamp, pc]
  | finish pc | choose _ pc | pass pc | leaving pc | enter _ pc | queueUp _ _ pc
  | walkUp _ _ pc | take _ _ pc | lock _ _ pc | greet _ _ pc | await _ _ pc | retake _ pc
  | tooSoon _ _ _ pc | yield _ _ _ pc | goodbye _ _ pc | leave _ _ pc => simp [pc]

/-- A customer speaks of its own choices. -/
theorem concerns (does : c.Does numClerks ssnCount rand pick desks segment)
    {remark : Remark} (member : remark ∈ segment.remarks) {ssn : Int}
    (concerns : remark.Concerns ssn) : c.ssn = ssn ∧ c.pc ≠ .create := by
  have silent : ∀ {α : Type} (queue : List α), ∀ r ∈ accessed queue, r = .emptyAccess := by
    intro α queue
    cases queue <;> simp [accessed]
  have quiet : ∀ m i, ∀ r ∈ (quit m (desks m i)).2, r = .emptyAccess := by
    intro m i r popped
    cases m with
    | application | picture => exact silent _ r popped
    | passport | cashier => exact (List.mem_append.mp popped).elim (silent _ r) (silent _ r)
  cases does with
  | queueUp m i pc smallest busy =>
      rcases List.mem_pair.mp member with rfl | rfl <;>
        exact ⟨concerns, by simp [pc]⟩
  | walkUp m i pc smallest idle =>
      obtain rfl := List.mem_singleton.mp member
      exact ⟨concerns, by simp [pc]⟩
  | served m i pc satisfied =>
      rcases List.mem_append.mp member with recorded | popped
      · unfold Client.recorded at recorded
        split at recorded
        · cases recorded
        · obtain rfl := List.mem_singleton.mp recorded
          exact concerns.elim
      · obtain rfl := quiet m i remark popped
        exact concerns.elim
  | tooSoon m i n pc checked unsatisfied =>
      obtain rfl := quiet m i remark member
      exact concerns.elim
  | leaving pc =>
      obtain rfl := List.mem_singleton.mp member
      exact concerns.elim
  | _ => cases member

end Client.Does

/-- The SSNs that have been given out are different. -/
structure Registered (office : Office) : Prop where
  bound : ∀ n, (office.clients n).pc ≠ .create →
    (office.clients n).ssn ≤ office.ssnCount
  distinct : ∀ n n', (office.clients n).pc ≠ .create →
    (office.clients n').pc ≠ .create →
    (office.clients n).ssn = (office.clients n').ssn → n = n'

theorem boot_registered (setup : Setup) : (boot setup).Registered where
  bound _ created := absurd rfl created
  distinct _ _ created := absurd rfl created

section

variable {setup : Setup} {office : Office} {n rand pick : Nat} {segment : Segment Client}

theorem afterClient_self (office : Office) (n : Nat) (segment : Segment Client) :
    (office.afterClient n segment).clients n = segment.next := by
  simp

theorem afterClient_other (office : Office) {n n' : Nat} (segment : Segment Client)
    (other : n' ≠ n) :
    (office.afterClient n segment).clients n' = office.clients n' := by
  simp [other]

theorem le_createCustomer (office : Office) (n : Nat) :
    office.ssnCount ≤ office.createCustomer n := by
  unfold createCustomer
  split
  · omega
  · exact Int.le_refl _

/-- The customer that runs has a number of its own. -/
theorem Registered.newest {n' : Nat} {own : Int} (registered : office.Registered)
    (ssn : own = if (office.clients n).pc = .create then office.createCustomer n
      else (office.clients n).ssn)
    (started : (office.clients n').pc ≠ .create)
    (equal : own = (office.clients n').ssn) : n = n' := by
  rw [ssn] at equal
  split at equal
  · rename_i create
    have bound := registered.bound n' started
    rw [← equal, createCustomer, if_pos create] at bound
    omega
  · rename_i started'
    exact registered.distinct n n' started' started equal

theorem Registered.afterClient (registered : office.Registered)
    (does : (office.clients n).Does setup.numClerks (office.createCustomer n) rand pick
      office.desks segment) : (office.afterClient n segment).Registered where
  bound n' started := by
    rw [afterClient_ssnCount]
    by_cases same : n' = n
    · subst same
      rw [afterClient_self, does.ssn_eq]
      split
      · exact Int.le_refl _
      · rename_i created
        exact Int.le_trans (registered.bound n' created) (le_createCustomer office n')
    · rw [office.afterClient_other segment same] at started ⊢
      exact Int.le_trans (registered.bound n' started) (le_createCustomer office n)
  distinct n₁ n₂ started₁ started₂ equal := by
    by_cases same₁ : n₁ = n
    · by_cases same₂ : n₂ = n
      · rw [same₁, same₂]
      · subst same₁
        rw [office.afterClient_other segment same₂] at started₂ equal
        rw [afterClient_self] at equal
        exact registered.newest does.ssn_eq started₂ equal
    · rw [office.afterClient_other segment same₁] at started₁ equal
      by_cases same₂ : n₂ = n
      · subst same₂
        rw [afterClient_self] at equal
        exact (registered.newest does.ssn_eq started₁ equal.symm).symm
      · rw [office.afterClient_other segment same₂] at started₂ equal
        exact registered.distinct n₁ n₂ started₁ started₂ equal

end

/-! ### What a segment does to a line -/

/-- The line of a desk is as it was. -/
structure Desk.SameLine (desk desk' : Desk) : Prop where
  clientSSNs : desk'.clientSSNs = desk.clientSSNs
  reqs : desk'.reqs = desk.reqs
  count : desk'.clerkLineCount = desk.clerkLineCount

theorem Desk.SameLine.of_eq {desk desk' : Desk} (same : desk' = desk) :
    desk.SameLine desk' := by
  subst same
  exact ⟨rfl, rfl, rfl⟩

/-- A desk is set without touching its line. -/
theorem Desks.set_sameLine {desks : Desks} {m : Kind} {i : Nat} {desk : Desk}
    (sameLine : (desks m i).SameLine desk) (m' : Kind) (i' : Nat) :
    (desks m' i').SameLine (desks.set m i desk m' i') := by
  by_cases same : m' = m ∧ i' = i
  · obtain ⟨rfl, rfl⟩ := same
    rwa [Desks.set_self]
  · exact .of_eq (Desks.set_of_ne same)

namespace Client

/-- What a segment of a customer can do to line `i` of monitor `m`. -/
inductive LineChange (m : Kind) (i : Nat) (desks : Desks) (c : Client)
    (segment : Segment Client) : Prop where
  /-- the customer gets in line -/
  | queues (pc : c.pc = .join m .look)
      (next : segment.next = { c with pc := .join m (.take i) })
      (desk : segment.desks m i = c.queueUp m (desks m i))
      (call : segment.call = some (.wait (clerkLineCV m i) (some (monitorLock m))))
      (remarks : segment.remarks = [.queues c.ssn m i, .joins c.ssn m i])
  /-- the customer is served -/
  | quits (pc : c.pc = .join m (.served i)) (gone : ∀ m' i', ¬ segment.next.AtLine m' i')
      (desk : segment.desks m i = (quit m (desks m i)).1)
  /-- nobody comes or goes -/
  | keeps (sameLine : (desks m i).SameLine (segment.desks m i))
      (same : ∀ log, segment.next.InLine (segment.remarks ++ log) m i ↔ c.InLine log m i)

section

variable {numClerks : Kind → Nat} {ssnCount : Int} {rand pick : Nat} {desks : Desks}
variable {c next : Client} {segment : Segment Client} {m m' : Kind} {i i' : Nat}

/-- A segment between two points at which the customer is not in this line. -/
theorem LineChange.outside {desks' : Desks} {call : Option Call} {remarks : List Remark}
    (sameLine : (desks m i).SameLine (desks' m i)) (before : ¬ c.AtLine m i)
    (after : ¬ next.AtLine m i) : LineChange m i desks c ⟨next, desks', call, remarks⟩ :=
  .keeps sameLine fun _ =>
    ⟨fun inLine => absurd inLine.1 after, fun inLine => absurd inLine.1 before⟩

/-- A segment on the way from a line to its counter. -/
theorem LineChange.within {desks' : Desks} {call : Option Call} {stage : Stage}
    (sameLine : (desks m i).SameLine (desks' m i))
    (same : AtLine m i { c with pc := .join m' stage } ↔ c.AtLine m i) :
    LineChange m i desks c ⟨{ c with pc := .join m' stage }, desks', call, []⟩ :=
  .keeps sameLine fun _ => and_congr_left' same

/-- A customer is served at its counter. -/
theorem LineChange.quit {call : Option Call} {remarks : List Remark}
    (pc : c.pc = .join m' (.served i')) (gone : ∀ m i, ¬ next.AtLine m i) :
    LineChange m i desks c
      ⟨next, desks.set m' i' (Client.quit m' (desks m' i')).1, call, remarks⟩ := by
  by_cases same : m = m' ∧ i = i'
  · obtain ⟨rfl, rfl⟩ := same
    exact .quits pc gone (Desks.set_self ..)
  · refine .outside (.of_eq (Desks.set_of_ne same)) ?_ (gone m i)
    simp only [AtLine, pc]
    rintro ⟨rfl, rfl⟩
    exact same ⟨rfl, rfl⟩

theorem Does.lineChange (does : c.Does numClerks ssnCount rand pick desks segment)
    (m : Kind) (i : Nat) : LineChange m i desks c segment := by
  have untouched : (desks m i).SameLine (desks m i) := .of_eq rfl
  cases does with
  | create pc | finish pc | choose _ pc | pass pc | leaving pc =>
      exact .outside untouched (by simp [AtLine, pc]) (by simp [AtLine, construct])
  | enter _ pc | yield _ _ _ pc | goodbye _ _ pc | leave _ _ pc =>
      exact .outside untouched (by simp [AtLine, pc]) (by simp [AtLine])
  | queueUp m' i' pc smallest busy =>
      by_cases same : m = m' ∧ i = i'
      · obtain ⟨rfl, rfl⟩ := same
        exact .queues pc rfl (Desks.set_self ..) rfl rfl
      · refine .outside (.of_eq (Desks.set_of_ne same)) (by simp [AtLine, pc]) ?_
        rintro ⟨rfl, rfl⟩
        exact same ⟨rfl, rfl⟩
  | walkUp m' i' pc smallest idle =>
      refine .keeps untouched fun log => ⟨fun inLine => ?_, fun inLine => ?_⟩
      · have nobody := inLine.2
        simp [queuedIn] at nobody
      · have atLine := inLine.1
        simp [AtLine, pc] at atLine
  | take m' i' pc =>
      exact .within (Desks.set_sameLine (by exact ⟨rfl, rfl, rfl⟩) m i) (by simp [AtLine, pc])
  | greet m' i' pc =>
      have arrives : (desks m' i').SameLine (arrive m' (desks m' i')) := by
        cases m' <;> exact ⟨rfl, rfl, rfl⟩
      exact .within (Desks.set_sameLine arrives m i) (by simp [AtLine, pc])
  | lock m' i' pc | await m' i' pc => exact .within untouched (by simp [AtLine, pc])
  | retake i' pc dislikes => exact .within untouched (by simp [AtLine, pc])
  | served m' i' pc satisfied => exact .quit pc (by simp [AtLine])
  | tooSoon m' i' n pc checked unsatisfied => exact .quit pc (by simp [AtLine])

end

end Client

/-- What a clerk does to any line: nothing. -/
theorem Clerk.Does.sameLine {m : Kind} {clerkID pick : Nat} {desks : Desks}
    {clerk : Clerk} {segment : Segment Clerk}
    (does : clerk.Does m clerkID pick desks segment) (m' : Kind) (i : Nat) :
    (desks m' i).SameLine (segment.desks m' i) := by
  have state : ∀ state, (desks m clerk.myLine).SameLine
      { desks m clerk.myLine with clerkState := state } := fun _ => ⟨rfl, rfl, rfl⟩
  cases does with
  | goOnBreak pc nobody other => exact Desks.set_sameLine (state .onBreak) m' i
  | goOnPictureBreak pc nobody picture => exact Desks.set_sameLine (state .onBreak) m' i
  | markBusy pc => exact Desks.set_sameLine (state .busy) m' i
  | _ => exact .of_eq rfl

/-- A clerk makes no choices. -/
theorem Clerk.Does.concerns {m : Kind} {clerkID pick : Nat} {desks : Desks}
    {clerk : Clerk} {segment : Segment Clerk}
    (does : clerk.Does m clerkID pick desks segment) (ssn : Int) :
    ∀ remark ∈ segment.remarks, ¬ remark.Concerns ssn := by
  have silent : ∀ {α : Type} (queue : List α), ∀ r ∈ accessed queue, ¬ r.Concerns ssn := by
    intro α queue
    cases queue <;> simp [accessed, Remark.Concerns]
  have quiet : ∀ desk, ∀ r ∈ (test m desk).2, ¬ r.Concerns ssn := by
    intro desk r member
    cases m with
    | application | picture => cases member
    | passport =>
        simp only [test, lacksReqs] at member
        split at member
        · exact silent _ r member
        · exact (List.mem_append.mp member).elim (silent _ r) (silent _ r)
    | cashier =>
        refine (List.mem_append.mp member).elim (fun member => ?_) (silent _ r)
        simp only [isCertified] at member
        split at member
        · exact silent _ r member
        · exact (List.mem_append.mp member).elim (silent _ r) (silent _ r)
  cases does with
  | callCustomer pc filled => exact silent _
  | startWork n pc passes => exact quiet _
  | refuse pc checked fails => exact quiet _
  | finishWork pc other =>
      intro remark member
      obtain rfl := List.mem_singleton.mp member
      exact id
  | _ => simp

/-! ### The customers of a line -/

namespace Members

variable {setup : Setup} {office : Office} {m : Kind} {i n rand pick : Nat}
variable {waiting : List Nat}

theorem boot (setup : Setup) (m : Kind) (i : Nat) : (boot setup).Members m i [] where
  once := List.nodup_nil
  mem_iff n := by simp [InLine, Client.InLine, Client.AtLine, Office.boot, Client.fresh]

/-- Customers whose places and choices are the same. -/
theorem congr {office' : Office} (members : office.Members m i waiting)
    (same : ∀ n, office'.InLine m i n ↔ office.InLine m i n) :
    office'.Members m i waiting where
  once := members.once
  mem_iff n := (members.mem_iff n).trans (same n).symm

theorem of_kernel (members : office.Members m i waiting)
    (kernel : Kernel Who Empty LockName CvName) :
    Members { office with kernel := kernel } m i waiting :=
  members.congr fun _ => Iff.rfl

/-- A customer that has chosen a line has started. -/
theorem started_of_inLine (inLine : office.InLine m i n) :
    (office.clients n).pc ≠ .create := by
  intro pc
  simp [InLine, Client.InLine, Client.AtLine, pc] at inLine

/-- A segment of another customer. -/
theorem inLine_other {segment : Segment Client} (registered : office.Registered)
    (does : (office.clients n).Does setup.numClerks (office.createCustomer n) rand pick
      office.desks segment) {n' : Nat} (other : n' ≠ n) :
    (office.afterClient n segment).InLine m i n' ↔ office.InLine m i n' := by
  unfold InLine Client.InLine
  rw [office.afterClient_other segment other, afterClient_log]
  by_cases created : (office.clients n').pc = .create
  · simp [Client.AtLine, created]
  · rw [queuedIn_append]
    intro remark member concerns
    obtain ⟨same, started⟩ := does.concerns member concerns
    exact other (registered.distinct n' n created started same.symm)

section

variable {segment : Segment Client} (members : office.Members m i waiting)
variable (registered : office.Registered)
variable (does : (office.clients n).Does setup.numClerks (office.createCustomer n) rand pick
  office.desks segment)

include members registered does

/-- Customer `n` has got in line. -/
theorem queues (before : ¬ office.InLine m i n)
    (after : (office.afterClient n segment).InLine m i n) :
    (office.afterClient n segment).Members m i (waiting ++ [n]) where
  once := by
    have absent : n ∉ waiting := fun member => before ((members.mem_iff n).mp member)
    simpa [List.nodup_append] using ⟨members.once, fun n' member same => absent (same ▸ member)⟩
  mem_iff n' := by
    rw [List.mem_append, List.mem_singleton]
    by_cases same : n' = n
    · subst same
      simp [after]
    · simp [same, inLine_other registered does same, members.mem_iff n']

/-- Customer `n` has been served. -/
theorem quits (after : ¬ (office.afterClient n segment).InLine m i n) :
    (office.afterClient n segment).Members m i (waiting.erase n) where
  once := members.once.erase n
  mem_iff n' := by
    rw [members.once.mem_erase_iff]
    by_cases same : n' = n
    · subst same
      simp [after]
    · simp [same, inLine_other registered does same, members.mem_iff n']

/-- Customer `n` has neither come nor gone. -/
theorem keeps (same : (office.afterClient n segment).InLine m i n ↔ office.InLine m i n) :
    (office.afterClient n segment).Members m i waiting :=
  members.congr fun n' => by
    by_cases self : n' = n
    · rwa [self]
    · exact inLine_other registered does self

end

/-- A segment of a clerk. -/
theorem afterClerk {m' : Kind} {k : Nat} {segment : Segment Clerk}
    (members : office.Members m i waiting)
    (does : (office.clerks m' k).Does m' (office.clerkID m') pick office.desks segment) :
    (office.afterClerk m' k segment).Members m i waiting :=
  members.congr fun n => by
    unfold InLine Client.InLine
    rw [afterClerk_log, queuedIn_append _ (does.concerns _)]
    exact Iff.rfl

end Members

end Nachos.Office
