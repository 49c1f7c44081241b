/-
Module: Nachos.Threads.SynchDevice
Purpose: The synchronous interfaces to the asynchronous devices on top of the
  thread system: SynchDisk of synchdisk.cc and SynchConsole::WriteLine of
  synchconsole.cc.  A call takes the lock, makes its requests, each followed by
  the P that waits for the completion interrupt, and releases the lock.  As long
  as no thread is resumed out of the Sleep of Acquire, all calls together answer
  like calls made one after another.
Trusted boundary: a device does what a request says when the request is made; its
  completion interrupt comes once, later; the debugging text that `Acquire` and
  `Release` take, and that these calls leave out, changes nothing
Main exports: Peripheral, SynchPc, SynchDevice, SynchMove, SynchDevice.step,
  synchDeviceMachine, readSector, writeSector, writeLine, SynchDevice.Serial,
  SynchDevice.writeLine_apart, synchDevice_serial
-/
import Nachos.FileSys.OpenFile
import Nachos.Lib.Answers
import Nachos.Threads.Exclusion
import Nachos.Threads.Takers

namespace Nachos

open Lib

variable {T S L C Q A σ : Type}
variable [DecidableEq T] [DecidableEq S] [DecidableEq L] [DecidableEq C]

/-! ### Data model -/

/-- What a device does when a request is made: the assertions on the request, and
its answer and effect. -/
structure Peripheral (Q A σ : Type) where
  Accepts : Q → Bool
  perform : σ → Q → A × σ

/-- Where a thread is in a call of the interface. -/
inductive SynchPc (Q A : Type) where
  | outside
  /-- in `lock->Acquire` or back from it -/
  | acquiring (job : List Q)
  /-- in `semaphore->P` or back from it, with the answers to the requests made and
  the requests that are left -/
  | waiting (made : List (Q × A)) (job : List Q)
deriving DecidableEq, Repr

/-- The interface, its threads and the thread system. -/
structure SynchDevice (T S L C Q A σ : Type) where
  kernel : Kernel T S L C
  device : σ
  /-- `active` of the disk, `putBusy` of the console -/
  active : Bool
  pc : T → SynchPc Q A
  /-- an assertion of the device has failed -/
  failed : Bool
  /-- every call that has come to its `Release`, the first one first, with its
  requests and their answers; no routine reads it -/
  finished : List (T × List (Q × A))

/-- What can happen next. -/
inductive SynchMove (T S L C Q : Type) where
  /-- the running thread calls the interface, for these requests -/
  | begin (job : List Q)
  /-- the running thread goes on in its call -/
  | proceed
  /-- the completion interrupt -/
  | interrupt
  /-- the running thread calls something else -/
  | other (op : Op T S L C)
  /-- a step of the thread system that is not a call -/
  | system (action : Action T S L C)
deriving DecidableEq, Repr

/-- The call is one of the lock or of the semaphore. -/
def Op.Touches (lock : L) (semaphore : S) : Op T S L C → Bool
  | .p s | .v s => s = semaphore
  | .acquire l | .release l | .wait _ (some l) => l = lock
  | _ => false

/-- The step belongs to the threads, or is an interrupt that calls the semaphore. -/
def Action.Touches (semaphore : S) : Action T S L C → Bool
  | .call _ => true
  | .handlerV s | .handlerP s => s = semaphore
  | _ => false

namespace SynchDevice

/-- The running thread calls a routine of the thread system, `after` being what
becomes of the interface meanwhile. -/
def call (d : Discipline) (op : Op T S L C) (s : SynchDevice T S L C Q A σ)
    (after : Kernel T S L C → SynchDevice T S L C Q A σ) :
    Option (SynchDevice T S L C Q A σ) :=
  (s.kernel.step d (.call op)).map after

/-- The running thread is at the given place. -/
def setPc (pc : SynchPc Q A) (s : SynchDevice T S L C Q A σ) : T → SynchPc Q A :=
  Function.update s.pc s.kernel.currentThread pc

variable (device : Peripheral Q A σ) (lock : L) (semaphore : S) (d : Discipline)

/-- The rest of a call of the interface: a request and `semaphore->P`, or
`lock->Release` when no request is left. -/
def transfer (made : List (Q × A)) : List Q → SynchDevice T S L C Q A σ →
    Option (SynchDevice T S L C Q A σ)
  | [], s =>
      s.call d (.release lock) fun k =>
        { s with
          kernel := k
          pc := s.setPc .outside
          finished := s.finished ++ [(s.kernel.currentThread, made)] }
  | request :: job, s =>
      -- `ASSERT(!active)` and those of the request
      if s.active = true ∨ device.Accepts request = false then
        if s.kernel.phase = .running then some { s with failed := true } else none
      else
        let (answer, after) := device.perform s.device request
        s.call d (.p semaphore) fun k =>
          { s with
            kernel := k
            device := after
            active := true
            pc := s.setPc (.waiting (made ++ [(request, answer)]) job) }

/-- One step.  The lock and the semaphore are private members, so that nobody else
calls anything on them; a failed assertion ends the program. -/
def step (s : SynchDevice T S L C Q A σ) (move : SynchMove T S L C Q) :
    Option (SynchDevice T S L C Q A σ) :=
  if s.failed then none
  else
    match move, s.pc s.kernel.currentThread with
    | .begin job, .outside =>
        s.call d (.acquire lock) fun k =>
          { s with kernel := k, pc := s.setPc (.acquiring job) }
    | .proceed, .acquiring job => s.transfer device lock semaphore d [] job
    | .proceed, .waiting made job => s.transfer device lock semaphore d made job
    | .interrupt, _ =>
        if s.active then
          (s.kernel.step d (.handlerV semaphore)).map fun k =>
            { s with kernel := k, active := false }
        else none
    | .other op, .outside =>
        if op.Touches lock semaphore then none
        else s.call d op fun k => { s with kernel := k }
    | .system action, _ =>
        if action.Touches semaphore then none
        else (s.kernel.step d action).map fun k => { s with kernel := k }
    | _, _ => none

/-- The interface in a system that has just started. -/
def boot (main : T) (initialValue : S → Int) (lockMemory : L → Lock T)
    (conditionMemory : C → Condition T L) (initial : σ) : SynchDevice T S L C Q A σ where
  kernel := .boot main initialValue lockMemory conditionMemory
  device := initial
  active := false
  pc := fun _ => .outside
  failed := false
  finished := []

end SynchDevice

/-- A synchronous interface and its threads as a machine. -/
def synchDeviceMachine (device : Peripheral Q A σ) (lock : L) (semaphore : S)
    (d : Discipline) : Lib.Machine (SynchDevice T S L C Q A σ) (SynchMove T S L C Q) where
  step := SynchDevice.step device lock semaphore d

/-! ### The disk and the console -/

/-- The requests of disk.cc. -/
inductive DiskRequest where
  | readRequest (sectorNumber : Int)
  | writeRequest (sectorNumber : Int) (data : Memory)

/-- `Disk::ReadRequest` and `Disk::WriteRequest`; the answer is what a read finds. -/
def diskPeripheral : Peripheral DiskRequest (Option Memory) Disk where
  Accepts
    | .readRequest sectorNumber | .writeRequest sectorNumber _ =>
        0 ≤ sectorNumber && sectorNumber < numSectors
  perform disk
    | .readRequest sectorNumber => (some (disk sectorNumber), disk)
    | .writeRequest sectorNumber data => (none, disk.writeSector sectorNumber data 0)

/-- `SynchDisk::ReadSector`. -/
def SynchMove.readSector (sectorNumber : Int) : SynchMove T S L C DiskRequest :=
  .begin [.readRequest sectorNumber]

/-- `SynchDisk::WriteSector`. -/
def SynchMove.writeSector (sectorNumber : Int) (data : Memory) :
    SynchMove T S L C DiskRequest :=
  .begin [.writeRequest sectorNumber data]

/-- `Console::PutChar`. -/
def consolePeripheral : Peripheral Int Unit (List Int) where
  Accepts _ := true
  perform display ch := ((), display ++ [ch])

/-- `SynchConsole::WriteLine`. -/
def SynchMove.writeLine (line : List Int) : SynchMove T S L C Int :=
  .begin line

/-! ### The lock and the semaphore -/

namespace Kernel

/-- The state of the lock and of the semaphore while the threads of `entering` are
in a call before its first request and those of `holding` after it: the last have
the lock; one of them is in `P` while a request is active, and the interrupt of an
earlier request is not in the semaphore unless its thread has still to see it. -/
structure Served (lock : L) (semaphore : S) (active : Bool) (entering holding : T → Prop)
    (k : Kernel T S L C) : Prop extends k.Excluded lock entering holding where
  balanced : Balanced semaphore 0 k
  inP : ∀ t, pendingCall (k.stack t) = some (.p semaphore : Op T S L C) → holding t
  busy : active = true → (k.semaphores semaphore).value = 0 ∧
    ∃ t, pendingCall (k.stack t) = some (.p semaphore : Op T S L C)
  idle : active = false →
    ((k.semaphores semaphore).value = 0 ∧
      ∀ t, pendingCall (k.stack t) ≠ some (.p semaphore : Op T S L C)) ∨
    ((k.semaphores semaphore).value = 1 ∧
      ∃ t, pendingCall (k.stack t) = some (.p semaphore : Op T S L C))

namespace Served

variable {lock : L} {semaphore : S} {active : Bool} {entering holding : T → Prop}
variable {d : Discipline} {k k' : Kernel T S L C} {action : Action T S L C}

/-- A running thread that is in a call has the lock, and no request is active. -/
theorem of_running (served : k.Served lock semaphore active entering holding)
    (running : k.phase = .running)
    (inside : entering k.currentThread ∨ holding k.currentThread) :
    (k.locks lock).owner = some k.currentThread ∧ active = false ∧
      (k.semaphores semaphore).value = 0 := by
  have empty : k.stack k.currentThread = [] := (served.wf.awake (.inl running)).2
  have owner := served.owner running inside
  have nobody : ∀ t, pendingCall (k.stack t) ≠ some (.p semaphore : Op T S L C) := by
    intro t pending
    have same := served.alone running inside (served.inP t pending)
    simp [same, empty, pendingCall] at pending
  have quiet : active = false := by
    by_contra busy
    obtain ⟨-, t, pending⟩ := served.busy (by simpa using busy)
    exact nobody t pending
  refine ⟨owner, quiet, ?_⟩
  rcases served.idle quiet with ⟨value, -⟩ | ⟨-, t, pending⟩
  · exact value
  · exact absurd pending (nobody t)

/-- A thread comes to the call, or leaves it. -/
theorem of_places (served : k.Served lock semaphore active entering holding)
    {entering' holding' : T → Prop} (come : ∀ t, entering' t → k.Has lock t)
    (stay : ∀ t, holding' t → holding t)
    (inP : ∀ t, pendingCall (k.stack t) = some (.p semaphore : Op T S L C) → holding' t) :
    k.Served lock semaphore active entering' holding' :=
  { served with
    toExcluded := served.toExcluded.of_places come fun t holds => served.owns t (stay t holds)
    inP := inP }

theorem value_eq (balanced : Balanced semaphore 0 k) :
    (k.semaphores semaphore).value =
      k.completedV semaphore - k.completedP semaphore := by
  rw [balanced.value]
  omega

/-- A step that spares the semaphore, resumes no sleeper of the lock and releases the
lock for no thread in a call. -/
theorem step (served : k.Served lock semaphore active entering holding)
    (spares : action.Spares semaphore) (notWait : ∀ c, action ≠ .call (.wait c (some lock)))
    (asleep : ¬ k.ResumesSleeper lock action)
    (outside : action = .call (.release lock) →
      ¬ entering k.currentThread ∧ ¬ holding k.currentThread)
    (step : k.step d action = some k') :
    k'.Served lock semaphore active entering holding := by
  have before := value_eq served.balanced
  have balanced := served.balanced.step served.wf step
  have after := value_eq balanced
  have completedV := served.wf.completedV_of_step spares.2.1 spares.2.2.2 step
  have inP : ∀ t, pendingCall (k'.stack t) = some (.p semaphore : Op T S L C) →
      pendingCall (k.stack t) = some (.p semaphore : Op T S L C) := by
    intro t pending
    rcases served.wf.pending_of_step step pending with earlier | ⟨-, called⟩
    · exact earlier
    · exact absurd called spares.1
  refine
    { toExcluded := served.toExcluded.step notWait asleep outside step
      balanced := balanced
      inP := fun t pending => served.inP t (inP t pending)
      busy := ?_
      idle := ?_ }
  · intro busy
    obtain ⟨value, t, pending⟩ := served.busy busy
    rcases served.wf.completedP_of_step spares step with same | ⟨_, -, -, more⟩
    · exact ⟨by omega, t, (served.wf.pendingP_iff served.blank spares.1 step same t).mpr pending⟩
    · have nonneg := balanced.nonneg
      omega
  · intro quiet
    rcases served.wf.completedP_of_step spares step with same | ⟨t, frames, back, more⟩
    · have kept := served.wf.pendingP_iff served.blank spares.1 step same
      rcases served.idle quiet with ⟨value, nobody⟩ | ⟨value, t, pending⟩
      · exact .inl ⟨by omega, fun t => (kept t).not.mpr (nobody t)⟩
      · exact .inr ⟨by omega, t, (kept t).mpr pending⟩
    · -- the thread of the only request comes back from its `P`
      have pendingBefore : pendingCall (k.stack t) = some (.p semaphore : Op T S L C) :=
        pendingP_of_stack frames
      rcases served.idle quiet with ⟨-, nobody⟩ | ⟨value, -⟩
      · exact absurd pendingBefore (nobody t)
      · refine .inl ⟨by omega, fun t' pending => ?_⟩
        obtain rfl := served.holding_unique (served.inP t' (inP t' pending))
          (served.inP t pendingBefore)
        simp [back, pendingCall] at pending

/-- A running thread that has the lock makes a request and calls `P`. -/
theorem request (served : k.Served lock semaphore active entering holding)
    (inside : entering k.currentThread ∨ holding k.currentThread)
    (step : k.step d (.call (.p semaphore)) = some k') :
    k'.Served lock semaphore true (fun t => entering t ∧ t ≠ k.currentThread)
      (fun t => holding t ∨ t = k.currentThread) := by
  obtain ⟨running, poised, turn⟩ := served.wf.turn_of_call step (by simp)
  obtain ⟨owner, -, value⟩ := served.of_running running inside
  have empty : k.stack k.currentThread = [] := poised.stack
  have placed : k.Excluded lock (fun t => entering t ∧ t ≠ k.currentThread)
      fun t => holding t ∨ t = k.currentThread := by
    apply served.toExcluded.of_places
    · rintro t ⟨enters, -⟩
      exact served.has t enters
    · rintro t (holds | rfl)
      · exact served.owns t holds
      · exact owner
  have parked : k' = k.disable.park (.semaphore semaphore) (.inP semaphore .intOn) := by
    cases turn with
    | takeUnit s tests other =>
        cases tests
        exact absurd value other
    | parkUnit s tests value =>
        cases tests
        rfl
    | held l acquires => cases acquires
    | takeLock l acquires => cases acquires
    | returned l returns => cases returns
  have pending : pendingCall (k'.stack k.currentThread) =
      some (.p semaphore : Op T S L C) := by
    simp [parked, park, sleep, push, disable, empty, pendingCall]
  have valueSame : (k'.semaphores semaphore).value = 0 := by
    rw [parked, ← value]
    simp [park, sleep, push, disable, setQueue]
  exact
    { toExcluded := placed.step (by simp) (by simp [ResumesSleeper, nextThread]) (by simp) step
      balanced := served.balanced.step served.wf step
      inP := by
        intro t pending
        rcases served.wf.pending_of_step step pending with earlier | ⟨rfl, -⟩
        · exact .inl (served.inP t earlier)
        · exact .inr rfl
      busy := fun _ => ⟨valueSame, _, pending⟩
      idle := fun quiet => by cases quiet }

/-- The completion interrupt of the request. -/
theorem interrupt (served : k.Served lock semaphore true entering holding)
    (step : k.step d (.handlerV semaphore) = some k') :
    k'.Served lock semaphore false entering holding := by
  obtain ⟨value, t, pending⟩ := served.busy rfl
  obtain ⟨stack, completedP, completedV⟩ := served.wf.handlerV_effect step
  have more : (k'.semaphores semaphore).value = 1 := by
    have before := value_eq served.balanced
    have after := value_eq (served.balanced.step served.wf step)
    omega
  exact
    { toExcluded := served.toExcluded.step (by simp) (by simp [ResumesSleeper, nextThread])
        (by simp) step
      balanced := served.balanced.step served.wf step
      inP := fun t pending => served.inP t (stack ▸ pending)
      busy := fun busy => by cases busy
      idle := fun _ => .inr ⟨more, t, stack.symm ▸ pending⟩ }

end Served

end Kernel

/-! ### Calls one after another -/

/-- The requests that a thread has still to make. -/
def SynchPc.job : SynchPc Q A → List Q
  | .outside => []
  | .acquiring job | .waiting _ job => job

/-- The step resumes no thread out of the `Sleep` of `lock->Acquire`. -/
def SynchMove.SparesSleepers (lock : L) (s : SynchDevice T S L C Q A σ) :
    SynchMove T S L C Q → Prop
  | .other op => ¬ s.kernel.ResumesSleeper lock (.call op)
  | .system action => ¬ s.kernel.ResumesSleeper lock action
  | _ => True

instance (lock : L) (s : SynchDevice T S L C Q A σ) (move : SynchMove T S L C Q) :
    Decidable (move.SparesSleepers lock s) :=
  match move with
  | .other op => inferInstanceAs (Decidable (¬ s.kernel.ResumesSleeper lock (.call op)))
  | .system action => inferInstanceAs (Decidable (¬ s.kernel.ResumesSleeper lock action))
  | .begin _ | .proceed | .interrupt => isTrue trivial

/-- The requests of the call are ones that the device accepts. -/
def SynchMove.Valid (device : Peripheral Q A σ) : SynchMove T S L C Q → Prop
  | .begin job => ∀ request ∈ job, device.Accepts request = true
  | _ => True

namespace SynchDevice

/-- The call under way has made these requests. -/
def UnderWay (s : SynchDevice T S L C Q A σ) (made : List (Q × A)) : Prop :=
  (∃ t job, s.pc t = .waiting made job) ∨
    (made = [] ∧ ∀ t made' job, s.pc t ≠ .waiting made' job)

/-- The device has answered these requests one after another and nothing else. -/
def Answered (device : Peripheral Q A σ) (initial : σ) (s : SynchDevice T S L C Q A σ)
    (done : List (Q × A)) : Prop :=
  answers device.perform initial (done.map Prod.fst) = (done.map Prod.snd, s.device)

/-- The assertions hold, and the device has answered the finished calls one after
another, and then the call under way. -/
structure Serial (device : Peripheral Q A σ) (lock : L) (semaphore : S) (initial : σ)
    (s : SynchDevice T S L C Q A σ) : Prop where
  served : s.kernel.Served lock semaphore s.active (fun t => ∃ job, s.pc t = .acquiring job)
    fun t => ∃ made job, s.pc t = .waiting made job
  running : s.failed = false
  accepted : ∀ t, ∀ request ∈ (s.pc t).job, device.Accepts request = true
  serial : ∃ made, s.UnderWay made ∧
    s.Answered device initial (s.finished.flatMap Prod.snd ++ made)

section Steps

variable {device : Peripheral Q A σ} {lock : L} {semaphore : S} {initial : σ}
variable {d : Discipline} {s s' : SynchDevice T S L C Q A σ}

theorem call_eq_some {op : Op T S L C}
    {after : Kernel T S L C → SynchDevice T S L C Q A σ}
    (step : s.call d op after = some s') :
    ∃ k, s.kernel.step d (.call op) = some k ∧ s' = after k := by
  obtain ⟨k, kernelStep, rfl⟩ := Option.map_eq_some_iff.mp step
  exact ⟨k, kernelStep, rfl⟩

section

omit [DecidableEq S] [DecidableEq L] [DecidableEq C]

theorem setPc_self (pc : SynchPc Q A) : s.setPc pc s.kernel.currentThread = pc :=
  Function.update_self ..

theorem setPc_other (pc : SynchPc Q A) {t : T} (other : t ≠ s.kernel.currentThread) :
    s.setPc pc t = s.pc t :=
  Function.update_of_ne other ..

end

/-- A step of the thread system that is none of the calls of the interface. -/
theorem Serial.quiet (serial : s.Serial device lock semaphore initial)
    {action : Action T S L C} {k : Kernel T S L C} (spares : action.Spares semaphore)
    (notWait : ∀ c, action ≠ .call (.wait c (some lock)))
    (notRelease : action ≠ .call (.release lock))
    (asleep : ¬ s.kernel.ResumesSleeper lock action)
    (step : s.kernel.step d action = some k) :
    Serial device lock semaphore initial { s with kernel := k } :=
  ⟨serial.served.step spares notWait asleep (fun released => absurd released notRelease) step,
    serial.running, serial.accepted, serial.serial⟩

/-- A thread begins a call. -/
theorem Serial.begin (serial : s.Serial device lock semaphore initial)
    {job : List Q} {k : Kernel T S L C}
    (outside : s.pc s.kernel.currentThread = .outside)
    (valid : ∀ request ∈ job, device.Accepts request = true)
    (step : s.kernel.step d (.call (.acquire lock)) = some k) :
    Serial device lock semaphore initial
      { s with kernel := k, pc := s.setPc (.acquiring job) } := by
  have quiet := serial.served.step ⟨by simp, by simp, by simp, by simp⟩ (by simp)
    (by simp [Kernel.ResumesSleeper, Kernel.nextThread]) (by simp) step
  have waits : ∀ t made rest,
      s.setPc (.acquiring job) t = .waiting made rest ↔ s.pc t = .waiting made rest := by
    intro t made rest
    by_cases own : t = s.kernel.currentThread
    · simp [own, setPc_self, outside]
    · rw [setPc_other _ own]
  refine ⟨quiet.of_places ?_ ?_ ?_, serial.running, ?_, ?_⟩
  · rintro t ⟨rest, place⟩
    by_cases own : t = s.kernel.currentThread
    · rw [own]
      exact serial.served.wf.has_of_acquire step
    · exact quiet.has t ⟨rest, (setPc_other _ own).symm.trans place⟩
  · rintro t ⟨made, rest, place⟩
    exact ⟨made, rest, (waits t made rest).mp place⟩
  · intro t pending
    obtain ⟨made, rest, place⟩ := quiet.inP t pending
    exact ⟨made, rest, (waits t made rest).mpr place⟩
  · intro t
    by_cases own : t = s.kernel.currentThread
    · simpa [own, setPc_self, SynchPc.job] using valid
    · simpa [setPc_other _ own] using serial.accepted t
  · obtain ⟨made, underWay, answered⟩ := serial.serial
    refine ⟨made, ?_, answered⟩
    rcases underWay with ⟨t, rest, place⟩ | ⟨none, nobody⟩
    · exact .inl ⟨t, rest, (waits t made rest).mpr place⟩
    · exact .inr ⟨none, fun t made' rest place =>
        nobody t made' rest ((waits t made' rest).mp place)⟩

/-- The running thread is in a call, after these requests and before those. -/
inductive Inside (s : SynchDevice T S L C Q A σ) : List (Q × A) → List Q → Prop where
  | acquiring {job : List Q} (place : s.pc s.kernel.currentThread = .acquiring job) :
      Inside s [] job
  | waiting {made : List (Q × A)} {job : List Q}
      (place : s.pc s.kernel.currentThread = .waiting made job) : Inside s made job

section

omit [DecidableEq T] [DecidableEq S] [DecidableEq L] [DecidableEq C]

theorem Inside.job {made : List (Q × A)} {job : List Q} (inside : s.Inside made job) :
    (s.pc s.kernel.currentThread).job = job := by
  cases inside with
  | acquiring place => rw [place]; rfl
  | waiting place => rw [place]; rfl

theorem Inside.place {made : List (Q × A)} {job : List Q} (inside : s.Inside made job) :
    (∃ job, s.pc s.kernel.currentThread = .acquiring job) ∨
      ∃ made job, s.pc s.kernel.currentThread = .waiting made job := by
  cases inside with
  | acquiring place => exact .inl ⟨_, place⟩
  | waiting place => exact .inr ⟨_, _, place⟩

end

/-- While a thread goes on in its call no other one is past its `Acquire`. -/
theorem Serial.alone (serial : s.Serial device lock semaphore initial)
    {made : List (Q × A)} {job : List Q} (inside : s.Inside made job)
    (running : s.kernel.phase = .running) {t : T} {made' : List (Q × A)} {job' : List Q}
    (waits : s.pc t = .waiting made' job') : t = s.kernel.currentThread ∧ made' = made := by
  obtain ⟨owner, -, -⟩ := serial.served.of_running running inside.place
  obtain rfl := Option.some.inj ((serial.served.owns t ⟨made', job', waits⟩).symm.trans owner)
  refine ⟨rfl, ?_⟩
  cases inside with
  | acquiring place => cases place.symm.trans waits
  | waiting place => cases place.symm.trans waits; rfl

theorem Serial.underWay (serial : s.Serial device lock semaphore initial)
    {made : List (Q × A)} {job : List Q} (inside : s.Inside made job)
    (running : s.kernel.phase = .running) :
    s.Answered device initial (s.finished.flatMap Prod.snd ++ made) := by
  obtain ⟨made', underWay, answered⟩ := serial.serial
  rcases underWay with ⟨t, rest, waits⟩ | ⟨none, nobody⟩
  · rwa [(serial.alone inside running waits).2] at answered
  · cases inside with
    | acquiring place => rwa [none] at answered
    | waiting place => exact absurd place (nobody _ _ _)

section

omit [DecidableEq T] [DecidableEq S] [DecidableEq L] [DecidableEq C]

theorem Answered.snoc {done : List (Q × A)} (answered : s.Answered device initial done)
    (request : Q) :
    answers device.perform initial
        ((done ++ [(request, (device.perform s.device request).1)]).map Prod.fst) =
      ((done ++ [(request, (device.perform s.device request).1)]).map Prod.snd,
        (device.perform s.device request).2) := by
  rw [List.map_append, List.map_append, List.map_singleton, List.map_singleton, answers_snoc,
    show answers device.perform initial (done.map Prod.fst) = _ from answered]

end

/-- A thread releases the lock after its last request. -/
theorem Serial.finish (serial : s.Serial device lock semaphore initial)
    {made : List (Q × A)} (inside : s.Inside made []) {k : Kernel T S L C}
    (step : s.kernel.step d (.call (.release lock)) = some k) :
    Serial device lock semaphore initial
      { s with
        kernel := k
        pc := s.setPc .outside
        finished := s.finished ++ [(s.kernel.currentThread, made)] } := by
  have running := Kernel.running_of_call step
  have empty : s.kernel.stack s.kernel.currentThread = [] :=
    (serial.served.wf.awake (.inl running)).2
  have gone : ∀ t made' job, s.setPc .outside t ≠ .waiting made' job := by
    intro t made' job waits
    by_cases own : t = s.kernel.currentThread
    · simp [own, setPc_self] at waits
    · exact own (serial.alone inside running ((setPc_other _ own).symm.trans waits)).1
  have left : s.kernel.Served lock semaphore s.active
      (fun t => ∃ job, s.setPc .outside t = .acquiring job)
      fun t => ∃ made job, s.setPc .outside t = .waiting made job := by
    refine serial.served.of_places ?_ ?_ ?_
    · rintro t ⟨job, place⟩
      by_cases own : t = s.kernel.currentThread
      · simp [own, setPc_self] at place
      · exact serial.served.has t ⟨job, (setPc_other _ own).symm.trans place⟩
    · rintro t ⟨made', job, waits⟩
      exact absurd waits (gone t made' job)
    · intro t pending
      obtain ⟨made', job, waits⟩ := serial.served.inP t pending
      rw [(serial.alone inside running waits).1, empty] at pending
      simp [pendingCall] at pending
  refine ⟨left.step ⟨by simp, by simp, by simp, by simp⟩ (by simp)
    (by simp [Kernel.ResumesSleeper, Kernel.nextThread]) (fun _ => ?_) step,
    serial.running, fun t => ?_, [], .inr ⟨rfl, gone⟩, ?_⟩
  · simp [setPc_self]
  · by_cases own : t = s.kernel.currentThread
    · simp [own, setPc_self, SynchPc.job]
    · simpa [setPc_other _ own] using serial.accepted t
  · simpa [Answered] using serial.underWay inside running

/-- A thread makes its next request, which the device accepts. -/
theorem Serial.request (serial : s.Serial device lock semaphore initial)
    {made : List (Q × A)} {request : Q} {job : List Q} (inside : s.Inside made (request :: job))
    {k : Kernel T S L C} (step : s.kernel.step d (.call (.p semaphore)) = some k) :
    Serial device lock semaphore initial
      { s with
        kernel := k
        device := (device.perform s.device request).2
        active := true
        pc := s.setPc
          (.waiting (made ++ [(request, (device.perform s.device request).1)]) job) } := by
  have running := Kernel.running_of_call step
  have accepted := serial.accepted s.kernel.currentThread
  rw [inside.job] at accepted
  refine ⟨(serial.served.request inside.place step).of_places ?_ ?_ ?_, serial.running,
    fun t => ?_, _, .inl ⟨s.kernel.currentThread, job, setPc_self _⟩, ?_⟩
  · rintro t ⟨rest, place⟩
    by_cases own : t = s.kernel.currentThread
    · simp [own, setPc_self] at place
    · exact (serial.served.request inside.place step).has t
        ⟨⟨rest, (setPc_other _ own).symm.trans place⟩, own⟩
  · rintro t ⟨made', rest, waits⟩
    by_cases own : t = s.kernel.currentThread
    · exact .inr own
    · exact .inl ⟨made', rest, (setPc_other _ own).symm.trans waits⟩
  · intro t pending
    rcases (serial.served.request inside.place step).inP t pending with
      ⟨made', rest, waits⟩ | rfl
    · obtain ⟨rfl, -⟩ := serial.alone inside running waits
      exact ⟨_, job, setPc_self _⟩
    · exact ⟨_, job, setPc_self _⟩
  · by_cases own : t = s.kernel.currentThread
    · have later : ∀ other ∈ job, device.Accepts other = true := fun other member =>
        accepted other (.tail _ member)
      simpa [own, setPc_self, SynchPc.job] using later
    · simpa [setPc_other _ own] using serial.accepted t
  · rw [← List.append_assoc]
    exact (serial.underWay inside running).snoc request

theorem Serial.transfer (serial : s.Serial device lock semaphore initial)
    {made : List (Q × A)} {job : List Q} (inside : s.Inside made job)
    (step : s.transfer device lock semaphore d made job = some s') :
    s'.Serial device lock semaphore initial := by
  cases job with
  | nil =>
      obtain ⟨k, kernelStep, rfl⟩ := call_eq_some step
      exact serial.finish inside kernelStep
  | cons request job =>
      have accepted := serial.accepted s.kernel.currentThread
      rw [inside.job] at accepted
      have accepts : device.Accepts request = true := accepted request (.head _)
      simp only [SynchDevice.transfer, accepts, Bool.true_eq_false, or_false] at step
      split at step
      · -- the assertion does not fail: the thread has the lock
        rename_i active
        split at step
        · have quiet := (serial.served.of_running ‹_› inside.place).2.1
          rw [active] at quiet
          cases quiet
        · cases step
      · obtain ⟨k, kernelStep, rfl⟩ := call_eq_some step
        exact serial.request inside kernelStep

theorem Serial.interrupt (serial : s.Serial device lock semaphore initial)
    (active : s.active = true) {k : Kernel T S L C}
    (step : s.kernel.step d (.handlerV semaphore) = some k) :
    Serial device lock semaphore initial { s with kernel := k, active := false } :=
  ⟨(active ▸ serial.served).interrupt step, serial.running, serial.accepted, serial.serial⟩

section

omit [DecidableEq T] [DecidableEq C]

/-- Calls that touch neither the lock nor the semaphore spare both. -/
theorem Op.spares {op : Op T S L C} (elsewhere : op.Touches lock semaphore = false) :
    (Action.call op).Spares semaphore ∧ (∀ c, Action.call op ≠ .call (.wait c (some lock))) ∧
      Action.call op ≠ .call (.release lock) := by
  refine ⟨⟨?_, ?_, by simp, by simp⟩, fun c => ?_, ?_⟩ <;>
  · intro same
    cases same
    simp [Op.Touches] at elsewhere

end

section

omit [DecidableEq T] [DecidableEq L] [DecidableEq C]

theorem Action.spares {action : Action T S L C} (elsewhere : action.Touches semaphore = false) :
    action.Spares semaphore ∧ (∀ c, action ≠ .call (.wait c (some lock))) ∧
      action ≠ .call (.release lock) := by
  refine ⟨⟨?_, ?_, ?_, ?_⟩, fun c => ?_, ?_⟩ <;>
  · rintro rfl
    simp [Action.Touches] at elsewhere

end

/-- Every step that resumes no sleeper of the lock keeps the calls one after another. -/
theorem Serial.step (serial : s.Serial device lock semaphore initial)
    {move : SynchMove T S L C Q} (valid : move.Valid device) (spares : move.SparesSleepers lock s)
    (step : s.step device lock semaphore d move = some s') :
    s'.Serial device lock semaphore initial := by
  unfold SynchDevice.step at step
  rw [if_neg (by simp [serial.running])] at step
  split at step
  · obtain ⟨k, kernelStep, rfl⟩ := call_eq_some step
    exact serial.begin ‹_› valid kernelStep
  · exact serial.transfer (.acquiring ‹_›) step
  · exact serial.transfer (.waiting ‹_›) step
  · split at step
    · obtain ⟨k, kernelStep, rfl⟩ := Option.map_eq_some_iff.mp step
      exact serial.interrupt ‹_› kernelStep
    · cases step
  · rename_i op outside
    split at step
    · cases step
    · obtain ⟨k, kernelStep, rfl⟩ := call_eq_some step
      obtain ⟨sparesAll, notWait, notRelease⟩ := Op.spares (eq_false_of_ne_true ‹_›)
      exact serial.quiet sparesAll notWait notRelease spares kernelStep
  · rename_i action _
    split at step
    · cases step
    · obtain ⟨k, kernelStep, rfl⟩ := Option.map_eq_some_iff.mp step
      obtain ⟨sparesAll, notWait, notRelease⟩ := Action.spares (eq_false_of_ne_true ‹_›)
      exact serial.quiet sparesAll notWait notRelease spares kernelStep
  · cases step

end Steps

theorem boot_serial {device : Peripheral Q A σ} {lock : L} {semaphore : S} (main : T)
    {initialValue : S → Int} {lockMemory : L → Lock T} (conditionMemory : C → Condition T L)
    (initial : σ) (zero : initialValue semaphore = 0) (free : (lockMemory lock).owner = none) :
    (boot main initialValue lockMemory conditionMemory initial :
      SynchDevice T S L C Q A σ).Serial device lock semaphore initial where
  served :=
    { wf := Kernel.boot_wellFormed main initialValue lockMemory conditionMemory
      blank := Kernel.boot_blank main initialValue lockMemory conditionMemory
      owned := by simp [boot, Kernel.Owned, Kernel.boot, Lock.construct, free]
      balanced := (Kernel.boot_taken main lockMemory conditionMemory zero main).balanced
      has := fun t ⟨job, place⟩ => by cases place
      owns := fun t ⟨made, job, place⟩ => by cases place
      inP := fun t pending => by cases pending
      busy := fun busy => by cases busy
      idle := fun _ => .inl ⟨zero, fun t pending => by cases pending⟩ }
  running := rfl
  accepted t request member := by cases member
  serial := ⟨[], .inr ⟨rfl, fun t made job place => by cases place⟩, rfl⟩

/-- The calls are one after another at the end of every run that resumes no sleeper of
the lock. -/
theorem serial_of_run {device : Peripheral Q A σ} {lock : L} {semaphore : S}
    {d : Discipline} {main : T} {initialValue : S → Int} {lockMemory : L → Lock T}
    {conditionMemory : C → Condition T L} {initial : σ} (zero : initialValue semaphore = 0)
    (free : (lockMemory lock).owner = none) {moves : List (SynchMove T S L C Q)}
    (valid : ∀ move ∈ moves, move.Valid device) {s : SynchDevice T S L C Q A σ}
    (run : (synchDeviceMachine device lock semaphore d).exec
      (.boot main initialValue lockMemory conditionMemory initial) moves = some s)
    (spares : (synchDeviceMachine device lock semaphore d).Steps
      (fun s move => move.SparesSleepers lock s)
      (.boot main initialValue lockMemory conditionMemory initial) moves) :
    s.Serial device lock semaphore initial :=
  (Lib.Machine.along_of_guarded
    (fun _ _ _ serial allowed step => serial.step allowed.1 allowed.2 step)
    (boot_serial main conditionMemory initial zero free)
    ((Lib.Machine.steps_of_forall _ valid).and spares)).finish run

/-- What the display shows after these characters. -/
theorem answers_consolePeripheral (display line : List Int) :
    (answers consolePeripheral.perform display line).2 = display ++ line := by
  induction line generalizing display with
  | nil => simp [answers]
  | cons ch line inductionHypothesis =>
      exact (inductionHypothesis (display ++ [ch])).trans (List.append_assoc ..)

/-- The lines that threads write with `WriteLine` stand on the display one after
another in the order in which their calls come to `Release`, followed by the beginning
of the one line under way. -/
theorem writeLine_apart {lock : L} {semaphore : S} {d : Discipline} {main : T}
    {initialValue : S → Int} {lockMemory : L → Lock T} {conditionMemory : C → Condition T L}
    (zero : initialValue semaphore = 0) (free : (lockMemory lock).owner = none)
    {moves : List (SynchMove T S L C Int)} {s : SynchDevice T S L C Int Unit (List Int)}
    (run : (synchDeviceMachine consolePeripheral lock semaphore d).exec
      (.boot main initialValue lockMemory conditionMemory []) moves = some s)
    (spares : (synchDeviceMachine consolePeripheral lock semaphore d).Steps
      (fun s move => move.SparesSleepers lock s)
      (.boot main initialValue lockMemory conditionMemory []) moves) :
    ∃ made, s.UnderWay made ∧
      s.device = (s.finished.flatMap fun call => call.2.map Prod.fst) ++ made.map Prod.fst := by
  have valid : ∀ move ∈ moves, move.Valid consolePeripheral := by
    intro move _
    cases move with
    | begin line => exact fun _ _ => rfl
    | _ => trivial
  obtain ⟨made, underWay, answered⟩ := (serial_of_run zero free valid run spares).serial
  refine ⟨made, underWay, ?_⟩
  have display : _ = s.device := congrArg Prod.snd answered
  rw [answers_consolePeripheral, List.nil_append, List.map_append, List.map_flatMap] at display
  exact display.symm

end SynchDevice

open SynchDevice in
/-- In every run of any number of threads that call a synchronous interface, its
completion interrupts coming at any time, and in which no thread is resumed out of the
`Sleep` of `lock->Acquire`: no assertion of the device fails; a thread goes on in its
call only after the interrupt of its request; and the device has answered the calls as
if they had been made one after another in the order in which they come to their
`Release`, and then the requests of the one call under way. -/
theorem synchDevice_serial {device : Peripheral Q A σ} {lock : L} {semaphore : S}
    {d : Discipline} {main : T} {initialValue : S → Int} {lockMemory : L → Lock T}
    {conditionMemory : C → Condition T L} {initial : σ} (zero : initialValue semaphore = 0)
    (free : (lockMemory lock).owner = none) {moves : List (SynchMove T S L C Q)}
    (valid : ∀ move ∈ moves, move.Valid device) {s : SynchDevice T S L C Q A σ}
    (run : (synchDeviceMachine device lock semaphore d).exec
      (.boot main initialValue lockMemory conditionMemory initial) moves = some s)
    (spares : (synchDeviceMachine device lock semaphore d).Steps
      (fun s move => move.SparesSleepers lock s)
      (.boot main initialValue lockMemory conditionMemory initial) moves) :
    s.failed = false ∧
    (s.kernel.phase = .running → s.pc s.kernel.currentThread ≠ .outside →
      s.active = false) ∧
    ∃ made, s.UnderWay made ∧
      answers device.perform initial
          ((s.finished.flatMap Prod.snd ++ made).map Prod.fst) =
        ((s.finished.flatMap Prod.snd ++ made).map Prod.snd, s.device) := by
  have serial := serial_of_run zero free valid run spares
  refine ⟨serial.running, fun running inside => ?_, serial.serial⟩
  cases place : s.pc s.kernel.currentThread with
  | outside => exact absurd place inside
  | acquiring job => exact (serial.served.of_running running (.inl ⟨job, place⟩)).2.1
  | waiting made job => exact (serial.served.of_running running (.inr ⟨made, job, place⟩)).2.1

/-- Main writes a sector, and while it waits a forked thread runs; afterwards that
thread reads the sector. -/
def writeThenRead : List (SynchMove Bool Unit Unit Empty DiskRequest) :=
  [.other (.fork true), .system .endTick, .writeSector 3 (fun _ => 7), .system .endTick,
    .proceed, .system (.dispatch 0), .interrupt, .system .endTick, .other (.yield 0),
    .system .endTick, .proceed, .system .endTick, .other (.yield 0), .system .endTick,
    .readSector 3, .system .endTick, .proceed, .system (.dispatch 0)]

/-- Main writes a line of two characters; the forked thread calls `WriteLine` as well
while main waits, and goes to sleep in `Acquire`. -/
def writeTwoLines : List (SynchMove Bool Unit Unit Empty Int) :=
  [.other (.fork true), .system .endTick, .writeLine [72, 105], .system .endTick, .proceed,
    .system (.dispatch 0), .system .endTick, .writeLine [33], .system .idle, .interrupt,
    .system .endIdle, .system (.dispatch 0), .system .endTick, .proceed, .system .idle,
    .interrupt, .system .endIdle, .system (.dispatch 0), .system .endTick, .proceed]

/-- A run of the disk, and one of the console. -/
theorem synchDevice_serial_write_then_read :
    (∃ s : SynchDevice Bool Unit Unit Empty DiskRequest (Option Memory) Disk,
      (synchDeviceMachine diskPeripheral () () .fifo).exec
        (.boot false (fun _ => 0) (fun _ => ⟨false, none, []⟩) Empty.elim fun _ _ => 0)
        writeThenRead = some s ∧
      s.failed = false ∧
      (s.kernel.phase = .running → s.pc s.kernel.currentThread ≠ .outside →
        s.active = false) ∧
      ∃ made, s.UnderWay made ∧
        answers diskPeripheral.perform (fun _ _ => 0)
            ((s.finished.flatMap Prod.snd ++ made).map Prod.fst) =
          ((s.finished.flatMap Prod.snd ++ made).map Prod.snd, s.device)) ∧
    ∃ s : SynchDevice Bool Unit Unit Empty Int Unit (List Int),
      (synchDeviceMachine consolePeripheral () () .fifo).exec
        (.boot false (fun _ => 0) (fun _ => ⟨false, none, []⟩) Empty.elim []) writeTwoLines =
          some s ∧
      s.device = [72, 105] ∧ s.pc true = .acquiring [33] ∧
      s.failed = false ∧
      (s.kernel.phase = .running → s.pc s.kernel.currentThread ≠ .outside →
        s.active = false) ∧
      ∃ made, s.UnderWay made ∧
        answers consolePeripheral.perform []
            ((s.finished.flatMap Prod.snd ++ made).map Prod.fst) =
          ((s.finished.flatMap Prod.snd ++ made).map Prod.snd, s.device) := by
  refine ⟨⟨_, (Option.some_get (by decide +kernel)).symm,
    synchDevice_serial (by rfl) (by rfl)
      (by simp [writeThenRead, SynchMove.Valid, SynchMove.writeSector, SynchMove.readSector,
        diskPeripheral, numSectors])
      (Option.some_get (by decide +kernel)).symm (by decide +kernel)⟩, ?_⟩
  obtain ⟨s, run, ends⟩ : ∃ s : SynchDevice Bool Unit Unit Empty Int Unit (List Int),
      (synchDeviceMachine consolePeripheral () () .fifo).exec
        (.boot false (fun _ => 0) (fun _ => ⟨false, none, []⟩) Empty.elim []) writeTwoLines =
          some s ∧
      (s.device, s.pc true) = ([72, 105], .acquiring [33]) :=
    Option.map_eq_some_iff.mp (by decide +kernel)
  simp only [Prod.mk.injEq] at ends
  have valid : ∀ move ∈ writeTwoLines, move.Valid consolePeripheral := by
    simp [writeTwoLines, SynchMove.Valid, SynchMove.writeLine, consolePeripheral]
  exact ⟨s, run, ends.1, ends.2, synchDevice_serial (by rfl) (by rfl) valid run
    (by decide +kernel)⟩

end Nachos
