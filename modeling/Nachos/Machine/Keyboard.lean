/-
Module: Nachos.Machine.Keyboard
Purpose: The input of the console: bytes that arrive at the keyboard, the polls
  of `CheckCharAvail`, and a consumer that calls `GetChar` once for each
  notification.  `EOF` marks the buffer as empty, and as a `char` it is the
  byte 0xFF.
Trusted boundary: a `char` is signed; `PollFile` and `Read` find the bytes of
  the keyboard in the order in which they arrived.
Main exports: charOf, Keyboard, keyboard, Keyboard.Faithful,
  Keyboard.Preserves, keyboard_faithful_iff
-/
import Nachos.Lib.Transition
import Nachos.Machine.Devices

namespace Nachos

open Lib

/-! ### The console -/

/-- A byte as a `char`. -/
def charOf (byte : UInt8) : Int :=
  if byte.toNat < 128 then byte.toNat else byte.toNat - 256

theorem charOf_eq_eof {byte : UInt8} : charOf byte = eof ↔ byte = 0xff := by
  have small := byte.toNat_lt
  rw [← UInt8.toNat_inj, show (0xff : UInt8).toNat = 255 from rfl]
  unfold charOf
  simp only [eof]
  split <;> omega

namespace Console

/-- `CheckCharAvail` after the call of `Schedule`, and whether it calls the
handler for reading; `typed` is what can be read. -/
def takeIn (typed : Option Int) (console : Console) : Console × Bool :=
  if console.incoming ≠ eof then (console, false)
  else
    match typed with
    | none => (console, false)
    | some c => ({ console with incoming := c }, true)

/-- `GetChar`. -/
def getChar (console : Console) : Int × Console :=
  (console.incoming, { console with incoming := eof })

/-- `PutChar` before the call of `Schedule`; `none` when its assertion fails. -/
def putChar (ch : Int) (console : Console) : Option Console :=
  if console.putBusy = false then
    some { console with putBusy := true, display := console.display ++ [ch] }
  else none

/-- `WriteDone`. -/
def writeDone (console : Console) : Console :=
  { console with putBusy := false }

end Console

/-- What the routines of the console do to it among the other devices. -/
theorem Devices.console_of_calls {K : Type} {s s' : Devices K} (this : Int) :
    (∀ typed, s.checkCharAvail this typed = some s' →
        s'.console = (s.console.takeIn typed).1) ∧
      s.getChar.1 = s.console.getChar.1 ∧ s.getChar.2.console = s.console.getChar.2 ∧
      (∀ ch, s.putChar this ch = some s' → s.console.putChar ch = some s'.console) := by
  have scheduled {handler : DeviceHandler K} {fromNow : Int} {type : IntType}
      {t t' : Devices K} (call : t.schedule handler this fromNow type = some t') :
      t'.console = t.console := by
    obtain ⟨interrupt, -, rfl⟩ := Option.map_eq_some_iff.mp call
    rfl
  refine ⟨?_, rfl, rfl, ?_⟩
  · intro typed call
    obtain ⟨t, schedule, last⟩ := Option.map_eq_some_iff.mp call
    have console := scheduled schedule
    rw [← last, ← console]
    unfold Console.takeIn
    split
    · rfl
    · cases typed with
      | none => rfl
      | some c => rfl
  · intro ch call
    unfold Devices.putChar at call
    unfold Console.putChar
    split at call
    · rename_i idle
      rw [if_pos idle, scheduled call]
    · cases call

/-! ### The keyboard and the consumer -/

/-- The console, the bytes that have arrived, how many of them have been taken
in, each with a call of the handler, and what `GetChar` has returned. -/
structure Keyboard where
  console : Console
  arrived : List UInt8
  notified : Nat
  returned : List Int

/-- What can happen. -/
inductive KeyboardAction where
  | arrive (byte : UInt8)
  | poll
  | getChar
  | putChar (ch : Int)
  | writeDone

namespace Keyboard

/-- A poll takes in the first byte that has not been taken in yet. -/
def poll (s : Keyboard) : Keyboard :=
  let result := s.console.takeIn ((s.arrived[s.notified]?).map charOf)
  { s with
    console := result.1
    notified := if result.2 then s.notified + 1 else s.notified }

def getChar (s : Keyboard) : Keyboard :=
  let result := s.console.getChar
  { s with console := result.2, returned := s.returned ++ [result.1] }

/-- The calls of `GetChar` that the consumer still owes. -/
def owed (s : Keyboard) : Nat :=
  s.notified - s.returned.length

/-- One step; the consumer calls `GetChar` once for each notification. -/
def step (s : Keyboard) : KeyboardAction → Option Keyboard
  | .arrive byte => some { s with arrived := s.arrived ++ [byte] }
  | .poll => some s.poll
  | .getChar => if s.returned.length < s.notified then some s.getChar else none
  | .putChar ch => (s.console.putChar ch).map fun console => { s with console := console }
  | .writeDone => some { s with console := s.console.writeDone }

/-- `Console::Console`, before anything has been typed. -/
def start : Keyboard where
  console := { putBusy := false, incoming := eof, display := [] }
  arrived := []
  notified := 0
  returned := []

/-- `n` calls of `GetChar`. -/
def fetch : Nat → Keyboard → Keyboard
  | 0, s => s
  | n + 1, s => fetch n s.getChar

/-- The characters that were returned, and those that the calls still owed will
return, are a prefix of the bytes that arrived. -/
def Faithful (s : Keyboard) : Prop :=
  (s.fetch s.owed).returned <+: s.arrived.map charOf

/-- A poll does not take in another byte than 0xFF while a byte 0xFF that the
consumer has not got yet is in the buffer. -/
def Preserves (s : Keyboard) : KeyboardAction → Prop
  | .poll => s.console.incoming = eof → 0 < s.owed →
      ∀ byte, s.arrived[s.notified]? = some byte → byte = 0xff
  | _ => True

instance (s : Keyboard) : Decidable s.Faithful :=
  inferInstanceAs (Decidable (_ <+: _))

end Keyboard

/-- The keyboard with its consumer as a machine. -/
def keyboard : Machine Keyboard KeyboardAction where
  step := Keyboard.step

/-! ### What the consumer gets -/

namespace Keyboard

variable {s s' : Keyboard}

/-- What the calls still owed return. -/
def ahead (s : Keyboard) : List Int :=
  match s.owed with
  | 0 => []
  | n + 1 => s.console.incoming :: List.replicate n eof

theorem fetch_empty (empty : s.console.incoming = eof) (n : Nat) :
    (s.fetch n).returned = s.returned ++ List.replicate n eof := by
  induction n generalizing s with
  | zero => simp [fetch]
  | succ n inductionHypothesis =>
      rw [fetch, inductionHypothesis rfl, List.replicate_succ]
      simp [getChar, Console.getChar, empty]

theorem fetch_returned (s : Keyboard) : (s.fetch s.owed).returned = s.returned ++ s.ahead := by
  unfold ahead
  cases s.owed with
  | zero => simp [fetch]
  | succ n =>
      rw [fetch, fetch_empty rfl]
      simp [getChar, Console.getChar]

theorem fetch_prefix (s : Keyboard) : s.returned <+: (s.fetch s.owed).returned := by
  rw [fetch_returned]
  exact List.prefix_append _ _

/-- What has been taken in is what the consumer has got and will get; a byte
other than 0xFF is in the buffer alone. -/
structure InOrder (s : Keyboard) : Prop where
  taken : s.notified ≤ s.arrived.length
  asked : s.returned.length ≤ s.notified
  gets : s.returned ++ s.ahead = (s.arrived.take s.notified).map charOf
  idle : s.owed = 0 → s.console.incoming = eof
  alone : s.console.incoming ≠ eof → s.owed = 1

theorem InOrder.faithful (inOrder : InOrder s) : s.Faithful := by
  unfold Faithful
  rw [fetch_returned, inOrder.gets]
  exact (List.take_prefix _ _).map charOf

theorem inOrder_start : InOrder start where
  taken := Nat.le_refl _
  asked := Nat.le_refl _
  gets := rfl
  idle := fun _ => rfl
  alone := fun full => absurd rfl full

/-- What a poll does. -/
theorem poll_cases (s : Keyboard) :
    s.poll = s ∨ ∃ byte, s.console.incoming = eof ∧ s.arrived[s.notified]? = some byte ∧
      s.poll = { s with
        console := { s.console with incoming := charOf byte }
        notified := s.notified + 1 } := by
  unfold poll Console.takeIn
  by_cases full : s.console.incoming ≠ eof
  · left
    simp [full]
  · rw [if_neg full]
    cases here : s.arrived[s.notified]? with
    | none =>
        left
        simp
    | some byte => exact .inr ⟨byte, not_not.mp full, rfl, by simp⟩

theorem InOrder.poll (inOrder : InOrder s) (preserves : s.Preserves .poll) :
    InOrder s.poll := by
  rcases s.poll_cases with same | ⟨byte, empty, here, taken⟩
  · rw [same]
    exact inOrder
  · rw [taken]
    have inside := (List.getElem?_eq_some_iff.mp here).1
    have asked := inOrder.asked
    -- the bytes before are all 0xFF, so the new one may as well come first
    have before : s.ahead = List.replicate s.owed eof := by
      unfold ahead
      cases s.owed with
      | zero => rfl
      | succ n => rw [empty, List.replicate_succ]
    have now : s.notified + 1 - s.returned.length = s.owed + 1 := by
      unfold owed
      omega
    have same : charOf byte :: List.replicate s.owed eof =
        List.replicate s.owed eof ++ [charOf byte] := by
      cases waiting : s.owed with
      | zero => rfl
      | succ n =>
          rw [charOf_eq_eof.mpr (preserves empty (by omega) byte here),
            ← List.replicate_succ, ← List.replicate_succ']
    refine ⟨inside, by dsimp only; omega, ?_, ?_, ?_⟩
    · unfold ahead
      simp only [owed]
      rw [now]
      dsimp only
      rw [List.take_add_one, here, same, ← List.append_assoc, ← before, inOrder.gets]
      simp
    · intro none
      simp only [owed] at none
      omega
    · intro full
      simp only [owed]
      rw [now]
      by_contra more
      exact full (charOf_eq_eof.mpr (preserves empty (by omega) byte here))

theorem InOrder.getChar (inOrder : InOrder s) (notified : s.returned.length < s.notified) :
    InOrder s.getChar := by
  have waiting : s.owed = s.notified - (s.returned.length + 1) + 1 := by
    unfold owed
    omega
  refine ⟨inOrder.taken, ?_, ?_, fun _ => rfl, fun full => absurd rfl full⟩
  · simp only [Keyboard.getChar, List.length_append, List.length_singleton]
    omega
  · have gets := inOrder.gets
    unfold ahead at gets
    rw [waiting] at gets
    dsimp only at gets
    simp only [Keyboard.getChar, Console.getChar, ahead, owed, List.length_append,
      List.length_singleton]
    rw [← gets]
    cases s.notified - (s.returned.length + 1) with
    | zero => simp
    | succ n => simp [List.replicate_succ]

/-- A step that does not change what the consumer gets. -/
theorem InOrder.of_eq (inOrder : InOrder s) (incoming : s'.console.incoming = s.console.incoming)
    (notified : s'.notified = s.notified) (returned : s'.returned = s.returned)
    (arrived : s.arrived <+: s'.arrived) : InOrder s' := by
  have owed : s'.owed = s.owed := by
    unfold Keyboard.owed
    rw [notified, returned]
  have ahead : s'.ahead = s.ahead := by
    unfold Keyboard.ahead
    rw [owed, incoming]
  obtain ⟨later, arrived⟩ := arrived
  have taken := inOrder.taken
  refine ⟨?_, ?_, ?_, ?_, ?_⟩
  · rw [notified, ← arrived, List.length_append]
    omega
  · rw [notified, returned]
    exact inOrder.asked
  · rw [returned, ahead, notified, ← arrived, List.take_append_of_le_length taken]
    exact inOrder.gets
  · rw [owed, incoming]
    exact inOrder.idle
  · rw [owed, incoming]
    exact inOrder.alone

theorem InOrder.step (inOrder : InOrder s) {action : KeyboardAction}
    (preserves : s.Preserves action) (step : s.step action = some s') : InOrder s' := by
  cases action with
  | arrive byte =>
      cases step
      exact inOrder.of_eq rfl rfl rfl (List.prefix_append _ _)
  | poll =>
      cases step
      exact inOrder.poll preserves
  | getChar =>
      simp only [Keyboard.step] at step
      split at step
      · rename_i notified
        cases step
        exact inOrder.getChar notified
      · cases step
  | putChar ch =>
      obtain ⟨console, put, rfl⟩ := Option.map_eq_some_iff.mp step
      have incoming : console.incoming = s.console.incoming := by
        unfold Console.putChar at put
        split at put
        · cases put
          rfl
        · cases put
      exact inOrder.of_eq incoming rfl rfl List.prefix_rfl
  | writeDone =>
      cases step
      exact inOrder.of_eq rfl rfl rfl List.prefix_rfl

/-- A byte that is taken in over an unread 0xFF is what the consumer gets in
its place. -/
theorem InOrder.overrun (inOrder : InOrder s) {action : KeyboardAction}
    (overruns : ¬ s.Preserves action) (step : s.step action = some s') : ¬ s'.Faithful := by
  cases action with
  | poll =>
      cases step
      simp only [Preserves, not_forall] at overruns
      obtain ⟨empty, unread, byte, here, other⟩ := overruns
      have taken : s.poll = { s with
          console := { s.console with incoming := charOf byte }
          notified := s.notified + 1 } := by
        simp [Keyboard.poll, Console.takeIn, empty, here]
      rw [taken]
      intro faithful
      unfold Faithful at faithful
      rw [fetch_returned] at faithful
      have asked := inOrder.asked
      have now : s.notified + 1 - s.returned.length = s.owed + 1 := by
        unfold owed
        omega
      unfold ahead at faithful
      simp only [owed] at faithful
      rw [now] at faithful
      dsimp only at faithful
      -- the place after what was returned holds an 0xFF
      have gets := inOrder.gets
      have due : s.ahead = eof :: List.replicate (s.owed - 1) eof := by
        unfold ahead
        cases waiting : s.owed with
        | zero => omega
        | succ n => rw [empty]; rfl
      rw [due] at gets
      have expected : (s.arrived.map charOf)[s.returned.length]? = some eof := by
        have prefixed : s.returned ++ eof :: List.replicate (s.owed - 1) eof <+:
            s.arrived.map charOf := by
          rw [gets]
          exact (List.take_prefix _ _).map charOf
        obtain ⟨rest, whole⟩ := prefixed
        rw [← whole]
        simp
      have found : (s.arrived.map charOf)[s.returned.length]? = some (charOf byte) := by
        obtain ⟨rest, whole⟩ := faithful
        rw [← whole]
        simp
      rw [expected] at found
      exact other (charOf_eq_eof.mp (Option.some.inj found).symm)
  | arrive byte => exact absurd trivial overruns
  | getChar => exact absurd trivial overruns
  | putChar ch => exact absurd trivial overruns
  | writeDone => exact absurd trivial overruns

end Keyboard

open Keyboard

/-- The consumer gets the bytes of the keyboard, a prefix of them and in order,
exactly in the runs in which no byte other than 0xFF is taken in over an unread
byte 0xFF. -/
theorem keyboard_faithful_iff {actions : List KeyboardAction} {s : Keyboard}
    (run : keyboard.exec start actions = some s) :
    (keyboard.Along Faithful start actions ↔ keyboard.Steps Preserves start actions) ∧
      (keyboard.Steps Preserves start actions →
        keyboard.Along (fun s => s.returned <+: s.arrived.map charOf) start actions) := by
  have exact : keyboard.Along Faithful start actions ↔
      keyboard.Steps Preserves start actions :=
    Machine.along_iff_steps (A := fun _ _ => True)
      (fun s a s' inOrder _ preserves step => InOrder.step inOrder preserves step)
      (fun s inOrder => InOrder.faithful inOrder)
      (fun s a s' inOrder _ overruns step => InOrder.overrun inOrder overruns step)
      inOrder_start (Machine.steps_true start actions) run
  refine ⟨exact, ?_⟩
  intro steps
  exact (exact.mpr steps).mono fun s faithful => s.fetch_prefix.trans faithful

/-- Two bytes, one after the other, and two calls of `GetChar`. -/
theorem keyboard_faithful_text :
    ∃ s, keyboard.exec start
        [.arrive 0x41, .arrive 0xff, .poll, .poll, .getChar, .poll, .getChar] = some s ∧
      (keyboard.Along Faithful start
          [.arrive 0x41, .arrive 0xff, .poll, .poll, .getChar, .poll, .getChar] ↔
        keyboard.Steps Preserves start
          [.arrive 0x41, .arrive 0xff, .poll, .poll, .getChar, .poll, .getChar]) ∧
      s.returned = [0x41, -1] := by
  obtain ⟨s, run, returned⟩ : ∃ s, keyboard.exec start
      [.arrive 0x41, .arrive 0xff, .poll, .poll, .getChar, .poll, .getChar] = some s ∧
        s.returned = [0x41, -1] := ⟨_, rfl, rfl⟩
  exact ⟨s, run, (keyboard_faithful_iff run).1, returned⟩

/-- Bytes 0xFF and 0x41, two polls, and what `GetChar` returns. -/
theorem keyboard_overrun :
    ¬ ∀ (actions : List KeyboardAction) (s : Keyboard),
      keyboard.exec start actions = some s → s.returned <+: s.arrived.map charOf := by
  intro always
  have lost := always [.arrive 0xff, .arrive 0x41, .poll, .poll, .getChar] _ rfl
  exact absurd lost (by decide)

end Nachos
