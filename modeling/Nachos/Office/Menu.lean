/-
Module: Nachos.Office.Menu
Purpose: The six input loops of `Problem2`.  A loop goes on while `cin` fails,
  and nothing clears its fail state, so that the first token that is no `int`
  keeps the menu from ending.  The first loop also takes fewer customers than
  its prompt offers.
Trusted boundary: a token is what one extraction of an `int` looks at, a
  numeral or something that begins with none: the characters `12abc` are a
  numeral and a word.  Extracting an `int` from a word, or at the end of the
  input, sets the fail state and consumes nothing; while that is set, every
  extraction fails.  The prompts and error messages are not printed.
Main exports: Token, Istream.extract, InputLoop, problem2Loops, runLoops,
  Answered, menu_answers_iff
-/
import Nachos.Lib.Reading
import Nachos.Office.System

namespace Nachos.Office

/-! ### The input -/

inductive Token where
  | number (n : Int)
  | word
deriving DecidableEq, Repr

/-- `std::cin`: how many tokens have been consumed, and its fail state. -/
structure Istream where
  position : Nat
  fail : Bool
deriving DecidableEq, Repr

def Istream.start : Istream := ⟨0, false⟩

/-- The values of an `int`. -/
def IsInt (n : Int) : Prop := -2147483648 ≤ n ∧ n ≤ 2147483647

instance (n : Int) : Decidable (IsInt n) := inferInstanceAs (Decidable (_ ∧ _))

/-- `std::cin >> num_of_people`, which has a result if it does not fail.  What a
failed extraction leaves in the variable is not read, since the loops look at
`fail()` first. -/
def Istream.extract (tokens : Nat → Option Token) (cin : Istream) : Option Int × Istream :=
  if cin.fail then (none, cin)
  else
    match tokens cin.position with
    | some (.number n) =>
        if IsInt n then (some n, ⟨cin.position + 1, false⟩)
        else (none, ⟨cin.position + 1, true⟩)
    | some .word | none => (none, ⟨cin.position, true⟩)

/-! ### The loops -/

/-- One of the loops, by the range that its prompt offers and the range that it
tests. -/
structure InputLoop where
  promptLow : Int
  promptHigh : Int
  low : Int
  high : Int
deriving DecidableEq, Repr

/-- The numbers that the prompt offers. -/
def InputLoop.Offers (l : InputLoop) (n : Int) : Prop := l.promptLow ≤ n ∧ n ≤ l.promptHigh

/-- The numbers that pass the test. -/
def InputLoop.Accepts (l : InputLoop) (n : Int) : Prop := n ≥ l.low ∧ n ≤ l.high

instance (l : InputLoop) (n : Int) : Decidable (l.Offers n) :=
  inferInstanceAs (Decidable (_ ∧ _))

instance (l : InputLoop) (n : Int) : Decidable (l.Accepts n) :=
  inferInstanceAs (Decidable (_ ∧ _))

/-- "How many customers? (20 - 50)" -/
def customerLoop : InputLoop := ⟨20, 50, 1, 50⟩

/-- "How many Application Clerks? (1 - 5)" -/
def applicationClerkLoop : InputLoop := ⟨1, 5, 1, 5⟩

/-- "How many Picture Clerks? (1 - 5)" -/
def pictureClerkLoop : InputLoop := ⟨1, 5, 1, 5⟩

/-- "How many PassPort Clerks? (1 - 5)" -/
def passportClerkLoop : InputLoop := ⟨1, 5, 1, 5⟩

/-- "How many Cashier Clerks? (1 - 5)" -/
def cashierLoop : InputLoop := ⟨1, 5, 1, 5⟩

/-- "How many Senators? (1 - 10)" -/
def senatorLoop : InputLoop := ⟨1, 10, 1, 10⟩

def clerkLoops : List InputLoop :=
  [applicationClerkLoop, pictureClerkLoop, passportClerkLoop, cashierLoop, senatorLoop]

def problem2Loops : List InputLoop := customerLoop :: clerkLoops

/-- The loops one after the other, each until its `acceptInput` is set, and the
numbers that they store.  The fuel is the number of rounds, in all loops. -/
def runLoops (tokens : Nat → Option Token) :
    Nat → List InputLoop → Istream → Option (List Int × Istream)
  | _, [], cin => some ([], cin)
  | 0, _ :: _, _ => none
  | fuel + 1, l :: rest, cin =>
      match cin.extract tokens with
      | (some num_of_people, cin') =>
          if l.Accepts num_of_people then
            (runLoops tokens fuel rest cin').map fun (stored, cin'') =>
              (num_of_people :: stored, cin'')
          else runLoops tokens fuel (l :: rest) cin'
      | (none, cin') => runLoops tokens fuel (l :: rest) cin'

/-! ### What the loops accept -/

/-- The menu as it is meant: each question skips the tokens that are not in the
range it offers, and the first one that is answers it. -/
def Answered (tokens : Nat → Option Token) :
    List InputLoop → Nat → List Int → Nat → Prop :=
  Lib.Reads (fun l t => ∀ n, t = .number n → ¬ l.Offers n)
    (fun l t n => t = .number n ∧ l.Offers n) tokens

/-- What the loops do with their tokens when they end. -/
def Accepted (tokens : Nat → Option Token) :
    List InputLoop → Nat → List Int → Nat → Prop :=
  Lib.Reads (fun l t => ∃ n, t = .number n ∧ IsInt n ∧ ¬ l.Accepts n)
    (fun l t n => t = .number n ∧ IsInt n ∧ l.Accepts n) tokens

section

variable {tokens : Nat → Option Token}

/-- An extraction from a good stream gives a number, or the stream fails. -/
theorem extract_cases (tokens : Nat → Option Token) (p : Nat) :
    (∃ n, tokens p = some (.number n) ∧ IsInt n ∧
      Istream.extract tokens ⟨p, false⟩ = (some n, ⟨p + 1, false⟩)) ∨
    ∃ p', Istream.extract tokens ⟨p, false⟩ = (none, ⟨p', true⟩) := by
  cases here : tokens p with
  | none => exact .inr ⟨p, by simp [Istream.extract, here]⟩
  | some t =>
      cases t with
      | word => exact .inr ⟨p, by simp [Istream.extract, here]⟩
      | number n =>
          by_cases fits : IsInt n
          · exact .inl ⟨n, rfl, fits, by simp [Istream.extract, here, fits]⟩
          · exact .inr ⟨p + 1, by simp [Istream.extract, here, fits]⟩

/-- A loop that is running when the stream fails runs forever. -/
theorem runLoops_of_fail (fuel : Nat) (l : InputLoop) (rest : List InputLoop) (p : Nat) :
    runLoops tokens fuel (l :: rest) ⟨p, true⟩ = none := by
  induction fuel with
  | zero => rfl
  | succ fuel inductionHypothesis =>
      simpa [runLoops, Istream.extract] using inductionHypothesis

/-- A round of a loop on a number. -/
theorem runLoops_number {l : InputLoop} {rest : List InputLoop} {fuel p : Nat} {n : Int}
    (here : tokens p = some (.number n)) (fits : IsInt n) :
    runLoops tokens (fuel + 1) (l :: rest) ⟨p, false⟩ =
      if l.Accepts n then
        (runLoops tokens fuel rest ⟨p + 1, false⟩).map fun (stored, cin) =>
          (n :: stored, cin)
      else runLoops tokens fuel (l :: rest) ⟨p + 1, false⟩ := by
  simp [runLoops, Istream.extract, here, fits]

theorem accepted_of_runLoops {fuel : Nat} {loops : List InputLoop} {p : Nat}
    {stored : List Int} {cin : Istream}
    (ends : runLoops tokens fuel loops ⟨p, false⟩ = some (stored, cin)) :
    cin.fail = false ∧ Accepted tokens loops p stored cin.position := by
  induction fuel generalizing loops p stored with
  | zero =>
      cases loops with
      | nil =>
          cases ends
          exact ⟨rfl, .done p⟩
      | cons l rest => cases ends
  | succ fuel inductionHypothesis =>
      cases loops with
      | nil =>
          cases ends
          exact ⟨rfl, .done p⟩
      | cons l rest =>
          rcases extract_cases tokens p with ⟨n, here, fits, -⟩ | ⟨p', failed⟩
          · rw [runLoops_number here fits] at ends
            split at ends
            · rename_i accepts
              obtain ⟨⟨later, cin'⟩, ran, same⟩ := Option.map_eq_some_iff.mp ends
              cases same
              obtain ⟨good, accepted⟩ := inductionHypothesis ran
              exact ⟨good, .take here ⟨rfl, fits, accepts⟩ accepted⟩
            · rename_i refuses
              obtain ⟨good, accepted⟩ := inductionHypothesis ends
              exact ⟨good, .skip here ⟨n, rfl, fits, refuses⟩ accepted⟩
          · simp only [runLoops, failed, runLoops_of_fail] at ends
            cases ends

theorem runLoops_of_accepted {loops : List InputLoop} {p e : Nat} {stored : List Int}
    (accepted : Accepted tokens loops p stored e) :
    ∃ fuel, runLoops tokens fuel loops ⟨p, false⟩ = some (stored, ⟨e, false⟩) := by
  induction accepted with
  | done p => exact ⟨0, rfl⟩
  | skip here skipped reads inductionHypothesis =>
      obtain ⟨n, rfl, fits, refuses⟩ := skipped
      obtain ⟨fuel, ran⟩ := inductionHypothesis
      refine ⟨fuel + 1, ?_⟩
      rw [runLoops_number here fits, if_neg refuses, ran]
  | take here taken reads inductionHypothesis =>
      obtain ⟨rfl, fits, accepts⟩ := taken
      obtain ⟨fuel, ran⟩ := inductionHypothesis
      refine ⟨fuel + 1, ?_⟩
      rw [runLoops_number here fits, if_pos accepts, ran]
      rfl

/-- The loops of `Problem2` end, have stored these numbers, and have used up
the tokens before position `e`. -/
def MenuEnds (tokens : Nat → Option Token) (stored : List Int) (e : Nat) : Prop :=
  ∃ fuel, runLoops tokens fuel problem2Loops .start = some (stored, ⟨e, false⟩)

theorem menuEnds_iff_accepted {stored : List Int} {e : Nat} :
    MenuEnds tokens stored e ↔ Accepted tokens problem2Loops 0 stored e :=
  ⟨fun ⟨_, ends⟩ => (accepted_of_runLoops ends).2, runLoops_of_accepted⟩

/-! ### The offices that the menu lets in -/

/-- The numbers that the loops store for this office. -/
def Setup.answers (setup : Setup) : List Int :=
  [setup.numCustomers, setup.numClerks .application, setup.numClerks .picture,
    setup.numClerks .passport, setup.numClerks .cashier, setup.numSenators]

/-- An office that comes from the menu has at most 50 customers, a clerk of each
kind and a senator. -/
theorem MenuEnds.setup {setup : Setup} {e : Nat} (ends : MenuEnds tokens setup.answers e) :
    (1 ≤ setup.numCustomers ∧ setup.numCustomers ≤ 50) ∧
      (∀ m, 1 ≤ setup.numClerks m ∧ setup.numClerks m ≤ 5) ∧
      1 ≤ setup.numSenators ∧ setup.numSenators ≤ 10 := by
  have accepts : List.Forall₂ InputLoop.Accepts problem2Loops setup.answers :=
    (menuEnds_iff_accepted.mp ends).forall₂ fun _ _ _ taken => taken.2.2
  simp only [problem2Loops, clerkLoops, Setup.answers, List.forall₂_cons,
    InputLoop.Accepts, customerLoop, applicationClerkLoop, pictureClerkLoop,
    passportClerkLoop, cashierLoop, senatorLoop] at accepts
  refine ⟨by omega, fun m => ?_, by omega⟩
  cases m <;> omega

/-! ### When the menu does what it says -/

/-- The token is a number of this range. -/
def numberWithin (low high : Int) : Option Token → Prop
  | some (.number n) => low ≤ n ∧ n ≤ high
  | _ => False

instance (low high : Int) : (t : Option Token) → Decidable (numberWithin low high t)
  | some (.number n) => inferInstanceAs (Decidable (low ≤ n ∧ n ≤ high))
  | some .word => inferInstanceAs (Decidable False)
  | none => inferInstanceAs (Decidable False)

theorem numberWithin_iff {low high : Int} {t : Option Token} :
    numberWithin low high t ↔ ∃ n, t = some (.number n) ∧ low ≤ n ∧ n ≤ high := by
  constructor
  · intro within
    match t, within with
    | some (.number n), within => exact ⟨n, rfl, within⟩
  · rintro ⟨n, rfl, within⟩
    exact within

/-- A bad token on its own, for inputs that are written out. -/
theorem Answered.skip {l : InputLoop} {rest : List InputLoop} {p e : Nat}
    {answers : List Int} {t : Token} (here : tokens p = some t)
    (bad : ¬ numberWithin l.promptLow l.promptHigh (some t))
    (answered : Answered tokens (l :: rest) (p + 1) answers e) :
    Answered tokens (l :: rest) p answers e :=
  Lib.Reads.skip here (fun n number offers => bad (numberWithin_iff.mpr
    ⟨n, congrArg some number, offers⟩)) answered

theorem Answered.take {l : InputLoop} {rest : List InputLoop} {p e : Nat}
    {answers : List Int} {n : Int} (here : tokens p = some (.number n))
    (offers : l.Offers n) (answered : Answered tokens rest (p + 1) answers e) :
    Answered tokens (l :: rest) p (n :: answers) e :=
  Lib.Reads.take here ⟨rfl, offers⟩ answered

/-- All these tokens are of type `int`, and no number from 1 to 19 stands before
the first one that the menu offers for the customers. -/
structure Unspoilt (tokens : Nat → Option Token) (e : Nat) : Prop where
  ints : ∀ j < e, numberWithin (-2147483648) 2147483647 (tokens j)
  enough : ∀ j < e, numberWithin 1 19 (tokens j) →
    ∃ i < j, numberWithin 20 50 (tokens i)

/-- Loops that end have used numbers only. -/
theorem Accepted.ints {loops : List InputLoop} {stored : List Int} {p e : Nat}
    (accepted : Accepted tokens loops p stored e) {j : Nat} (after : p ≤ j) (before : j < e) :
    numberWithin (-2147483648) 2147483647 (tokens j) := by
  obtain ⟨t, here, n, rfl, fits⟩ := accepted.tokens_used
    (P := fun t => ∃ n, t = .number n ∧ IsInt n)
    (fun _ _ ⟨n, isNumber, fits, _⟩ => ⟨n, isNumber, fits⟩)
    (fun _ _ n ⟨isNumber, fits, _⟩ => ⟨n, isNumber, fits⟩) j after before
  exact numberWithin_iff.mpr ⟨n, here, fits⟩

/-- If the first loop stores what its prompt offers, it has seen nothing smaller
that its test lets through. -/
theorem Accepted.enough {answers : List Int} {e : Nat}
    (accepted : Accepted tokens problem2Loops 0 answers e)
    (answered : Answered tokens problem2Loops 0 answers e) {j : Nat}
    (small : numberWithin 1 19 (tokens j)) : ∃ i < j, numberWithin 20 50 (tokens i) := by
  obtain ⟨n, here, low, high⟩ := numberWithin_iff.mp small
  obtain ⟨k, t, a, later, -, skipped, atK, ⟨rfl, -, -⟩, same, -⟩ :=
    Lib.reads_cons_iff.mp accepted
  obtain ⟨_, _, a', _, -, -, -, ⟨-, offers⟩, same', -⟩ := Lib.reads_cons_iff.mp answered
  cases same.symm.trans same'
  refine ⟨k, ?_, numberWithin_iff.mpr ⟨a, atK, offers⟩⟩
  by_contra notBefore
  rcases Nat.eq_or_lt_of_le (Nat.le_of_not_lt notBefore) with rfl | earlier
  · -- the answer itself is not small
    rw [atK] at here
    cases here
    have twenty : 20 ≤ n := offers.1
    omega
  · obtain ⟨t, atJ, n', rfl, -, refuses⟩ := skipped j (Nat.zero_le j) earlier
    rw [here] at atJ
    cases atJ
    exact refuses ⟨low, show n ≤ 50 by omega⟩

/-- The tokens are of type `int`, one by one. -/
theorem Unspoilt.number {e : Nat} (unspoilt : Unspoilt tokens e) {j : Nat} {t : Token}
    (before : j < e) (here : tokens j = some t) : ∃ n, t = .number n ∧ IsInt n := by
  obtain ⟨n, number, fits⟩ := numberWithin_iff.mp (unspoilt.ints j before)
  exact ⟨n, Option.some.inj (here.symm.trans number), fits⟩

/-- The loops for the clerks and the senators test what their prompts offer. -/
theorem clerkLoops_accept {l : InputLoop} (member : l ∈ clerkLoops) (n : Int) :
    l.Accepts n ↔ l.Offers n := by
  simp only [clerkLoops, List.mem_cons, List.not_mem_nil, or_false] at member
  rcases member with rfl | rfl | rfl | rfl | rfl <;> exact Iff.rfl

theorem isInt_of_offers {l : InputLoop} (member : l ∈ problem2Loops) {n : Int}
    (offers : l.Offers n) : IsInt n := by
  obtain ⟨low, high⟩ := offers
  simp only [problem2Loops, clerkLoops, List.mem_cons, List.not_mem_nil, or_false]
    at member
  rcases member with rfl | rfl | rfl | rfl | rfl | rfl <;>
    simp only [customerLoop, applicationClerkLoop, pictureClerkLoop, passportClerkLoop,
      cashierLoop, senatorLoop] at low high <;>
    exact ⟨by omega, by omega⟩

theorem Answered.accepted {answers : List Int} {e : Nat}
    (answered : Answered tokens problem2Loops 0 answers e) (unspoilt : Unspoilt tokens e) :
    Accepted tokens problem2Loops 0 answers e := by
  obtain ⟨k, t, n, later, -, skipped, atK, ⟨rfl, offers⟩, rfl, rest⟩ :=
    Lib.reads_cons_iff.mp answered
  have inside : k < e := rest.le
  have fits : IsInt n := isInt_of_offers (by simp [problem2Loops]) offers
  have twenty : 20 ≤ n := offers.1
  have accepts : customerLoop.Accepts n := ⟨show 1 ≤ n by omega, offers.2⟩
  refine Lib.reads_cons_iff.mpr
    ⟨k, _, n, later, Nat.zero_le k, ?_, atK, ⟨rfl, fits, accepts⟩, rfl, ?_⟩
  · intro j _ before
    obtain ⟨t, here, notOffered⟩ := skipped j (Nat.zero_le j) before
    obtain ⟨n', rfl, fits'⟩ := unspoilt.number (Nat.lt_trans before inside) here
    refine ⟨_, here, n', rfl, fits', fun accepts' => ?_⟩
    have small : n' < 20 := by
      by_contra large
      exact notOffered n' rfl ⟨Int.not_lt.mp large, accepts'.2⟩
    -- then an earlier token would have answered the question
    obtain ⟨i, earlier, within⟩ := unspoilt.enough j (Nat.lt_trans before inside)
      (numberWithin_iff.mpr ⟨n', here, accepts'.1, Int.le_of_lt_add_one small⟩)
    obtain ⟨m, atI, offers'⟩ := numberWithin_iff.mp within
    obtain ⟨t, atI', notOffered'⟩ := skipped i (Nat.zero_le i) (Nat.lt_trans earlier before)
    exact notOffered' m (Option.some.inj (atI'.symm.trans atI)) offers'
  · refine rest.mono (fun l member j t after before here notOffered => ?_) ?_
    · obtain ⟨n', rfl, fits'⟩ := unspoilt.number before here
      refine ⟨n', rfl, fits', fun accepts' => ?_⟩
      exact notOffered n' rfl ((clerkLoops_accept member n').mp accepts')
    · rintro l member t n' ⟨isNumber, offers'⟩
      exact ⟨isNumber, isInt_of_offers (List.mem_cons_of_mem _ member) offers',
        (clerkLoops_accept member n').mpr offers'⟩

/-- On an input that answers the six questions, the loops end with these answers
exactly if nothing before the last answer spoils them. -/
theorem menu_answers_iff {answers : List Int} {e : Nat}
    (answered : Answered tokens problem2Loops 0 answers e) :
    MenuEnds tokens answers e ↔ Unspoilt tokens e := by
  rw [menuEnds_iff_accepted]
  constructor
  · intro accepted
    exact ⟨fun j before => accepted.ints (Nat.zero_le j) before,
      fun j _ small => accepted.enough answered small⟩
  · exact answered.accepted

end

/-- Too many customers are skipped, and so are nine clerks. -/
def plainInput : Nat → Option Token := fun j =>
  [Token.number 60, .number 20, .number 1, .number 9, .number 2, .number 3, .number 4,
    .number 10][j]?

/-- The menu takes the six answers from this input. -/
theorem menu_answers_plainInput :
    Answered plainInput problem2Loops 0 [20, 1, 2, 3, 4, 10] 8 ∧
      MenuEnds plainInput [20, 1, 2, 3, 4, 10] 8 := by
  have answered : Answered plainInput problem2Loops 0 [20, 1, 2, 3, 4, 10] 8 :=
    .skip rfl (by decide) <| .take rfl (by decide) <| .take rfl (by decide) <|
      .skip rfl (by decide) <| .take rfl (by decide) <| .take rfl (by decide) <|
      .take rfl (by decide) <| .take rfl (by decide) (.done 8)
  exact ⟨answered, (menu_answers_iff answered).mpr ⟨by decide, by decide⟩⟩

/-- A word, and then the six answers. -/
def wordFirst : Nat → Option Token := fun j =>
  [Token.word, .number 20, .number 1, .number 1, .number 1, .number 1, .number 1][j]?

/-- The first loop never gets past the word. -/
theorem word_keeps_menu_running :
    Answered wordFirst problem2Loops 0 [20, 1, 1, 1, 1, 1] 7 ∧
      ∀ fuel, runLoops wordFirst fuel problem2Loops .start = none := by
  refine ⟨?_, fun fuel => ?_⟩
  · exact .skip rfl (by decide) <| .take rfl (by decide) <| .take rfl (by decide) <|
      .take rfl (by decide) <| .take rfl (by decide) <| .take rfl (by decide) <|
      .take rfl (by decide) (.done 7)
  · cases fuel with
    | zero => rfl
    | succ fuel => exact runLoops_of_fail fuel customerLoop clerkLoops 0

/-- Five customers are taken, and 20 is then too many clerks. -/
example :
    runLoops (fun j => [Token.number 5, .number 20, .number 1, .number 1, .number 1,
      .number 1, .number 1][j]?) 7 problem2Loops .start =
      some ([5, 1, 1, 1, 1, 1], ⟨7, false⟩) := by
  decide

end Nachos.Office
