import PushPlan.Word

/-!
# PushPlan.Text.Numeral

Reading decimal numerals:

1. digits are the ten ASCII digits, leading zeros allowed, at least one digit;
2. a value that reaches the limit is refused, never wrapped;
3. a text is read from the front, and the first character that cannot be
   taken decides the error.
-/

namespace PushPlan.Text

/-- Why a numeral was refused. -/
inductive NumeralError where
  | empty
  | invalidDigit
  | tooLarge
deriving DecidableEq

/-- The wording of a refusal. -/
def NumeralError.message : NumeralError → String
  | .empty => "cannot parse integer from empty string"
  | .invalidDigit => "invalid digit found in string"
  | .tooLarge => "number too large to fit in target type"

/-! ## Digits -/

/-- The value of an ASCII digit. -/
def digit? (c : Char) : Option Nat :=
  if 48 ≤ c.toNat ∧ c.toNat ≤ 57 then some (c.toNat - 48) else none

/-- Whether a character is an ASCII digit. -/
def isDigit (c : Char) : Bool := (digit? c).isSome

/-- The digits at the front of a text, and the rest. -/
def digitsOf (cs : List Char) : List Char × List Char := cs.span isDigit

/-- The number that digits spell. -/
def numberOf (digits : List Char) : Nat :=
  digits.foldl (fun n c => 10 * n + (digit? c).getD 0) 0

/-- Reads on after digits worth `value`, staying below `limit`. -/
def readDigits (limit : Nat) : Nat → List Char → Except NumeralError Nat
  | value, [] => .ok value
  | value, c :: cs =>
    match digit? c with
    | none => .error .invalidDigit
    | some d =>
      if value * 10 + d < limit then readDigits limit (value * 10 + d) cs else .error .tooLarge

/-- What is read stays below the limit. -/
theorem readDigits_lt {limit value n : Nat} {cs : List Char} (hv : value < limit)
    (h : readDigits limit value cs = .ok n) : n < limit := by
  induction cs generalizing value with
  | nil => simp [readDigits] at h; omega
  | cons c cs ih =>
    simp only [readDigits] at h
    split at h
    · simp at h
    · split at h
      · exact ih (by assumption) h
      · simp at h

/-! ## Counts -/

/-- Reads a count below 2³²: an optional `+`, then digits. -/
def readCount (cs : List Char) : Except NumeralError UInt32 :=
  let digits :=
    match cs with
    | '+' :: c :: rest => c :: rest
    | cs => cs
  match digits with
  | [] => .error .empty
  | digits => (readDigits Word.limit32 0 digits).map UInt32.ofNat

/-! ## Signed integers -/

/-- Reads an integer of 64 bits: an optional sign, then digits. -/
def readInteger? (cs : List Char) : Option Int :=
  match cs with
  | [] => none
  | '-' :: c :: rest =>
    (readDigits (Word.signedLimit + 1) 0 (c :: rest)).toOption.map fun n => -(n : Int)
  | '+' :: c :: rest => (readDigits Word.signedLimit 0 (c :: rest)).toOption.map Int.ofNat
  | cs => (readDigits Word.signedLimit 0 cs).toOption.map Int.ofNat

/-- Reads a number of at most 63 bits written in digits alone. -/
def readChunk? (cs : List Char) : Option Int :=
  if cs.isEmpty then none else (readDigits Word.signedLimit 0 cs).toOption.map Int.ofNat

end PushPlan.Text
