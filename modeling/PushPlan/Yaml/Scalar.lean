import PushPlan.Decimal.Reader
import PushPlan.Text.Hex
import PushPlan.Value
import PushPlan.Word

/-!
# PushPlan.Yaml.Scalar

What a plain scalar of YAML stands for, by the core schema:

1. null, truth values, whole numbers in four bases, fractions, and everything
   else as text;
2. digits that start with a zero are text;
3. a whole number of up to 128 bits that no word of 64 bits holds stands for
   nothing; a longer one is read as a fraction;
4. infinite and undefined numbers stand for null.
-/

namespace PushPlan.Yaml

open Text

/-! ## Words -/

/-- The spellings of null. -/
def nulls : List String := ["", "~", "null", "Null", "NULL"]

/-- The spellings of true. -/
def trues : List String := ["true", "True", "TRUE"]

/-- The spellings of false. -/
def falses : List String := ["false", "False", "FALSE"]

/-- The spellings of numbers that are infinite or undefined. -/
def nonfinites : List String :=
  [".inf", ".Inf", ".INF", "+.inf", "+.Inf", "+.INF", "-.inf", "-.Inf", "-.INF", ".nan", ".NaN",
    ".NAN"]

/-! ## Numbers -/

/-- Whether digits start with a zero that is not alone. -/
def isPadded (digits : List Char) : Bool :=
  digits.length > 1 && digits.head? == some '0' && digits.all isDigit

/-- The value of digits in a base, of which there is at least one. -/
def wholeIn? (base : Nat) (digits : List Char) : Option Nat :=
  if digits.isEmpty then none else valueIn? base digits

/-- The value of a whole number without its sign. -/
def unsigned? : List Char → Option Nat
  | '0' :: 'x' :: digits => wholeIn? 16 digits
  | '0' :: 'o' :: digits => wholeIn? 8 digits
  | '0' :: 'b' :: digits => wholeIn? 2 digits
  | digits => if isPadded digits then none else wholeIn? 10 digits

/-- The value of a whole number. -/
def whole? (cs : List Char) : Option Int :=
  let (negative, body) := Decimal.signPart cs
  (unsigned? body).map fun n => if negative then -(n : Int) else n

/-- A scalar that is no word and no whole number: a fraction or a text. -/
def fractionOrText (source : String) : Value :=
  if isPadded (Decimal.signPart source.toList).2 then .text source
  else if source ∈ nonfinites then .null
  else
    match Decimal.read? source.toList with
    | some d => if d.isFinite then .fraction d else .text source
    | none => .text source

/-! ## Scalars -/

/-- The value of a plain scalar; nothing if it is a whole number out of range. -/
def plainValue? (source : String) : Option Value :=
  if source ∈ nulls then some .null
  else if source ∈ trues then some (.bool true)
  else if source ∈ falses then some (.bool false)
  else
    match whole? source.toList with
    | none => some (fractionOrText source)
    | some n =>
      if Word.isEither n then some (.int n)
      else if Word.isEither128 n then none
      else some (fractionOrText source)

end PushPlan.Yaml
