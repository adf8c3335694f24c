/-!
# PushPlan.Decimal

Decimal fractions as they stand in a document:

1. a fraction is a sign, the digits as one natural number, and a power of
   ten; it is kept exactly as written;
2. the digits never end in zero, so a fraction has one form; zero keeps its
   sign;
3. it is written positionally while the point stands at most 16 places to
   the right of the first digit or 4 places to its left, and with an exponent
   beyond that; a whole number written positionally ends in `.0`.

This module depends only on the Lean 4 core library.
-/

namespace PushPlan

/-- The fraction `± digits · 10 ^ exponent`. -/
structure Decimal where
  negative : Bool
  digits : Nat
  exponent : Int
deriving DecidableEq

namespace Decimal

/-- Moves the zeros at the end of the digits into the exponent. -/
def strip (digits : Nat) (exponent : Int) : Nat × Int :=
  if digits = 0 then (0, 0)
  else if digits % 10 = 0 then strip (digits / 10) (exponent + 1)
  else (digits, exponent)
termination_by digits
decreasing_by omega

/-- The fraction with the given sign, digits and power of ten, in its one form. -/
def ofDigits (negative : Bool) (digits : Nat) (exponent : Int) : Decimal :=
  let (d, e) := strip digits exponent
  ⟨negative, d, e⟩

/-- Whether the fraction rounds to a number that a binary word of 64 bits can hold. -/
def isFinite (d : Decimal) : Bool :=
  let size := (Nat.toDigits 10 d.digits).length
  if d.digits == 0 then true
  else if d.exponent + size > 310 then false
  else if d.exponent ≤ 0 then true
  else d.digits * Nat.pow 10 d.exponent.toNat < Nat.pow 2 1024 - Nat.pow 2 970

/-! ## Writing -/

/-- Zeros in a row. -/
def zeros (n : Nat) : String := .ofList (List.replicate n '0')

/-- The fraction in text. -/
def render (d : Decimal) : String :=
  let sign := if d.negative then "-" else ""
  let digits := Nat.toDigits 10 d.digits
  let size : Int := digits.length
  let point := size + d.exponent
  let body :=
    if d.digits == 0 then "0.0"
    else if 0 ≤ d.exponent ∧ point ≤ 16 then
      String.ofList digits ++ zeros d.exponent.toNat ++ ".0"
    else if 0 < point ∧ point ≤ 16 then
      String.ofList (digits.take point.toNat) ++ "." ++ String.ofList (digits.drop point.toNat)
    else if -5 < point ∧ point ≤ 0 then
      "0." ++ zeros (-point).toNat ++ String.ofList digits
    else
      let tail := if digits.length == 1 then "" else "." ++ String.ofList (digits.drop 1)
      String.ofList (digits.take 1) ++ tail ++ "e" ++ toString (point - 1)
  sign ++ body

end Decimal

end PushPlan
