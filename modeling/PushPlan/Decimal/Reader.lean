import PushPlan.Decimal
import PushPlan.Text.Numeral

/-!
# PushPlan.Decimal.Reader

Reading decimal fractions: an optional sign, digits with at most one point
among them, and an optional power of ten after the letter `e`.
-/

namespace PushPlan.Decimal

open Text

/-- Cuts a sign off the front of a text; true is minus. -/
def signPart : List Char → Bool × List Char
  | '-' :: rest => (true, rest)
  | '+' :: rest => (false, rest)
  | cs => (false, cs)

/-- The part after a point; nothing is read where there is no point. -/
def fractionPart? : List Char → Option (Option (List Char) × List Char)
  | '.' :: rest =>
    match digitsOf rest with
    | ([], _) => none
    | (digits, rest) => some (some digits, rest)
  | cs => some (none, cs)

/-- The power of ten after the letter `e`; nothing is read where there is no such letter. -/
def exponentPart? (cs : List Char) : Option (Option Int × List Char) :=
  match cs with
  | c :: rest =>
    if c = 'e' ∨ c = 'E' then
      let (negative, rest) := signPart rest
      match digitsOf rest with
      | ([], _) => none
      | (digits, rest) =>
        some (some (if negative then -(numberOf digits : Int) else numberOf digits), rest)
    else some (none, cs)
  | [] => some (none, [])

/-- The fraction of the digits before and after a point and a power of ten. -/
def ofParts (negative : Bool) (whole places : List Char) (exponent : Int) : Decimal :=
  .ofDigits negative (numberOf (whole ++ places)) (exponent - places.length)

/-- The fraction that a text spells; digits may be missing on one side of the point. -/
def read? (cs : List Char) : Option Decimal := do
  let (negative, cs) := signPart cs
  let (whole, rest) := digitsOf cs
  let (places, rest) :=
    match rest with
    | '.' :: rest => digitsOf rest
    | rest => ([], rest)
  let (exponent, rest) ← exponentPart? rest
  if (whole ++ places).isEmpty || !rest.isEmpty then none
  else some (ofParts negative whole places (exponent.getD 0))

end PushPlan.Decimal
