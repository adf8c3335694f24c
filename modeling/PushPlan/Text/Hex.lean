/-!
# PushPlan.Text.Hex

Hexadecimal digits, and characters spelled by their code points.
-/

namespace PushPlan.Text

/-- The value of a hexadecimal digit, in either case. -/
def hexDigit? (c : Char) : Option Nat :=
  let n := c.toNat
  if 48 ≤ n ∧ n ≤ 57 then some (n - 48)
  else if 97 ≤ n ∧ n ≤ 102 then some (n - 87)
  else if 65 ≤ n ∧ n ≤ 70 then some (n - 55)
  else none

/-- The value of digits in a row, in a base of at most sixteen. -/
def valueIn? (base : Nat) (cs : List Char) : Option Nat :=
  cs.foldlM
    (fun n c =>
      match hexDigit? c with
      | some d => if d < base then some (base * n + d) else none
      | none => none) 0

/-- The value of hexadecimal digits in a row. -/
def hexValue? (cs : List Char) : Option Nat := valueIn? 16 cs

/-- The character of a code point; surrogates have none. -/
def charOf? (n : Nat) : Option Char :=
  if h : n.isValidChar then some (Char.ofNatAux n h) else none

/-- A number in lower-case hexadecimal digits, at least `width` of them. -/
def hexDigits (width n : Nat) : String :=
  let digits := Nat.toDigits 16 n
  .ofList (List.replicate (width - digits.length) '0' ++ digits)

end PushPlan.Text
