import PushPlan.Decimal.Reader
import PushPlan.Text.Escape
import PushPlan.Value
import PushPlan.Word

/-!
# PushPlan.Toml.Scalar

Strings, numbers and truth values in TOML:

1. a basic string stands in double quotes and has escapes, a literal string
   in single quotes has none; both stay on one line;
2. a number may have underscores between its digits and a sign; a whole
   number has no leading zeros, or a base and no sign, and fits a signed word
   of 64 bits;
3. infinite and undefined numbers stand for null.
-/

namespace PushPlan.Toml

open Text

/-! ## Strings -/

/-- Whether a character may stand in a string or a comment. -/
def isAllowed (c : Char) : Bool := c == '\t' || (0x20 ≤ c.toNat && c.toNat ≠ 0x7F)

/-- The escapes in basic strings. -/
def escapes : EscapeRules where
  letters :=
    [('b', 0x08), ('t', 0x09), ('n', 0x0A), ('f', 0x0C), ('r', 0x0D), ('"', 0x22), ('\\', 0x5C)]
  announced := [('u', 4), ('U', 8)]
  isAllowed

/-- Reads on after a single quote, up to the one that closes. -/
def literal? : List Char → Option (List Char × List Char)
  | [] => none
  | c :: rest =>
    if c = '\'' then some ([], rest)
    else if isAllowed c then (literal? rest).map fun (s, rest) => (c :: s, rest)
    else none

/-- Reads a string. -/
def string? : List Char → Option (String × List Char)
  | '"' :: rest => (escapes.read? rest).map fun (s, rest) => (.ofList s, rest)
  | '\'' :: rest => (literal? rest).map fun (s, rest) => (.ofList s, rest)
  | _ => none

/-! ## Numbers -/

/-- Drops the underscores of a number, each of which must stand between two digits. -/
def joined? (afterDigit : Bool) : List Char → Option (List Char)
  | [] => some []
  | c :: rest =>
    if c = '_' then
      if afterDigit && rest.head?.any fun d => (hexDigit? d).isSome then joined? false rest
      else none
    else (joined? (hexDigit? c).isSome rest).map (c :: ·)

/-- A whole number that fits a signed word of 64 bits. -/
def fitting? (n : Int) : Option Value :=
  if Word.isSigned n then some (.int n) else none

/-- The value of digits in a base, of which there is at least one. -/
def based? (base : Nat) (digits : List Char) : Option Value :=
  if digits.isEmpty then none else (valueIn? base digits).bind fun n => fitting? n

/-- The value of a number without underscores, base and sign. -/
def decimal? (negative : Bool) (cs : List Char) : Option Value := do
  let (whole, rest) := digitsOf cs
  if whole.isEmpty || (whole.length > 1 && whole.head? == some '0') then none
  else if rest.isEmpty then
    fitting? (if negative then -(numberOf whole : Int) else numberOf whole)
  else
    let (places, rest) ← Decimal.fractionPart? rest
    let (exponent, rest) ← Decimal.exponentPart? rest
    let d := Decimal.ofParts negative whole (places.getD []) (exponent.getD 0)
    if rest.isEmpty && d.isFinite then some (.fraction d) else none

/-- The value of a number. -/
def number? (cs : List Char) : Option Value := do
  match ← joined? false cs with
  | '0' :: 'x' :: digits => based? 16 digits
  | '0' :: 'o' :: digits => based? 8 digits
  | '0' :: 'b' :: digits => based? 2 digits
  | cs =>
    let (negative, body) := Decimal.signPart cs
    if body = "inf".toList ∨ body = "nan".toList then some .null else decimal? negative body

/-- The value of a word: a truth value or a number. -/
def word? (cs : List Char) : Option Value :=
  if cs = "true".toList then some (.bool true)
  else if cs = "false".toList then some (.bool false)
  else number? cs

end PushPlan.Toml
