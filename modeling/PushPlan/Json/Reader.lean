import PushPlan.Decimal.Reader
import PushPlan.Text.Bracketed
import PushPlan.Text.Hex
import PushPlan.Value
import PushPlan.Word

/-!
# PushPlan.Json.Reader

Reading JSON text:

1. blanks are space, tab, newline and carriage return;
2. a number without point and exponent is whole when a word of 64 bits holds
   it, signed or not, and a fraction otherwise, as is `-0`;
3. a string holds no control character; a surrogate is only good as half of
   a pair, both halves escaped;
4. values nest at most 127 deep;
5. records keep their fields as written, repeated names included.
-/

namespace PushPlan.Json

open Text

/-! ## Blanks -/

/-- Whether a character is a blank between tokens. -/
def isSpace (c : Char) : Bool := c == ' ' || c == '\t' || c == '\n' || c == '\r'

/-- A text without the blanks at its front. -/
def skip (cs : List Char) : List Char := cs.dropWhile isSpace

/-! ## Strings -/

/-- Cuts a text at the quote that closes a string; escapes stay as they are. -/
def cutString? : List Char → Option (List Char × List Char)
  | [] => none
  | '"' :: rest => some ([], rest)
  | '\\' :: c :: rest => (cutString? rest).map fun (body, rest) => ('\\' :: c :: body, rest)
  | c :: rest =>
    if c.toNat < 0x20 then none else (cutString? rest).map fun (body, rest) => (c :: body, rest)

/-- The code point that an escape of one letter stands for. -/
def escapeOf? : Char → Option Nat
  | '"' => some 0x22
  | '\\' => some 0x5C
  | '/' => some 0x2F
  | 'b' => some 0x08
  | 'f' => some 0x0C
  | 'n' => some 0x0A
  | 'r' => some 0x0D
  | 't' => some 0x09
  | _ => none

/-- The code points of a string, escaped surrogates still apart. -/
def codePoints? : List Char → Option (List Nat)
  | [] => some []
  | '\\' :: 'u' :: a :: b :: c :: d :: rest => do
    let n ← hexValue? [a, b, c, d]
    let ns ← codePoints? rest
    some (n :: ns)
  | '\\' :: c :: rest => do
    let n ← escapeOf? c
    let ns ← codePoints? rest
    some (n :: ns)
  | c :: rest => (codePoints? rest).map (c.toNat :: ·)

/-- The characters of code points, pairs of surrogates joined. -/
def joinSurrogates? : List Nat → Option (List Char)
  | [] => some []
  | high :: low :: rest =>
    if 0xD800 ≤ high ∧ high < 0xDC00 then
      if 0xDC00 ≤ low ∧ low < 0xE000 then do
        let c ← charOf? (0x10000 + (high - 0xD800) * 0x400 + (low - 0xDC00))
        let cs ← joinSurrogates? rest
        some (c :: cs)
      else none
    else do
      let c ← charOf? high
      let cs ← joinSurrogates? (low :: rest)
      some (c :: cs)
  | [n] => (charOf? n).map ([·])

/-- Reads a string after its opening quote. -/
def string? (cs : List Char) : Option (String × List Char) := do
  let (body, rest) ← cutString? cs
  let chars ← joinSurrogates? (← codePoints? body)
  some (.ofList chars, rest)

/-! ## Numbers -/

/-- A whole number that fits, else the fraction of the same size. -/
def wholeNumber (negative : Bool) (n : Nat) : Value :=
  if negative then
    if 0 < n ∧ n ≤ Word.signedLimit then .int (-(n : Int)) else .fraction (.ofDigits true n 0)
  else if n < Word.limit then .int n
  else .fraction (.ofDigits false n 0)

/-- The value of a number in its parts; nothing if it is out of range. -/
def numberValue? (negative : Bool) (whole : List Char) (places : Option (List Char))
    (exponent : Option Int) : Option Value :=
  if places.isNone && exponent.isNone then some (wholeNumber negative (numberOf whole))
  else
    let d := Decimal.ofParts negative whole (places.getD []) (exponent.getD 0)
    if d.isFinite then some (.fraction d) else none

/-- Reads a number. -/
def number? (cs : List Char) : Option (Value × List Char) := do
  let (negative, cs) :=
    match cs with
    | '-' :: rest => (true, rest)
    | cs => (false, cs)
  let (whole, rest) := digitsOf cs
  match whole with
  | [] => none
  | '0' :: _ :: _ => none
  | _ =>
    let (fraction, rest) ← Decimal.fractionPart? rest
    let (exponent, rest) ← Decimal.exponentPart? rest
    let v ← numberValue? negative whole fraction exponent
    some (v, rest)

/-! ## Values -/

/-- How items stand between brackets: with blanks around them, and no comma after the last. -/
def brackets (close : Char) : BracketRules := ⟨close, fun cs => some (skip cs), false⟩

/-- Reads a field: a name, a colon and a value. -/
def field? (value : List Char → Option (Value × List Char)) (cs : List Char) :
    Option ((String × Value) × List Char) :=
  match skip cs with
  | '"' :: rest => do
    let (name, rest) ← string? rest
    match skip rest with
    | ':' :: rest =>
      let (v, rest) ← value rest
      some ((name, v), rest)
    | _ => none
  | _ => none

/-- Reads a value that nests less than `depth` deep. -/
def value? : Nat → List Char → Option (Value × List Char)
  | 0, _ => none
  | depth + 1, cs =>
    match skip cs with
    | 'n' :: 'u' :: 'l' :: 'l' :: rest => some (.null, rest)
    | 't' :: 'r' :: 'u' :: 'e' :: rest => some (.bool true, rest)
    | 'f' :: 'a' :: 'l' :: 's' :: 'e' :: rest => some (.bool false, rest)
    | '"' :: rest => (string? rest).map fun (s, rest) => (.text s, rest)
    | '[' :: rest =>
      if depth = 0 then none
      else ((brackets ']').read? (value? depth) rest).map fun (vs, rest) => (.list vs, rest)
    | '\x7b' :: rest =>
      if depth = 0 then none
      else
        ((brackets '\x7d').read? (field? (value? depth)) rest).map fun (fs, rest) =>
          (.record fs, rest)
    | cs => number? cs

/-- The value of a JSON text. -/
def read? (text : String) : Option Value := do
  let (v, rest) ← value? 128 text.toList
  if (skip rest).isEmpty then some v else none

end PushPlan.Json
