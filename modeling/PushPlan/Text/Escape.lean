import PushPlan.Text.Hex

/-!
# PushPlan.Text.Escape

Reading texts between double quotes.  After a backslash, a letter stands for a
character or announces the hexadecimal digits of a code point; which letters
do is up to the format.
-/

namespace PushPlan.Text

/-- What a format allows between double quotes. -/
structure EscapeRules where
  /-- The letters that stand for a character, with its code point. -/
  letters : List (Char × Nat)
  /-- The letters that announce digits, with their number. -/
  announced : List (Char × Nat)
  /-- Whether a character may stand for itself. -/
  isAllowed : Char → Bool

/-- Where the reading of an escape stands. -/
inductive Escape where
  /-- There is none. -/
  | none
  /-- A backslash was read. -/
  | started
  /-- Some digits of a code point are still to come. -/
  | digits (left value : Nat)

namespace EscapeRules

/-- Reads on between the quotes, up to the one that closes. -/
def readFrom? (rules : EscapeRules) : Escape → List Char → Option (List Char × List Char)
  | _, [] => none
  | .none, c :: rest =>
    if c = '"' then some ([], rest)
    else if c = '\\' then rules.readFrom? .started rest
    else if rules.isAllowed c then
      (rules.readFrom? .none rest).map fun (s, rest) => (c :: s, rest)
    else none
  | .started, c :: rest =>
    match (rules.letters.lookup c).bind charOf?, rules.announced.lookup c with
    | some d, _ => (rules.readFrom? .none rest).map fun (s, rest) => (d :: s, rest)
    | none, some left => rules.readFrom? (.digits left 0) rest
    | none, none => none
  | .digits left value, c :: rest =>
    match hexDigit? c with
    | none => none
    | some d =>
      if left ≤ 1 then
        match charOf? (16 * value + d) with
        | some e => (rules.readFrom? .none rest).map fun (s, rest) => (e :: s, rest)
        | none => none
      else rules.readFrom? (.digits (left - 1) (16 * value + d)) rest

/-- Reads a text after its opening quote. -/
def read? (rules : EscapeRules) (cs : List Char) : Option (List Char × List Char) :=
  rules.readFrom? .none cs

end EscapeRules

end PushPlan.Text
