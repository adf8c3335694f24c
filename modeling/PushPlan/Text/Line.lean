/-!
# PushPlan.Text.Line

Finding a marker in a text and cutting the line that follows it.  All
functions work on the characters of the text, so that a statement about a
text in pieces is a statement about appended lists.
-/

namespace PushPlan.Text

/-! ## Fronts -/

/-- What follows `front` at the front of a text, if the text starts with it. -/
def dropFront? : List Char → List Char → Option (List Char)
  | [], cs => some cs
  | _ :: _, [] => none
  | m :: ms, c :: cs => if m = c then dropFront? ms cs else none

/-- Whether a text starts with `front`. -/
def startsWith (front cs : List Char) : Bool := (dropFront? front cs).isSome

/-- A text starts with `front` exactly when it is `front` and then the rest. -/
theorem dropFront?_eq_some_iff {front cs rest : List Char} :
    dropFront? front cs = some rest ↔ cs = front ++ rest := by
  induction front generalizing cs with
  | nil => simp [dropFront?, eq_comm]
  | cons m ms ih =>
    cases cs with
    | nil => simp [dropFront?]
    | cons c cs =>
      by_cases h : m = c
      · simp [dropFront?, h, ih]
      · simp [dropFront?, h, Ne.symm h]

/-! ## Occurrences -/

/-- What follows the first occurrence of `part`; the empty text occurs at the front. -/
def after? (part : List Char) : List Char → Option (List Char)
  | [] => dropFront? part []
  | c :: cs =>
    match dropFront? part (c :: cs) with
    | some rest => some rest
    | none => after? part cs

/-- Whether `part` occurs in a text. -/
def occursIn (part cs : List Char) : Bool := (after? part cs).isSome

/-! ## Lines -/

/-- The first line of a text: all before the first newline, less a carriage return
that stands directly before that newline. -/
def firstLine : List Char → List Char
  | [] => []
  | '\n' :: _ => []
  | '\r' :: '\n' :: _ => []
  | c :: cs => c :: firstLine cs

/-- The text before and after the first `c`, if there is one. -/
def splitAt? (c : Char) : List Char → Option (List Char × List Char)
  | [] => none
  | d :: cs => if d = c then some ([], cs) else (splitAt? c cs).map fun (l, r) => (d :: l, r)

/-- The text before and after the last `c`, if there is one. -/
def splitAtLast? (c : Char) : List Char → Option (List Char × List Char)
  | [] => none
  | d :: cs =>
    match splitAtLast? c cs with
    | some (l, r) => some (d :: l, r)
    | none => if d = c then some ([], cs) else none

/-- The pieces between the occurrences of `c`; there is always at least one. -/
def splitAll (c : Char) : List Char → List (List Char)
  | [] => [[]]
  | d :: cs =>
    if d = c then [] :: splitAll c cs
    else
      match splitAll c cs with
      | [] => [[d]]
      | piece :: rest => (d :: piece) :: rest

end PushPlan.Text
