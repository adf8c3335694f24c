import PushPlan.Request.Token

/-!
# PushPlan.Request.Items

Comma lists:

1. commas separate items, except inside brackets;
2. items are trimmed, and empty ones are dropped;
3. where a list names things, only the first occurrence of a name counts.
-/

namespace PushPlan.Request

open Text

/-! ## Splitting -/

/-- The pieces between the commas outside brackets, the first one apart. -/
def pieces (depth : Nat) : List Char → List Char × List (List Char)
  | [] => ([], [])
  | c :: cs =>
    if c = ',' ∧ depth = 0 then
      let (piece, rest) := pieces 0 cs
      ([], piece :: rest)
    else
      let (piece, rest) := pieces (nest depth c) cs
      (c :: piece, rest)

/-- The items of a comma list. -/
def items (value : List Char) : List String :=
  let (piece, rest) := pieces 0 value
  (((piece :: rest).map trim).filter fun item => !item.isEmpty).map String.ofList

/-! ## First occurrences -/

/-- Adds an element at the end of a list that lacks it. -/
def pushNew {α : Type} [DecidableEq α] (l : List α) (a : α) : List α :=
  if a ∈ l then l else l ++ [a]

/-- The elements of a list without repetitions, in the order of their first occurrences. -/
def firsts {α : Type} [DecidableEq α] (l : List α) : List α := l.foldl pushNew []

theorem mem_pushNew {α : Type} [DecidableEq α] {l : List α} {a b : α} :
    b ∈ pushNew l a ↔ b ∈ l ∨ b = a := by
  unfold pushNew
  split
  · exact ⟨.inl, fun h => h.elim id fun h => h ▸ ‹a ∈ l›⟩
  · simp

theorem nodup_pushNew {α : Type} [DecidableEq α] {l : List α} (a : α) (h : l.Nodup) :
    (pushNew l a).Nodup := by
  unfold pushNew
  split
  · exact h
  · next ha => exact List.nodup_append.2 ⟨h, by simp, by rintro x hx y hy rfl; simp_all⟩

end PushPlan.Request
