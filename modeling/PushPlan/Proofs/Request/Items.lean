import PushPlan.Request.Selection

/-!
# PushPlan.Proofs.Request.Items

Lists of first occurrences.

1. Leaving out repetitions neither adds nor loses an element, and what is left is
   in the order of the list.
2. Where each element of a list brings a list of its own, repetitions may be left
   out before that and will be left out after it: an element that occurs again
   brings nothing new.
3. A value that is no word of its own selects the first occurrences of its items.
-/

namespace PushPlan.Request

theorem mem_foldl_pushNew {α : Type} [DecidableEq α] {found l : List α} {a : α} :
    a ∈ l.foldl pushNew found ↔ a ∈ found ∨ a ∈ l := by
  induction l generalizing found with
  | nil => simp
  | cons b l ih =>
      rw [List.foldl_cons, ih, mem_pushNew, List.mem_cons, or_assoc]

theorem mem_firsts {α : Type} [DecidableEq α] {l : List α} {a : α} : a ∈ firsts l ↔ a ∈ l := by
  rw [firsts, mem_foldl_pushNew]
  simp

/-- Adding elements one after the other adds the first occurrences of those that are new. -/
theorem foldl_pushNew_eq {α : Type} [DecidableEq α] {found l : List α} :
    l.foldl pushNew found = found ++ (l.filter fun a => a ∉ found).eraseDups := by
  induction l generalizing found with
  | nil => simp
  | cons b l ih =>
      rw [List.foldl_cons, ih, pushNew]
      by_cases hb : b ∈ found
      · simp [hb]
      · have hfilter : l.filter (fun a => a ∉ found ++ [b]) =
            (l.filter fun a => a ∉ found).filter fun a => !a == b := by
          rw [List.filter_filter]
          refine List.filter_congr fun a _ => ?_
          by_cases hab : a = b <;> simp [hab, hb]
        rw [if_neg hb, hfilter, List.filter_cons_of_pos (by simpa using hb), List.eraseDups_cons,
          List.append_assoc]
        rfl

/-- The first occurrences are the list without its duplicates. -/
theorem firsts_eq_eraseDups {α : Type} [DecidableEq α] (l : List α) : firsts l = l.eraseDups := by
  rw [firsts, foldl_pushNew_eq, List.nil_append, List.filter_eq_self.2 (by simp)]

theorem nodup_foldl_pushNew {α : Type} [DecidableEq α] {found : List α} (l : List α)
    (h : found.Nodup) : (l.foldl pushNew found).Nodup := by
  induction l generalizing found with
  | nil => exact h
  | cons a l ih => exact ih (nodup_pushNew a h)

theorem nodup_firsts {α : Type} [DecidableEq α] (l : List α) : (firsts l).Nodup :=
  nodup_foldl_pushNew l List.nodup_nil

/-! ## Lists that elements bring -/

section

variable {α β : Type} [DecidableEq α]

/-- Elements that are there already change nothing. -/
theorem foldl_pushNew_of_subset {found l : List α} (h : l ⊆ found) :
    l.foldl pushNew found = found := by
  induction l with
  | nil => rfl
  | cons a l ih =>
      obtain ⟨ha, hl⟩ := List.cons_subset.1 h
      have hnew : pushNew found a = found := if_pos ha
      rw [List.foldl_cons, hnew, ih hl]

/-- The first occurrences of a list bring what the list brings. -/
theorem foldl_pushNew_foldl_pushNew (found m l : List α) :
    (l.foldl pushNew m).foldl pushNew found = l.foldl pushNew (m.foldl pushNew found) := by
  induction l generalizing m with
  | nil => rfl
  | cons a l ih =>
      have hstep : (pushNew m a).foldl pushNew found = pushNew (m.foldl pushNew found) a := by
        by_cases ha : a ∈ m
        · have hfound : a ∈ m.foldl pushNew found := mem_foldl_pushNew.2 (.inr ha)
          rw [pushNew, if_pos ha, pushNew, if_pos hfound]
        · rw [pushNew, if_neg ha, List.foldl_append, List.foldl_cons, List.foldl_nil]
      rw [List.foldl_cons, ih, hstep, List.foldl_cons]

theorem firsts_append (l m : List α) : firsts (l ++ m) = m.foldl pushNew (firsts l) :=
  List.foldl_append

/-- Adding list after list is adding them joined. -/
theorem foldl_foldl_pushNew (f : β → List α) (l : List β) :
    l.foldl (fun found b => (f b).foldl pushNew found) [] = firsts (l.flatMap f) := by
  rw [firsts, List.foldl_flatMap]

variable [DecidableEq β]

/-- An element that occurs again brings nothing new. -/
theorem firsts_flatMap_pushNew (f : β → List α) (l : List β) (b : β) :
    firsts ((pushNew l b).flatMap f) = (f b).foldl pushNew (firsts (l.flatMap f)) := by
  by_cases hb : b ∈ l
  · have hsub : f b ⊆ firsts (l.flatMap f) := by
      intro a ha
      exact mem_firsts.2 (List.mem_flatMap_of_mem hb ha)
    rw [pushNew, if_pos hb, foldl_pushNew_of_subset hsub]
  · rw [pushNew, if_neg hb, List.flatMap_append, firsts_append, List.flatMap_singleton]

theorem firsts_flatMap_foldl_pushNew (f : β → List α) (found l : List β) :
    firsts ((l.foldl pushNew found).flatMap f) =
      (l.flatMap f).foldl pushNew (firsts (found.flatMap f)) := by
  induction l generalizing found with
  | nil => rfl
  | cons b l ih =>
      rw [List.foldl_cons, ih, firsts_flatMap_pushNew, List.flatMap_cons, List.foldl_append]

/-- **First occurrences twice**: of elements that bring lists, only first occurrences matter. -/
theorem firsts_flatMap_firsts (f : β → List α) (l : List β) :
    firsts ((firsts l).flatMap f) = firsts (l.flatMap f) :=
  firsts_flatMap_foldl_pushNew f [] l

end

/-! ## Values -/

/-- A value that is no word of its own lists names. -/
theorem readNames_eq_only {value : String} (hall : value ≠ "all") (hnone : value ≠ "none") :
    readNames value = .only (firsts (items value.toList)) := by
  rw [readNames, if_neg hall, if_neg hnone]

end PushPlan.Request
