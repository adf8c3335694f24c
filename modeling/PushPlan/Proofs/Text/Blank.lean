import PushPlan.Text.Blank

/-!
# PushPlan.Proofs.Text.Blank

Trimming takes nothing away but blanks at both ends, and a text that it leaves as
it is does not start with one.  A text with no blank at either end stays, so that
trimming twice is trimming once.  The words of a text are what stands between
blanks.

This module depends only on the Lean 4 core library.
-/

namespace PushPlan.Text

variable {c : Char} {cs : List Char}

theorem trim_sublist (cs : List Char) : (trim cs).Sublist cs := by
  have hend : (trimEnd (trimStart cs)).reverse.Sublist (trimStart cs).reverse := by
    rw [trimEnd, List.reverse_reverse]
    exact List.dropWhile_sublist isBlank
  exact (List.reverse_sublist.1 hend).trans (List.dropWhile_sublist isBlank)

theorem mem_of_mem_trim (h : c ∈ trim cs) : c ∈ cs := (trim_sublist cs).subset h

theorem mem_dropWhile_of_not_blank (h : c ∈ cs) (hc : isBlank c = false) :
    c ∈ cs.dropWhile isBlank := by
  rw [← List.takeWhile_append_dropWhile (p := isBlank) (l := cs), List.mem_append] at h
  rcases h with h | h
  · have hblank := List.all_eq_true.1 (List.all_takeWhile (p := isBlank) (l := cs)) c h
    rw [hc] at hblank
    contradiction
  · exact h

/-- What is not blank stays. -/
theorem mem_trim_of_not_blank (h : c ∈ cs) (hc : isBlank c = false) : c ∈ trim cs := by
  have hstart : c ∈ (trimStart cs).reverse :=
    List.mem_reverse.2 (mem_dropWhile_of_not_blank h hc)
  exact List.mem_reverse.2 (mem_dropWhile_of_not_blank hstart hc)

/-! ## Both ends -/

/-- Trimming takes blanks from both ends. -/
theorem exists_append_trim (cs : List Char) :
    ∃ l r, cs = l ++ trim cs ++ r ∧ (∀ c ∈ l, isBlank c = true) ∧ ∀ c ∈ r, isBlank c = true := by
  have hblank : ∀ ds : List Char, ∀ c ∈ ds.takeWhile isBlank, isBlank c = true :=
    fun _ => List.all_eq_true.1 List.all_takeWhile
  have hstart : cs = cs.takeWhile isBlank ++ trimStart cs :=
    List.takeWhile_append_dropWhile.symm
  have hend : trimStart cs =
      trim cs ++ ((trimStart cs).reverse.takeWhile isBlank).reverse := by
    rw [trim, trimEnd, ← List.reverse_append, List.takeWhile_append_dropWhile,
      List.reverse_reverse]
  refine ⟨cs.takeWhile isBlank, ((trimStart cs).reverse.takeWhile isBlank).reverse, ?_,
    hblank cs, fun c hc => hblank (trimStart cs).reverse c (List.mem_reverse.1 hc)⟩
  rw [List.append_assoc, ← hend, ← hstart]

theorem isBlank_of_mem_head?_dropWhile (h : c ∈ (cs.dropWhile isBlank).head?) :
    isBlank c = false := by
  have hhead := List.head?_dropWhile_not isBlank cs
  rwa [Option.mem_def.1 h] at hhead

theorem isBlank_of_mem_head?_trim (h : c ∈ (trim cs).head?) : isBlank c = false := by
  obtain ⟨blanks, hblanks⟩ : trim cs <+: trimStart cs := by
    rw [← List.reverse_suffix, trim, trimEnd, List.reverse_reverse]
    exact List.dropWhile_suffix isBlank
  have hstart : c ∈ (trimStart cs).head? := by
    rw [← hblanks, List.head?_append, Option.mem_def.1 h]
    rfl
  exact isBlank_of_mem_head?_dropWhile hstart

/-- A trimmed text does not start with a blank. -/
theorem isBlank_of_trim_cons_eq (h : trim (c :: cs) = c :: cs) : isBlank c = false :=
  isBlank_of_mem_head?_trim (by rw [h]; rfl)

theorem isBlank_of_mem_getLast?_trim (h : c ∈ (trim cs).getLast?) : isBlank c = false := by
  rw [trim, trimEnd, List.getLast?_reverse] at h
  exact isBlank_of_mem_head?_dropWhile h

/-- A text with no blank at either end stays as it is. -/
theorem trim_eq_self (hfirst : ∀ c ∈ cs.head?, isBlank c = false)
    (hlast : ∀ c ∈ cs.getLast?, isBlank c = false) : trim cs = cs := by
  have hkeep : ∀ ds : List Char, (∀ c ∈ ds.head?, isBlank c = false) →
      ds.dropWhile isBlank = ds := by
    intro ds hds
    cases ds with
    | nil => rfl
    | cons d ds => rw [List.dropWhile_cons_of_neg (by simp [hds d rfl])]
  rw [trim, trimStart, hkeep cs hfirst, trimEnd, hkeep _ (by rwa [List.head?_reverse]),
    List.reverse_reverse]

theorem trim_trim (cs : List Char) : trim (trim cs) = trim cs :=
  trim_eq_self (fun _ h => isBlank_of_mem_head?_trim h) fun _ h => isBlank_of_mem_getLast?_trim h

/-! ## Words -/

/-- The words of a text: what stands between blanks, where there is something. -/
def words (cs : List Char) : List (List Char) := (cs.splitOnP isBlank).filter (· ≠ [])

theorem words_append_blank (a : List Char) {c : Char} (hc : isBlank c = true) (b : List Char) :
    words (a ++ c :: b) = words a ++ words b := by
  rw [words, List.splitOnP_append_cons _ _ hc, List.filter_append]
  rfl

/-- A text without blanks is one word, if there is something of it. -/
theorem words_of_no_blank {a : List Char} (ha : ∀ c ∈ a, isBlank c = false) :
    words a = if a = [] then [] else [a] := by
  rw [words, List.splitOnP_eq_singleton ha]
  by_cases h : a = [] <;> simp [h]

end PushPlan.Text
