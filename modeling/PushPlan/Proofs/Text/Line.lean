import PushPlan.Text.Line

/-!
# PushPlan.Proofs.Text.Line

Cutting a text at a part of it, at the end of a line and at a character.

1. A text is cut at the *first* occurrence of a part (`FirstAfter`).  That there is
   no earlier one depends on the text up to the end of the occurrence only,
   whatever follows it.
2. The first line of a text ends at the first newline, and without the carriage
   return in front of it.
3. There is no cut exactly when the part, or the character, does not occur.

This module depends only on the Lean 4 core library.
-/

namespace PushPlan.Text

/-! ## Fronts -/

theorem dropFront?_eq_none_iff {front cs : List Char} :
    dropFront? front cs = none ↔ ¬ front <+: cs := by
  rw [Option.eq_none_iff_forall_ne_some]
  constructor
  · intro h hprefix
    obtain ⟨rest, hrest⟩ := hprefix
    exact h rest (dropFront?_eq_some_iff.2 hrest.symm)
  · intro h rest hrest
    exact h ⟨rest, (dropFront?_eq_some_iff.1 hrest).symm⟩

/-! ## Occurrences -/

/-- In `front ++ part ++ rest`, no occurrence of `part` starts before the one after `front`. -/
def FirstAfter (front part rest : List Char) : Prop :=
  ∀ l r, front ++ part ++ rest = l ++ part ++ r → front.length ≤ l.length

theorem firstAfter_nil (part rest : List Char) : FirstAfter [] part rest :=
  fun l _ _ => Nat.zero_le l.length

/-- An occurrence that starts earlier ends before the first one does: what follows has no say. -/
theorem FirstAfter.change_rest {front part rest : List Char} (h : FirstAfter front part rest)
    (other : List Char) : FirstAfter front part other := by
  intro l r heq
  rcases Nat.le_total front.length l.length with hle | hle
  · exact hle
  · have hfront : front ++ part <+: front ++ part ++ other := List.prefix_append _ _
    have hlater : l ++ part <+: front ++ part ++ other := heq ▸ List.prefix_append _ _
    have hlength : (l ++ part).length ≤ (front ++ part).length := by
      rw [List.length_append, List.length_append]
      exact Nat.add_le_add_right hle _
    -- The earlier occurrence ends where the first one does at the latest, so it would be there
    -- in front of `rest` as well.
    obtain ⟨m, hm⟩ := List.prefix_of_prefix_length_le hlater hfront hlength
    refine h l (m ++ rest) ?_
    rw [← hm, List.append_assoc]

theorem FirstAfter.tail {c : Char} {front part rest : List Char}
    (h : FirstAfter (c :: front) part rest) : FirstAfter front part rest := by
  intro l r heq
  have hlength := h (c :: l) r (by rw [List.cons_append, List.cons_append, heq]; rfl)
  exact Nat.le_of_succ_le_succ hlength

theorem after?_of_prefix (part rest : List Char) : after? part (part ++ rest) = some rest := by
  have hdrop : dropFront? part (part ++ rest) = some rest := dropFront?_eq_some_iff.2 rfl
  cases hcs : part ++ rest with
  | nil => rw [after?, ← hcs, hdrop]
  | cons c cs => rw [after?, ← hcs, hdrop]

/-- A text is cut behind the first occurrence. -/
theorem after?_of_firstAfter {front part rest : List Char} (h : FirstAfter front part rest) :
    after? part (front ++ part ++ rest) = some rest := by
  induction front with
  | nil => exact after?_of_prefix part rest
  | cons c front ih =>
      have hdrop : dropFront? part (c :: (front ++ part ++ rest)) = none := by
        rw [dropFront?_eq_none_iff]
        intro hprefix
        obtain ⟨r, hr⟩ := hprefix
        exact absurd (h [] r hr.symm) (by simp)
      rw [List.cons_append, List.cons_append, after?, hdrop]
      exact ih h.tail

/-- Where a text is cut, there was no occurrence before. -/
theorem firstAfter_of_after? {front part rest : List Char}
    (h : after? part (front ++ part ++ rest) = some rest) : FirstAfter front part rest := by
  induction front with
  | nil => exact firstAfter_nil part rest
  | cons c front ih =>
      rw [List.cons_append, List.cons_append, after?] at h
      cases hdrop : dropFront? part (c :: (front ++ part ++ rest)) with
      | some other =>
          -- What is left is too short for an occurrence at the front.
          rw [hdrop] at h
          have hother : other = rest := Option.some.inj h
          have hlength := congrArg List.length (dropFront?_eq_some_iff.1 hdrop)
          simp [hother] at hlength
          omega
      | none =>
          rw [hdrop] at h
          have htail : FirstAfter front part rest := ih h
          intro l r heq
          cases l with
          | nil => exact absurd ⟨r, heq.symm⟩ (dropFront?_eq_none_iff.1 hdrop)
          | cons d l => exact Nat.succ_le_succ (htail l r (List.cons.inj heq).2)

theorem firstAfter_iff {front part rest : List Char} :
    FirstAfter front part rest ↔ after? part (front ++ part ++ rest) = some rest :=
  ⟨after?_of_firstAfter, firstAfter_of_after?⟩

instance (front part rest : List Char) : Decidable (FirstAfter front part rest) :=
  decidable_of_iff _ firstAfter_iff.symm

/-- Nothing follows exactly when there is no occurrence. -/
theorem after?_eq_none_iff {part cs : List Char} : after? part cs = none ↔ ¬ part <:+: cs := by
  induction cs with
  | nil => rw [after?, dropFront?_eq_none_iff, List.prefix_nil, List.infix_nil]
  | cons c cs ih =>
      rw [List.infix_cons_iff, not_or, ← dropFront?_eq_none_iff, ← ih, after?]
      cases dropFront? part (c :: cs) <;> simp

/-! ## Lines -/

theorem firstLine_cons {c : Char} {cs : List Char} (hnewline : c ≠ '\n')
    (hreturn : c = '\r' → cs.head? ≠ some '\n') : firstLine (c :: cs) = c :: firstLine cs := by
  rw [firstLine]
  · exact hnewline
  · rintro rest rfl rfl
    exact hreturn rfl rfl

/-- Characters of one line belong to the first line, unless they end in a carriage return and a
newline follows. -/
theorem firstLine_append {l rest : List Char} (hnewline : '\n' ∉ l)
    (hreturn : l.getLast? = some '\r' → rest.head? ≠ some '\n') :
    firstLine (l ++ rest) = l ++ firstLine rest := by
  induction l with
  | nil => rfl
  | cons c l ih =>
      have hc : c ≠ '\n' := fun h => hnewline (h ▸ List.mem_cons_self)
      have hl : '\n' ∉ l := fun h => hnewline (List.mem_cons_of_mem c h)
      have hnext : c = '\r' → (l ++ rest).head? ≠ some '\n' := by
        intro h
        cases l with
        | nil =>
            -- `c` is the last character of the line.
            exact hreturn (by rw [h]; rfl)
        | cons d l =>
            intro hd
            exact hl (Option.some.inj hd ▸ List.mem_cons_self)
      have hlast : l.getLast? = some '\r' → rest.head? ≠ some '\n' := by
        intro h
        cases l with
        | nil => contradiction
        | cons d l => exact hreturn (by rw [List.getLast?_cons_cons, h])
      rw [List.cons_append, firstLine_cons hc hnext, ih hl hlast, List.cons_append]

/-! ## Single characters -/

theorem splitAt?_eq_none_iff {c : Char} {cs : List Char} : splitAt? c cs = none ↔ c ∉ cs := by
  induction cs with
  | nil => simp [splitAt?]
  | cons d cs ih =>
      by_cases h : d = c
      · simp [splitAt?, h]
      · simp [splitAt?, h, ih, Ne.symm h]

/-- A text is cut at the first occurrence. -/
theorem splitAt?_eq_some_iff {c : Char} {cs l r : List Char} :
    splitAt? c cs = some (l, r) ↔ cs = l ++ c :: r ∧ c ∉ l := by
  induction cs generalizing l r with
  | nil => simp [splitAt?]
  | cons d cs ih =>
      by_cases h : d = c
      · rw [splitAt?, if_pos h]
        cases l with
        | nil => simp [h]
        | cons e l =>
            -- `c` is the first character of both, so it would occur in the front.
            simp only [Option.some.injEq, Prod.mk.injEq, List.cons_append, List.cons.injEq,
              List.mem_cons, not_or]
            grind
      · rw [splitAt?, if_neg h]
        cases l with
        | nil => simp [h]
        | cons e l =>
            simp only [Option.map_eq_some_iff, Prod.exists, ih, Prod.mk.injEq, List.cons.injEq,
              List.cons_append, List.mem_cons, not_or]
            grind

theorem splitAtLast?_eq_none_iff {c : Char} {cs : List Char} :
    splitAtLast? c cs = none ↔ c ∉ cs := by
  induction cs with
  | nil => simp [splitAtLast?]
  | cons d cs ih =>
      cases hcut : splitAtLast? c cs with
      | some cut =>
          have hmem : c ∈ cs := by simpa [hcut] using ih
          simp [splitAtLast?, hcut, hmem]
      | none =>
          have hnot : c ∉ cs := ih.1 hcut
          simp [splitAtLast?, hcut, hnot, eq_comm]

/-- A text is cut at the last occurrence. -/
theorem splitAtLast?_append {c : Char} {r : List Char} (l : List Char) (h : c ∉ r) :
    splitAtLast? c (l ++ c :: r) = some (l, r) := by
  induction l with
  | nil => simp [splitAtLast?, splitAtLast?_eq_none_iff.2 h]
  | cons d l ih => simp [splitAtLast?, ih]

/-- A text is cut at every occurrence. -/
theorem splitAll_eq_splitOn (c : Char) (cs : List Char) : splitAll c cs = cs.splitOn c := by
  induction cs with
  | nil => rfl
  | cons d cs ih =>
      rw [splitAll, List.splitOn_cons_eq_if_modifyHead, ih]
      by_cases h : d = c
      · simp [h]
      · have hne : cs.splitOn c ≠ [] := List.splitOn_ne_nil c cs
        cases hcs : cs.splitOn c with
        | nil => exact absurd hcs hne
        | cons piece pieces => simp [h]

/-- No piece holds the character at which the text is cut. -/
theorem notMem_of_mem_splitAll {c : Char} {cs piece : List Char} (h : piece ∈ splitAll c cs) :
    c ∉ piece := by
  induction cs generalizing piece with
  | nil => simp_all [splitAll]
  | cons d cs ih =>
      rw [splitAll] at h
      split at h
      · rcases List.mem_cons.1 h with rfl | h
        · exact List.not_mem_nil
        · exact ih h
      · next hd =>
          split at h
          · rw [List.mem_singleton.1 h, List.mem_singleton]
            exact Ne.symm hd
          · next first pieces hcs =>
              rw [hcs] at ih
              rcases List.mem_cons.1 h with rfl | h
              · rw [List.mem_cons, not_or]
                exact ⟨Ne.symm hd, ih List.mem_cons_self⟩
              · exact ih (List.mem_cons_of_mem first h)

end PushPlan.Text
