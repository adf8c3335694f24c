import PushPlan.Proofs.Text.Blank
import PushPlan.Request.Token

/-!
# PushPlan.Proofs.Request.Token

The tokens of a line that is put together from parts.

1. A scan over two parts ends tokens in the first (`Scan.ended`) and goes on
   with the second from where it then stands (`Scan.tokens_append`).
2. Where it stands outside quotes and brackets (`Scan.Outside`), a blank ends the
   token under way and leaves nothing of it, and further blanks change nothing:
   the tokens of the whole are those of the parts.
3. Without quotes and opening brackets a scan is always outside, and the tokens are
   the words between blanks.  Closing brackets are characters like any other then.

This module depends only on the Lean 4 core library.
-/

namespace PushPlan.Request

open Text

namespace Scan

/-! ## Scans in parts -/

/-- The tokens that end within a text; the one under way at its end is left out. -/
def ended (s : Scan) : List Char → List (List Char)
  | [] => []
  | c :: cs => (s.step c).1.toList ++ ended (s.step c).2 cs

theorem after_cons (s : Scan) (c : Char) (cs : List Char) :
    s.after (c :: cs) = (s.step c).2.after cs := rfl

/-- **Append law**: a scan goes on from where it stands. -/
theorem tokens_append (s : Scan) (a b : List Char) :
    s.tokens (a ++ b) = s.ended a ++ (s.after a).tokens b := by
  induction a generalizing s with
  | nil => rfl
  | cons c a ih =>
      rw [List.cons_append, tokens, ended, ih, after_cons, List.append_assoc]

theorem tokens_eq_ended (s : Scan) (a : List Char) :
    s.tokens a = s.ended a ++ (s.after a).token.toList := by
  have h := s.tokens_append a []
  rwa [List.append_nil, tokens] at h

theorem ended_append (s : Scan) (a b : List Char) :
    s.ended (a ++ b) = s.ended a ++ (s.after a).ended b := by
  induction a generalizing s with
  | nil => rfl
  | cons c a ih =>
      rw [List.cons_append, ended, ended, ih, after_cons, List.append_assoc]

theorem after_append (s : Scan) (a b : List Char) : s.after (a ++ b) = (s.after a).after b :=
  List.foldl_append

/-! ## Outside quotes and brackets -/

/-- The scan stands outside quotes and brackets. -/
structure Outside (s : Scan) : Prop where
  quote : s.quote = none
  depth : s.depth = 0

theorem outside_iff {s : Scan} : s.Outside ↔ s.quote = none ∧ s.depth = 0 :=
  ⟨fun h => ⟨h.quote, h.depth⟩, fun h => ⟨h.1, h.2⟩⟩

instance (s : Scan) : Decidable s.Outside := decidable_of_iff _ outside_iff.symm

theorem outside_start : start.Outside := ⟨rfl, rfl⟩

/-- No blank is a quote. -/
theorem isQuote_of_isBlank {c : Char} (h : isBlank c = true) : isQuote c = false := by
  cases hc : isQuote c with
  | false => rfl
  | true =>
      simp only [isQuote, Bool.or_eq_true, beq_iff_eq] at hc
      rcases hc with rfl | rfl <;> contradiction

/-- Outside, a blank ends the token under way. -/
theorem Outside.step_blank {s : Scan} (h : s.Outside) {c : Char} (hc : isBlank c = true) :
    s.step c = (s.token, start) := by
  obtain ⟨token, depth, quote⟩ := s
  obtain ⟨rfl, rfl⟩ := outside_iff.1 h
  simp [step, isQuote_of_isBlank hc, hc, start]

/-- Outside, a character that is no blank, no quote and no opening bracket is one more of the
token under way. -/
theorem Outside.step_plain {s : Scan} (h : s.Outside) {c : Char} (hblank : isBlank c = false)
    (hquote : isQuote c = false) (hopen : c ≠ '[') : s.step c = (none, s.push c) := by
  obtain ⟨token, depth, quote⟩ := s
  obtain ⟨rfl, rfl⟩ := outside_iff.1 h
  simp [step, hblank, hquote, push, nest, hopen]

theorem Outside.push {s : Scan} (h : s.Outside) (c : Char) : (s.push c).Outside :=
  ⟨h.quote, h.depth⟩

/-- Blanks at the front of a line change nothing. -/
theorem tokens_start_of_blanks {w : List Char} (hw : ∀ c ∈ w, isBlank c = true) (b : List Char) :
    start.tokens (w ++ b) = start.tokens b := by
  induction w with
  | nil => rfl
  | cons c w ih =>
      rw [List.forall_mem_cons] at hw
      rw [List.cons_append, tokens, outside_start.step_blank hw.1]
      exact ih hw.2

/-- **Blanks cut**: outside quotes and brackets, blanks end the token under way, and what follows
is scanned as a line of its own. -/
theorem tokens_append_blanks {s : Scan} {a w : List Char} (ha : (s.after a).Outside)
    (hne : w ≠ []) (hw : ∀ c ∈ w, isBlank c = true) (b : List Char) :
    s.tokens (a ++ w ++ b) = s.tokens a ++ start.tokens b := by
  obtain ⟨c, w, rfl⟩ := List.exists_cons_of_ne_nil hne
  rw [List.forall_mem_cons] at hw
  have hcut : (s.after a).tokens (c :: w ++ b) = (s.after a).token.toList ++ start.tokens b := by
    rw [List.cons_append, tokens, ha.step_blank hw.1, tokens_start_of_blanks hw.2]
  rw [List.append_assoc, tokens_append, hcut, tokens_eq_ended s a, List.append_assoc]

end Scan

theorem tokenize_append_blanks {a w : List Char} (ha : (Scan.start.after a).Outside)
    (hne : w ≠ []) (hw : ∀ c ∈ w, isBlank c = true) (b : List Char) :
    tokenize (a ++ w ++ b) = tokenize a ++ tokenize b := by
  rw [tokenize, Scan.tokens_append_blanks ha hne hw, List.map_append]
  rfl

/-! ## Words -/

/-- A scan over a text without quotes and opening brackets finds the words, of which `a` is the
beginning of the first. -/
theorem tokens_eq_words {s : Scan} (hs : s.Outside) {a : List Char}
    (ha : ∀ c ∈ a, isBlank c = false) (htoken : s.token = if a = [] then none else some a)
    {line : List Char} (hline : ∀ c ∈ line, isQuote c = false ∧ c ≠ '[') :
    s.tokens line = words (a ++ line) := by
  induction line generalizing s a with
  | nil =>
      rw [Scan.tokens, htoken, List.append_nil, words_of_no_blank ha]
      split <;> rfl
  | cons c line ih =>
      rw [List.forall_mem_cons] at hline
      obtain ⟨⟨hquote, hopen⟩, hline⟩ := hline
      cases hc : isBlank c with
      | true =>
          have hrest : Scan.start.tokens line = words ([] ++ line) :=
            ih Scan.outside_start (by simp) rfl hline
          rw [Scan.tokens, hs.step_blank hc, hrest, htoken, words_append_blank a hc,
            words_of_no_blank ha]
          split <;> rfl
      | false =>
          have hgrown : ∀ d ∈ a ++ [c], isBlank d = false := by
            simpa [or_imp, forall_and, hc] using ha
          have hpushed : (s.push c).token = if a ++ [c] = [] then none else some (a ++ [c]) := by
            rw [if_neg (by simp), Scan.push, htoken]
            split <;> simp [*]
          rw [Scan.tokens, hs.step_plain hc hquote hopen, ih (hs.push c) hgrown hpushed hline,
            List.append_assoc]
          rfl

/-- **Tokens of parts**: behind a part that ends outside quotes and brackets, blanks separate its
tokens from those of the rest.  And in a line without quotes and opening brackets the tokens are
the words. -/
theorem tokenize_compositional :
    (∀ a w b : List Char, (Scan.start.after a).Outside → w ≠ [] → (∀ c ∈ w, isBlank c = true) →
      tokenize (a ++ w ++ b) = tokenize a ++ tokenize b) ∧
    ∀ line : List Char, (∀ c ∈ line, isQuote c = false) → '[' ∉ line →
      tokenize line = (words line).map String.ofList := by
  refine ⟨fun a w b ha hne hw => tokenize_append_blanks ha hne hw b, fun line hquote hopen => ?_⟩
  have hline : ∀ c ∈ line, isQuote c = false ∧ c ≠ '[' := by
    intro c hc
    exact ⟨hquote c hc, fun h => hopen (h ▸ hc)⟩
  have htokens : Scan.start.tokens line = words ([] ++ line) :=
    tokens_eq_words Scan.outside_start (by simp) rfl hline
  rw [tokenize, htokens, List.nil_append]

/-- A stray closing bracket and an empty token before the cut, an open bracket behind it; and a
line with closing brackets alone. -/
theorem tokenize_compositional_stray :
    (Scan.start.after "] -u x[a b] ''".toList).Outside ∧
      tokenize ("] -u x[a b] ''".toList ++ "\t ".toList ++ "[c d".toList) =
        ["]", "-u", "x[a b]", ""] ++ ["[c d"] ∧
      tokenize "a]] ]b \u00a0 c".toList = ["a]]", "]b", "c"] := by
  have ha : (Scan.start.after "] -u x[a b] ''".toList).Outside := by decide
  have hblank : ∀ c ∈ "\t ".toList, isBlank c = true := List.all_eq_true.1 (by decide)
  have hcut := tokenize_compositional.1 "] -u x[a b] ''".toList "\t ".toList "[c d".toList ha
    (by decide) hblank
  have hquote : ∀ c ∈ "a]] ]b \u00a0 c".toList, isQuote c = false :=
    fun c hc => Bool.eq_false_iff.2 (List.any_eq_false.1 (by decide) c hc)
  have hwords := tokenize_compositional.2 "a]] ]b \u00a0 c".toList hquote (by decide)
  exact ⟨ha, hcut.trans (by decide), hwords.trans (by decide)⟩

end PushPlan.Request
