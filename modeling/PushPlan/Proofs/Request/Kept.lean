import PushPlan.Proofs.Request.Quoted
import PushPlan.Proofs.Text.Line

/-!
# PushPlan.Proofs.Request.Kept

What the tokens of a line keep of it.

1. The rule is stated without a scan (`Keeps`): a line outside quotes starts with a quoted
   run, which is kept without the quotes around it, with a blank outside brackets, which
   is not kept, or with any other character, which is.  A run that is not closed goes on
   to the end of the line.
2. Every line keeps something by this rule (`exists_keeps`), and what it keeps is what its
   tokens hold, joined (`Keeps.flatten_tokens`).  So the rule leaves no choice, and the
   tokens lose and invent nothing.
3. Only a quoted run can make a token that is empty.
-/

namespace PushPlan.Request

open Text

/-! ## The rule -/

/-- What a line keeps that starts outside quotes, at a bracket depth. -/
inductive Keeps : (depth : Nat) → (line kept : List Char) → Prop
  /-- There is nothing left. -/
  | nil (depth : Nat) : Keeps depth [] []
  /-- Of a quoted run only the two quotes are lost; brackets in it count for nothing. -/
  | run {depth : Nat} {quote : Char} {run rest kept : List Char} (hquote : isQuote quote = true)
      (hrun : quote ∉ run) (hrest : Keeps depth rest kept) :
      Keeps depth (quote :: (run ++ quote :: rest)) (run ++ kept)
  /-- Of a run that is not closed only the opening quote is lost. -/
  | openRun {depth : Nat} {quote : Char} {run : List Char} (hquote : isQuote quote = true)
      (hrun : quote ∉ run) : Keeps depth (quote :: run) run
  /-- A blank outside brackets is lost. -/
  | blank {c : Char} {rest kept : List Char} (hblank : isBlank c = true)
      (hrest : Keeps 0 rest kept) : Keeps 0 (c :: rest) kept
  /-- Any other character is kept. -/
  | char {depth : Nat} {c : Char} {rest kept : List Char} (hquote : isQuote c = false)
      (hblank : isBlank c = true → depth ≠ 0) (hrest : Keeps (nest depth c) rest kept) :
      Keeps depth (c :: rest) (c :: kept)

/-- What is kept stays in its order. -/
theorem Keeps.sublist {depth : Nat} {line kept : List Char} (h : Keeps depth line kept) :
    kept.Sublist line := by
  induction h with
  | nil depth => exact List.Sublist.slnil
  | run _ _ _ ih => exact ((List.Sublist.refl _).append (ih.cons _)).cons _
  | openRun _ _ => exact List.sublist_cons_self _ _
  | blank _ _ ih => exact ih.cons _
  | char _ _ _ ih => exact ih.cons_cons _

/-- Every line keeps something. -/
theorem exists_keeps (depth : Nat) (line : List Char) : ∃ kept, Keeps depth line kept := by
  induction hlength : line.length using Nat.strongRecOn generalizing depth line with
  | ind n ih =>
      cases line with
      | nil => exact ⟨[], .nil depth⟩
      | cons c rest =>
          have hshort : ∀ later : List Char, later.length ≤ rest.length → later.length < n := by
            intro later hle
            rw [← hlength, List.length_cons]
            exact Nat.lt_succ_of_le hle
          cases hquote : isQuote c with
          | true =>
              cases hcut : splitAt? c rest with
              | none => exact ⟨rest, .openRun hquote (splitAt?_eq_none_iff.1 hcut)⟩
              | some cut =>
                  obtain ⟨run, later⟩ := cut
                  obtain ⟨rfl, hrun⟩ := splitAt?_eq_some_iff.1 hcut
                  obtain ⟨kept, hkept⟩ := ih _ (hshort later (by simp; omega)) depth later rfl
                  exact ⟨_, .run hquote hrun hkept⟩
          | false =>
              by_cases hblank : isBlank c = true ∧ depth = 0
              · obtain ⟨hblank, rfl⟩ := hblank
                obtain ⟨kept, hkept⟩ := ih _ (hshort rest (Nat.le_refl _)) 0 rest rfl
                exact ⟨_, .blank hblank hkept⟩
              · obtain ⟨kept, hkept⟩ := ih _ (hshort rest (Nat.le_refl _)) (nest depth c) rest rfl
                exact ⟨_, .char hquote (fun hb hd => hblank ⟨hb, hd⟩) hkept⟩

/-! ## Scans -/

namespace Scan

/-- Within a quoted run every character but the closing quote adds itself to the token. -/
theorem leads_run (token : List Char) (depth : Nat) {quote : Char} {run : List Char}
    (h : quote ∉ run) :
    (mk (some token) depth (some quote)).Leads run ⟨some (token ++ run), depth, some quote⟩ := by
  induction run generalizing token with
  | nil => simpa using leads_nil _
  | cons c run ih =>
      obtain ⟨hne, hrun⟩ := not_or.1 (mt List.mem_cons.2 h)
      have hrest := ih (token ++ [c]) hrun
      rw [List.append_assoc, List.singleton_append] at hrest
      exact .cons (by simp [step, push, Ne.symm hne]) hrest

/-- The quote that opens a run starts a token, if none is under way. -/
theorem step_quote (token : Option (List Char)) (depth : Nat) {quote : Char}
    (h : isQuote quote = true) :
    (mk token depth none).step quote = (none, ⟨some (token.getD []), depth, some quote⟩) := by
  simp [step, h, touch]

/-- A quoted run is one more part of the token under way. -/
theorem leads_quotedRun (token : Option (List Char)) (depth : Nat) {quote : Char}
    {run : List Char} (hquote : isQuote quote = true) (hrun : quote ∉ run) :
    (mk token depth none).Leads (quote :: (run ++ [quote]))
      ⟨some (token.getD [] ++ run), depth, none⟩ := by
  have hclose : (mk (some (token.getD [] ++ run)) depth (some quote)).Leads [quote]
      ⟨some (token.getD [] ++ run), depth, none⟩ := .cons (by simp [step]) (leads_nil _)
  exact .cons (step_quote token depth hquote) ((leads_run _ depth hrun).append hclose)

theorem Leads.tokens_append {s t : Scan} {a : List Char} (h : s.Leads a t) (b : List Char) :
    s.tokens (a ++ b) = t.tokens b := by
  rw [Scan.tokens_append, h.ended, h.after, List.nil_append]

/-- A blank outside quotes and brackets ends the token under way. -/
theorem step_blank (token : Option (List Char)) {c : Char} (h : isBlank c = true) :
    (mk token 0 none).step c = (token, start) :=
  (outside_iff.2 ⟨rfl, rfl⟩).step_blank h

/-- A character that is no quote, and no blank outside brackets, adds itself to the token. -/
theorem step_char (token : Option (List Char)) {depth : Nat} {c : Char}
    (hquote : isQuote c = false) (hblank : isBlank c = true → depth ≠ 0) :
    (mk token depth none).step c = (none, ⟨some (token.getD [] ++ [c]), nest depth c, none⟩) := by
  have hkept : (isBlank c && depth == 0) = false := by simpa using hblank
  simp [step, hquote, hkept, push]

end Scan

/-- **Tokens hold what is kept**, behind what the token under way holds already. -/
theorem Keeps.flatten_tokens {depth : Nat} {line kept : List Char} (h : Keeps depth line kept)
    (token : Option (List Char)) :
    ((Scan.mk token depth none).tokens line).flatten = token.getD [] ++ kept := by
  induction h generalizing token with
  | nil depth => cases token <;> simp [Scan.tokens]
  | @run depth quote run rest kept hquote hrun _ ih =>
      have hcut : quote :: (run ++ quote :: rest) = quote :: (run ++ [quote]) ++ rest := by simp
      rw [hcut, (Scan.leads_quotedRun token depth hquote hrun).tokens_append, ih,
        Option.getD_some, List.append_assoc]
  | openRun hquote hrun =>
      rw [Scan.tokens, Scan.step_quote token _ hquote, (Scan.leads_run _ _ hrun).tokens_eq]
      simp
  | blank hblank _ ih =>
      rw [Scan.tokens, Scan.step_blank token hblank, List.flatten_append, Scan.start, ih]
      cases token <;> simp
  | char hquote hblank _ ih =>
      rw [Scan.tokens, Scan.step_char token hquote hblank, Option.toList_none, List.nil_append,
        ih, Option.getD_some, List.append_assoc, List.singleton_append]

theorem Keeps.toList_join {line kept : List Char} (h : Keeps 0 line kept) :
    (String.join (tokenize line)).toList = kept := by
  have hflatten : (Scan.start.tokens line).flatten = kept := h.flatten_tokens none
  rw [tokenize, String.toList_join, List.flatMap_map, ← hflatten, List.flatten_eq_flatMap]
  simp

/-! ## Empty tokens -/

/-- Without quotes, a token that is under way holds something. -/
theorem Scan.nil_notMem_tokens {token : Option (List Char)} (depth : Nat)
    (htoken : token ≠ some []) {line : List Char} (h : ∀ c ∈ line, isQuote c = false) :
    [] ∉ (Scan.mk token depth none).tokens line := by
  induction line generalizing token depth with
  | nil => simpa [Scan.tokens] using htoken
  | cons c line ih =>
      rw [List.forall_mem_cons] at h
      by_cases hblank : isBlank c = true ∧ depth = 0
      · obtain ⟨hblank, rfl⟩ := hblank
        rw [Scan.tokens, Scan.step_blank token hblank, List.mem_append, not_or]
        exact ⟨by simpa using htoken, ih 0 (by simp) h.2⟩
      · have hstep := Scan.step_char token h.1 fun hb hd => hblank ⟨hb, hd⟩
        rw [Scan.tokens, hstep]
        exact ih _ (by simp) h.2

/-- **Nothing lost, nothing invented**: the tokens of a line, joined, are what the line keeps
without the quotes around quoted runs and the blanks outside quotes and brackets, in its order.  And
no token of a line without quotes is empty. -/
theorem tokenize_keeps (line : List Char) :
    (∀ kept, Keeps 0 line kept ↔ (String.join (tokenize line)).toList = kept) ∧
      (String.join (tokenize line)).toList.Sublist line ∧
      ((∀ c ∈ line, isQuote c = false) → "" ∉ tokenize line) := by
  obtain ⟨kept, hkept⟩ := exists_keeps 0 line
  have hjoin := hkept.toList_join
  refine ⟨fun other => ⟨fun hother => hother.toList_join, ?_⟩, hjoin ▸ hkept.sublist, ?_⟩
  · rintro rfl
    rwa [hjoin]
  · intro hline hmem
    obtain ⟨token, htoken, hempty⟩ := List.mem_map.1 hmem
    obtain rfl : token = [] := by simpa using hempty
    exact Scan.nil_notMem_tokens 0 (by simp) hline htoken

/-- A stray closing bracket, a quote of the other kind and a blank within quotes, a blank within
brackets, a bracket that quotes hide, and a run that is not closed; and a line without quotes. -/
theorem tokenize_keeps_mixed :
    Keeps 0 "] \"a' [\" [b c] d '\"e".toList "]a' [[b c]d\"e".toList ∧
      "a' [\"".toList.Sublist "] \"a' [\" [b c] d '\"e".toList ∧
      (∀ c ∈ "] [b c  d".toList, isQuote c = false) ∧ "" ∉ tokenize "] [b c  d".toList := by
  have hquote : ∀ c ∈ "] [b c  d".toList, isQuote c = false :=
    fun c hc => Bool.eq_false_iff.2 (List.any_eq_false.1 (by decide) c hc)
  refine ⟨(tokenize_keeps _).1 _ |>.2 (by decide), ?_, hquote, (tokenize_keeps _).2.2 hquote⟩
  decide

end PushPlan.Request
