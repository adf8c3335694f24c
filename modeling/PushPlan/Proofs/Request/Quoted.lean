import PushPlan.Proofs.Request.Token

/-!
# PushPlan.Proofs.Request.Quoted

Writing tokens so that they are read back.

1. A token is written between double quotes.  A double quote of its own closes the
   run, stands between single quotes, and opens the next run.
2. A scan goes through what is written without ending a token (`Scan.Leads`): each
   character adds itself to the token under way, blanks and brackets too, since
   within a run they are characters like any other.
3. At the end the scan stands outside with that token under way, the empty one
   included, and the blank behind it ends the token.  So every list of tokens is
   the tokens of a line.

This module depends only on the Lean 4 core library.
-/

namespace PushPlan.Request

open Text

/-! ## Written tokens -/

/-- A character of a token within double quotes. -/
def quotedChar (c : Char) : List Char :=
  if c = '"' then ['"', '\'', '"', '\'', '"'] else [c]

/-- A token between double quotes. -/
def quoted (token : String) : List Char := '"' :: (token.toList.flatMap quotedChar ++ ['"'])

/-- A line of quoted tokens, with a blank between them. -/
def quotedLine (tokens : List String) : List Char := [' '].intercalate (tokens.map quoted)

/-! ## Scans within a token -/

namespace Scan

/-- A text leads from one state of a scan to another, and no token ends in it. -/
structure Leads (s : Scan) (cs : List Char) (t : Scan) : Prop where
  after : s.after cs = t
  ended : s.ended cs = []

variable {s t u : Scan} {a b : List Char}

theorem leads_nil (s : Scan) : s.Leads [] s := ⟨rfl, rfl⟩

theorem Leads.cons {c : Char} (hstep : s.step c = (none, t)) (h : t.Leads a u) :
    s.Leads (c :: a) u where
  after := by rw [after_cons, hstep, h.after]
  ended := by rw [Scan.ended, hstep, h.ended]; rfl

theorem Leads.append (ha : s.Leads a t) (hb : t.Leads b u) : s.Leads (a ++ b) u where
  after := by rw [after_append, ha.after, hb.after]
  ended := by rw [ended_append, ha.ended, ha.after, hb.ended]; rfl

/-- Where no token ends, the token under way at the end is the only one. -/
theorem Leads.tokens_eq (h : s.Leads a t) : s.tokens a = t.token.toList := by
  rw [tokens_eq_ended, h.after, h.ended, List.nil_append]

/-- Within double quotes a written character adds itself to the token under way. -/
theorem leads_quotedChar (token : List Char) (depth : Nat) (c : Char) :
    (mk (some token) depth (some '"')).Leads (quotedChar c)
      ⟨some (token ++ [c]), depth, some '"'⟩ := by
  by_cases hc : c = '"'
  · subst hc
    exact ⟨rfl, rfl⟩
  · have hstep : (mk (some token) depth (some '"')).step c =
        (none, ⟨some (token ++ [c]), depth, some '"'⟩) := by simp [step, push, hc]
    rw [quotedChar, if_neg hc]
    exact .cons hstep (leads_nil _)

theorem leads_flatMap_quotedChar (token : List Char) (depth : Nat) (cs : List Char) :
    (mk (some token) depth (some '"')).Leads (cs.flatMap quotedChar)
      ⟨some (token ++ cs), depth, some '"'⟩ := by
  induction cs generalizing token with
  | nil => simpa using leads_nil _
  | cons c cs ih =>
      have hrest := ih (token ++ [c])
      rw [List.append_assoc, List.singleton_append] at hrest
      rw [List.flatMap_cons]
      exact (leads_quotedChar token depth c).append hrest

/-- A written token leaves that token under way, outside quotes and brackets. -/
theorem leads_quoted (token : String) : start.Leads (quoted token) ⟨some token.toList, 0, none⟩ :=
  have hrun := leads_flatMap_quotedChar [] 0 token.toList
  have hclose : (mk (some token.toList) 0 (some '"')).Leads ['"'] ⟨some token.toList, 0, none⟩ :=
    .cons rfl (leads_nil _)
  .cons rfl (hrun.append hclose)

end Scan

theorem outside_after_quoted (token : String) : (Scan.start.after (quoted token)).Outside := by
  rw [(Scan.leads_quoted token).after]
  exact ⟨rfl, rfl⟩

theorem tokenize_quoted (token : String) : tokenize (quoted token) = [token] := by
  rw [tokenize, (Scan.leads_quoted token).tokens_eq]
  simp

/-! ## Lines of written tokens -/

theorem quotedLine_cons_cons (token next : String) (tokens : List String) :
    quotedLine (token :: next :: tokens) =
      quoted token ++ [' '] ++ quotedLine (next :: tokens) := by
  rw [quotedLine, List.map_cons, List.map_cons, List.intercalate_cons_cons]
  rfl

/-- **Quoting is lossless**: the tokens of a line of written tokens are those tokens, whatever
they hold and however many of them are empty. -/
theorem tokenize_quotedLine (tokens : List String) : tokenize (quotedLine tokens) = tokens := by
  induction tokens with
  | nil => rfl
  | cons token tokens ih =>
      cases tokens with
      | nil =>
          rw [quotedLine, List.map_singleton, List.intercalate_singleton, tokenize_quoted]
      | cons next tokens =>
          have hblank : ∀ c ∈ [' '], isBlank c = true := List.forall_mem_singleton.2 rfl
          rw [quotedLine_cons_cons, tokenize_append_blanks (outside_after_quoted token) (by simp)
            hblank, tokenize_quoted, ih, List.singleton_append]

example : quotedLine ["a b", "", "[\"'"] = "\"a b\" \"\" \"[\"'\"'\"'\"".toList := by decide

end PushPlan.Request
