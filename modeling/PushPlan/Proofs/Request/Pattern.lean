import PushPlan.Proofs.Text.Line
import PushPlan.Proofs.Value
import PushPlan.Request.Suite

/-!
# PushPlan.Proofs.Request.Pattern

The names that fit a pattern.

1. A name fits when it is put together from the text of the pattern and something else:
   behind the text for a start, on either side of it for a part, and for a family behind
   the word, on the same line, with or without `plain-` in front.
2. A pattern with more behind its text (`SuitePattern.lengthen?`) is narrower: what fits it
   fits the shorter pattern too, and holds what was added; the shorter text alone fits only
   the shorter pattern.
3. Where an alias with `-e10s` behind it is an alias again, its pattern is lengthened just
   so.  The patterns of the two need not be called like the aliases.
-/

namespace PushPlan.Request

open Text

namespace SuitePattern

variable {p q : SuitePattern} {more name : String}

/-! ## Names that fit -/

theorem fits_start_iff {front : String} :
    (start front).fits name = true ↔ ∃ rest, name = front ++ rest := by
  rw [fits, startsWith, Option.isSome_iff_exists]
  simp only [dropFront?_eq_some_iff]
  constructor
  · intro h
    obtain ⟨rest, hrest⟩ := h
    exact ⟨String.ofList rest, String.toList_inj.1 (by simp [hrest])⟩
  · intro h
    obtain ⟨rest, rfl⟩ := h
    exact ⟨rest.toList, String.toList_append⟩

theorem fits_part_iff {middle : String} :
    (part middle).fits name = true ↔ ∃ before after, name = before ++ middle ++ after := by
  have hoccurs : (part middle).fits name = true ↔ middle.toList <:+: name.toList := by
    rw [fits, occursIn, Option.isSome_iff_ne_none, Ne, after?_eq_none_iff, Decidable.not_not]
  rw [hoccurs]
  constructor
  · intro h
    obtain ⟨before, after, heq⟩ := h
    exact ⟨String.ofList before, String.ofList after, String.toList_inj.1 (by simp [heq])⟩
  · intro h
    obtain ⟨before, after, rfl⟩ := h
    exact ⟨before.toList, after.toList, by simp⟩

theorem isLineOf_iff {word text : List Char} :
    isLineOf word text = true ↔ ∃ rest, text = word ++ rest ∧ '\n' ∉ rest := by
  unfold isLineOf
  simp only [← dropFront?_eq_some_iff]
  cases dropFront? word text <;> simp

theorem fits_family_iff {word : String} :
    (family word).fits name = true ↔
      ∃ plain ∈ ["", "plain-"], ∃ rest, name = plain ++ word ++ rest ∧ '\n' ∉ rest.toList := by
  have hline : ∀ plain : String,
      (∃ text, dropFront? plain.toList name.toList = some text ∧
          isLineOf word.toList text = true) ↔
        ∃ rest, name = plain ++ word ++ rest ∧ '\n' ∉ rest.toList := by
    intro plain
    simp only [dropFront?_eq_some_iff, isLineOf_iff]
    constructor
    · intro h
      obtain ⟨_, hname, rest, rfl, hrest⟩ := h
      exact ⟨String.ofList rest, String.toList_inj.1 (by simp [hname]), by simpa using hrest⟩
    · intro h
      obtain ⟨rest, rfl, hrest⟩ := h
      exact ⟨(word ++ rest).toList, by simp, rest.toList, by simp, hrest⟩
  simp only [List.mem_cons, List.not_mem_nil, or_false, exists_eq_or_imp, exists_eq_left, ← hline]
  rw [fits, Bool.or_eq_true]
  cases dropFront? "plain-".toList name.toList <;> simp [dropFront?]

/-! ## Longer patterns -/

/-- The pattern with more behind its text, of the patterns that are open behind it. -/
def lengthen? (more : String) : SuitePattern → Option SuitePattern
  | .start front => some (.start (front ++ more))
  | .family word => some (.family (word ++ more))
  | .exact _ | .part _ => none

/-- What fits the longer pattern fits the shorter one, if what was added is on one line. -/
theorem fits_of_lengthen? (hmore : '\n' ∉ more.toList) (h : p.lengthen? more = some q)
    (hq : q.fits name = true) : p.fits name = true := by
  cases p with
  | exact s => contradiction
  | start front =>
      cases h
      obtain ⟨rest, rfl⟩ := fits_start_iff.1 hq
      exact fits_start_iff.2 ⟨more ++ rest, String.append_assoc ..⟩
  | part middle => contradiction
  | family word =>
      cases h
      obtain ⟨plain, hplain, rest, rfl, hrest⟩ := fits_family_iff.1 hq
      refine fits_family_iff.2 ⟨plain, hplain, more ++ rest, ?_, by simp [hmore, hrest]⟩
      simp only [String.append_assoc]

/-- What fits the longer pattern holds what was added. -/
theorem exists_append_of_lengthen? (h : p.lengthen? more = some q) (hq : q.fits name = true) :
    ∃ before after, name = before ++ more ++ after := by
  cases p with
  | exact s => contradiction
  | start front =>
      cases h
      obtain ⟨rest, rfl⟩ := fits_start_iff.1 hq
      exact ⟨front, rest, rfl⟩
  | part middle => contradiction
  | family word =>
      cases h
      obtain ⟨plain, _, rest, rfl, _⟩ := fits_family_iff.1 hq
      exact ⟨plain ++ word, rest, by simp only [String.append_assoc]⟩

/-- The shorter text does not fit the longer pattern. -/
theorem exists_fits_of_lengthen? (hmore : more ≠ "") (h : p.lengthen? more = some q) :
    ∃ name, p.fits name = true ∧ q.fits name = false := by
  have hlength : 0 < more.length := by
    rw [Nat.pos_iff_ne_zero, Ne, String.length_eq_zero_iff]
    exact hmore
  cases p with
  | exact s => contradiction
  | start front =>
      cases h
      refine ⟨front, fits_start_iff.2 ⟨"", by simp⟩, Bool.eq_false_iff.2 fun hq => ?_⟩
      obtain ⟨rest, hrest⟩ := fits_start_iff.1 hq
      have hsame := congrArg String.length hrest
      simp only [String.length_append] at hsame
      omega
  | part middle => contradiction
  | family word =>
      cases h
      refine ⟨word, fits_family_iff.2 ⟨"", by simp, "", by simp⟩, Bool.eq_false_iff.2 fun hq => ?_⟩
      obtain ⟨plain, _, rest, hrest, _⟩ := fits_family_iff.1 hq
      have hsame := congrArg String.length hrest
      simp only [String.length_append] at hsame
      omega

end SuitePattern

/-! ## Aliases -/

/-- Every alias that is extended by another one stands for a pattern that is lengthened. -/
theorem lengthen?_of_mem_unittestAliases :
    ∀ entry ∈ unittestAliases, ∀ q ∈ unittestAlias? (entry.1 ++ "-e10s"),
      entry.2.lengthen? "-e10s" = some q := by
  decide +kernel

/-- **Narrowing**: a name fits a family when it is the word, with or without `plain-` in front, and
no newline behind it.  Where an alias and the same with `-e10s` behind it are both aliases, every
name that fits the latter fits the former and fits the alias `e10s`, whatever it holds; and some
name fits the former alone. -/
theorem unittestAlias?_narrows :
    (∀ word name, (SuitePattern.family word).fits name = true ↔
      ∃ plain ∈ ["", "plain-"], ∃ rest, name = plain ++ word ++ rest ∧ '\n' ∉ rest.toList) ∧
    ∀ suite p q, unittestAlias? suite = some p → unittestAlias? (suite ++ "-e10s") = some q →
      (∀ name, q.fits name = true → p.fits name = true ∧
        ∃ e10s, unittestAlias? "e10s" = some e10s ∧ e10s.fits name = true) ∧
      ∃ name, p.fits name = true ∧ q.fits name = false := by
  refine ⟨fun word name => SuitePattern.fits_family_iff, fun suite p q hp hq => ?_⟩
  have hlonger : p.lengthen? "-e10s" = some q :=
    lengthen?_of_mem_unittestAliases (suite, p) (mem_of_lookup hp) q hq
  refine ⟨fun name hname => ⟨SuitePattern.fits_of_lengthen? (by decide) hlonger hname,
    .part "e10s", by decide, ?_⟩, SuitePattern.exists_fits_of_lengthen? (by decide) hlonger⟩
  obtain ⟨before, after, rfl⟩ := SuitePattern.exists_append_of_lengthen? hlonger hname
  have hdash : "-e10s" = "-" ++ "e10s" := by decide
  exact SuitePattern.fits_part_iff.2
    ⟨before ++ "-", after, by rw [hdash]; simp only [String.append_assoc]⟩

/-- An alias for a suite of another name, with a newline in the name that fits; and a family. -/
theorem unittestAlias?_narrows_renamed :
    unittestAlias? "mochitest-gl" = some (.start "mochitest-webgl") ∧
      unittestAlias? "mochitest-gl-e10s" = some (.start "mochitest-webgl-e10s") ∧
      (SuitePattern.start "mochitest-webgl-e10s").fits "mochitest-webgl-e10s\n2" = true ∧
      (SuitePattern.start "mochitest-webgl").fits "mochitest-webgl-e10s\n2" = true ∧
      unittestAlias? "reftests" = some (.family "reftest") ∧
      unittestAlias? "reftests-e10s" = some (.family "reftest-e10s") ∧
      (SuitePattern.family "reftest-e10s").fits "plain-reftest-e10s-3" = true ∧
      (SuitePattern.family "reftest").fits "plain-reftest-e10s-3" = true ∧
      (SuitePattern.family "reftest-e10s").fits "reftest-e10s\n" = false := by
  have hgl : unittestAlias? "mochitest-gl" = some (.start "mochitest-webgl") := by decide
  have hgl' : unittestAlias? "mochitest-gl-e10s" = some (.start "mochitest-webgl-e10s") := by
    decide
  have href : unittestAlias? "reftests" = some (.family "reftest") := by decide
  have href' : unittestAlias? "reftests-e10s" = some (.family "reftest-e10s") := by decide
  have hglname :
      (SuitePattern.start "mochitest-webgl-e10s").fits "mochitest-webgl-e10s\n2" = true := by
    decide
  have hrefname : (SuitePattern.family "reftest-e10s").fits "plain-reftest-e10s-3" = true := by
    decide
  have hglfits := (unittestAlias?_narrows.2 "mochitest-gl" _ _ hgl hgl').1 _ hglname
  have hreffits := (unittestAlias?_narrows.2 "reftests" _ _ href href').1 _ hrefname
  exact ⟨hgl, hgl', hglname, hglfits.1, href, href', hrefname, hreffits.1, by decide⟩

end PushPlan.Request
