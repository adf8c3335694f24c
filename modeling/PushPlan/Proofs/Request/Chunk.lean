import PushPlan.Proofs.Request.Entry
import PushPlan.Proofs.Sorted
import PushPlan.Proofs.Text.Numeral
import PushPlan.Proofs.Value
import PushPlan.Request.Matching

/-!
# PushPlan.Proofs.Request.Chunk

What a chunk at the end of an entry asks for.

1. A name that ends in a dash and digits is cut at its last dash, and never an
   alias as a whole.
2. If the digits spell a number of at most 63 bits, the entry asks for that
   chunk of the suite before the dash, and for its own full name.
3. If they spell a larger number, no task can have that chunk: an attribute
   that reads as an integer fits a signed word of 64 bits.  The entry asks for
   its full name alone then, which is the same.

So a chunk is the number that is spelled, at every size.
-/

namespace PushPlan

open Request Text

/-- An integer attribute fits a signed word of 64 bits. -/
theorem Attribute.asInteger?_lt {a : Attribute} {n : Int} (h : a.asInteger? = some n) :
    n < Word.signedLimit := by
  cases a with
  | flag _ => contradiction
  | list _ => contradiction
  | text s => exact readInteger?_lt h
  | number k =>
      obtain rfl : k.toInt = n := Option.some.inj h
      exact Int64.toInt_lt k

/-- The chunk of a test: its attribute `test_chunk`, read as an integer. -/
def Task.chunk? (t : Task) : Option Int := (t.attribute? "test_chunk").bind (·.asInteger?)

theorem Task.chunk?_withAttribute (t : Task) (n : Int64) :
    (t.withAttribute "test_chunk" (.number n)).chunk? = some n.toInt := by
  rw [chunk?, attribute?, withAttribute, SortedMap.get?_put_self]
  rfl

theorem Task.chunk?_lt {t : Task} {n : Int} (h : t.chunk? = some n) : n < Word.signedLimit := by
  obtain ⟨a, _, ha⟩ := Option.bind_eq_some_iff.1 h
  exact a.asInteger?_lt ha

namespace Request

/-! ## Names with a chunk -/

section Cut

variable {base digits : List Char}

theorem dash_notMem_digits (hdigits : ∀ ch ∈ digits, isDigit ch = true) : '-' ∉ digits := by
  intro hdash
  have hdigit := hdigits '-' hdash
  contradiction

/-- A name is cut in front of the digits at its end, if they are no larger than a chunk may be. -/
theorem cutChunk?_append (hbase : base ≠ []) (hline : '\n' ∉ base) (hne : digits ≠ [])
    (hdigits : ∀ ch ∈ digits, isDigit ch = true) :
    cutChunk? (base ++ '-' :: digits) =
      if numberOf digits < Word.signedLimit then some (base, (numberOf digits : Int))
      else none := by
  have hplain : ¬ (base.isEmpty || base.contains '\n') = true := by simp [hbase, hline]
  rw [cutChunk?, splitAtLast?_append base (dash_notMem_digits hdigits)]
  simp only [if_neg hplain, readChunk?_eq hne hdigits]
  split <;> rfl

/-- No alias ends in a dash and digits. -/
theorem aliases_without_chunk :
    ∀ entry ∈ unittestAliases, ∀ cut ∈ splitAtLast? '-' entry.1.toList,
      cut.2.all isDigit = false := by
  decide

theorem unittestAlias?_chunk_eq_none (base : List Char)
    (hdigits : ∀ ch ∈ digits, isDigit ch = true) :
    unittestAlias? (String.ofList (base ++ '-' :: digits)) = none := by
  rw [Option.eq_none_iff_forall_ne_some]
  intro p hp
  have hcut : splitAtLast? '-' (String.ofList (base ++ '-' :: digits)).toList =
      some (base, digits) := by
    rw [String.toList_ofList]
    exact splitAtLast?_append base (dash_notMem_digits hdigits)
  have hfalse := aliases_without_chunk _ (mem_of_lookup hp) _ hcut
  rw [List.all_eq_true.2 hdigits] at hfalse
  contradiction

end Cut

/-! ## What is asked for -/

namespace SuiteSpec

theorem acceptsPlatform_of_none {s : SuiteSpec} (h : s.platforms = none) (t : Task) :
    s.acceptsPlatform t = true := by
  simp only [acceptsPlatform, h]

/-- A single chunk on all platforms, asked for by its full name. -/
theorem accepts_chunk_iff {s : SuiteSpec} {whole : String} {n : Int}
    (hliterals : s.literals = [whole]) (hplatforms : s.platforms = none)
    (hchunks : s.chunks = some (.ofList [n])) (name : String) (t : Task) :
    s.accepts name t = true ↔ name = whole ∨ s.pattern.fits name = true ∧ t.chunk? = some n := by
  have hchunk : s.acceptsChunk t = true ↔ t.chunk? = some n := by
    simp only [acceptsChunk, hchunks, Option.any_eq_true, SortedSet.contains_iff_mem,
      SortedSet.mem_ofList, List.mem_singleton, Task.chunk?]
    exact exists_eq_right
  have hliteral : s.literals.contains name = true ↔ name = whole := by simp [hliterals]
  rw [accepts, acceptsPlatform_of_none hplatforms, Bool.and_true, Bool.or_eq_true,
    Bool.and_eq_true, hchunk, hliteral]
  exact or_comm

/-- A suite on all platforms, asked for by its very name. -/
theorem accepts_exact_iff {s : SuiteSpec} {whole : String} (hpattern : s.pattern = .exact whole)
    (hliterals : s.literals = []) (hplatforms : s.platforms = none) (hchunks : s.chunks = none)
    (name : String) (t : Task) : s.accepts name t = true ↔ name = whole := by
  simp [accepts, acceptsPlatform_of_none hplatforms, acceptsChunk, hpattern, hliterals, hchunks,
    SuitePattern.fits]

end SuiteSpec

section Chunk

variable {resolve : Resolver}

/-- A name that is no alias stands for itself. -/
theorem pattern_of_no_alias (hresolve : resolve = unittestPattern ∨ resolve = talosPattern)
    {name : String} (h : unittestAlias? name = none) : resolve name = .exact name := by
  rcases hresolve with rfl | rfl
  · rw [unittestPattern, h, Option.getD_none]
  · rfl

/-- **Chunks at every size**: a suite with a dash and digits behind it asks for the full name, and
for the tests of the suite whose chunk is the number that the digits spell. -/
theorem readEntry?_accepts_chunk_iff (c : Conventions)
    (hresolve : resolve = unittestPattern ∨ resolve = talosPattern) {base digits : String}
    (hbase : base ≠ "") (hline : '\n' ∉ base.toList) (hopen : '[' ∉ base.toList)
    (hclose : ']' ∉ base.toList) (hne : digits ≠ "")
    (hdigits : ∀ ch ∈ digits.toList, isDigit ch = true) :
    ∃ s, readEntry? c resolve (base ++ "-" ++ digits) = some s ∧
      ∀ (name : String) (t : Task), s.accepts name t = true ↔
        name = base ++ "-" ++ digits ∨
          (resolve base).fits name = true ∧ t.chunk? = some (numberOf digits.toList : Int) := by
  have hwritten : base ++ "-" ++ digits = String.ofList (base.toList ++ '-' :: digits.toList) :=
    String.toList_inj.1 (by simp)
  have hbracket : ∀ ch ∈ digits.toList, ch ≠ '[' ∧ ch ≠ ']' := by
    intro ch hch
    have hdigit := hdigits ch hch
    constructor <;> rintro rfl <;> contradiction
  have hread : readEntry? c resolve (base ++ "-" ++ digits) =
      some (specOfName resolve none (base.toList ++ '-' :: digits.toList)) := by
    rw [hwritten]
    refine readEntry?_plain c resolve (by simp) ?_ ?_
    · simpa [hopen] using fun h => (hbracket _ h).1 rfl
    · simpa [hclose] using fun h => (hbracket _ h).2 rfl
  have hcut := cutChunk?_append (mt String.toList_eq_nil_iff.1 hbase) hline
    (mt String.toList_eq_nil_iff.1 hne) hdigits
  have halias := unittestAlias?_chunk_eq_none base.toList hdigits
  refine ⟨_, hread, fun name t => ?_⟩
  rw [hwritten]
  by_cases hsmall : numberOf digits.toList < Word.signedLimit
  · rw [if_pos hsmall] at hcut
    rw [specOfName_of_cut resolve none halias hcut, SuiteSpec.accepts_chunk_iff rfl rfl rfl,
      String.ofList_toList]
  · -- No test has a chunk as large as that.
    have hnone : t.chunk? ≠ some (numberOf digits.toList : Int) := fun h =>
      hsmall (Int.ofNat_lt.1 (t.chunk?_lt h))
    rw [if_neg hsmall] at hcut
    rw [specOfName_of_no_cut resolve none hcut,
      SuiteSpec.accepts_exact_iff (pattern_of_no_alias hresolve halias) rfl rfl rfl]
    simp [hnone]

/-- The largest chunk that a test can have, spelled with a zero in front, and the number after it,
which is the chunk of no test. -/
theorem readEntry?_accepts_chunk_iff_limit :
    (∀ ch ∈ "09223372036854775807".toList, isDigit ch = true) ∧
      (∀ ch ∈ "9223372036854775808".toList, isDigit ch = true) ∧
      (∃ s, readEntry? .standard unittestPattern "mochitest-09223372036854775807" = some s ∧
        ∀ t : Task, s.accepts "mochitest-chrome"
          (t.withAttribute "test_chunk" (.number 9223372036854775807)) = true) ∧
      ∃ s, readEntry? .standard unittestPattern "mochitest-9223372036854775808" = some s ∧
        ∀ t : Task, s.accepts "mochitest-9223372036854775808" t = true ∧
          s.accepts "mochitest-chrome" t = false := by
  have hresolve : unittestPattern = unittestPattern ∨ unittestPattern = talosPattern := .inl rfl
  have hbase : "mochitest" ≠ "" := by decide
  have hline : '\n' ∉ "mochitest".toList := by decide
  have hopen : '[' ∉ "mochitest".toList := by decide
  have hclose : ']' ∉ "mochitest".toList := by decide
  have hlargest : ∀ ch ∈ "09223372036854775807".toList, isDigit ch = true :=
    List.all_eq_true.1 (by decide)
  have hnext : ∀ ch ∈ "9223372036854775808".toList, isDigit ch = true :=
    List.all_eq_true.1 (by decide)
  obtain ⟨s, hs, haccepts⟩ := readEntry?_accepts_chunk_iff .standard hresolve hbase hline hopen
    hclose (by decide) hlargest
  obtain ⟨u, hu, hrefuses⟩ := readEntry?_accepts_chunk_iff .standard hresolve hbase hline hopen
    hclose (by decide) hnext
  refine ⟨hlargest, hnext, ⟨s, hs, fun t => ?_⟩, u, hu, fun t => ⟨?_, ?_⟩⟩
  · exact (haccepts _ _).2 (.inr ⟨by decide, t.chunk?_withAttribute _⟩)
  · exact (hrefuses _ _).2 (.inl rfl)
  · rw [Bool.eq_false_iff]
    intro haccept
    rcases (hrefuses _ _).1 haccept with hname | ⟨_, hchunk⟩
    · exact absurd hname (by decide)
    · exact absurd (t.chunk?_lt hchunk) (by decide)

end Chunk

end Request

end PushPlan
