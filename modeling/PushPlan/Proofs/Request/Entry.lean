import PushPlan.Proofs.Text.Blank
import PushPlan.Proofs.Text.Line
import PushPlan.Request.Spec

/-!
# PushPlan.Proofs.Request.Entry

Which entries of a suite list are well-formed, and what a filter adds to them.

1. An entry is *plain* when it holds no bracket at all.  Otherwise it is
   well-formed exactly when it is a name without `[`, an opening bracket, a
   filter without `]`, and perhaps a closing bracket as the last character
   (`HasFilter`).  There is at most one way to read an entry so.
2. Whether the closing bracket is there makes no difference.
3. A filter only sets the platforms: all else is what the name asks for on its
   own.
-/

namespace PushPlan.Request

open Text

/-! ## Cutting at brackets -/

section Cut

variable {entry name filter : List Char}

theorem cutFilter?_of_plain (hopen : '[' ∉ entry) (hclose : ']' ∉ entry) :
    cutFilter? entry = some (entry, none) := by
  simp [cutFilter?, splitAt?_eq_none_iff.2 hopen, hclose]

/-- A filter may run to the end of the entry. -/
theorem cutFilter?_open (hname : name ≠ []) (hopen : '[' ∉ name) (hclose : ']' ∉ filter) :
    cutFilter? (name ++ '[' :: filter) = some (trim name, some filter) := by
  have hcut : splitAt? '[' (name ++ '[' :: filter) = some (name, filter) :=
    splitAt?_eq_some_iff.2 ⟨rfl, hopen⟩
  have hrest : splitAt? ']' filter = none := splitAt?_eq_none_iff.2 hclose
  rw [cutFilter?, hcut]
  cases name with
  | nil => contradiction
  | cons c name => simp [hrest]

/-- A filter may be closed by the last character of the entry. -/
theorem cutFilter?_closed (hname : name ≠ []) (hopen : '[' ∉ name) (hclose : ']' ∉ filter) :
    cutFilter? (name ++ '[' :: (filter ++ [']'])) = some (trim name, some filter) := by
  have hcut : splitAt? '[' (name ++ '[' :: (filter ++ [']'])) = some (name, filter ++ [']']) :=
    splitAt?_eq_some_iff.2 ⟨rfl, hopen⟩
  have hrest : splitAt? ']' (filter ++ [']']) = some (filter, []) :=
    splitAt?_eq_some_iff.2 ⟨rfl, hclose⟩
  rw [cutFilter?, hcut]
  cases name with
  | nil => contradiction
  | cons c name => simp [hrest]

/-- What is cut is plain, or a name with a filter behind it. -/
theorem shape_of_cutFilter? {cut : List Char × Option (List Char)}
    (h : cutFilter? entry = some cut) :
    ('[' ∉ entry ∧ ']' ∉ entry) ∨
      ∃ name filter, (entry = name ++ '[' :: filter ∨ entry = name ++ '[' :: (filter ++ [']'])) ∧
        name ≠ [] ∧ '[' ∉ name ∧ ']' ∉ filter := by
  unfold cutFilter? at h
  split at h
  · next hopen =>
      split at h
      · contradiction
      · next hclose => exact .inl ⟨splitAt?_eq_none_iff.1 hopen, by simpa using hclose⟩
  · contradiction
  · next name rest hname hcut =>
      obtain ⟨hentry, hopen⟩ := splitAt?_eq_some_iff.1 hcut
      have hne : name ≠ [] := hname
      refine .inr ⟨name, ?_⟩
      split at h
      · next hclose =>
          exact ⟨rest, .inl hentry, hne, hopen, splitAt?_eq_none_iff.1 hclose⟩
      · next filter hclose =>
          obtain ⟨hrest, hfilter⟩ := splitAt?_eq_some_iff.1 hclose
          exact ⟨filter, .inr (by rw [hentry, hrest]), hne, hopen, hfilter⟩
      · contradiction

end Cut

/-! ## Reading a cut entry -/

section Read

variable (c : Conventions) (resolve : Resolver)

theorem readEntry?_of_cut {entry : String} {name : List Char} {filter : Option (List Char)}
    (hcut : cutFilter? entry.toList = some (name, filter)) (hname : name ≠ []) :
    readEntry? c resolve entry =
      some (specOfName resolve (filter.map (filterPlatforms c)) name) := by
  unfold readEntry?
  rw [hcut]
  cases name with
  | nil => contradiction
  | cons ch name => rfl

/-- What is read is what the name of a cut entry asks for. -/
theorem exists_cut_of_read {entry : String} {s : SuiteSpec}
    (h : readEntry? c resolve entry = some s) :
    ∃ name filter, cutFilter? entry.toList = some (name, filter) ∧
      specOfName resolve (filter.map (filterPlatforms c)) name = s := by
  unfold readEntry? at h
  split at h
  · contradiction
  · contradiction
  · next name filter _ hcut => exact ⟨name, filter, hcut, Option.some.inj h⟩

theorem readEntry?_plain {name : List Char} (hname : name ≠ []) (hopen : '[' ∉ name)
    (hclose : ']' ∉ name) :
    readEntry? c resolve (String.ofList name) = some (specOfName resolve none name) := by
  have hcut : cutFilter? (String.ofList name).toList = some (name, none) := by
    rw [String.toList_ofList]
    exact cutFilter?_of_plain hopen hclose
  exact readEntry?_of_cut c resolve hcut hname

/-- The platforms are beside all else that a name asks for. -/
theorem specOfName_eq (platforms : Option (List String)) (name : List Char) :
    specOfName resolve platforms name = { specOfName resolve none name with platforms } := by
  simp only [specOfName]
  split <;> rfl

variable {name : List Char}

/-- A name that is cut, and no alias, asks for its chunk and for itself. -/
theorem specOfName_of_cut (platforms : Option (List String)) {base : List Char} {n : Int}
    (halias : unittestAlias? (String.ofList name) = none) (hcut : cutChunk? name = some (base, n)) :
    specOfName resolve platforms name =
      ⟨String.ofList base, resolve (String.ofList base), [String.ofList name], platforms,
        some (.ofList [n])⟩ := by
  simp [specOfName, halias, hcut]

/-- A name that is not cut asks for itself. -/
theorem specOfName_of_no_cut (platforms : Option (List String)) (hcut : cutChunk? name = none) :
    specOfName resolve platforms name =
      ⟨String.ofList name, resolve (String.ofList name), [], platforms, none⟩ := by
  simp [specOfName, hcut]

end Read

/-! ## Entries with a filter -/

/-- An entry is a name with a filter in brackets, of which the closing one may be missing. -/
structure HasFilter (entry name filter : String) : Prop where
  written : entry = name ++ "[" ++ filter ∨ entry = name ++ "[" ++ filter ++ "]"
  named : name ≠ ""
  opens : '[' ∉ name.toList
  closes : ']' ∉ filter.toList

namespace HasFilter

variable {entry name filter : String}

/-- The name of a trimmed entry is not blank. -/
theorem trim_name_ne_nil (h : HasFilter entry name filter)
    (htrim : trim entry.toList = entry.toList) :
    trim name.toList ≠ [] := by
  cases hname : name.toList with
  | nil => exact absurd (String.toList_eq_nil_iff.1 hname) h.named
  | cons ch rest =>
      -- The entry starts with the first character of its name.
      have hentry : ∃ more, entry.toList = ch :: more := by
        rcases h.written with hwritten | hwritten
        all_goals
          rw [hwritten]
          simp [hname]
      obtain ⟨more, hmore⟩ := hentry
      rw [hmore] at htrim
      exact List.ne_nil_of_mem
        (mem_trim_of_not_blank List.mem_cons_self (isBlank_of_trim_cons_eq htrim))

/-- With the closing bracket or without it, the name is asked for on the platforms of the filter. -/
theorem read_eq (c : Conventions) (resolve : Resolver) (h : HasFilter entry name filter)
    (htrim : trim entry.toList = entry.toList) :
    readEntry? c resolve (name ++ "[" ++ filter) =
        some (specOfName resolve (some (filterPlatforms c filter.toList)) (trim name.toList)) ∧
      readEntry? c resolve (name ++ "[" ++ filter ++ "]") =
        some (specOfName resolve (some (filterPlatforms c filter.toList)) (trim name.toList)) := by
  have hname : name.toList ≠ [] := fun hnil => h.named (String.toList_eq_nil_iff.1 hnil)
  have hopen : cutFilter? (name ++ "[" ++ filter).toList =
      some (trim name.toList, some filter.toList) := by
    simpa using cutFilter?_open hname h.opens h.closes
  have hclosed : cutFilter? (name ++ "[" ++ filter ++ "]").toList =
      some (trim name.toList, some filter.toList) := by
    simpa using cutFilter?_closed hname h.opens h.closes
  have htrimmed := h.trim_name_ne_nil htrim
  exact ⟨readEntry?_of_cut c resolve hopen htrimmed, readEntry?_of_cut c resolve hclosed htrimmed⟩

theorem exists_read (c : Conventions) (resolve : Resolver) (h : HasFilter entry name filter)
    (htrim : trim entry.toList = entry.toList) : ∃ s, readEntry? c resolve entry = some s := by
  obtain ⟨hopen, hclosed⟩ := h.read_eq c resolve htrim
  rcases h.written with hwritten | hwritten
  · exact ⟨_, hwritten ▸ hopen⟩
  · exact ⟨_, hwritten ▸ hclosed⟩

end HasFilter

/-- A well-formed entry is plain or has a filter. -/
theorem plain_or_hasFilter {c : Conventions} {resolve : Resolver} {entry : String} {s : SuiteSpec}
    (h : readEntry? c resolve entry = some s) :
    ('[' ∉ entry.toList ∧ ']' ∉ entry.toList) ∨ ∃ name filter, HasFilter entry name filter := by
  obtain ⟨_, _, hcut, _⟩ := exists_cut_of_read c resolve h
  rcases shape_of_cutFilter? hcut with hplain | ⟨name, filter, hwritten, hname, hopen, hclose⟩
  · exact .inl hplain
  · have hform : entry = String.ofList name ++ "[" ++ String.ofList filter ∨
        entry = String.ofList name ++ "[" ++ String.ofList filter ++ "]" := by
      rw [← String.toList_inj, ← String.toList_inj]
      simpa using hwritten
    exact .inr ⟨_, _, hform, by simpa using hname, by simpa using hopen, by simpa using hclose⟩

/-! ## The grammar of entries -/

/-- **Grammar of entries**: an entry is well-formed exactly when it has no bracket or a filter.  A
filter may be left open, it lists the platforms, and behind a name without brackets it leaves all
else as it is. -/
theorem exists_readEntry?_iff (c : Conventions) (resolve : Resolver) {entry : String}
    (hentry : entry ≠ "") (htrim : trim entry.toList = entry.toList) :
    ((∃ s, readEntry? c resolve entry = some s) ↔
      ('[' ∉ entry.toList ∧ ']' ∉ entry.toList) ∨ ∃ name filter, HasFilter entry name filter) ∧
    ∀ name filter, HasFilter entry name filter →
      ∃ s, readEntry? c resolve (name ++ "[" ++ filter) = some s ∧
        readEntry? c resolve (name ++ "[" ++ filter ++ "]") = some s ∧
        s.platforms = some (filterPlatforms c filter.toList) ∧
        (']' ∉ name.toList →
          ∃ t, readEntry? c resolve (String.ofList (trim name.toList)) = some t ∧
            s.name = t.name ∧ s.pattern = t.pattern ∧ s.literals = t.literals ∧
            s.chunks = t.chunks) := by
  refine ⟨⟨fun ⟨_, hread⟩ => plain_or_hasFilter hread, ?_⟩, ?_⟩
  · rintro (⟨hopen, hclose⟩ | ⟨name, filter, hfilter⟩)
    · have hne : entry.toList ≠ [] := fun hnil => hentry (String.toList_eq_nil_iff.1 hnil)
      have hread := readEntry?_plain c resolve hne hopen hclose
      rw [String.ofList_toList] at hread
      exact ⟨_, hread⟩
    · exact hfilter.exists_read c resolve htrim
  · intro name filter hfilter
    obtain ⟨hopen, hclosed⟩ := hfilter.read_eq c resolve htrim
    rw [specOfName_eq] at hopen hclosed
    refine ⟨_, hopen, hclosed, rfl, fun hclose => ?_⟩
    have hplain := readEntry?_plain c resolve (hfilter.trim_name_ne_nil htrim)
      (fun hmem => hfilter.opens (mem_of_mem_trim hmem)) (fun hmem => hclose (mem_of_mem_trim hmem))
    exact ⟨_, hplain, rfl, rfl, rfl, rfl⟩

/-- A filter that is left open, behind a chunk and a blank. -/
theorem exists_readEntry?_iff_unclosed :
    "mochitest-2 [Windows 7" ≠ "" ∧
      trim "mochitest-2 [Windows 7".toList = "mochitest-2 [Windows 7".toList ∧
      HasFilter "mochitest-2 [Windows 7" "mochitest-2 " "Windows 7" ∧
      (∃ s, readEntry? .standard unittestPattern "mochitest-2 [Windows 7" = some s) ∧
      ∃ s t, readEntry? .standard unittestPattern "mochitest-2 [Windows 7]" = some s ∧
        readEntry? .standard unittestPattern "mochitest-2" = some t ∧
        s.platforms = some ["windows7-32"] ∧ s.name = t.name ∧ s.chunks = t.chunks := by
  have hentry : "mochitest-2 [Windows 7" ≠ "" := by decide
  have htrim : trim "mochitest-2 [Windows 7".toList = "mochitest-2 [Windows 7".toList := by decide
  have hfilter : HasFilter "mochitest-2 [Windows 7" "mochitest-2 " "Windows 7" :=
    ⟨.inl rfl, by decide, by decide, by decide⟩
  obtain ⟨hwellFormed, hforms⟩ := exists_readEntry?_iff .standard unittestPattern hentry htrim
  obtain ⟨s, _, hclosed, hplatforms, halone⟩ := hforms _ _ hfilter
  obtain ⟨t, ht, hname, _, _, hchunks⟩ := halone (by decide)
  exact ⟨hentry, htrim, hfilter, hwellFormed.2 (.inr ⟨_, _, hfilter⟩), s, t, hclosed, ht,
    hplatforms, hname, hchunks⟩

end PushPlan.Request
