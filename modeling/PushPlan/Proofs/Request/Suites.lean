import PushPlan.Proofs.Request.Entry
import PushPlan.Proofs.Request.Items
import PushPlan.Proofs.Sorted
import PushPlan.Request.Matching

/-!
# PushPlan.Proofs.Request.Suites

What a suite list asks for, entry by entry.

1. Every spec that is read keeps the pattern that its name resolves to
   (`SuiteSpec.Resolved`).  Joining specs rests on it: two specs of one name
   have one pattern, so the join accepts what either of them accepts.
2. Adding a spec to a list therefore adds exactly what the spec accepts,
   whichever spec of the list it is joined into.
3. A suite list accepts a test exactly when one of its entries does, read on
   its own.
-/

namespace PushPlan.Request

namespace SuiteSpec

/-! ## The pattern of a name -/

/-- The pattern of a spec is what its name resolves to. -/
def Resolved (resolve : Resolver) (s : SuiteSpec) : Prop := s.pattern = resolve s.name

theorem resolved_specOfName (resolve : Resolver) (platforms : Option (List String))
    (name : List Char) : (specOfName resolve platforms name).Resolved resolve := by
  simp only [specOfName]
  split <;> rfl

theorem resolved_of_read {c : Conventions} {resolve : Resolver} {entry : String}
    {s : SuiteSpec} (h : readEntry? c resolve entry = some s) : s.Resolved resolve := by
  obtain ⟨name, filter, _, hs⟩ := exists_cut_of_read c resolve h
  rw [← hs]
  exact resolved_specOfName resolve _ name

/-! ## Joining two specs -/

/-- Two specs join when both ask for chunks of one suite on the same platforms; the join has
the literals and the chunks of both. -/
theorem join?_eq_some_iff {s t joined : SuiteSpec} :
    s.join? t = some joined ↔
      ∃ chunks more, s.chunks = some chunks ∧ t.chunks = some more ∧
        s.name = t.name ∧ s.platforms = t.platforms ∧
        joined = { s with literals := s.literals ++ t.literals,
                          chunks := some (chunks.insertAll more.toList) } := by
  unfold join?
  cases hs : s.chunks with
  | none => simp
  | some chunks =>
      cases ht : t.chunks with
      | none => simp
      | some more =>
          by_cases hc : s.name = t.name ∧ s.platforms = t.platforms
          · simp [hc, eq_comm]
          · simp only [if_neg hc]
            constructor
            · intro h
              contradiction
            · intro h
              obtain ⟨_, _, _, _, hname, hplatforms, _⟩ := h
              exact absurd ⟨hname, hplatforms⟩ hc

theorem Resolved.join {resolve : Resolver} {s t joined : SuiteSpec} (hs : s.Resolved resolve)
    (h : s.join? t = some joined) : joined.Resolved resolve := by
  obtain ⟨chunks, more, _, _, _, _, rfl⟩ := join?_eq_some_iff.1 h
  exact hs

theorem contains_insertAll (chunks more : SortedSet Int) (n : Int) :
    (chunks.insertAll more.toList).contains n = (chunks.contains n || more.contains n) := by
  rw [Bool.eq_iff_iff, Bool.or_eq_true, SortedSet.contains_iff_mem, SortedSet.contains_iff_mem,
    SortedSet.contains_iff_mem, SortedSet.mem_insertAll, or_comm]

/-- A join takes the chunks of both specs. -/
theorem acceptsChunk_join {s t joined : SuiteSpec} (h : s.join? t = some joined) (task : Task) :
    joined.acceptsChunk task = (s.acceptsChunk task || t.acceptsChunk task) := by
  obtain ⟨chunks, more, hs, ht, _, _, rfl⟩ := join?_eq_some_iff.1 h
  simp only [acceptsChunk, hs, ht]
  cases (task.attribute? "test_chunk").bind (·.asInteger?) with
  | none => rfl
  | some n => exact contains_insertAll chunks more n

/-- The join of resolved specs accepts what either of them accepts. -/
theorem accepts_join {resolve : Resolver} {s t joined : SuiteSpec} (hs : s.Resolved resolve)
    (ht : t.Resolved resolve) (h : s.join? t = some joined) (name : String) (task : Task) :
    joined.accepts name task = (s.accepts name task || t.accepts name task) := by
  have hchunk := acceptsChunk_join h task
  obtain ⟨chunks, more, _, _, hname, hplatforms, rfl⟩ := join?_eq_some_iff.1 h
  -- One name resolves to one pattern: without this, the chunks of `t` would be taken with the
  -- pattern of `s`.
  have hpattern : t.pattern = s.pattern := by
    rw [hs, ht, hname]
  have hplatform : t.acceptsPlatform task = s.acceptsPlatform task := by
    simp only [acceptsPlatform, hplatforms]
  simp only [accepts, hchunk, hpattern, hplatform, List.contains_append]
  simp only [acceptsPlatform]
  cases s.pattern.fits name <;> cases s.literals.contains name <;>
    cases t.literals.contains name <;> cases s.acceptsChunk task <;>
    cases t.acceptsChunk task <;> simp

/-! ## Adding to a list -/

theorem resolved_addTo {resolve : Resolver} {specs : List SuiteSpec} {t : SuiteSpec}
    (ht : t.Resolved resolve) (h : ∀ s ∈ specs, s.Resolved resolve) :
    ∀ s ∈ t.addTo specs, s.Resolved resolve := by
  induction specs with
  | nil => simpa [addTo] using ht
  | cons s specs ih =>
      have hs : s.Resolved resolve := h s List.mem_cons_self
      have hspecs : ∀ u ∈ specs, u.Resolved resolve := fun u hu => h u (List.mem_cons_of_mem s hu)
      simp only [addTo]
      split
      · next joined hjoin =>
          exact List.forall_mem_cons.2 ⟨hs.join hjoin, hspecs⟩
      · exact List.forall_mem_cons.2 ⟨hs, ih hspecs⟩

/-- **Adding one spec**: the list then accepts what it accepted before and what the spec does,
whether the spec is joined into another one or put at the end. -/
theorem any_accepts_addTo {resolve : Resolver} {specs : List SuiteSpec} {t : SuiteSpec}
    (ht : t.Resolved resolve) (h : ∀ s ∈ specs, s.Resolved resolve) (name : String)
    (task : Task) :
    (t.addTo specs).any (·.accepts name task) =
      (specs.any (·.accepts name task) || t.accepts name task) := by
  induction specs with
  | nil => simp [addTo]
  | cons s specs ih =>
      have hs : s.Resolved resolve := h s List.mem_cons_self
      have hspecs : ∀ u ∈ specs, u.Resolved resolve := fun u hu => h u (List.mem_cons_of_mem s hu)
      simp only [addTo]
      split
      · next joined hjoin =>
          rw [List.any_cons, List.any_cons, accepts_join hs ht hjoin, Bool.or_assoc,
            Bool.or_assoc, Bool.or_comm (t.accepts name task)]
      · rw [List.any_cons, List.any_cons, ih hspecs, Bool.or_assoc]

end SuiteSpec

/-! ## Suite lists -/

/-- Reading entries adds what each of them accepts on its own. -/
theorem any_accepts_readEntries (c : Conventions) (resolve : Resolver) {specs : List SuiteSpec}
    (h : ∀ s ∈ specs, s.Resolved resolve) (entries : List String) (name : String)
    (task : Task) :
    (readEntries c resolve specs entries).1.any (·.accepts name task) =
      (specs.any (·.accepts name task) ||
        entries.any fun entry => readEntry? c resolve entry |>.any (·.accepts name task)) := by
  induction entries generalizing specs with
  | nil => simp [readEntries]
  | cons entry entries ih =>
      simp only [readEntries, List.any_cons]
      cases hread : readEntry? c resolve entry with
      | none =>
          rw [Option.any_none, Bool.false_or]
          exact ih h
      | some s =>
          have hs : s.Resolved resolve := SuiteSpec.resolved_of_read hread
          rw [Option.any_some, ih (SuiteSpec.resolved_addTo hs h),
            SuiteSpec.any_accepts_addTo hs h, Bool.or_assoc]

/-- A value that is no word of its own lists what its items ask for. -/
theorem readSuites_eq_only (c : Conventions) (resolve : Resolver) {value : String}
    (hall : value ≠ "all") (hnone : value ≠ "none") :
    (readSuites c resolve value).1 =
      .only (readEntries c resolve [] (firsts (items value.toList))).1 := by
  simp only [readSuites, readNames_eq_only hall hnone]

/-- **Union law**: a suite list accepts a test exactly when one of its entries does, read on its
own, so that order, repetitions, malformed neighbours and joined chunks do not matter. -/
theorem readSuites_accepts_iff (c : Conventions) (resolve : Resolver) {value : String}
    (hall : value ≠ "all") (hnone : value ≠ "none") :
    ∃ specs, (readSuites c resolve value).1 = .only specs ∧
      ∀ (name : String) (task : Task),
        (∃ s ∈ specs, s.accepts name task = true) ↔
          ∃ entry ∈ items value.toList, ∃ s, readEntry? c resolve entry = some s ∧
            s.accepts name task = true := by
  refine ⟨_, readSuites_eq_only c resolve hall hnone, fun name task => ?_⟩
  have hstart : ∀ s ∈ ([] : List SuiteSpec), s.Resolved resolve := by simp
  have hunion := any_accepts_readEntries c resolve hstart (firsts (items value.toList)) name task
  rw [List.any_nil, Bool.false_or] at hunion
  rw [← List.any_eq_true, hunion, List.any_eq_true]
  simp only [mem_firsts, Option.any_eq_true]

/-- A chunk that is joined into an earlier entry is asked for all the same, beside a
malformed entry. -/
theorem readSuites_accepts_joined_chunk :
    "mochitest-1,x],mochitest-3" ≠ "all" ∧
      "mochitest-1,x],mochitest-3" ≠ "none" ∧
      ∃ specs,
        (readSuites .standard unittestPattern "mochitest-1,x],mochitest-3").1 = .only specs ∧
        ∃ s ∈ specs, s.accepts "mochitest-browser-chrome"
          ((Task.mk "t" none .empty .null).withAttribute "test_chunk" (.number 3)) = true := by
  have hall : "mochitest-1,x],mochitest-3" ≠ "all" := by decide
  have hnone : "mochitest-1,x],mochitest-3" ≠ "none" := by decide
  obtain ⟨specs, hspecs, hiff⟩ := readSuites_accepts_iff .standard unittestPattern hall hnone
  have hentry : ∃ entry ∈ items "mochitest-1,x],mochitest-3".toList,
      ∃ s, readEntry? .standard unittestPattern entry = some s ∧
        s.accepts "mochitest-browser-chrome"
          ((Task.mk "t" none .empty .null).withAttribute "test_chunk" (.number 3)) = true :=
    ⟨"mochitest-3", by decide, _, rfl, by decide⟩
  exact ⟨hall, hnone, specs, hspecs, (hiff _ _).2 hentry⟩

end PushPlan.Request
