import PushPlan.Proofs.Request.Classes

/-!
# PushPlan.Proofs.Settings.SharedKind

Kinds that are listed under two classes.

1. Of kinds, those of tests and then those of jobs are gone through as they are listed.
   The first one that an earlier class lists as well is reported, with that class
   (`Kinds.FirstShared`).
2. It is the only earlier class of the kind: a job of the kinds of builds and of tests
   would have been reported as a test.
3. The same comes out of one pass over all kinds that keeps, for each kind, nothing but
   the class under which it was last listed (`Kinds.pass`).
-/

namespace PushPlan

/-! ## Classes in order -/

namespace TaskClass

/-- The field of the settings that lists the kinds of a class. -/
def field : TaskClass → String
  | .build => "try_syntax.build_kinds"
  | .test => "try_syntax.test_kinds"
  | .job => "try_syntax.job_kinds"

/-- The classes that are listed before a class. -/
def earlier : TaskClass → List TaskClass
  | .build => []
  | .test => [.build]
  | .job => [.build, .test]

theorem notMem_earlier_self (c : TaskClass) : c ∉ c.earlier := by
  cases c <;> decide

theorem notMem_earlier_of_mem {c d : TaskClass} (h : d ∈ c.earlier) : c ∉ d.earlier := by
  cases c <;> cases d <;> revert h <;> decide

/-- Of two classes, one is listed before the other. -/
theorem mem_earlier_or_mem_earlier {c d : TaskClass} (h : c ≠ d) :
    c ∈ d.earlier ∨ d ∈ c.earlier := by
  cases c <;> cases d <;> revert h <;> decide

end TaskClass

namespace Kinds

variable {kinds : Kinds} {c d : TaskClass} {kind : String}

/-! ## Kinds as they are listed -/

/-- The kinds of a class, each with the class. -/
def entries (kinds : Kinds) (c : TaskClass) : List (TaskClass × String) :=
  (kinds.inClass c).map fun kind => (c, kind)

/-- The kinds of tests and of jobs, as they are gone through. -/
def checked (kinds : Kinds) : List (TaskClass × String) := kinds.entries .test ++ kinds.entries .job

/-- All kinds, class by class. -/
def listed (kinds : Kinds) : List (TaskClass × String) := kinds.entries .build ++ kinds.checked

theorem mem_entries_iff : (d, kind) ∈ kinds.entries c ↔ d = c ∧ kind ∈ kinds.inClass c := by
  simp only [entries, List.mem_map, Prod.mk.injEq]
  constructor
  · intro h
    obtain ⟨_, hmem, rfl, rfl⟩ := h
    exact ⟨rfl, hmem⟩
  · intro h
    obtain ⟨rfl, hmem⟩ := h
    exact ⟨kind, hmem, rfl, rfl⟩

theorem mem_listed_iff : (c, kind) ∈ kinds.listed ↔ kind ∈ kinds.inClass c := by
  cases c <;> simp [listed, checked, mem_entries_iff]

/-- Classes are listed in their order. -/
theorem pairwise_listed (kinds : Kinds) :
    kinds.listed.Pairwise fun x y => x.1 = y.1 ∨ x.1 ∈ y.1.earlier := by
  have hentries : ∀ c, (kinds.entries c).Pairwise fun x y => x.1 = y.1 ∨ x.1 ∈ y.1.earlier := by
    intro c
    exact List.pairwise_map.2 (List.pairwise_of_forall fun _ _ => .inl rfl)
  have hclass : ∀ c, ∀ x ∈ kinds.entries c, x.1 = c := fun c x hx => (mem_entries_iff.1 hx).1
  refine List.pairwise_append.2
    ⟨hentries _, List.pairwise_append.2 ⟨hentries _, hentries _, ?_⟩, ?_⟩
  · intro x hx y hy
    rw [hclass _ x hx, hclass _ y hy]
    decide
  · intro x hx y hy
    rw [hclass _ x hx]
    rcases List.mem_append.1 hy with hy | hy <;> rw [hclass _ y hy] <;> decide

/-! ## Kinds in two classes -/

/-- A kind of one class is listed under an earlier one. -/
def ListedBefore (kinds : Kinds) (c : TaskClass) (kind : String) (d : TaskClass) : Prop :=
  d ∈ c.earlier ∧ kind ∈ kinds.inClass d

/-- The first kind of tests and jobs that an earlier class lists as well. -/
structure FirstShared (kinds : Kinds) (c : TaskClass) (kind : String) (d : TaskClass) : Prop where
  shared : kinds.ListedBefore c kind d
  first : ∃ l r, kinds.checked = l ++ (c, kind) :: r ∧
    ∀ other ∈ l, ∀ d, ¬ kinds.ListedBefore other.1 other.2 d

/-- What is listed before an entry is of its class or of an earlier one. -/
theorem mem_earlier_of_listed {before rest : List (TaskClass × String)} {other : String}
    (h : kinds.listed = before ++ (c, kind) :: rest) (hother : (d, other) ∈ before)
    (hne : d ≠ c) : d ∈ c.earlier := by
  have hpairwise := kinds.pairwise_listed
  rw [h] at hpairwise
  have horder := (List.pairwise_append.1 hpairwise).2.2 _ hother _ List.mem_cons_self
  exact horder.resolve_left hne

/-- The kinds of earlier classes are listed before an entry. -/
theorem mem_before_of_listed {before rest : List (TaskClass × String)} {other : String}
    (h : kinds.listed = before ++ (c, kind) :: rest) (hd : d ∈ c.earlier)
    (hother : other ∈ kinds.inClass d) : (d, other) ∈ before := by
  have hmem : (d, other) ∈ before ++ (c, kind) :: rest := h ▸ mem_listed_iff.2 hother
  have hpairwise := kinds.pairwise_listed
  rw [h] at hpairwise
  have hrest := (List.pairwise_cons.1 (List.pairwise_append.1 hpairwise).2.1).1
  rcases List.mem_append.1 hmem with hmem | hmem
  · exact hmem
  · rcases List.mem_cons.1 hmem with heq | hmem
    · -- A class is not earlier than itself.
      rw [(Prod.mk.inj heq).1] at hd
      exact absurd hd c.notMem_earlier_self
    · have horder : c = d ∨ c ∈ d.earlier := hrest _ hmem
      rcases horder with rfl | hc
      · exact absurd hd c.notMem_earlier_self
      · exact absurd hc (TaskClass.notMem_earlier_of_mem hd)

/-- The first shared kind is in one earlier class only. -/
theorem eq_of_first {l r : List (TaskClass × String)} {d' : TaskClass}
    (h : kinds.checked = l ++ (c, kind) :: r)
    (hfirst : ∀ other ∈ l, ∀ d, ¬ kinds.ListedBefore other.1 other.2 d)
    (hd : kinds.ListedBefore c kind d) (hd' : kinds.ListedBefore c kind d') : d = d' := by
  refine Decidable.byContradiction fun hne => ?_
  -- The later of the two classes would have been reported first.
  have hlater : ∀ e f, e ∈ f.earlier → kinds.ListedBefore c kind e →
      kinds.ListedBefore c kind f → False := by
    intro e f hef he hf
    have hlisted : kinds.listed = (kinds.entries .build ++ l) ++ (c, kind) :: r := by
      rw [listed, h, List.append_assoc]
    have hbefore : (f, kind) ∈ l := by
      refine (List.mem_append.1 (mem_before_of_listed hlisted hf.1 hf.2)).resolve_left ?_
      intro hbuild
      rw [(mem_entries_iff.1 hbuild).1] at hef
      contradiction
    exact hfirst _ hbefore e ⟨hef, he.2⟩
  rcases TaskClass.mem_earlier_or_mem_earlier hne with hearlier | hearlier
  · exact hlater _ _ hearlier hd hd'
  · exact hlater _ _ hearlier hd' hd

/-! ## The check of kinds -/

/-- What is wrong with a kind of a class. -/
def clash? (kinds : Kinds) (entry : TaskClass × String) : Option Illegality :=
  (entry.1.earlier.find? fun d => (kinds.inClass d).contains entry.2).map fun d =>
    .sharedKind entry.1.field entry.2 d.field

/-- What is wrong with kinds: first with those of tests, then with those of jobs. -/
def sharedFault? (kinds : Kinds) : Option Illegality :=
  (fault? "try_syntax.test_kinds" kinds.test [("try_syntax.build_kinds", kinds.build)]).or
    (fault? "try_syntax.job_kinds" kinds.job
      [("try_syntax.build_kinds", kinds.build), ("try_syntax.test_kinds", kinds.test)])

theorem fault?_eq_findSome? (kinds : Kinds) (c : TaskClass) :
    fault? c.field (kinds.inClass c) (c.earlier.map fun d => (d.field, kinds.inClass d)) =
      (kinds.entries c).findSome? kinds.clash? := by
  rw [fault?, entries, List.findSome?_map]
  congr 1
  funext kind
  rw [Function.comp_apply, clash?, List.find?_map, Option.map_map]
  rfl

theorem sharedFault?_eq_findSome? (kinds : Kinds) :
    kinds.sharedFault? = kinds.checked.findSome? kinds.clash? := by
  rw [checked, List.findSome?_append, ← fault?_eq_findSome?, ← fault?_eq_findSome?]
  rfl

theorem clash?_eq_none_iff {entry : TaskClass × String} :
    kinds.clash? entry = none ↔ ∀ d, ¬ kinds.ListedBefore entry.1 entry.2 d := by
  simp [clash?, ListedBefore, List.find?_eq_none]

theorem clash?_eq_some {entry : TaskClass × String} {e : Illegality}
    (h : kinds.clash? entry = some e) :
    ∃ d, kinds.ListedBefore entry.1 entry.2 d ∧ e = .sharedKind entry.1.field entry.2 d.field := by
  obtain ⟨d, hfind, rfl⟩ := Option.map_eq_some_iff.1 h
  refine ⟨d, ⟨List.mem_of_find?_eq_some hfind, ?_⟩, rfl⟩
  simpa using List.find?_some hfind

/-- **Kinds**: what is reported is the first kind of tests and jobs that is in an earlier class. -/
theorem sharedFault?_eq_some_iff {e : Illegality} :
    kinds.sharedFault? = some e ↔
      ∃ c kind d, kinds.FirstShared c kind d ∧ e = .sharedKind c.field kind d.field := by
  rw [sharedFault?_eq_findSome?, List.findSome?_eq_some_iff]
  simp only [clash?_eq_none_iff]
  constructor
  · intro h
    obtain ⟨l, entry, r, hchecked, hclash, hfirst⟩ := h
    obtain ⟨d, hshared, rfl⟩ := clash?_eq_some hclash
    exact ⟨_, _, d, ⟨hshared, l, r, hchecked, hfirst⟩, rfl⟩
  · intro h
    obtain ⟨c, kind, d, ⟨hshared, l, r, hchecked, hfirst⟩, rfl⟩ := h
    refine ⟨l, (c, kind), r, hchecked, ?_, hfirst⟩
    cases hclash : kinds.clash? (c, kind) with
    | none => exact absurd hshared (clash?_eq_none_iff.1 hclash d)
    | some e =>
        obtain ⟨d', hshared', rfl⟩ := clash?_eq_some hclash
        rw [eq_of_first hchecked hfirst hshared hshared']

/-- Kinds that a class lists twice are no fault, and of two shared kinds the first is reported. -/
example :
    (Kinds.mk ["x", "x"] ["y", "y"] ["z", "y", "x"]).sharedFault? =
      some (.sharedKind "try_syntax.job_kinds" "y" "try_syntax.test_kinds") := by decide

/-- Nothing is wrong with kinds exactly when no kind is in two classes. -/
theorem sharedFault?_eq_none_iff : kinds.sharedFault? = none ↔ kinds.Disjoint := by
  rw [sharedFault?, Option.or_eq_none_iff, fault?_eq_none_iff, fault?_eq_none_iff]
  simp only [List.forall_mem_cons, List.not_mem_nil, false_implies, implies_true, and_true]
  constructor
  · intro h
    exact disjoint_of_notMem h.1 h.2
  · intro h
    refine ⟨fun kind htest hbuild => ?_, fun kind hjob => ⟨fun hbuild => ?_, fun htest => ?_⟩⟩
    · exact TaskClass.noConfusion (h kind .test .build htest hbuild)
    · exact TaskClass.noConfusion (h kind .job .build hjob hbuild)
    · exact TaskClass.noConfusion (h kind .job .test hjob htest)

/-! ## One pass -/

/-- One pass over kinds and their classes.  It keeps for each kind the class that it was last
listed under, and reports the first one that was listed under another class. -/
def pass (seen : SortedMap String TaskClass) : List (TaskClass × String) → Option Illegality
  | [] => none
  | (c, kind) :: rest =>
    match (seen.get? kind).filter (· ≠ c) with
    | some other => some (.sharedKind c.field kind other.field)
    | none => pass (seen.put kind c) rest

/-- What a pass has seen: every kind stands under the only class that listed it. -/
def Seen (seen : SortedMap String TaskClass) (before : List (TaskClass × String)) : Prop :=
  ∀ kind d, seen.get? kind = some d ↔ (d, kind) ∈ before

/-- The earlier class of a kind is the other class that it was last listed under. -/
theorem listedBefore_iff_of_seen {before rest : List (TaskClass × String)}
    {seen : SortedMap String TaskClass} (hseen : Seen seen before)
    (h : kinds.listed = before ++ (c, kind) :: rest) :
    kinds.ListedBefore c kind d ↔ seen.get? kind = some d ∧ d ≠ c := by
  rw [hseen kind d]
  constructor
  · intro hd
    refine ⟨mem_before_of_listed h hd.1 hd.2, ?_⟩
    rintro rfl
    exact d.notMem_earlier_self hd.1
  · intro hd
    have hmem : (d, kind) ∈ kinds.listed := by
      rw [h]
      exact List.mem_append_left _ hd.1
    exact ⟨mem_earlier_of_listed h hd.1 hd.2, mem_listed_iff.1 hmem⟩

/-- One step: an entry clashes exactly when its kind was last listed under another class. -/
theorem clash?_of_seen {before rest : List (TaskClass × String)}
    {seen : SortedMap String TaskClass} (hseen : Seen seen before)
    (h : kinds.listed = before ++ (c, kind) :: rest) :
    kinds.clash? (c, kind) =
      ((seen.get? kind).filter (· ≠ c)).map fun d => .sharedKind c.field kind d.field := by
  cases hclash : kinds.clash? (c, kind) with
  | none =>
      have hnone := clash?_eq_none_iff.1 hclash
      have hfilter : (seen.get? kind).filter (· ≠ c) = none := by
        rw [Option.filter_eq_none_iff]
        intro d hd hne
        exact hnone d ((listedBefore_iff_of_seen hseen h).2 ⟨hd, by simpa using hne⟩)
      rw [hfilter]
      rfl
  | some e =>
      obtain ⟨d, hshared, rfl⟩ := clash?_eq_some hclash
      obtain ⟨hget, hne⟩ := (listedBefore_iff_of_seen hseen h).1 hshared
      have hfilter : (seen.get? kind).filter (· ≠ c) = some d :=
        Option.filter_eq_some_iff.2 ⟨hget, by simpa using hne⟩
      rw [hfilter]
      rfl

/-- A kind that was not listed under another class goes under its own. -/
theorem Seen.put {before : List (TaskClass × String)} {seen : SortedMap String TaskClass}
    (hseen : Seen seen before) (h : (seen.get? kind).filter (· ≠ c) = none) :
    Seen (seen.put kind c) (before ++ [(c, kind)]) := by
  intro other d
  by_cases hkind : other = kind
  · subst hkind
    rw [SortedMap.get?_put_self, List.mem_append, ← hseen other d]
    constructor
    · intro heq
      cases heq
      exact .inr List.mem_cons_self
    · intro hd
      rcases hd with hget | hmem
      · have hsame := Option.filter_eq_none_iff.1 h d hget
        have heq : d = c := by simpa using hsame
        rw [heq]
      · rw [(Prod.mk.inj (List.mem_singleton.1 hmem)).1]
  · rw [SortedMap.get?_put_of_ne _ _ hkind, hseen other d]
    simp [hkind]

/-- A pass over the rest of the kinds reports the first clash in it. -/
theorem pass_eq_findSome? {before rest : List (TaskClass × String)}
    {seen : SortedMap String TaskClass} (hseen : Seen seen before)
    (h : kinds.listed = before ++ rest) : pass seen rest = rest.findSome? kinds.clash? := by
  induction rest generalizing before seen with
  | nil => rfl
  | cons entry rest ih =>
      obtain ⟨c, kind⟩ := entry
      rw [pass, List.findSome?_cons, clash?_of_seen hseen h]
      cases hfilter : (seen.get? kind).filter (· ≠ c) with
      | some other => rfl
      | none => exact ih (hseen.put hfilter) (by rw [h, List.append_assoc]; rfl)

/-- **One pass** over all kinds, class by class, comes to what the classes do one by one. -/
theorem pass_listed (kinds : Kinds) : pass .empty kinds.listed = kinds.sharedFault? := by
  have hseen : Seen .empty [] := by
    intro kind d
    simp [SortedMap.get?, Sorted.find?, Sorted.empty]
  have hbuild : (kinds.entries .build).findSome? kinds.clash? = none := by
    rw [List.findSome?_eq_none_iff]
    intro entry hentry
    obtain ⟨c, kind⟩ := entry
    obtain ⟨rfl, _⟩ := mem_entries_iff.1 hentry
    rfl
  have hlisted : kinds.listed = [] ++ kinds.listed := rfl
  rw [pass_eq_findSome? hseen hlisted, listed, List.findSome?_append, hbuild, Option.none_or,
    sharedFault?_eq_findSome?]

end Kinds

end PushPlan
