import PushPlan.Settings.Legal

/-!
# PushPlan.Proofs.Settings.Legal

When settings are legal.

Each check finds nothing exactly when what it looks at is in order, and settings
are legal exactly when no check finds anything (`isLegal_iff`).
-/

namespace PushPlan

open Text

/-! ## Single checks -/

theorem ProjectClasses.fault?_eq_none_iff {field : String} {projects : SortedSet String} :
    fault? field projects = none ↔ ∀ name ∈ projects.toList, allBlank name = false := by
  simp [fault?]

theorem Kinds.fault?_eq_none_iff {field : String} {kinds : List String}
    {earlier : List (String × List String)} :
    fault? field kinds earlier = none ↔ ∀ kind ∈ kinds, ∀ other ∈ earlier, kind ∉ other.2 := by
  simp [fault?, List.find?_eq_none]

theorem Conventions.nameFault?_eq_none_iff {entry : String × List String} :
    nameFault? entry = none ↔
      entry.2 ≠ [] ∧ ∀ platform ∈ entry.2, allBlank platform = false := by
  simp [nameFault?]

/-! ## Settings -/

/-- Settings are legal exactly when no project, no marker and no platform is blank, no kind is in
two classes, and every display name stands for a platform. -/
theorem Settings.isLegal_iff {s : Settings} :
    s.IsLegal ↔
      (∀ name ∈ s.projects.integration.toList, allBlank name = false) ∧
      (∀ name ∈ s.projects.release.toList, allBlank name = false) ∧
      allBlank s.conventions.marker = false ∧
      (∀ kind ∈ s.conventions.kinds.test, kind ∉ s.conventions.kinds.build) ∧
      (∀ kind ∈ s.conventions.kinds.job,
        kind ∉ s.conventions.kinds.build ∧ kind ∉ s.conventions.kinds.test) ∧
      ∀ entry ∈ s.conventions.platformNames.toList,
        entry.2 ≠ [] ∧ ∀ platform ∈ entry.2, allBlank platform = false := by
  have hmarker : (if allBlank s.conventions.marker then some Illegality.blankMarker else none) =
      none ↔ allBlank s.conventions.marker = false := by
    cases allBlank s.conventions.marker <;> decide
  simp only [IsLegal, fault?, Option.or_eq_none_iff, ProjectClasses.fault?_eq_none_iff, hmarker,
    Kinds.fault?_eq_none_iff, List.findSome?_eq_none_iff, Conventions.nameFault?_eq_none_iff,
    List.forall_mem_cons, List.not_mem_nil, false_implies, implies_true, and_true]

end PushPlan
