import PushPlan.Proofs.Settings.SharedKind
import PushPlan.Proofs.Sorted

/-!
# PushPlan.Proofs.Settings.Fault

What is reported of settings that are not legal.

1. Settings are legal exactly when they are in order: no name is blank, no kind is in two
   classes, and every display name stands for a platform (`Settings.InOrder`).
2. Settings are checked field by field, in a fixed order.  The first field at fault is
   reported, and of display names the least one at fault (`Settings.FirstFault`).
-/

namespace PushPlan

open Text

/-- Some name is blank. -/
def HasBlank (names : List String) : Prop := ∃ name ∈ names, allBlank name = true

theorem not_hasBlank_iff {names : List String} :
    ¬ HasBlank names ↔ ∀ name ∈ names, allBlank name = false := by
  simp [HasBlank]

/-! ## Single checks -/

theorem ProjectClasses.fault?_eq_some_iff {field : String} {projects : SortedSet String}
    {e : Illegality} :
    fault? field projects = some e ↔ HasBlank projects.toList ∧ e = .blankProject field := by
  rw [fault?, Option.ite_none_right_eq_some, List.any_eq_true, Option.some.injEq, eq_comm (b := e)]
  rfl

theorem ProjectClasses.fault?_eq_none {field : String} {projects : SortedSet String} :
    fault? field projects = none ↔ ¬ HasBlank projects.toList := by
  rw [fault?_eq_none_iff, not_hasBlank_iff]

namespace Conventions

/-- A display name that stands for no platform, or for one with a blank name. -/
def NoPlatform (entry : String × List String) : Prop := entry.2 = [] ∨ HasBlank entry.2

theorem nameFault?_eq_some_iff {entry : String × List String} {e : Illegality} :
    nameFault? entry = some e ↔ NoPlatform entry ∧ e = .noPlatform entry.1 := by
  rw [nameFault?, Option.ite_none_right_eq_some, Bool.or_eq_true, List.isEmpty_iff,
    List.any_eq_true, Option.some.injEq, eq_comm (b := e)]
  rfl

/-- Of display names, the least one at fault is reported. -/
theorem findSome?_nameFault?_eq_some_iff {names : SortedMap String (List String)}
    {e : Illegality} :
    names.toList.findSome? nameFault? = some e ↔
      ∃ entry, names.Least NoPlatform entry ∧ e = .noPlatform entry.1 := by
  have hsome : ∀ entry, (nameFault? entry).isSome = true ↔ NoPlatform entry := by
    intro entry
    simp [Option.isSome_iff_exists, nameFault?_eq_some_iff]
  rw [Sorted.findSome?_toList_eq_some_iff]
  refine exists_congr fun entry => ?_
  rw [Sorted.Least.congr fun b _ => hsome b, nameFault?_eq_some_iff]
  constructor
  · intro h
    exact ⟨h.1, h.2.2⟩
  · intro h
    exact ⟨h.1, h.1.holds, h.2⟩

end Conventions

/-! ## Settings -/

namespace Settings

/-- Settings in which everything is in order. -/
structure InOrder (s : Settings) : Prop where
  integration : ¬ HasBlank s.projects.integration.toList
  release : ¬ HasBlank s.projects.release.toList
  marker : allBlank s.conventions.marker = false
  kinds : s.conventions.kinds.Disjoint
  names : ∀ name platforms, s.conventions.platformNames.get? name = some platforms →
    platforms ≠ [] ∧ ¬ HasBlank platforms

/-- The first field at fault, with what is wrong there. -/
inductive FirstFault (s : Settings) : (field : String) → Illegality → Prop where
  | integration (h : HasBlank s.projects.integration.toList) :
      FirstFault s "projects.integration" (.blankProject "projects.integration")
  | release (hintegration : ¬ HasBlank s.projects.integration.toList)
      (h : HasBlank s.projects.release.toList) :
      FirstFault s "projects.release" (.blankProject "projects.release")
  | marker (hintegration : ¬ HasBlank s.projects.integration.toList)
      (hrelease : ¬ HasBlank s.projects.release.toList)
      (h : allBlank s.conventions.marker = true) :
      FirstFault s "try_syntax.marker" .blankMarker
  | kinds (hintegration : ¬ HasBlank s.projects.integration.toList)
      (hrelease : ¬ HasBlank s.projects.release.toList)
      (hmarker : allBlank s.conventions.marker = false) {c d : TaskClass} {kind : String}
      (h : s.conventions.kinds.FirstShared c kind d) :
      FirstFault s c.field (.sharedKind c.field kind d.field)
  | names (hintegration : ¬ HasBlank s.projects.integration.toList)
      (hrelease : ¬ HasBlank s.projects.release.toList)
      (hmarker : allBlank s.conventions.marker = false)
      (hkinds : s.conventions.kinds.Disjoint) {entry : String × List String}
      (h : s.conventions.platformNames.Least Conventions.NoPlatform entry) :
      FirstFault s "try_syntax.test_platform_aliases" (.noPlatform entry.1)

theorem markerFault?_eq_some_iff {marker : String} {e : Illegality} :
    (if allBlank marker then some Illegality.blankMarker else none) = some e ↔
      allBlank marker = true ∧ e = .blankMarker := by
  rw [Option.ite_none_right_eq_some, Option.some.injEq, eq_comm (b := e)]

theorem markerFault?_eq_none_iff {marker : String} :
    (if allBlank marker then some Illegality.blankMarker else none) = none ↔
      allBlank marker = false := by
  simp

/-- The checks, one after the other. -/
theorem fault?_eq (s : Settings) :
    s.fault? =
      (ProjectClasses.fault? "projects.integration" s.projects.integration).or
        ((ProjectClasses.fault? "projects.release" s.projects.release).or
          ((if allBlank s.conventions.marker then some .blankMarker else none).or
            (s.conventions.kinds.sharedFault?.or
              (s.conventions.platformNames.toList.findSome? Conventions.nameFault?)))) := by
  rw [Kinds.sharedFault?, Option.or_assoc]
  rfl

theorem fault?_eq_none_iff {s : Settings} : s.fault? = none ↔ s.InOrder := by
  rw [fault?_eq]
  simp only [Option.or_eq_none_iff, ProjectClasses.fault?_eq_none, markerFault?_eq_none_iff,
    Kinds.sharedFault?_eq_none_iff, List.findSome?_eq_none_iff,
    Conventions.nameFault?_eq_none_iff, ← not_hasBlank_iff]
  constructor
  · intro h
    obtain ⟨hintegration, hrelease, hmarker, hkinds, hnames⟩ := h
    exact ⟨hintegration, hrelease, hmarker, hkinds, fun name platforms hname =>
      hnames _ (SortedMap.get?_eq_some_iff.1 hname)⟩
  · intro h
    exact ⟨h.integration, h.release, h.marker, h.kinds, fun entry hentry =>
      h.names entry.1 entry.2 (SortedMap.get?_eq_some_iff.2 hentry)⟩

theorem fault?_eq_some_iff {s : Settings} {e : Illegality} :
    s.fault? = some e ↔ s.FirstFault e.field e := by
  rw [fault?_eq]
  simp only [Option.or_eq_some_iff, ProjectClasses.fault?_eq_some_iff,
    ProjectClasses.fault?_eq_none, markerFault?_eq_some_iff, markerFault?_eq_none_iff,
    Kinds.sharedFault?_eq_some_iff, Kinds.sharedFault?_eq_none_iff,
    Conventions.findSome?_nameFault?_eq_some_iff]
  constructor
  · intro h
    obtain ⟨h, rfl⟩ | ⟨hintegration, ⟨h, rfl⟩ | ⟨hrelease, ⟨h, rfl⟩ | ⟨hmarker,
      ⟨c, kind, d, h, rfl⟩ | ⟨hkinds, entry, h, rfl⟩⟩⟩⟩ := h
    · exact .integration h
    · exact .release hintegration h
    · exact .marker hintegration hrelease h
    · exact .kinds hintegration hrelease hmarker h
    · exact .names hintegration hrelease hmarker hkinds h
  · intro h
    generalize e.field = field at h
    cases h with
    | integration h => exact .inl ⟨h, rfl⟩
    | release hintegration h => exact .inr ⟨hintegration, .inl ⟨h, rfl⟩⟩
    | marker hintegration hrelease h => exact .inr ⟨hintegration, .inr ⟨hrelease, .inl ⟨h, rfl⟩⟩⟩
    | kinds hintegration hrelease hmarker h =>
        exact .inr ⟨hintegration, .inr ⟨hrelease, .inr ⟨hmarker, .inl ⟨_, _, _, h, rfl⟩⟩⟩⟩
    | names hintegration hrelease hmarker hkinds h =>
        exact .inr ⟨hintegration, .inr ⟨hrelease, .inr ⟨hmarker, .inr ⟨hkinds, _, h, rfl⟩⟩⟩⟩

theorem FirstFault.field_eq {s : Settings} {field : String} {e : Illegality}
    (h : s.FirstFault field e) : e.field = field := by
  cases h <;> rfl

/-- **Checking settings**: nothing is reported exactly when all is in order, and otherwise the
first field at fault is, with what is wrong there.  For kinds it makes no difference whether class
after class is compared with the earlier ones or one pass keeps where each kind was last listed. -/
theorem fault?_reports_first (s : Settings) :
    (s.fault? = none ↔ s.InOrder) ∧
      (∀ field e, s.fault? = some e ∧ e.field = field ↔ s.FirstFault field e) ∧
      s.conventions.kinds.sharedFault? = Kinds.pass .empty s.conventions.kinds.listed := by
  refine ⟨fault?_eq_none_iff, fun field e => ?_, (Kinds.pass_listed _).symm⟩
  rw [fault?_eq_some_iff]
  constructor
  · intro h
    exact h.2 ▸ h.1
  · intro h
    have hfield := h.field_eq
    exact ⟨by rwa [hfield], hfield⟩

end Settings

end PushPlan
