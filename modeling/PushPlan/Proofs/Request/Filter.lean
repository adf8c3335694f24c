import PushPlan.Proofs.Request.CommaList
import PushPlan.Proofs.Request.Items
import PushPlan.Proofs.Request.Matching
import PushPlan.Proofs.Settings.Fault

/-!
# PushPlan.Proofs.Request.Filter

Platform filters, such as the one of `reftest[Windows 7,linux64]`.

1. A name in a filter means the platforms that it is a display name of, and otherwise
   itself (`Conventions.Means`).  Where settings are legal it always means some platform,
   so that a filter with names is never one without platforms.
2. Items of a list are trimmed and not empty, hence not blank; nor are, in legal settings,
   the platforms of display names.
3. A platform stands for itself and for what follows it behind a slash, and for no name
   that only starts like it.
-/

namespace PushPlan

open Text

/-- A name in a filter means a test platform. -/
def Conventions.Means (c : Conventions) (name platform : String) : Prop :=
  (∃ platforms, c.platformNames.get? name = some platforms ∧ platform ∈ platforms) ∨
    c.platformNames.get? name = none ∧ platform = name

namespace Request

/-! ## Blank names -/

/-- A trimmed text that is not empty is not blank. -/
theorem IsItem.allBlank_eq_false {item : String} (h : IsItem item) : allBlank item = false := by
  cases hitem : item.toList with
  | nil => exact absurd (by simpa using hitem) h.ne_empty
  | cons ch chars =>
      have htrim : trim (ch :: chars) = ch :: chars := hitem ▸ h.trimmed
      rw [allBlank, hitem, List.all_cons, isBlank_of_trim_cons_eq htrim, Bool.false_and]

theorem allBlank_of_mem_items {item : String} {cs : List Char} (h : item ∈ items cs) :
    allBlank item = false :=
  ((isItemList_items cs).isItem item h).allBlank_eq_false

/-! ## What a filter lists -/

section

variable {c : Conventions}

theorem mem_namedPlatforms_iff {name platform : String} :
    platform ∈ namedPlatforms c name ↔ c.Means name platform := by
  rw [namedPlatforms, Conventions.Means]
  cases c.platformNames.get? name <;> simp

/-- A filter lists the first occurrences of what its names mean. -/
theorem filterPlatforms_eq (filter : List Char) :
    filterPlatforms c filter = firsts ((items filter).flatMap (namedPlatforms c)) :=
  foldl_foldl_pushNew _ _

theorem mem_filterPlatforms_iff {filter : List Char} {platform : String} :
    platform ∈ filterPlatforms c filter ↔ ∃ name ∈ items filter, c.Means name platform := by
  rw [filterPlatforms_eq, mem_firsts, List.mem_flatMap]
  simp only [mem_namedPlatforms_iff]

/-! ## Platforms of a test -/

/-- A platform stands for itself and for what is below it. -/
theorem SuiteSpec.standsFor_iff {filter platform : String} :
    standsFor filter platform = true ↔
      platform = filter ∨ ∃ rest, platform = filter ++ "/" ++ rest := by
  have hbelow : startsWith (filter.toList ++ ['/']) platform.toList = true ↔
      ∃ rest, platform = filter ++ "/" ++ rest := by
    rw [startsWith, Option.isSome_iff_exists]
    constructor
    · intro h
      obtain ⟨rest, hrest⟩ := h
      refine ⟨String.ofList rest, String.toList_inj.1 ?_⟩
      simpa using dropFront?_eq_some_iff.1 hrest
    · intro h
      obtain ⟨rest, rfl⟩ := h
      exact ⟨rest.toList, dropFront?_eq_some_iff.2 (by simp)⟩
  rw [standsFor, Bool.or_eq_true, beq_iff_eq, hbelow]

/-- A platform does not stand for a longer name. -/
theorem SuiteSpec.standsFor_longer {filter : String} {next : Char} (hnext : next ≠ '/')
    (rest : String) : standsFor filter (filter.push next ++ rest) = false := by
  rw [Bool.eq_false_iff, Ne, standsFor_iff]
  intro h
  obtain heq | ⟨below, heq⟩ := h
  · have hlength := congrArg (fun s => s.toList.length) heq
    simp at hlength
  · have hchars := congrArg String.toList heq
    simp [hnext] at hchars

/-- The platform of a test is accepted when it is, or is below, what a name in the filter means. -/
theorem acceptsPlatform_iff {filter : List Char} {spec : SuiteSpec}
    (h : spec.platforms = some (filterPlatforms c filter)) (t : Task) :
    spec.acceptsPlatform t = true ↔
      ∃ platform, t.attribute? "test_platform" = some (.text platform) ∧
        ∃ name ∈ items filter, ∃ meant, c.Means name meant ∧
          (platform = meant ∨ ∃ rest, platform = meant ++ "/" ++ rest) := by
  simp only [SuiteSpec.acceptsPlatform, h, Option.any_eq_true, List.any_eq_true,
    SuiteSpec.standsFor_iff, mem_filterPlatforms_iff, Task.text?_eq_some_iff]
  refine exists_congr fun platform => and_congr_right fun _ => ?_
  constructor
  · intro h
    obtain ⟨meant, ⟨name, hname, hmeans⟩, hplatform⟩ := h
    exact ⟨name, hname, meant, hmeans, hplatform⟩
  · intro h
    obtain ⟨name, hname, meant, hmeans, hplatform⟩ := h
    exact ⟨meant, ⟨name, hname, hmeans⟩, hplatform⟩

end

/-! ## Legal settings -/

section

variable {s : Settings} (h : s.IsLegal) {name platform : String}

include h

/-- Every name means some platform. -/
theorem exists_means (name : String) : ∃ platform, s.conventions.Means name platform := by
  cases hget : s.conventions.platformNames.get? name with
  | none => exact ⟨name, .inr ⟨hget, rfl⟩⟩
  | some platforms =>
      have hne := ((Settings.fault?_eq_none_iff.1 h).names name platforms hget).1
      obtain ⟨platform, hmem⟩ := List.exists_mem_of_ne_nil platforms hne
      exact ⟨platform, .inl ⟨platforms, hget, hmem⟩⟩

/-- What a name that is not blank means is not blank. -/
theorem allBlank_of_means (hname : allBlank name = false)
    (hmeans : s.conventions.Means name platform) : allBlank platform = false := by
  obtain ⟨platforms, hget, hmem⟩ | ⟨_, rfl⟩ := hmeans
  · have hblank := ((Settings.fault?_eq_none_iff.1 h).names name platforms hget).2
    exact not_hasBlank_iff.1 hblank platform hmem
  · exact hname

/-- A filter lists no platform only where it holds no name. -/
theorem filterPlatforms_eq_nil_iff (filter : List Char) :
    filterPlatforms s.conventions filter = [] ↔ items filter = [] := by
  rw [List.eq_nil_iff_forall_not_mem, List.eq_nil_iff_forall_not_mem]
  simp only [mem_filterPlatforms_iff]
  constructor
  · intro hnone name hname
    obtain ⟨platform, hmeans⟩ := exists_means h name
    exact hnone platform ⟨name, hname, hmeans⟩
  · intro hnone platform hsome
    obtain ⟨name, hname, _⟩ := hsome
    exact hnone name hname

end

/-- **Platform filters**: under legal settings, a filter lists platforms that are not blank, each
once, and at least one if it holds any name.  A suite with these platforms accepts exactly the
tests on, or below, a platform that a name in the filter means, and none of them accepts a platform
with a longer name. -/
theorem filterPlatforms_sound {s : Settings} (h : s.IsLegal) (filter : List Char) :
    (filterPlatforms s.conventions filter).Nodup ∧
      (∀ platform ∈ filterPlatforms s.conventions filter, allBlank platform = false) ∧
      (filterPlatforms s.conventions filter = [] ↔ items filter = []) ∧
      (∀ (spec : SuiteSpec) (t : Task),
        spec.platforms = some (filterPlatforms s.conventions filter) →
          (spec.acceptsPlatform t = true ↔
            ∃ platform, t.attribute? "test_platform" = some (.text platform) ∧
              ∃ name ∈ items filter, ∃ meant, s.conventions.Means name meant ∧
                (platform = meant ∨ ∃ rest, platform = meant ++ "/" ++ rest))) ∧
      ∀ platform ∈ filterPlatforms s.conventions filter, ∀ next rest, next ≠ '/' →
        SuiteSpec.standsFor platform (platform.push next ++ rest) = false := by
  refine ⟨?_, fun platform hplatform => ?_, filterPlatforms_eq_nil_iff h filter,
    fun spec t hspec => acceptsPlatform_iff hspec t,
    fun platform _ next rest hnext => SuiteSpec.standsFor_longer hnext rest⟩
  · rw [filterPlatforms_eq]
    exact nodup_firsts _
  · obtain ⟨name, hname, hmeans⟩ := mem_filterPlatforms_iff.1 hplatform
    exact allBlank_of_means h (allBlank_of_mem_items hname) hmeans

/-- A display name of two platforms, one of which is listed besides: a test below that platform is
accepted, and the filter for `linux` does not reach `linux64`. -/
theorem filterPlatforms_sound_overlapping :
    ∃ (s : Settings) (spec : SuiteSpec) (t : Task), s.IsLegal ∧
      s.conventions.platformNames = .ofList [("Windows", ["windows7-32", "windows10-64"])] ∧
      spec.platforms = some (filterPlatforms s.conventions "Windows, windows10-64,linux".toList) ∧
      (filterPlatforms s.conventions "Windows, windows10-64,linux".toList).Nodup ∧
      t.attribute? "test_platform" = some (.text "windows10-64/debug") ∧
      spec.acceptsPlatform t = true ∧
      "linux" ∈ filterPlatforms s.conventions "Windows, windows10-64,linux".toList ∧
      '6' ≠ '/' ∧ SuiteSpec.standsFor "linux" ("linux".push '6' ++ "4/opt") = false := by
  let s : Settings := { Settings.standard with
    conventions := { Conventions.standard with
      platformNames := .ofList [("Windows", ["windows7-32", "windows10-64"])] } }
  let t : Task := ⟨"t", none, .ofList [("test_platform", .text "windows10-64/debug")], .null⟩
  let spec : SuiteSpec := ⟨"x", .exact "x", [],
    some (filterPlatforms s.conventions "Windows, windows10-64,linux".toList), none⟩
  have hlegal : s.IsLegal := by decide
  have htest : t.attribute? "test_platform" = some (.text "windows10-64/debug") := by decide
  have hname : "Windows" ∈ items "Windows, windows10-64,linux".toList := by decide
  have hget : s.conventions.platformNames.get? "Windows" =
      some ["windows7-32", "windows10-64"] := by decide
  have hmeans : s.conventions.Means "Windows" "windows10-64" := .inl ⟨_, hget, by decide⟩
  have hlinux : "linux" ∈ filterPlatforms s.conventions "Windows, windows10-64,linux".toList := by
    decide
  have hslash : '6' ≠ '/' := by decide
  obtain ⟨hnodup, _, _, haccepts, hlonger⟩ :=
    filterPlatforms_sound hlegal "Windows, windows10-64,linux".toList
  have hplatform : spec.acceptsPlatform t = true :=
    (haccepts spec t rfl).2 ⟨_, htest, _, hname, _, hmeans, .inr ⟨"debug", by decide⟩⟩
  exact ⟨s, spec, t, hlegal, rfl, rfl, hnodup, htest, hplatform, hlinux, hslash,
    hlonger "linux" hlinux '6' "4/opt" hslash⟩

end Request

end PushPlan
