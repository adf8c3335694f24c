import PushPlan.Proofs.Request.Items
import PushPlan.Proofs.Request.Matching

/-!
# PushPlan.Proofs.Request.RideAlong

The platforms of a request, with those that ride along.

1. A platform that is asked for brings itself and, behind it, the platforms that ride
   along with it (`Conventions.Brings`).  What rides along brings nothing, be it that
   others ride along with it or that it is asked for elsewhere.
2. The platforms of a request are the first occurrences of all that is brought.  That
   names are left out which are asked for again makes no difference to that.
3. So neither the order nor the repetition of names has a say in which platforms a
   request is for.
-/

namespace PushPlan

/-- What is asked for whenever a platform is: the platform itself, or one that rides along. -/
def Conventions.Brings (c : Conventions) (name platform : String) : Prop :=
  platform = name ∨ ∃ rideAlongs, c.rideAlongs.get? name = some rideAlongs ∧ platform ∈ rideAlongs

namespace Request

section

variable {c : Conventions} {name platform value : String}

/-! ## What one platform brings -/

/-- A platform, and those that ride along with it. -/
def withRideAlongs (c : Conventions) (name : String) : List String :=
  name :: (c.rideAlongs.get? name).getD []

theorem mem_withRideAlongs_iff : platform ∈ withRideAlongs c name ↔ c.Brings name platform := by
  rw [withRideAlongs, List.mem_cons, Conventions.Brings]
  cases c.rideAlongs.get? name <;> simp

/-! ## What a value asks for -/

/-- A value asks for the first occurrences of what its items bring. -/
theorem readPlatforms_eq (c : Conventions) (hall : value ≠ "all") (hnone : value ≠ "none") :
    readPlatforms c value = .only (firsts ((items value.toList).flatMap (withRideAlongs c))) := by
  have hread : readPlatforms c value =
      .only ((firsts (items value.toList)).foldl
        (fun found name => (withRideAlongs c name).foldl pushNew found) []) := by
    simp only [readPlatforms, readNames_eq_only hall hnone]
    rfl
  rw [hread, foldl_foldl_pushNew, firsts_flatMap_firsts]

theorem mem_firsts_withRideAlongs_iff {names : List String} :
    platform ∈ firsts (names.flatMap (withRideAlongs c)) ↔
      ∃ name ∈ names, c.Brings name platform := by
  rw [mem_firsts, List.mem_flatMap]
  simp only [mem_withRideAlongs_iff]

/-- The order and the repetition of names do not matter. -/
theorem perm_firsts_withRideAlongs {names others : List String}
    (h : ∀ name, name ∈ names ↔ name ∈ others) :
    (firsts (names.flatMap (withRideAlongs c))).Perm
      (firsts (others.flatMap (withRideAlongs c))) := by
  refine (List.perm_ext_iff_of_nodup (nodup_firsts _) (nodup_firsts _)).2 fun platform => ?_
  rw [mem_firsts_withRideAlongs_iff, mem_firsts_withRideAlongs_iff]
  simp only [h]

end

/-- A request for listed platforms is for the builds of these platforms. -/
theorem asksPlatform_iff {r : Request} {platforms : List String}
    (h : r.platforms = .only platforms) (t : Task) :
    r.asksPlatform t = true ↔
      ∃ platform ∈ platforms, t.attribute? "build_platform" = some (.text platform) := by
  simp only [asksPlatform, h, Option.any_eq_true, List.contains_iff_mem, Task.text?_eq_some_iff]
  exact exists_congr fun _ => and_comm

/-- **Ride-alongs**: a value that is no word of its own asks for the first occurrences of each
platform in it followed by its ride-alongs, and so for what its platforms bring, each once.  Values
of the same platforms ask for the same, up to the order; and a request that is read from the value
is for the builds on these platforms. -/
theorem readPlatforms_rideAlongs (c : Conventions) {value : String} (hall : value ≠ "all")
    (hnone : value ≠ "none") :
    ∃ platforms, readPlatforms c value = .only platforms ∧
      platforms = ((items value.toList).flatMap fun name =>
        name :: (c.rideAlongs.get? name).getD []).eraseDups ∧
      platforms.Nodup ∧
      (∀ platform, platform ∈ platforms ↔
        ∃ name ∈ items value.toList, c.Brings name platform) ∧
      (∀ other, other ≠ "all" → other ≠ "none" →
        (∀ name, name ∈ items other.toList ↔ name ∈ items value.toList) →
          ∃ others, readPlatforms c other = .only others ∧ others.Perm platforms) ∧
      ∀ (r : Request) (t : Task), r.platforms = readPlatforms c value →
        (r.asksPlatform t = true ↔
          ∃ platform ∈ platforms, t.attribute? "build_platform" = some (.text platform)) := by
  have hread := readPlatforms_eq c hall hnone
  refine ⟨_, hread, firsts_eq_eraseDups _, nodup_firsts _,
    fun platform => mem_firsts_withRideAlongs_iff, fun other hall' hnone' hsame => ?_,
    fun r t hr => asksPlatform_iff (hr.trans hread) t⟩
  exact ⟨_, readPlatforms_eq c hall' hnone', perm_firsts_withRideAlongs hsame⟩

/-- Platforms that ride along with each other, one of them with itself, and a platform that is
asked for twice: what rides along with a ride-along is not asked for. -/
theorem readPlatforms_rideAlongs_circular :
    ∃ (c : Conventions) (r : Request) (t u : Task),
      c.rideAlongs = .ofList [("a", ["b", "a"]), ("b", ["c"])] ∧
      "x,a,x" ≠ "all" ∧ "x,a,x" ≠ "none" ∧
      readPlatforms c "x,a,x" = .only ["x", "a", "b"] ∧
      r.platforms = readPlatforms c "x,a,x" ∧
      t.attribute? "build_platform" = some (.text "b") ∧ r.asksPlatform t = true ∧
      u.attribute? "build_platform" = some (.text "c") ∧ ¬ r.asksPlatform u = true := by
  let c : Conventions := { Conventions.standard with
    rideAlongs := .ofList [("a", ["b", "a"]), ("b", ["c"])] }
  let r : Request := { nothing .standard with platforms := readPlatforms c "x,a,x" }
  let on (platform : String) : Task :=
    ⟨"t", none, .ofList [("build_platform", .text platform)], .null⟩
  have hall : "x,a,x" ≠ "all" := by decide
  have hnone : "x,a,x" ≠ "none" := by decide
  have hb : (on "b").attribute? "build_platform" = some (.text "b") := by decide
  have hc : (on "c").attribute? "build_platform" = some (.text "c") := by decide
  obtain ⟨platforms, hread, rfl, _, _, _, hasks⟩ := readPlatforms_rideAlongs c hall hnone
  have hlist : readPlatforms c "x,a,x" = .only ["x", "a", "b"] := by decide
  have hplatforms := Selection.only.inj (hread.symm.trans hlist)
  rw [hplatforms] at hasks
  refine ⟨c, r, on "b", on "c", rfl, hall, hnone, hlist, rfl, hb,
    (hasks r _ rfl).2 ⟨"b", by decide, hb⟩, hc, fun h => ?_⟩
  obtain ⟨platform, hmem, hplatform⟩ := (hasks r _ rfl).1 h
  rw [hc] at hplatform
  cases hplatform
  contradiction

end Request

end PushPlan
