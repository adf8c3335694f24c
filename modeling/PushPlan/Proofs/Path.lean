import Mathlib.Data.List.Infix
import PushPlan.Path
import PushPlan.Proofs.Text.Line

/-!
# PushPlan.Proofs.Path

Paths seen through their steps, the segments that lead somewhere.

1. Joining two paths joins their segments and their steps.
2. The steps of a path and of the paths above it are the initial parts of its steps,
   from the longest to the empty one (`map_steps_ancestors`).
3. What is above an absolute path is absolute.

Absolute paths with the same steps are the same path: spellings differ in empty segments and in
`.`, which lead nowhere.
-/

namespace PushPlan.Path

open Text

/-! ## Segments -/

theorem segments_append_slash (a b : String) :
    segments (a ++ "/" ++ b) = segments a ++ segments b := by
  have htext : (a ++ "/" ++ b).toList = a.toList ++ '/' :: b.toList := by
    rw [String.toList_append, String.toList_append, List.append_assoc]
    rfl
  rw [segments, htext, splitAll_eq_splitOn, List.splitOn_append_cons_self, List.map_append,
    ← splitAll_eq_splitOn, ← splitAll_eq_splitOn]
  rfl

theorem segments_of_notMem {name : String} (h : '/' ∉ name.toList) : segments name = [name] := by
  rw [segments, splitAll_eq_splitOn, List.splitOn_eq_singleton h, List.map_singleton,
    String.ofList_toList]

theorem notMem_of_mem_segments {path s : String} (h : s ∈ segments path) : '/' ∉ s.toList := by
  obtain ⟨piece, hpiece, rfl⟩ := List.mem_map.1 h
  rw [String.toList_ofList]
  exact notMem_of_mem_splitAll hpiece

/-- Segments between slashes are found again. -/
theorem segments_intercalate {names : List String} (hne : names ≠ [])
    (h : ∀ name ∈ names, '/' ∉ name.toList) : segments ("/".intercalate names) = names := by
  have hpieces : ∀ piece ∈ names.map String.toList, '/' ∉ piece := by
    intro piece hpiece
    obtain ⟨name, hname, rfl⟩ := List.mem_map.1 hpiece
    exact h name hname
  have hsplit : ((['/'] : List Char).intercalate (names.map String.toList)).splitOn '/' =
      names.map String.toList :=
    List.splitOn_intercalate '/' hpieces (by simpa using hne)
  rw [segments, String.toList_intercalate, splitAll_eq_splitOn]
  rw [show "/".toList = ['/'] from rfl, hsplit, List.map_map]
  simp

/-! ## Steps -/

/-- The segments of a path that lead somewhere. -/
def steps (path : String) : List String := (segments path).filter isStep

theorem notMem_of_mem_steps {path s : String} (h : s ∈ steps path) : '/' ∉ s.toList :=
  notMem_of_mem_segments (List.mem_of_mem_filter h)

theorem steps_append_slash (a b : String) : steps (a ++ "/" ++ b) = steps a ++ steps b := by
  rw [steps, segments_append_slash, List.filter_append]
  rfl

/-- A folder's path ends in a slash or gets one. -/
theorem join_cases {folder path : String} (hpath : isAbsolute path = false)
    (hfolder : folder ≠ "") :
    (∃ front, folder = front ++ "/" ++ "" ∧ join folder path = front ++ "/" ++ path) ∨
      join folder path = folder ++ "/" ++ path := by
  rw [join, hpath, Bool.false_or, if_neg (by simpa using hfolder)]
  split
  · next hslash =>
      obtain ⟨front, hfront⟩ := List.getLast?_eq_some_iff.1 (beq_iff_eq.1 hslash)
      have htext : folder = String.ofList front ++ "/" := by
        apply String.toList_inj.1
        rw [hfront, String.toList_append, String.toList_ofList]
        rfl
      exact .inl ⟨String.ofList front, by rw [String.append_empty]; exact htext, by rw [← htext]⟩
  · exact .inr rfl

theorem steps_join {folder path : String} (hpath : isAbsolute path = false)
    (hfolder : folder ≠ "") : steps (join folder path) = steps folder ++ steps path := by
  rcases join_cases hpath hfolder with ⟨front, hfront, hjoin⟩ | hjoin
  · have hempty : steps "" = [] := rfl
    rw [hjoin, hfront, steps_append_slash, steps_append_slash, hempty, List.append_nil]
  · rw [hjoin, steps_append_slash]

/-- A name without a slash is the last segment of its path. -/
theorem exists_segments_join {folder name : String} (hname : '/' ∉ name.toList)
    (hpath : isAbsolute name = false) (hfolder : folder ≠ "") :
    ∃ front, segments (join folder name) = front ++ [name] := by
  rcases join_cases hpath hfolder with ⟨front, _, hjoin⟩ | hjoin
  · exact ⟨_, by rw [hjoin, segments_append_slash, segments_of_notMem hname]⟩
  · exact ⟨_, by rw [hjoin, segments_append_slash, segments_of_notMem hname]⟩

/-- A path that ends in a step has the name of that step. -/
theorem name?_of_segments {path name : String} {front : List String}
    (h : segments path = front ++ [name]) (hstep : isStep name = true) (hname : name ≠ "..") :
    name? path = some name := by
  rw [name?, h, List.reverse_append, List.reverse_singleton, List.singleton_append,
    List.find?_cons_of_pos hstep]
  exact if_neg hname

/-! ## Absolute paths -/

theorem isAbsolute_iff {path : String} :
    isAbsolute path = true ↔ ∃ rest, path = "/" ++ rest := by
  rw [isAbsolute, startsWith, Option.isSome_iff_exists]
  simp only [dropFront?_eq_some_iff]
  constructor
  · rintro ⟨rest, hrest⟩
    exact ⟨String.ofList rest, String.toList_inj.1 (by simp [hrest])⟩
  · rintro ⟨rest, rfl⟩
    exact ⟨rest.toList, String.toList_append⟩

theorem ne_empty_of_isAbsolute {path : String} (h : isAbsolute path = true) : path ≠ "" := by
  rintro rfl
  contradiction

theorem isAbsolute_append {a : String} (h : isAbsolute a = true) (b : String) :
    isAbsolute (a ++ b) = true := by
  obtain ⟨rest, rfl⟩ := isAbsolute_iff.1 h
  exact isAbsolute_iff.2 ⟨rest ++ b, String.append_assoc ..⟩

theorem isAbsolute_join {folder : String} (h : isAbsolute folder = true) (path : String) :
    isAbsolute (join folder path) = true := by
  rw [join]
  split
  · next hpath =>
      have hfolder : ¬ (folder == "") = true := by simpa using ne_empty_of_isAbsolute h
      simpa [hfolder] using hpath
  · split
    · exact isAbsolute_append h path
    · rw [String.append_assoc]
      exact isAbsolute_append h _

theorem head?_segments {path : String} (h : isAbsolute path = true) :
    (segments path).head? = some "" := by
  obtain ⟨rest, rfl⟩ := isAbsolute_iff.1 h
  have hsegments := segments_append_slash "" rest
  rw [String.empty_append] at hsegments
  rw [hsegments]
  rfl

/-! ## Upwards -/

/-- The segments at the end that lead nowhere are no steps. -/
theorem filter_dropWhile_isStep (segs : List String) :
    (segs.dropWhile fun s => !isStep s).filter isStep = segs.filter isStep := by
  induction segs with
  | nil => rfl
  | cons s segs ih =>
      cases hs : isStep s with
      | true => rw [List.dropWhile_cons_of_neg (by simp [hs])]
      | false =>
          rw [List.dropWhile_cons_of_pos (by simp [hs]), ih, List.filter_cons_of_neg (by simp [hs])]

theorem steps_ofReversed {segs : List String} (h : ∀ s ∈ segs, '/' ∉ s.toList) :
    steps (ofReversed segs) = (segs.filter isStep).reverse := by
  have hfilter := filter_dropWhile_isStep segs
  rw [ofReversed]
  split
  · next hnone =>
      rw [hnone] at hfilter
      rw [← hfilter]
      split <;> rfl
  · next left hsome =>
      have hslash : ∀ s ∈ (segs.dropWhile fun s => !isStep s).reverse, '/' ∉ s.toList :=
        fun s hs => h s ((List.dropWhile_sublist _).subset (List.mem_reverse.1 hs))
      have hne : (segs.dropWhile fun s => !isStep s).reverse ≠ [] := by
        rw [Ne, List.reverse_eq_nil_iff]
        exact hsome
      rw [steps, segments_intercalate hne hslash, List.filter_reverse, hfilter]

/-- The first segment of an absolute path is empty, and it stays the first one. -/
theorem isAbsolute_ofReversed {segs : List String} (h : segs.getLast? = some "") :
    isAbsolute (ofReversed segs) = true := by
  obtain ⟨front, rfl⟩ := List.getLast?_eq_some_iff.1 h
  rw [ofReversed]
  split
  · next =>
      rw [if_neg (by simp)]
      rfl
  · next hne =>
      -- Something is left of `front`, so the empty segment at the end is left as well.
      have hfront : (front.dropWhile fun s => !isStep s) ≠ [] := by
        intro hnone
        rw [List.dropWhile_append, hnone] at hne
        exact hne rfl
      rw [List.dropWhile_append, if_neg (by simpa using hfront), List.reverse_append]
      refine isAbsolute_iff.2 ⟨"/".intercalate (front.dropWhile fun s => !isStep s).reverse, ?_⟩
      apply String.toList_inj.1
      rw [String.toList_intercalate, String.toList_append, String.toList_intercalate]
      rw [List.reverse_singleton, List.singleton_append, List.map_cons,
        List.intercalate_cons_of_ne_nil (by simpa using hfront)]
      rfl

theorem isAbsolute_of_mem_above {segs : List String} (h : segs.getLast? = some "") {path : String}
    (hpath : path ∈ above segs) : isAbsolute path = true := by
  induction segs with
  | nil => contradiction
  | cons s segs ih =>
      rw [above] at hpath
      cases segs with
      | nil =>
          have hs : isStep s = false := by rw [show s = "" from Option.some.inj h]; rfl
          rw [hs, if_neg Bool.false_ne_true] at hpath
          contradiction
      | cons t segs =>
          have hlast : (t :: segs).getLast? = some "" := by
            rw [← h, List.getLast?_cons_cons]
          split at hpath
          · rcases List.mem_cons.1 hpath with rfl | hpath
            · exact isAbsolute_ofReversed hlast
            · exact ih hlast hpath
          · exact ih hlast hpath

/-- With every step that is taken off, the steps get shorter by one. -/
theorem map_steps_above {segs : List String} (h : ∀ s ∈ segs, '/' ∉ s.toList) :
    (segs.filter isStep).reverse :: (above segs).map steps =
      (segs.filter isStep).reverse.inits.reverse := by
  induction segs with
  | nil => rfl
  | cons s segs ih =>
      have hrest := ih fun t ht => h t (List.mem_cons_of_mem s ht)
      rw [above]
      cases hs : isStep s with
      | false =>
          rw [List.filter_cons_of_neg (by simp [hs]), if_neg Bool.false_ne_true]
          exact hrest
      | true =>
          have hsteps : steps (ofReversed segs) = (segs.filter isStep).reverse :=
            steps_ofReversed fun t ht => h t (List.mem_cons_of_mem s ht)
          rw [List.filter_cons_of_pos hs, if_pos rfl, List.map_cons, hsteps, hrest,
            List.reverse_cons, List.inits_append]
          simp

/-- **Levels**: the steps of a path and of the paths above it are the initial parts of its steps,
the longest first. -/
theorem map_steps_ancestors (path : String) :
    (ancestors path).map steps = (steps path).inits.reverse := by
  have hslash : ∀ s ∈ (segments path).reverse, '/' ∉ s.toList :=
    fun s hs => notMem_of_mem_segments (List.mem_reverse.1 hs)
  have hlevels := map_steps_above hslash
  rw [List.filter_reverse, List.reverse_reverse] at hlevels
  rw [ancestors, List.map_cons]
  exact hlevels

example : (ancestors "/a//b/.").map steps = [["a", "b"], ["a"], []] := by decide

theorem isAbsolute_of_mem_ancestors {path : String} (h : isAbsolute path = true) {level : String}
    (hlevel : level ∈ ancestors path) : isAbsolute level = true := by
  rcases List.mem_cons.1 hlevel with rfl | hlevel
  · exact h
  · refine isAbsolute_of_mem_above ?_ hlevel
    rw [List.getLast?_reverse]
    exact head?_segments h

end PushPlan.Path
