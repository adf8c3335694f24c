import PushPlan.FileTree
import PushPlan.Proofs.Failure
import PushPlan.Proofs.Path

/-!
# PushPlan.Proofs.FileTree

Where paths lead, and what writing a text changes.

1. A segment that leads nowhere asks for a folder to stand on, and so does the step that
   follows it.  Hence such segments make no difference before a step: an absolute path that
   ends in a step leads where the path of its steps leads, and from whatever folder one starts.
2. A path that ends in a name leads to a place of that name.
3. A text is never written in the place of a folder.  So every path that leads to a place
   still leads there (`locate_put`), only the place itself has changed, and no path but those
   that lead to it has become one of a file (`isFile_put`).
-/

namespace PushPlan

open Path

/-! ## Places -/

theorem Place.isAbsolute_path (place : Place) : isAbsolute place.path = true :=
  isAbsolute_iff.2 ⟨_, rfl⟩

theorem Place.segments_path {place : Place} (hne : place ≠ [])
    (h : ∀ name ∈ place, '/' ∉ name.toList) : segments place.path = "" :: place := by
  have hsegments := segments_append_slash "" ("/".intercalate place)
  rw [String.empty_append, segments_intercalate hne h] at hsegments
  exact hsegments

namespace FileTree

variable {tree : FileTree}

/-! ## Segments that lead nowhere -/

/-- Where no step can be taken, the segment does not matter. -/
theorem step_error {here : Place} {e : FileError} {s t : String}
    (h : tree.step here s = .error e) : tree.step here t = .error e := by
  unfold step at h ⊢
  split at h
  · exact h
  · contradiction
  · exact h

theorem step_of_not_isStep {here there : Place} {s : String} (hs : isStep s = false)
    (h : tree.step here s = .ok there) : there = here := by
  unfold step Place.after at h
  split at h
  · contradiction
  · rw [hs] at h
    cases h
    rfl
  · contradiction

/-- Before a step, segments that lead nowhere can be left out. -/
theorem foldlM_step_filter {here : Place} {segs : List String} {s : String} :
    (segs ++ [s]).foldlM tree.step here = (segs.filter isStep ++ [s]).foldlM tree.step here := by
  induction segs generalizing here with
  | nil => rfl
  | cons t segs ih =>
      rw [List.cons_append, List.foldlM_cons]
      cases ht : isStep t with
      | true =>
          rw [List.filter_cons_of_pos ht, List.cons_append, List.foldlM_cons]
          exact congrArg _ (funext fun there => ih)
      | false =>
          rw [List.filter_cons_of_neg (by simp [ht])]
          cases hstep : tree.step here t with
          | ok there =>
              rw [step_of_not_isStep ht hstep]
              exact ih
          | error e =>
              -- Whatever comes first is stopped here as well.
              obtain ⟨first, rest, hfirst⟩ :=
                List.exists_cons_of_ne_nil (List.append_ne_nil_of_right_ne_nil
                  (segs.filter isStep) (List.cons_ne_nil s []))
              rw [hfirst, List.foldlM_cons, step_error hstep]
              rfl

/-! ## Absolute paths -/

theorem locate_of_isAbsolute {folder : Place} {path : String} (h : isAbsolute path = true) :
    tree.locate folder path = (segments path).foldlM tree.step [] := by
  rw [locate, if_neg (ne_empty_of_isAbsolute h), Place.start, if_pos h]

/-- **Spelling**: an absolute path that ends in a step leads where its steps lead. -/
theorem locate_steps {folder : Place} {path s : String} {front : List String}
    (h : isAbsolute path = true) (hlast : segments path = front ++ [s]) (hs : isStep s = true) :
    tree.locate folder path = tree.locate folder (Place.path (steps path)) := by
  have hsteps : steps path = front.filter isStep ++ [s] := by
    rw [steps, hlast, List.filter_append, List.filter_cons_of_pos hs]
    rfl
  have hsegments : segments (Place.path (steps path)) = "" :: steps path := by
    refine Place.segments_path ?_ fun name hname => notMem_of_mem_steps hname
    rw [hsteps]
    exact List.append_ne_nil_of_right_ne_nil _ (List.cons_ne_nil s [])
  rw [locate_of_isAbsolute h, locate_of_isAbsolute (Place.isAbsolute_path _), hlast, hsegments,
    hsteps, foldlM_step_filter]
  rfl

/-! ## Names at the end -/

/-- A path that ends in a name leads to a place of that name. -/
theorem getLast?_of_locate {folder place : Place} {path name : String} {front : List String}
    (h : tree.locate folder path = .ok place) (hlast : segments path = front ++ [name])
    (hstep : isStep name = true) (hname : name ≠ "..") : place.getLast? = some name := by
  rw [locate] at h
  split at h
  · contradiction
  · rw [hlast, List.foldlM_append] at h
    obtain ⟨here, -, hhere⟩ := Failure.bind_eq_ok_iff.1 h
    obtain ⟨there, hthere, hplace⟩ := Failure.bind_eq_ok_iff.1 hhere
    cases hplace
    unfold step at hthere
    split at hthere
    · contradiction
    · cases hthere
      rw [Place.after, hstep, if_neg (by decide), if_neg hname, List.getLast?_concat]
    · contradiction

/-! ## Writing -/

/-- A text is written where the path leads, and not in the place of a folder. -/
theorem locate_and_look_of_target {folder place : Place} {path : String}
    (h : tree.target folder path = .ok place) :
    tree.locate folder path = .ok place ∧ tree.look place ≠ some .folder := by
  obtain ⟨here, hlocate, hhere⟩ := Failure.bind_eq_ok_iff.1 h
  have hsame : here = place := by
    split at hhere <;> first | contradiction | exact Except.ok.inj hhere
  rw [hsame] at hlocate hhere
  refine ⟨hlocate, fun hfolder => ?_⟩
  rw [hfolder] at hhere
  contradiction

/-- A path of a file is one that leads to something that is no folder. -/
theorem isFile_iff {folder : Place} {path : String} :
    tree.isFile folder path = true ↔
      ∃ p entry, tree.locate folder path = .ok p ∧ tree.look p = some entry ∧ entry ≠ .folder := by
  rw [isFile, find?]
  cases hlocate : tree.locate folder path with
  | error e => simp [Except.toOption]
  | ok p =>
      cases hlook : tree.look p with
      | none => simp [Except.toOption, hlook]
      | some entry => cases entry <;> simp [Except.toOption, hlook]

section

variable {place p : Place} {content : String}

theorem look_put_of_ne (h : p ≠ place) : (tree.put place content).look p = tree.look p := by
  cases p with
  | nil => rfl
  | cons name p => exact if_neg h

variable (hplace : tree.look place ≠ some .folder)

include hplace

theorem look_put_self : (tree.put place content).look place = some (.text content) := by
  cases place with
  | nil => exact absurd rfl hplace
  | cons name place => exact if_pos rfl

/-- A step that could be taken can still be taken, and no other. -/
theorem step_put {s : String} {here : Place} :
    (tree.put place content).step here s = .ok p ↔ tree.step here s = .ok p := by
  by_cases hhere : here = place
  · subst hhere
    have hafter : (tree.put here content).step here s = .error .notFolder := by
      rw [step, look_put_self hplace]
    have hbefore : tree.step here s ≠ .ok p := by
      unfold step
      split
      · simp
      · contradiction
      · simp
    rw [hafter]
    exact ⟨fun h => by contradiction, fun h => absurd h hbefore⟩
  · rw [step, step, look_put_of_ne hhere]

theorem foldlM_step_put {here : Place} {segs : List String} :
    segs.foldlM (tree.put place content).step here = .ok p ↔
      segs.foldlM tree.step here = .ok p := by
  induction segs generalizing here with
  | nil => rfl
  | cons s segs ih =>
      rw [List.foldlM_cons, List.foldlM_cons, Failure.bind_eq_ok_iff, Failure.bind_eq_ok_iff]
      simp only [step_put hplace, ih]

/-- **Paths after writing** lead where they led before. -/
theorem locate_put {folder : Place} {path : String} :
    (tree.put place content).locate folder path = .ok p ↔ tree.locate folder path = .ok p := by
  rw [locate, locate]
  split
  · rfl
  · exact foldlM_step_put hplace

/-- **Files after writing** are those before and what was written. -/
theorem isFile_put {folder : Place} {path : String} :
    (tree.put place content).isFile folder path = true ↔
      tree.locate folder path = .ok place ∨ tree.isFile folder path = true := by
  rw [isFile_iff, isFile_iff]
  simp only [locate_put hplace]
  constructor
  · intro h
    obtain ⟨p, entry, hlocate, hlook, hentry⟩ := h
    by_cases hp : p = place
    · exact .inl (hp ▸ hlocate)
    · rw [look_put_of_ne hp] at hlook
      exact .inr ⟨p, entry, hlocate, hlook, hentry⟩
  · intro h
    rcases h with hlocate | ⟨p, entry, hlocate, hlook, hentry⟩
    · exact ⟨place, _, hlocate, look_put_self hplace, by simp⟩
    · by_cases hp : p = place
      · rw [hp] at hlocate
        exact ⟨place, _, hlocate, look_put_self hplace, by simp⟩
      · rw [← look_put_of_ne hp] at hlook
        exact ⟨p, entry, hlocate, hlook, hentry⟩

/-- What was written is read. -/
theorem read_put_self {folder : Place} {path : String}
    (h : tree.locate folder path = .ok place) :
    (tree.put place content).read folder path = .ok content := by
  rw [read, (locate_put hplace).2 h]
  simp only [bind, Except.bind, look_put_self hplace]

/-- Where a path leads elsewhere, the same is read as before. -/
theorem read_put_of_ne {folder : Place} {path : String}
    (h : tree.locate folder path = .ok p) (hne : p ≠ place) :
    (tree.put place content).read folder path = tree.read folder path := by
  rw [read, read, (locate_put hplace).2 h, h]
  simp only [bind, Except.bind, look_put_of_ne hne]

end

end FileTree

end PushPlan
