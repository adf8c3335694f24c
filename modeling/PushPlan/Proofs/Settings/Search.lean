import Mathlib.Data.List.Find
import PushPlan.Proofs.Failure
import PushPlan.Proofs.FileTree
import PushPlan.Settings.Search

/-!
# PushPlan.Proofs.Settings.Search

Which settings hold at a folder.

1. The search goes through the initial parts of the folder's steps, the longest first,
   and at each of them through the names of settings files in the folder itself and then
   in its folder `taskcluster` (`searchOrder`).  It finds the first place with a file.
2. So a folder one step below another has the settings file of its own level, or else the
   one of the other folder.
3. What is found is loaded and nothing else, whatever reads it: if it does not load, the
   settings are an error.

Paths are compared by their steps, as the spelling of the start shows in what is found.
-/

namespace PushPlan.Settings

open Path Failure

/-! ## The order of search -/

/-- The places of settings files at a level, the preferred ones first. -/
def placesAt (level : Place) : List Place :=
  fileNames.map (fun name => level ++ [name]) ++
    fileNames.map fun name => level ++ [folderName, name]

/-- The places of settings files at a place and at all places above it, the preferred ones first. -/
def searchOrder (place : Place) : List Place := place.inits.reverse.flatMap placesAt

/-- The settings file of a level. -/
def nearestAt? (tree : FileTree) (folder : Place) (level : String) : Option String :=
  (candidatesAt level).find? fun path => tree.isFile folder path

/-- One level is searched after the one below it. -/
theorem searchOrder_append_singleton (place : Place) (name : String) :
    searchOrder (place ++ [name]) = placesAt (place ++ [name]) ++ searchOrder place := by
  rw [searchOrder, List.inits_append]
  simp [searchOrder]

theorem candidates_eq (start : String) :
    candidates start =
      candidatesAt start ++ (above (segments start).reverse).flatMap candidatesAt := rfl

/-! ## Names -/

/-- A text that is a step by itself. -/
structure IsName (name : String) : Prop where
  isStep : isStep name = true
  notMem : '/' ∉ name.toList

theorem IsName.steps_eq {name : String} (h : IsName name) : steps name = [name] := by
  rw [steps, segments_of_notMem h.notMem, List.filter_cons_of_pos h.isStep]
  rfl

theorem IsName.not_isAbsolute {name : String} (h : IsName name) : isAbsolute name = false := by
  rw [Bool.eq_false_iff]
  intro habsolute
  obtain ⟨rest, rfl⟩ := isAbsolute_iff.1 habsolute
  exact h.notMem (by simp)

theorem isName_folderName : IsName folderName := ⟨by decide, by decide⟩

theorem isName_of_mem_fileNames {name : String} (h : name ∈ fileNames) : IsName name := by
  have hnames : ∀ n ∈ fileNames, isStep n = true ∧ '/' ∉ n.toList := by decide
  exact ⟨(hnames name h).1, (hnames name h).2⟩

theorem steps_join_name {folder name : String} (hfolder : folder ≠ "") (hname : IsName name) :
    steps (join folder name) = steps folder ++ [name] := by
  rw [steps_join hname.not_isAbsolute hfolder, hname.steps_eq]

/-! ## Candidates -/

theorem map_steps_candidatesAt {level : String} (h : isAbsolute level = true) :
    (candidatesAt level).map steps = placesAt (steps level) := by
  have hbelow : join level folderName ≠ "" := ne_empty_of_isAbsolute (isAbsolute_join h _)
  have hname : ∀ base, base ≠ "" → (fileNames.map (join base)).map steps =
      fileNames.map fun name => steps base ++ [name] := by
    intro base hbase
    rw [List.map_map]
    refine List.map_congr_left fun name hmem => ?_
    rw [Function.comp_apply, steps_join_name hbase (isName_of_mem_fileNames hmem)]
  rw [candidatesAt, placesAt, List.flatMap_cons, List.flatMap_singleton, List.map_append,
    hname level (ne_empty_of_isAbsolute h), hname _ hbelow,
    steps_join_name (ne_empty_of_isAbsolute h) isName_folderName]
  simp only [List.append_assoc, List.singleton_append]

theorem map_steps_candidates {start : String} (h : isAbsolute start = true) :
    (candidates start).map steps = searchOrder (steps start) := by
  rw [candidates, searchOrder, ← map_steps_ancestors, List.map_flatMap, List.flatMap_map]
  exact List.flatMap_congr fun level hlevel =>
    map_steps_candidatesAt (isAbsolute_of_mem_ancestors h hlevel)

example : (searchOrder []).map Place.path =
    ["/taskgraph.yaml", "/taskgraph.toml", "/.taskgraph.yaml", "/.taskgraph.toml",
      "/taskcluster/taskgraph.yaml", "/taskcluster/taskgraph.toml",
      "/taskcluster/.taskgraph.yaml", "/taskcluster/.taskgraph.toml"] := by decide

/-- A candidate is a file name in some folder. -/
theorem exists_of_mem_candidatesAt {level path : String} (h : isAbsolute level = true)
    (hpath : path ∈ candidatesAt level) :
    ∃ base name, isAbsolute base = true ∧ IsName name ∧ path = join base name := by
  obtain ⟨base, hbase, hmem⟩ := List.mem_flatMap.1 hpath
  obtain ⟨name, hname, rfl⟩ := List.mem_map.1 hmem
  have habsolute : isAbsolute base = true := by
    rcases List.mem_cons.1 hbase with rfl | hbase
    · exact h
    · rw [List.mem_singleton.1 hbase]
      exact isAbsolute_join h _
  exact ⟨base, name, habsolute, isName_of_mem_fileNames hname, rfl⟩

theorem isAbsolute_of_mem_candidates {start path : String} (h : isAbsolute start = true)
    (hpath : path ∈ candidates start) : isAbsolute path = true := by
  obtain ⟨level, hlevel, hpath⟩ := List.mem_flatMap.1 hpath
  obtain ⟨base, name, hbase, _, rfl⟩ :=
    exists_of_mem_candidatesAt (isAbsolute_of_mem_ancestors h hlevel) hpath
  exact isAbsolute_join hbase name

/-- Whether a candidate is a file is a matter of its steps. -/
theorem isFile_candidate {tree : FileTree} {folder : Place} {level path : String}
    (h : isAbsolute level = true) (hpath : path ∈ candidatesAt level) :
    tree.isFile folder path = tree.isFile folder (Place.path (steps path)) := by
  obtain ⟨base, name, hbase, hname, rfl⟩ := exists_of_mem_candidatesAt h hpath
  obtain ⟨front, hfront⟩ := exists_segments_join hname.notMem hname.not_isAbsolute
    (ne_empty_of_isAbsolute hbase)
  rw [FileTree.isFile, FileTree.isFile, FileTree.find?, FileTree.find?,
    FileTree.locate_steps (isAbsolute_join hbase name) hfront hname.isStep]

/-- Searching candidates is searching their places. -/
theorem map_steps_find? (tree : FileTree) (folder : Place) {levels : List String}
    (h : ∀ level ∈ levels, isAbsolute level = true) :
    ((levels.flatMap candidatesAt).find? fun path => tree.isFile folder path).map steps =
      ((levels.flatMap candidatesAt).map steps).find? fun place =>
        tree.isFile folder (Place.path place) := by
  rw [List.find?_map]
  refine congrArg _ (List.find?_congr fun path hpath => ?_)
  obtain ⟨level, hlevel, hpath⟩ := List.mem_flatMap.1 hpath
  rw [Function.comp_apply, isFile_candidate (h level hlevel) hpath]

/-! ## What is found -/

section

variable {tree : FileTree} {folder : Place} {start : String}

/-- **Search**: the settings file that counts is the first file in the order of search. -/
theorem map_steps_nearest? (h : isAbsolute start = true) :
    (nearest? tree folder start).map steps =
      (searchOrder (steps start)).find? fun place => tree.isFile folder (Place.path place) := by
  rw [← map_steps_candidates h, nearest?, candidates]
  exact map_steps_find? tree folder fun level hlevel => isAbsolute_of_mem_ancestors h hlevel

theorem map_steps_nearestAt? (h : isAbsolute start = true) :
    (nearestAt? tree folder start).map steps =
      (placesAt (steps start)).find? fun place => tree.isFile folder (Place.path place) := by
  have hlevels : ∀ level ∈ [start], isAbsolute level = true :=
    fun level hlevel => List.mem_singleton.1 hlevel ▸ h
  have hfind := map_steps_find? tree folder hlevels
  rw [List.flatMap_singleton, map_steps_candidatesAt h] at hfind
  exact hfind

theorem nearest?_eq_none_iff (h : isAbsolute start = true) :
    nearest? tree folder start = none ↔
      ∀ place ∈ searchOrder (steps start), tree.isFile folder (Place.path place) = false := by
  rw [← Option.map_eq_none_iff, map_steps_nearest? h, List.find?_eq_none]
  simp only [Bool.not_eq_true]

/-- The level of the start comes first. -/
theorem nearest?_of_nearestAt? {path : String} (h : nearestAt? tree folder start = some path) :
    nearest? tree folder start = some path := by
  rw [nearest?, candidates_eq, List.find?_append, ← nearestAt?, h]
  rfl

/-- In a folder, settings in YAML come first. -/
theorem nearest?_of_yaml (h : tree.isFile folder (join start yamlName) = true) :
    nearest? tree folder start = some (join start yamlName) :=
  nearest?_of_nearestAt? (List.find?_cons_of_pos h)

/-- Without settings in YAML, settings in TOML come first. -/
theorem nearest?_of_toml (hyaml : tree.isFile folder (join start yamlName) = false)
    (h : tree.isFile folder (join start tomlName) = true) :
    nearest? tree folder start = some (join start tomlName) := by
  have hlevel : nearestAt? tree folder start = some (join start tomlName) := by
    rw [nearestAt?, candidatesAt, List.flatMap_cons, fileNames, List.map_cons, List.map_cons,
      List.cons_append, List.cons_append, List.find?_cons_of_neg (by simp [hyaml]),
      List.find?_cons_of_pos h]
  exact nearest?_of_nearestAt? hlevel

/-- Without a file at the level of the start, what counts one step above counts here. -/
theorem map_steps_nearest?_join (h : isAbsolute start = true) {name : String}
    (hrelative : isAbsolute name = false) (hone : (steps name).length ≤ 1)
    (hnone : nearestAt? tree folder (join start name) = none) :
    (nearest? tree folder (join start name)).map steps =
      (nearest? tree folder start).map steps := by
  have hjoin : isAbsolute (join start name) = true := isAbsolute_join h name
  have hsteps : steps (join start name) = steps start ++ steps name :=
    steps_join hrelative (ne_empty_of_isAbsolute h)
  have hlevel : (nearestAt? tree folder (join start name)).map steps = _ :=
    map_steps_nearestAt? hjoin
  rw [hnone, hsteps] at hlevel
  rw [map_steps_nearest? hjoin, map_steps_nearest? h, hsteps]
  match hname : steps name, hone with
  | [], _ => rw [List.append_nil]
  | [s], _ =>
      rw [hname] at hlevel
      rw [searchOrder_append_singleton, List.find?_append, ← hlevel]
      rfl

/-! ## What holds -/

variable [Formats]

theorem load_eq_ok_iff {path : String} {s : Settings} :
    load tree folder path = .ok s ↔
      ∃ text, tree.read folder path = .ok text ∧ parse (.ofPath path) text = .ok s ∧
        s.fault? = none := by
  rw [load]
  cases hread : tree.read folder path with
  | error e => simp
  | ok text =>
      cases hparse : parse (.ofPath path) text with
      | error e => simp [hparse]
      | ok t =>
          simp only [checked]
          split
          · next e hfault => grind
          · next hfault => grind

theorem loadNearest_of_some {path : String} (h : nearest? tree folder start = some path) :
    loadNearest tree folder start = (load tree folder path).map fun s => (s, some path) := by
  rw [loadNearest, h]

theorem loadNearest_of_none (h : nearest? tree folder start = none) :
    loadNearest tree folder start = .ok (.standard, none) := by
  rw [loadNearest, h]

/-- Settings without a path are those of a folder for which nothing is found. -/
theorem exists_loadNearest_none_iff :
    (∃ s, loadNearest tree folder start = .ok (s, none)) ↔ nearest? tree folder start = none := by
  constructor
  · rintro ⟨s, hs⟩
    cases hfound : nearest? tree folder start with
    | none => rfl
    | some path =>
        rw [loadNearest_of_some hfound, map_eq_ok_iff] at hs
        obtain ⟨_, _, hpair⟩ := hs
        cases hpair
  · intro hnone
    exact ⟨_, loadNearest_of_none hnone⟩

end

/-- What the search for settings comes to at a folder. -/
structure SearchLaw [Formats] (tree : FileTree) (folder : Place) (start : String) : Prop where
  /-- The first file in the order of search is found. -/
  first : (nearest? tree folder start).map steps =
    (searchOrder (steps start)).find? fun place => tree.isFile folder (Place.path place)
  /-- Nothing is found only if none of the places has a file. -/
  none_iff : nearest? tree folder start = none ↔
    ∀ place ∈ searchOrder (steps start), tree.isFile folder (Place.path place) = false
  absolute : ∀ path, nearest? tree folder start = some path → isAbsolute path = true
  /-- One step below, a settings file of the level there counts. -/
  below_of_some : ∀ name path, nearestAt? tree folder (join start name) = some path →
    nearest? tree folder (join start name) = some path
  /-- If there is none, the settings file that counts here counts there. -/
  below_of_none : ∀ name, isAbsolute name = false → (steps name).length ≤ 1 →
    nearestAt? tree folder (join start name) = none →
      (nearest? tree folder (join start name)).map steps = (nearest? tree folder start).map steps
  /-- Without a settings file the standard holds. -/
  standard : nearest? tree folder start = none →
    loadNearest tree folder start = .ok (.standard, none)
  standard_iff : (∃ s, loadNearest tree folder start = .ok (s, none)) ↔
    nearest? tree folder start = none
  /-- With one, its own load decides, be it an error or not. -/
  loaded : ∀ path, nearest? tree folder start = some path →
    loadNearest tree folder start = (load tree folder path).map fun s => (s, some path)
  /-- Where the file cannot be read, spells no settings or spells illegal ones, that is an error. -/
  failed : ∀ path, nearest? tree folder start = some path →
    ((∃ e, loadNearest tree folder start = .error e) ↔
      ¬ ∃ text s, tree.read folder path = .ok text ∧ parse (.ofPath path) text = .ok s ∧
        s.fault? = none)

/-- **Discovery**: at an absolute path the nearest settings file is found, and it alone decides
which settings hold. -/
theorem searchLaw [Formats] {tree : FileTree} {folder : Place} {start : String}
    (h : isAbsolute start = true) : SearchLaw tree folder start where
  first := map_steps_nearest? h
  none_iff := nearest?_eq_none_iff h
  absolute := by
    intro path hpath
    exact isAbsolute_of_mem_candidates h (List.mem_of_find?_eq_some hpath)
  below_of_some := fun _ _ => nearest?_of_nearestAt?
  below_of_none := fun _ hrelative hone => map_steps_nearest?_join h hrelative hone
  standard := loadNearest_of_none
  standard_iff := exists_loadNearest_none_iff
  loaded := fun _ => loadNearest_of_some
  failed := by
    intro path hpath
    have hload : (∃ s, load tree folder path = .ok s) ↔ ∃ text s,
        tree.read folder path = .ok text ∧ parse (.ofPath path) text = .ok s ∧ s.fault? = none := by
      simp only [load_eq_ok_iff]
      exact exists_comm
    rw [loadNearest_of_some hpath, ← hload]
    cases load tree folder path <;> simp [Except.map]

/-- Settings that do not load hide the good ones of the folder above; a folder that is called like
a settings file hides nothing. -/
theorem searchLaw_hidden :
    ∃ (tree : FileTree) (e : SettingsError),
      isAbsolute "/comm/mail" = true ∧ SearchLaw tree [] "/comm/mail" ∧
      nearest? tree [] "/comm/mail" = some "/comm/mail/taskcluster/.taskgraph.toml" ∧
      loadNearest tree [] "/comm/mail" = .error e ∧
      nearest? tree [] "/comm" = some "/comm/taskgraph.toml" ∧
      loadNearest tree [] "/comm" =
        (load tree [] "/comm/taskgraph.toml").map fun s => (s, some "/comm/taskgraph.toml") := by
  have hsample : ∃ tree : FileTree,
      nearest? tree [] "/comm/mail" = some "/comm/mail/taskcluster/.taskgraph.toml" ∧
      nearest? tree [] "/comm" = some "/comm/taskgraph.toml" ∧
      (load tree [] "/comm/mail/taskcluster/.taskgraph.toml").toOption = none :=
    ⟨⟨fun place =>
        if place = ["comm"] ∨ place = ["comm", "mail"] ∨ place = ["comm", "mail", "taskcluster"] ∨
          place = ["comm", "mail", "taskgraph.yaml"] then some .folder
        else if place = ["comm", "taskgraph.toml"] then
          some (.text "projects.release = [\"baobab\"]\n")
        else if place = ["comm", "mail", "taskcluster", ".taskgraph.toml"] then
          some (.text "projects.release = [\n")
        else none⟩, by decide +kernel⟩
  obtain ⟨tree, hinner, houter, hbad⟩ := hsample
  have hlaw : SearchLaw tree [] "/comm/mail" := searchLaw (by decide)
  have hload := hlaw.loaded _ hinner
  cases hresult : load tree [] "/comm/mail/taskcluster/.taskgraph.toml" with
  | ok s =>
      rw [hresult] at hbad
      contradiction
  | error e =>
      rw [hresult] at hload
      exact ⟨tree, e, by decide, hlaw, hinner, hload, houter,
        (searchLaw (by decide)).loaded _ houter⟩

end PushPlan.Settings
