import PushPlan.Command.Run
import PushPlan.Proofs.FileTree
import PushPlan.Proofs.Settings.Search
import PushPlan.Proofs.Settings.Template

/-!
# PushPlan.Proofs.Command.Init

Writing a settings file for a start.

1. Without a path of its own, the file is written in the folder to work in, under the name
   of its format.  Of readers and printers it is asked that the text spells the standard
   settings (`InitOptions.WritesStandard`); with those of the program it does.
2. Settings files in YAML are preferred, in the same folder.  So a file in YAML that is
   written is the one that counts, and a file in TOML is so unless there is one in YAML
   beside it (`InitOptions.Hidden`), which counts as before.
3. Nothing but that one file changes, and where the command fails nothing does.
-/

namespace PushPlan.Command

open PushPlan.Path Settings FileTree

/-! ## Names of settings files -/

/-- A path that ends in a name is of the format of that name. -/
theorem ofPath_join {base name : String} (hbase : isAbsolute base = true) (hname : IsName name)
    (hup : name ≠ "..") : Format.ofPath (join base name) = Format.ofPath name := by
  obtain ⟨front, hfront⟩ := exists_segments_join hname.notMem hname.not_isAbsolute
    (ne_empty_of_isAbsolute hbase)
  have hjoin : name? (join base name) = some name :=
    name?_of_segments hfront hname.isStep hup
  have hsegments : segments name = [] ++ [name] := segments_of_notMem hname.notMem
  have halone : name? name = some name := name?_of_segments hsegments hname.isStep hup
  rw [Format.ofPath, Format.ofPath, extension?, extension?, hjoin, halone]

/-- A path that ends in a name leads to a place of that name. -/
theorem getLast?_of_locate_join {tree : FileTree} {folder place : Place} {base name : String}
    (hbase : isAbsolute base = true) (hname : IsName name) (hup : name ≠ "..")
    (h : tree.locate folder (join base name) = .ok place) : place.getLast? = some name := by
  obtain ⟨front, hfront⟩ := exists_segments_join hname.notMem hname.not_isAbsolute
    (ne_empty_of_isAbsolute hbase)
  exact getLast?_of_locate h hfront hname.isStep hup

theorem isName_yamlName : IsName yamlName := isName_of_mem_fileNames (by decide)

theorem isName_tomlName : IsName tomlName := isName_of_mem_fileNames (by decide)

theorem World.isAbsolute_path (w : World) : isAbsolute w.path = true := Place.isAbsolute_path _

namespace InitOptions

variable {i : InitOptions} {w : World} {place : Place}

/-! ## The text -/

/-- The format of the file that is written. -/
def format (i : InitOptions) : Format := if i.toml then .toml else .yaml

theorem ofPath_join_fileName (i : InitOptions) {base : String} (hbase : isAbsolute base = true) :
    Format.ofPath (join base i.fileName) = i.format := by
  unfold fileName format
  cases i.toml with
  | false =>
      rw [if_neg Bool.false_ne_true, if_neg Bool.false_ne_true,
        ofPath_join hbase isName_yamlName (by decide)]
      decide
  | true =>
      rw [if_pos rfl, if_pos rfl, ofPath_join hbase isName_tomlName (by decide)]
      decide

/-- What is written spells the standard settings, in the format of the file. -/
def WritesStandard [Formats] (i : InitOptions) : Prop := parse i.format i.content = .ok .standard

/-- With the readers and printers of the program, it does. -/
theorem writesStandard (i : InitOptions) : i.WritesStandard := by
  unfold WritesStandard format content
  cases i.toml with
  | false => exact parse_template
  | true => exact parse_render_standard

/-! ## Writing -/

/-- The command succeeds where a text can be written, and over something only if told so. -/
theorem run_eq_ok_iff [Formats] {written : Place × String} :
    i.run w = .ok written ↔
      (w.tree.contains w.folder (i.target w) = true → i.force = true) ∧
        ∃ place, w.tree.target w.folder (i.target w) = .ok place ∧
          written = (place, i.content) := by
  simp only [run, Bool.and_eq_true, Bool.not_eq_true']
  split
  · next h => simp [h]
  · next h =>
      have hforce : w.tree.contains w.folder (i.target w) = true → i.force = true := by
        simpa using h
      cases htarget : w.tree.target w.folder (i.target w) with
      | error e => simp
      | ok place =>
          constructor
          · intro hrun
            cases hrun
            exact ⟨hforce, place, rfl, rfl⟩
          · intro hwritten
            obtain ⟨-, there, hthere, rfl⟩ := hwritten
            cases hthere
            rfl

/-- A settings file in YAML stands beside the one in TOML that is written. -/
def Hidden (i : InitOptions) (w : World) : Prop :=
  i.toml = true ∧ w.tree.isFile w.folder (join w.path yamlName) = true

instance (i : InitOptions) (w : World) : Decidable (i.Hidden w) :=
  inferInstanceAs (Decidable (_ ∧ _))

section

variable (houtput : i.output = none) (htarget : w.tree.target w.folder (i.target w) = .ok place)

include houtput

theorem target_eq : i.target w = join w.path i.fileName := by
  rw [target, houtput, Option.getD_none]

include htarget

theorem load_put [Formats] (h : i.WritesStandard) :
    Settings.load (w.tree.put place i.content) w.folder (i.target w) = .ok .standard := by
  obtain ⟨hlocate, hplace⟩ := locate_and_look_of_target htarget
  have hformat : Format.ofPath (i.target w) = i.format := by
    rw [target_eq houtput]
    exact i.ofPath_join_fileName w.isAbsolute_path
  exact load_eq_ok_iff.2 ⟨_, read_put_self hplace hlocate, hformat ▸ h, by decide⟩

/-- Settings in TOML are not written where settings in YAML stand. -/
theorem locate_yaml_ne (htoml : i.toml = true) :
    w.tree.locate w.folder (join w.path yamlName) ≠ .ok place := by
  intro hyaml
  have hlocate := (locate_and_look_of_target htarget).1
  rw [target_eq houtput, fileName, if_pos htoml] at hlocate
  have hnames := getLast?_of_locate_join w.isAbsolute_path isName_yamlName (by decide) hyaml
  rw [getLast?_of_locate_join w.isAbsolute_path isName_tomlName (by decide) hlocate] at hnames
  exact absurd hnames (by decide)

/-- Settings in YAML are a file afterwards if they are written or were a file before. -/
theorem isFile_yaml_put [Formats] :
    (w.tree.put place i.content).isFile w.folder (join w.path yamlName) = true ↔
      i.toml = false ∨ w.tree.isFile w.folder (join w.path yamlName) = true := by
  obtain ⟨hlocate, hplace⟩ := locate_and_look_of_target htarget
  rw [isFile_put hplace]
  refine or_congr_left ?_
  cases htoml : i.toml with
  | false =>
      rw [target_eq houtput, fileName, htoml, if_neg Bool.false_ne_true] at hlocate
      exact iff_of_true hlocate rfl
  | true => exact iff_of_false (locate_yaml_ne houtput htarget htoml) Bool.noConfusion

/-- Unless it is hidden, the file that was written is the one that counts. -/
theorem nearest?_put [Formats] (h : ¬ i.Hidden w) :
    nearest? (w.tree.put place i.content) w.folder w.path = some (i.target w) := by
  obtain ⟨hlocate, hplace⟩ := locate_and_look_of_target htarget
  have hyaml := isFile_yaml_put houtput htarget
  have hwritten : (w.tree.put place i.content).isFile w.folder (i.target w) = true :=
    (isFile_put hplace).2 (.inl hlocate)
  rw [target_eq houtput, fileName] at hwritten ⊢
  cases htoml : i.toml with
  | false =>
      rw [if_neg Bool.false_ne_true]
      exact nearest?_of_yaml (hyaml.2 (.inl htoml))
  | true =>
      rw [htoml, if_pos rfl] at hwritten
      rw [if_pos rfl]
      refine nearest?_of_toml (Bool.eq_false_iff.2 fun hfile => ?_) hwritten
      rcases hyaml.1 hfile with hno | hbefore
      · rw [htoml] at hno
        contradiction
      · exact h ⟨htoml, hbefore⟩

/-- If it is hidden, the same settings hold as before. -/
theorem loadNearest_put_of_hidden [Formats] (h : i.Hidden w) :
    nearest? (w.tree.put place i.content) w.folder w.path = some (join w.path yamlName) ∧
      loadNearest (w.tree.put place i.content) w.folder w.path =
        loadNearest w.tree w.folder w.path := by
  obtain ⟨htoml, hfile⟩ := h
  have hafter := nearest?_of_yaml ((isFile_yaml_put houtput htarget).2 (.inr hfile))
  have hbefore := nearest?_of_yaml hfile
  obtain ⟨p, entry, hyaml, _⟩ := isFile_iff.1 hfile
  have hne : p ≠ place := by
    rintro rfl
    exact locate_yaml_ne houtput htarget htoml hyaml
  have hplace := (locate_and_look_of_target htarget).2
  refine ⟨hafter, ?_⟩
  rw [loadNearest_of_some hafter, loadNearest_of_some hbefore, Settings.load, Settings.load,
    read_put_of_ne hplace hyaml hne]

end

end InitOptions

/-! ## The command -/

/-- What writing a settings file in a folder comes to, with the outcome of the command. -/
structure InitLaw [Formats] (i : InitOptions) (w : World) (outcome : Outcome) : Prop where
  /-- What is there already is not replaced, unless that is asked for. -/
  occupied : w.tree.contains w.folder (i.target w) = true → i.force = false →
    outcome.failure = some (.occupied (i.target w))
  /-- A failure changes nothing. -/
  failed : outcome.failure ≠ none → outcome.tree w.tree = w.tree
  /-- Otherwise the text is written to one file, and nothing else changes. -/
  written : outcome.failure = none → ∃ place,
    w.tree.locate w.folder (i.target w) = .ok place ∧
      (outcome.tree w.tree).look place = some (.text i.content) ∧
      ∀ p, p ≠ place → (outcome.tree w.tree).look p = w.tree.look p
  /-- This file holds the standard settings. -/
  loads : outcome.failure = none → i.WritesStandard →
    Settings.load (outcome.tree w.tree) w.folder (i.target w) = .ok .standard
  /-- It is the one that counts, unless it is hidden. -/
  counts : outcome.failure = none → ¬ i.Hidden w →
    nearest? (outcome.tree w.tree) w.folder w.path = some (i.target w) ∧
      (i.WritesStandard →
        loadNearest (outcome.tree w.tree) w.folder w.path = .ok (.standard, some (i.target w)))
  /-- If it is, the file that hides it counts, and the same settings hold as before. -/
  hidden : outcome.failure = none → i.Hidden w →
    nearest? (outcome.tree w.tree) w.folder w.path = some (join w.path yamlName) ∧
      loadNearest (outcome.tree w.tree) w.folder w.path = loadNearest w.tree w.folder w.path

namespace InitOptions

variable {i : InitOptions} {w : World}

/-- A command that fails prints and writes nothing; one that succeeds writes the text. -/
theorem toOutcome_cases [Formats] (i : InitOptions) (o : Options) (w : World) :
    (∃ e, i.run w = .error e ∧ i.toOutcome o w = .ofFailure e) ∨
      ∃ place, i.run w = .ok (place, i.content) ∧ (i.toOutcome o w).failure = none ∧
        w.tree.target w.folder (i.target w) = .ok place ∧
        (i.toOutcome o w).tree w.tree = w.tree.put place i.content := by
  rw [toOutcome]
  cases hrun : i.run w with
  | error e => exact .inl ⟨e, rfl, rfl⟩
  | ok written =>
      obtain ⟨-, place, htarget, rfl⟩ := run_eq_ok_iff.1 hrun
      exact .inr ⟨place, rfl, rfl, htarget, rfl⟩

theorem initLaw_toOutcome [Formats] (houtput : i.output = none) (o : Options) (w : World) :
    InitLaw i w (i.toOutcome o w) := by
  rcases i.toOutcome_cases o w with ⟨e, hrun, hfail⟩ | ⟨place, hrun, hnone, htarget, htree⟩
  · have hfailure : (i.toOutcome o w).failure = some e := by
      rw [hfail]
      rfl
    have hno : (i.toOutcome o w).failure ≠ none := by simp [hfailure]
    constructor
    · intro hcontains hforce
      rw [run, hcontains, hforce] at hrun
      cases hrun
      exact hfailure
    · intro _
      rw [hfail]
      rfl
    all_goals
      intro h
      exact absurd h hno
  · obtain ⟨hlocate, hplace⟩ := locate_and_look_of_target htarget
    constructor
    · intro hcontains hforce
      have hallowed := (run_eq_ok_iff.1 hrun).1 hcontains
      rw [hforce] at hallowed
      contradiction
    · intro h
      exact absurd hnone h
    · intro _
      rw [htree]
      exact ⟨place, hlocate, look_put_self hplace, fun p hp => look_put_of_ne hp⟩
    · intro _ hwrites
      rw [htree]
      exact load_put houtput htarget hwrites
    · intro _ hhidden
      have hnearest := nearest?_put houtput htarget hhidden
      rw [htree]
      refine ⟨hnearest, fun hwrites => ?_⟩
      rw [loadNearest_of_some hnearest, load_put houtput htarget hwrites]
      rfl
    · intro _ hhidden
      rw [htree]
      exact loadNearest_put_of_hidden houtput htarget hhidden

end InitOptions

/-- **A settings file for a start**: writing one in a folder makes the standard settings those that
hold there, provided that its text spells them, unless it is in TOML and stands beside one in YAML;
then what held before holds.  No other file changes, and none at all where the command fails, as it
does where something is in the way and is not to be replaced. -/
theorem initLaw [Formats] {w here : World} {o : Options} {i : InitOptions}
    (henter : w.enter o.directory = .ok here) (houtput : i.output = none) :
    here.tree = w.tree ∧ InitLaw i here (run w ⟨o, .init i⟩) := by
  have htree : here.tree = w.tree := by
    unfold World.enter at henter
    split at henter
    · cases henter
      rfl
    · split at henter <;> cases henter
      rfl
  have hrun : run w ⟨o, .init i⟩ = i.toOutcome o here := by
    simp only [run, henter, runIn]
  rw [hrun]
  exact ⟨htree, i.initLaw_toOutcome houtput o here⟩

/-- Settings in TOML for the folder of a project: a folder that is called like a settings file hides
nothing, and the settings in a folder below and in the folder above do not count.  Once more, the
command fails. -/
theorem initLaw_nested :
    ∃ (w : World) (i : InitOptions), w.enter none = .ok w ∧ i.output = none ∧ i.toml = true ∧
      w.path = "/comm" ∧
      nearest? w.tree w.folder w.path = some "/comm/taskcluster/taskgraph.yaml" ∧
      (run w ⟨{}, .init i⟩).failure = none ∧
      nearest? ((run w ⟨{}, .init i⟩).tree w.tree) w.folder w.path =
        some "/comm/taskgraph.toml" ∧
      loadNearest ((run w ⟨{}, .init i⟩).tree w.tree) w.folder w.path =
        .ok (.standard, some "/comm/taskgraph.toml") ∧
      (run ⟨(run w ⟨{}, .init i⟩).tree w.tree, w.folder⟩ ⟨{}, .init i⟩).failure =
        some (.occupied "/comm/taskgraph.toml") := by
  have hsample : ∃ (w : World) (i : InitOptions), i.output = none ∧ i.toml = true ∧
      i.force = false ∧ w.path = "/comm" ∧ i.target w = "/comm/taskgraph.toml" ∧
      nearest? w.tree w.folder w.path = some "/comm/taskcluster/taskgraph.yaml" ∧
      (run w ⟨{}, .init i⟩).failure = none ∧ ¬ i.Hidden w ∧
      ((run w ⟨{}, .init i⟩).tree w.tree).contains w.folder (i.target w) = true :=
    ⟨⟨⟨fun place =>
        if place = ["comm"] ∨ place = ["comm", "taskcluster"] ∨
          place = ["comm", "taskgraph.yaml"] then some .folder
        else if place = ["taskgraph.yaml"] ∨ place = ["comm", "taskcluster", "taskgraph.yaml"] then
          some (.text "projects: [")
        else none⟩, ["comm"]⟩, ⟨false, true, none⟩, by decide +kernel⟩
  obtain ⟨w, i, houtput, htoml, hforce, hpath, htarget, hbefore, hdone, hhidden, hthere⟩ := hsample
  obtain ⟨-, hlaw⟩ := initLaw (w := w) (o := {}) rfl houtput
  obtain ⟨hnearest, hload⟩ := hlaw.counts hdone hhidden
  have hstandard := hload i.writesStandard
  let after : World := ⟨(run w ⟨{}, .init i⟩).tree w.tree, w.folder⟩
  obtain ⟨-, hagain⟩ := initLaw (w := after) (o := {}) rfl houtput
  rw [htarget] at hnearest hstandard
  exact ⟨w, i, rfl, houtput, htoml, hpath, hbefore, hdone, hnearest, hstandard,
    htarget ▸ hagain.occupied hthere hforce⟩

/-- Settings in TOML beside settings in YAML are written, but do not count. -/
theorem initLaw_beside_yaml :
    ∃ (w : World) (i : InitOptions), w.path = "/" ∧
      w.tree.look ["taskgraph.yaml"] = some (.text "projects:\n  release: [here]\n") ∧
      i = ⟨false, true, none⟩ ∧ i.WritesStandard ∧ w.enter none = .ok w ∧
      (run w ⟨{}, .init i⟩).failure = none ∧ i.target w = "/taskgraph.toml" ∧
      nearest? ((run w ⟨{}, .init i⟩).tree w.tree) w.folder w.path = some "/taskgraph.yaml" ∧
      nearest? ((run w ⟨{}, .init i⟩).tree w.tree) w.folder w.path ≠ some (i.target w) ∧
      ((loadNearest ((run w ⟨{}, .init i⟩).tree w.tree) w.folder w.path).toOption.map fun loaded =>
        loaded.1.projects.release.toList) = some ["here"] ∧
      loadNearest ((run w ⟨{}, .init i⟩).tree w.tree) w.folder w.path ≠
        .ok (.standard, some (i.target w)) := by
  have hsample : ∃ (w : World) (i : InitOptions), i = ⟨false, true, none⟩ ∧ w.path = "/" ∧
      w.tree.look ["taskgraph.yaml"] = some (.text "projects:\n  release: [here]\n") ∧
      (run w ⟨{}, .init i⟩).failure = none ∧ i.target w = "/taskgraph.toml" ∧
      nearest? ((run w ⟨{}, .init i⟩).tree w.tree) w.folder w.path = some "/taskgraph.yaml" ∧
      ((loadNearest ((run w ⟨{}, .init i⟩).tree w.tree) w.folder w.path).toOption.map fun loaded =>
        loaded.1.projects.release.toList) = some ["here"] :=
    ⟨⟨⟨fun place =>
        if place = ["taskgraph.yaml"] then some (.text "projects:\n  release: [here]\n")
        else none⟩, []⟩, _, rfl, by decide +kernel⟩
  obtain ⟨w, i, hi, hpath, hlook, hdone, htarget, hnearest, hload⟩ := hsample
  have hother : Settings.standard.projects.release.toList ≠ ["here"] := by decide
  refine ⟨w, i, hpath, hlook, hi, i.writesStandard, rfl, hdone, htarget, hnearest, ?_, hload,
    fun hstandard => ?_⟩
  · rw [hnearest, htarget]
    decide
  · rw [hstandard] at hload
    exact hother (Option.some.inj hload)

end PushPlan.Command
