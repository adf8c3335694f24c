import PushPlan.Command.Run

/-!
# PushPlan.Proofs.Command.Settings

The settings that commands go by.

1. One settings file counts: the one of the command line, else the nearest
   (`World.settingsFile?`).  Both checking settings and loading them go by it, so a
   check reports on exactly what is loaded (`Report.AgreesWith`).  They differ only
   where there is no file at all: then the standard settings are loaded, and a check
   has nothing to report on.
2. Settings come before everything else that a command computes.  What is left once
   they are known is the command under given settings (`runInWith`).
3. Hence, after a check that passed, every command runs under the settings that were
   reported.
-/

namespace PushPlan.Command

/-! ## The settings file that counts -/

namespace World

/-- The settings file that counts, if there is one. -/
def settingsFile? (w : World) (config : Option String) : Option String :=
  config.or (Settings.nearest? w.tree w.folder w.path)

theorem settings_of_file [Formats] {w : World} {config : Option String} {path : String}
    (h : w.settingsFile? config = some path) :
    w.settings config = (Settings.load w.tree w.folder path).map fun s => (s, some path) := by
  cases config with
  | some given =>
      have hgiven : given = path := by simpa [settingsFile?] using h
      rw [settings, hgiven]
  | none =>
      have hnearest : Settings.nearest? w.tree w.folder w.path = some path := by
        simpa [settingsFile?] using h
      simp only [settings, Settings.loadNearest, hnearest]

theorem settings_of_no_file [Formats] {w : World} {config : Option String}
    (h : w.settingsFile? config = none) : w.settings config = .ok (.standard, none) := by
  obtain ⟨rfl, hnearest⟩ := Option.or_eq_none_iff.1 h
  simp only [settings, Settings.loadNearest, hnearest]

end World

theorem check_of_file [Formats] {w : World} {config : Option String} {path : String}
    (h : w.settingsFile? config = some path) :
    check w config = ⟨some path, Settings.load w.tree w.folder path⟩ := by
  rw [World.settingsFile?] at h
  simp only [check, h]

theorem check_of_no_file [Formats] {w : World} {config : Option String}
    (h : w.settingsFile? config = none) :
    check w config = ⟨none, .error (.notFound w.path)⟩ := by
  rw [World.settingsFile?] at h
  simp only [check, h]

/-! ## Reports -/

namespace Report

/-- A report on the settings that are loaded. -/
structure AgreesWith (r : Report) (loaded : Except SettingsError (Settings × Option String)) :
    Prop where
  /-- The settings of a file are reported exactly when they are loaded from it. -/
  passed_iff : ∀ path s, r = ⟨some path, .ok s⟩ ↔ loaded = .ok (s, some path)
  /-- The failure of a file is reported exactly when loading fails, and it is the same. -/
  failed_iff : ∀ e, (∃ path, r = ⟨some path, .error e⟩) ↔ loaded = .error e
  /-- No file is reported exactly when the standard settings are taken for want of one. -/
  absent_iff : r.path = none ↔ loaded = .ok (.standard, none)

theorem agreesWith_of_file (path : String) (loaded : Except SettingsError Settings) :
    (Report.mk (some path) loaded).AgreesWith (loaded.map fun s => (s, some path)) := by
  cases loaded with
  | ok s => constructor <;> simp [Except.map, and_comm]
  | error e => constructor <;> simp [Except.map]

theorem agreesWith_of_no_file (e : SettingsError) :
    (Report.mk none (.error e)).AgreesWith (.ok (.standard, none)) := by
  constructor <;> simp

end Report

theorem agreesWith_check [Formats] (w : World) (config : Option String) :
    (check w config).AgreesWith (w.settings config) := by
  cases hfile : w.settingsFile? config with
  | some path =>
      rw [check_of_file hfile, World.settings_of_file hfile]
      exact Report.agreesWith_of_file path _
  | none =>
      rw [check_of_no_file hfile, World.settings_of_no_file hfile]
      exact Report.agreesWith_of_no_file _

/-! ## Commands under given settings -/

/-- Selects tasks under given settings. -/
def SelectOptions.runWith [Formats] (o : SelectOptions) (w : World) (s : Settings) :
    Except Failure Selected := do
  let g ← (TaskGraph.load w.tree w.folder o.graph).mapError .taskGraph
  let p ← (o.parametersOf w).mapError .parameters
  let labels ← ((Registry.ofSettings s).select o.strategy g p).mapError .selection
  return ⟨o.strategy, labels, g.size⟩

/-- Reads a message under given settings. -/
def runRequestWith [Formats] (message : String) (graph : Option String) (w : World)
    (s : Settings) : Except Failure Requested :=
  let r := (Request.read s.conventions message).1
  match graph with
  | none => .ok ⟨r, none⟩
  | some path => do
    let g ← (TaskGraph.load w.tree w.folder path).mapError .taskGraph
    return ⟨r, some (r.schedule g)⟩

/-- Runs a command in a folder under given settings and the path of their file. -/
def runInWith [Formats] (o : Options) (w : World) (s : Settings) (path : Option String) :
    Command → Outcome
  | .init i => i.toOutcome o w
  | .select c => .ofResult (Selected.print o) (c.runWith w s)
  | .request message graph => .ofResult (Requested.print o) (runRequestWith message graph w s)
  | .strategies => .ofResult (Listing.print o) (.ok ⟨s, path⟩)
  | .validate => (Report.mk path (.ok s)).toOutcome o

section

variable [Formats] {w : World} {config : Option String} {s : Settings} {path : Option String}

theorem SelectOptions.run_of_settings (h : w.settings config = .ok (s, path))
    (o : SelectOptions) : o.run w config = o.runWith w s := by
  rw [run, h]
  rfl

theorem runRequest_of_settings (h : w.settings config = .ok (s, path)) (message : String)
    (graph : Option String) :
    runRequest message graph w config = runRequestWith message graph w s := by
  rw [runRequest, h]
  cases graph <;> rfl

theorem runStrategies_of_settings (h : w.settings config = .ok (s, path)) :
    runStrategies w config = .ok ⟨s, path⟩ := by
  rw [runStrategies, h]
  rfl

end

/-- Every command runs under the settings of a check that passed. -/
theorem runIn_of_check [Formats] (o : Options) {w : World} {path : String} {s : Settings}
    (h : check w o.config = ⟨some path, .ok s⟩) (c : Command) :
    runIn o w c = runInWith o w s (some path) c := by
  have hsettings : w.settings o.config = .ok (s, some path) :=
    ((agreesWith_check w o.config).passed_iff path s).1 h
  cases c with
  | init i => rfl
  | select c => rw [runIn, runInWith, SelectOptions.run_of_settings hsettings]
  | request message graph => rw [runIn, runInWith, runRequest_of_settings hsettings]
  | strategies => rw [runIn, runInWith, runStrategies_of_settings hsettings]
  | validate => rw [runIn, runInWith, h]

/-! ## Checks that pass -/

/-- A check passes when settings of a file are reported. -/
theorem check_failure_eq_none [Formats] {o : Options} {w : World}
    (h : ((check w o.config).toOutcome o).failure = none) :
    ∃ path s, check w o.config = ⟨some path, .ok s⟩ := by
  have herror : (check w o.config).error? = none := by
    simpa [Report.toOutcome] using h
  cases hfile : w.settingsFile? o.config with
  | some path =>
      rw [check_of_file hfile] at herror ⊢
      cases hload : Settings.load w.tree w.folder path with
      | ok s => exact ⟨path, s, rfl⟩
      | error e => simp [Report.error?, hload] at herror
  | none =>
      rw [check_of_no_file hfile] at herror
      simp [Report.error?] at herror

theorem run_of_enter [Formats] {w here : World} {i : Invocation}
    (h : w.enter i.options.directory = .ok here) : run w i = runIn i.options here i.command := by
  rw [run, h]

/-- **One configuration for all commands**: a check reports on exactly the settings that the other
commands load, with the same file or the same failure, and on no file when they go by the standard
settings for want of one.  Where the check of an invocation passes, every command with the same
folder and settings file runs under the settings that it reports, however results are written. -/
theorem check_agreesWith_settings [Formats] :
    (∀ (w : World) (config : Option String), (check w config).AgreesWith (w.settings config)) ∧
    ∀ (w : World) (o : Options), (run w ⟨o, .validate⟩).failure = none →
      ∃ here path s, w.enter o.directory = .ok here ∧ check here o.config = ⟨some path, .ok s⟩ ∧
        ∀ quiet format command,
          run w ⟨{ o with quiet, format }, command⟩ =
            runInWith { o with quiet, format } here s (some path) command := by
  refine ⟨agreesWith_check, fun w o h => ?_⟩
  cases henter : w.enter o.directory with
  | error e =>
      rw [run, henter] at h
      contradiction
  | ok here =>
      rw [run_of_enter henter] at h
      obtain ⟨path, s, hcheck⟩ := check_failure_eq_none h
      refine ⟨here, path, s, rfl, hcheck, fun quiet format command => ?_⟩
      rw [run_of_enter henter]
      exact runIn_of_check { o with quiet, format } hcheck command

/-- Settings of the folder above: a check in the folder below reports them with their path, and all
commands there run under them. -/
theorem check_agreesWith_settings_above :
    ∃ (w : World) (s : Settings), w.path = "/project" ∧
      (run w ⟨{}, .validate⟩).failure = none ∧
      check w none = ⟨some "/taskgraph.toml", .ok s⟩ ∧
      s.projects.release.toList = ["baobab"] ∧
      ∀ quiet format command,
        run w ⟨{ quiet, format }, command⟩ =
          runInWith { quiet, format } w s (some "/taskgraph.toml") command := by
  have hsample : ∃ w : World, w.path = "/project" ∧
      (run w ⟨{}, .validate⟩).failure = none ∧
      (check w none).path = some "/taskgraph.toml" ∧
      (check w none).outcome.toOption.map (·.projects.release.toList) = some ["baobab"] :=
    ⟨⟨⟨fun place =>
        if place = ["project"] then some .folder
        else if place = ["taskgraph.toml"] then some (.text "projects.release = [\"baobab\"]\n")
        else none⟩, ["project"]⟩, by decide +kernel⟩
  obtain ⟨w, hfolder, hpass, hpath, hrelease⟩ := hsample
  obtain ⟨here, path, s, henter, hcheck, hrun⟩ := check_agreesWith_settings.2 w {} hpass
  cases henter
  rw [hcheck] at hpath hrelease
  cases hpath
  exact ⟨w, s, hfolder, hpass, hcheck, Option.some.inj hrelease, hrun⟩

end PushPlan.Command
