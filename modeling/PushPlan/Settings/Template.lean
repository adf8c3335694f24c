/-!
# PushPlan.Settings.Template

The settings file that is written for a start, and the names under which
settings files are looked for.
-/

namespace PushPlan.Settings

/-- The name of a settings file in YAML. -/
def yamlName : String := "taskgraph.yaml"

/-- The name of a settings file in TOML. -/
def tomlName : String := "taskgraph.toml"

/-- The names of settings files, the preferred ones first. -/
def fileNames : List String := [yamlName, tomlName, "." ++ yamlName, "." ++ tomlName]

/-- The folder beside which, or in which, a settings file stands. -/
def folderName : String := "taskcluster"

/-- The standard settings as a YAML text; kinds are left out, for they are standard anyway. -/
def template : String :=
  "# Target task selection configuration

projects:
  integration:
    - mozilla-inbound
    - autoland
  release:
    - mozilla-central
    - mozilla-aurora
    - mozilla-beta
    - mozilla-release
    - mozilla-esr45

try_syntax:
  marker: \"try:\"
  ridealong_builds:
    linux: [linux-l10n]
    linux64: [linux64-l10n]
  test_platform_aliases:
    Linux: [linux32]
    Linux x64: [linux64]
    OS X 10.10: [macosx64]
    Windows XP: [windowsxp]
    Windows 7: [windows7-32]
    Windows 8: [windows8-64]
    Windows 10: [windows10-64]
"

end PushPlan.Settings
