import PushPlan.Proofs.Failure
import PushPlan.Settings.Search

/-!
# PushPlan.Proofs.Settings.Template

The settings files that are written for a start spell the standard settings, for the readers and
printers of the program.

Both texts are fixed, so this is a computation.  It goes over the characters of a text
(`Yaml.ofChars?`, `Toml.ofChars?`), which are at hand without decoding the text, and over the
lines of what is printed as TOML.
-/

namespace PushPlan

/-! ## Characters -/

/-- The document of a YAML text with the given characters. -/
def Yaml.ofChars? (cs : List Char) : Option Node := do
  let cs := if cs.head? == some '\uFEFF' then cs.drop 1 else cs
  if !cs.all isAllowed then none
  else
    let (n, ls) ← below? (4 * cs.length + 8) 0 false (← afterOpening? (← lines? cs))
    if isClosed ls then some n else none

theorem Yaml.read?_eq (text : String) : read? text = ofChars? text.toList := rfl

/-- The value of a TOML text with the given characters. -/
def Toml.ofChars? (cs : List Char) : Option Value :=
  let cs := if cs.head? == some '\uFEFF' then cs.drop 1 else cs
  (lines? (cs.length + 1) [] .fresh cs).map Tree.toValue

theorem Toml.read?_eq (text : String) : read? text = ofChars? text.toList := rfl

namespace Settings

theorem parse_yaml_eq (text : String) :
    parse .yaml text =
      Format.yaml.decode (read .yaml) ((Yaml.ofChars? text.toList).map Yaml.Node.asTexts) := by
  rw [parse, Format.dialect, ← Yaml.read?_eq]
  rfl

theorem parse_toml_eq (text : String) :
    parse .toml text = Format.toml.decode (read .toml) (Toml.ofChars? text.toList) := by
  rw [parse, Format.dialect, ← Toml.read?_eq]
  rfl

/-! ## YAML -/

-- The characters of the text are one long list, and a literal is as deep as it is long.
set_option maxRecDepth 20000 in
theorem exists_template_eq : ∃ cs, template = String.ofList cs ∧
    (Format.yaml.decode (read .yaml) ((Yaml.ofChars? cs).map Yaml.Node.asTexts)).toOption =
      some .standard :=
  ⟨_, rfl, by decide +kernel⟩

/-- The template spells the standard settings. -/
theorem parse_template : parse .yaml template = .ok .standard := by
  obtain ⟨cs, htemplate, hread⟩ := exists_template_eq
  rw [parse_yaml_eq, htemplate, String.toList_ofList]
  exact Failure.toOption_eq_some_iff.1 hread

/-! ## TOML -/

/-- The lines of the standard settings in TOML. -/
def tomlLines : List String :=
  ["[projects]", "integration = [", "    \"autoland\",", "    \"mozilla-inbound\",", "]",
    "release = [", "    \"mozilla-aurora\",", "    \"mozilla-beta\",",
    "    \"mozilla-central\",", "    \"mozilla-esr45\",", "    \"mozilla-release\",", "]", "",
    "[try_syntax]", "marker = \"try:\"", "build_kinds = [", "    \"build\",",
    "    \"artifact-build\",", "    \"hazard\",", "    \"l10n\",", "    \"valgrind\",",
    "    \"static-analysis\",", "    \"spidermonkey\",", "]", "test_kinds = [", "    \"test\",",
    "    \"desktop-test\",", "    \"android-test\",", "]", "job_kinds = [",
    "    \"source-check\",", "    \"toolchain\",", "    \"marionette-harness\",",
    "    \"android-stuff\",", "]", "", "[try_syntax.ridealong_builds]",
    "linux = [\"linux-l10n\"]", "linux64 = [\"linux64-l10n\"]", "",
    "[try_syntax.test_platform_aliases]", "Linux = [\"linux32\"]",
    "\"Linux x64\" = [\"linux64\"]", "\"OS X 10.10\" = [\"macosx64\"]",
    "\"Windows 10\" = [\"windows10-64\"]", "\"Windows 7\" = [\"windows7-32\"]",
    "\"Windows 8\" = [\"windows8-64\"]", "\"Windows XP\" = [\"windowsxp\"]"]

theorem render_standard :
    Toml.render standard.toValue = String.join (tomlLines.map fun line => line ++ "\n") := by
  decide +kernel

/-- What is printed as TOML spells the standard settings. -/
theorem parse_render_standard : parse .toml (Toml.render standard.toValue) = .ok .standard := by
  have hread : (Format.toml.decode (read .toml) (Toml.ofChars?
      (tomlLines.flatMap fun line => line.toList ++ ['\n']))).toOption = some .standard := by
    decide +kernel
  have hchars : (String.join (tomlLines.map fun line => line ++ "\n")).toList =
      tomlLines.flatMap fun line => line.toList ++ ['\n'] := by
    rw [String.toList_join, List.flatMap_map]
    simp only [String.toList_append]
    rfl
  rw [parse_toml_eq, render_standard, hchars]
  exact Failure.toOption_eq_some_iff.1 hread

end Settings

end PushPlan
