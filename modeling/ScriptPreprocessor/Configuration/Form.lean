import ScriptPreprocessor.Configuration.Basic
import ScriptPreprocessor.Configuration.Setting
import ScriptPreprocessor.Json.Reading
import ScriptPreprocessor.Toml.Reading

namespace ScriptPreprocessor

/-!
# Written configurations

How a configuration is read from TOML and JSON, and written as either.  Settings with unknown names
are passed over.  Written as TOML, a configuration shows what is set; written as JSON, every
section that is there shows all of its settings.
-/

namespace PreprocessorSection

/-- The names of the settings, in order.  The order matters only where a list stands in the place of
a table. -/
def names : List Text :=
  ["includeMode".toList, "maxExpansionDepth".toList, "skipShebang".toList]

/-- An include mode: its word, or a table whose only member has that name and is empty.  Readers
that know every kind of choice, also those with contents, accept the second form. -/
def includeMode? (form : SettingForm) : Setting → Option IncludeMode
  | .text word => IncludeMode.ofWord? word
  | .table [(word, setting)] =>
    if form.holdsNothing setting then IncludeMode.ofWord? word else none
  | _ => none

/-- The section that a setting describes.  One setting of the wrong kind makes the whole section
unreadable; a mistake in a file is not to be passed over as if nothing had been set. -/
def ofSetting? (form : SettingForm) (setting : Setting) : Option PreprocessorSection := do
  match ← setting.fields? form names with
  | [mode, depth, shebang] =>
    return { includeMode := ← mode.optional? (includeMode? form)
             maxExpansionDepth := ← depth.optional? Setting.natural?
             skipShebang := ← shebang.optional? Setting.flag? }
  | _ => none

def toJson (chosen : PreprocessorSection) : List Json :=
  [.ofOption (fun mode => .ofText mode.word) chosen.includeMode,
    .ofOption .ofNat chosen.maxExpansionDepth, .ofOption .boolean chosen.skipShebang]

def toToml (chosen : PreprocessorSection) : List (Option Toml) :=
  [chosen.includeMode.map fun mode => .string mode.word,
    chosen.maxExpansionDepth.map fun depth => .integer depth,
    chosen.skipShebang.map Toml.boolean]

end PreprocessorSection

namespace IncludesSection

def names : List Text :=
  ["defaultFolder".toList, "homeDir".toList, "includeRoot".toList, "fallbackSubdir".toList]

def ofSetting? (form : SettingForm) (setting : Setting) : Option IncludesSection := do
  match ← setting.fields? form names with
  | [folder, home, root, fallback] =>
    return { defaultFolder := ← folder.optional? Setting.text?
             homeDirectory := ← home.optional? Setting.text?
             includeRoot := ← root.optional? Setting.text?
             fallbackDirectory := ← fallback.optional? Setting.text? }
  | _ => none

def values (chosen : IncludesSection) : List (Option Text) :=
  [chosen.defaultFolder, chosen.homeDirectory, chosen.includeRoot, chosen.fallbackDirectory]

def toJson (chosen : IncludesSection) : List Json :=
  chosen.values.map (Json.ofOption .ofText)

def toToml (chosen : IncludesSection) : List (Option Toml) :=
  chosen.values.map fun value => value.map Toml.string

end IncludesSection

namespace EnvironmentSection

/-- The names of the settings other than the predefined macros, in order. -/
def plainNames : List Text :=
  ["agentId".toList, "agentName".toList, "viewerName".toList, "viewerVersion".toList,
    "viewerVernum".toList, "dateFormat".toList, "timeFormat".toList]

def definesName : Text := "defines".toList

/-- The names of the settings, in order. -/
def names : List Text :=
  plainNames ++ [definesName]

def ofSetting? (form : SettingForm) (setting : Setting) : Option EnvironmentSection := do
  match ← setting.fields? form names with
  | [id, name, viewer, version, number, date, time, defines] =>
    return { agentId := ← id.optional? Setting.text?
             agentName := ← name.optional? Setting.text?
             viewerName := ← viewer.optional? Setting.text?
             viewerVersion := ← version.optional? Setting.text?
             viewerNumber := ← number.optional? Setting.natural?
             dateFormat := ← date.optional? Setting.text?
             timeFormat := ← time.optional? Setting.text?
             defines := ← defines.optional? Setting.texts? }
  | _ => none

def toJson (chosen : EnvironmentSection) : List Json :=
  [.ofOption .ofText chosen.agentId, .ofOption .ofText chosen.agentName,
    .ofOption .ofText chosen.viewerName, .ofOption .ofText chosen.viewerVersion,
    .ofOption .ofNat chosen.viewerNumber, .ofOption .ofText chosen.dateFormat,
    .ofOption .ofText chosen.timeFormat,
    .ofOption (fun pairs =>
        .object (pairs.map fun (name, body) => (Json.escape name, .ofText body)))
      chosen.defines]

/-- The settings other than the predefined macros as TOML values.  The macros are a table of their
own and have to stand behind every plain value. -/
def toToml (chosen : EnvironmentSection) : List (Option Toml) :=
  [chosen.agentId.map .string, chosen.agentName.map .string, chosen.viewerName.map .string,
    chosen.viewerVersion.map .string, chosen.viewerNumber.map fun number => .integer number,
    chosen.dateFormat.map .string, chosen.timeFormat.map .string]

end EnvironmentSection

namespace Configuration

def preprocessorName : Text := "preprocessor".toList

def includesName : Text := "includes".toList

def environmentName : Text := "environment".toList

def sectionNames : List Text :=
  [preprocessorName, includesName, environmentName]

/-! ## Reading -/

/-- The configuration that a setting describes. -/
def ofSetting? (form : SettingForm) (setting : Setting) : Option Configuration := do
  match ← setting.fields? form sectionNames with
  | [preprocessor, includes, environment] =>
    return { preprocessor := ← preprocessor.optional? (PreprocessorSection.ofSetting? form)
             includes := ← includes.optional? (IncludesSection.ofSetting? form)
             environment := ← environment.optional? (EnvironmentSection.ofSetting? form) }
  | _ => none

/-- Written as JSON, only `null` holds nothing, and a list has no surplus. -/
def jsonForm : SettingForm where
  holdsNothing
    | .missing => true
    | _ => false
  admitsSurplus := false

/-- Written as TOML, an empty table and an empty list hold nothing, and a list may have a
surplus. -/
def tomlForm : SettingForm where
  holdsNothing
    | .table [] => true
    | .list [] => true
    | _ => false
  admitsSurplus := true

def ofJson? (value : Json) : Option Configuration :=
  ofSetting? jsonForm (Setting.ofJson value)

def parseJson? (text : Text) : Option Configuration :=
  (Json.parse? text).bind ofJson?

/-- Reads a configuration written as TOML.  A file is always a table there, so the members are
wrapped as one. -/
def parseToml? (text : Text) : Option Configuration :=
  (Toml.parse? text).bind fun members => ofSetting? tomlForm (Setting.ofToml (.table members))

/-! ## Writing -/

def sectionJson (names : List Text) (values : List Json) : Json :=
  .object (names.zip values)

/-- A configuration as a JSON object.  A section that is missing is left out, but a setting that is
missing in a section that is there is written as `null`. -/
def toJson (configuration : Configuration) : Json :=
  .object <|
    (configuration.preprocessor.toList.map fun chosen =>
        (preprocessorName, sectionJson PreprocessorSection.names chosen.toJson)) ++
      (configuration.includes.toList.map fun chosen =>
        (includesName, sectionJson IncludesSection.names chosen.toJson)) ++
      configuration.environment.toList.map fun chosen =>
        (environmentName, sectionJson EnvironmentSection.names chosen.toJson)

def renderJson (configuration : Configuration) : Text :=
  configuration.toJson.render

/-- The members of a table that are set.  TOML has nothing to write for a missing value. -/
def tomlMembers (names : List Text) (values : List (Option Toml)) : List (Text × Toml) :=
  (names.zip values).filterMap fun (name, value) => value.map fun value => (name, value)

/-- The tables of the environment.  The table itself is left out when only predefined macros are
set. -/
def environmentTables (name : Text) (chosen : EnvironmentSection) :
    List (List Text × List (Text × Toml)) :=
  let members := tomlMembers EnvironmentSection.plainNames chosen.toToml
  match chosen.defines with
  | none => [([name], members)]
  | some pairs =>
    (if members.isEmpty then [] else [([name], members)]) ++
      [([name, EnvironmentSection.definesName],
        pairs.map fun (name, body) => (name, Toml.string body))]

def toTables (configuration : Configuration) : List (List Text × List (Text × Toml)) :=
  (configuration.preprocessor.toList.map fun chosen =>
      ([preprocessorName], tomlMembers PreprocessorSection.names chosen.toToml)) ++
    (configuration.includes.toList.map fun chosen =>
      ([includesName], tomlMembers IncludesSection.names chosen.toToml)) ++
    configuration.environment.toList.flatMap (environmentTables environmentName)

def renderToml (configuration : Configuration) : Text :=
  Toml.renderTables configuration.toTables

end Configuration

end ScriptPreprocessor
