import SectionIndex.Json.Loose
import SectionIndex.Json.Printer
import SectionIndex.Json.Record
import SectionIndex.Settings.Basic
import SectionIndex.Settings.EnvironmentFile
import SectionIndex.Text.LetterCase

/-!
# Loading settings

A setting is given directly, by a variable of the environment, or by a variable of an environment
file in the working directory; the first of these that gives it decides. The names of the variables
are those of the settings with `AI_INDEX_` before them, in any letter case.

## Main definitions

* `SettingValues`, `Settings.ofValues` — settings from given values.
* `Host.loadSettings`.
-/

namespace SectionIndex

/-- **Why there are no settings:** the environment file is no text, or some settings have no proper
values. -/
inductive SettingsFault
  | notText (cause : Utf8Fault)
  | invalid (names : List Text)
  deriving DecidableEq, Repr

/-- The names of all settings. -/
def settingNames : List Text :=
  ["debug", "log_level", "host", "port", "cors_allowed_origins", "workspace_root",
   "drift_tolerance", "min_lines", "server_name", "protocol_version"]

/-- The start of the names of variables, in small letters. -/
def variableStart : Text := "ai_index_"

/-- The value that variables give to a setting: that of the last variable with its name. -/
def settingVariable? (bindings : List EnvironmentFile.Binding) (name : Text) : Option Text :=
  ((bindings.reverse.find? fun (key, _) =>
    foldCase key == variableStart ++ name).bind Prod.snd)

/-- **The values that settings are made from**, by where they come from. -/
structure SettingValues where
  given : Json.Members := []
  environment : List EnvironmentFile.Binding := []
  file : List EnvironmentFile.Binding := []

/-- The value of a setting, from the first place that gives one. -/
def SettingValues.get? (values : SettingValues) (name : Text) : Option Json :=
  match values.given.get? name with
  | some value => some value
  | none =>
    ((settingVariable? values.environment name).or (settingVariable? values.file name)).map .text

/-- The value of a setting, or what it is if nothing is given; none if it is not proper. -/
def SettingValues.read? {α : Type} (values : SettingValues) (name : Text)
    (read : Json → Option α) (default : α) : Option α :=
  match values.get? name with
  | none => some default
  | some value => read value

/-- The name of a log level, from any value that is shown as a text: in capitals, and `INFO` if
there is none. -/
def logLevelName? (value : Json) : Option Text :=
  value.display.toText?.map fun t =>
    match upperCase t.strip with
    | [] => "INFO"
    | name => name

/-- **The settings made from values**, or the names of the settings without proper values. -/
def Settings.ofValues (default : Settings) (values : SettingValues) :
    Except (List Text) Settings :=
  let debug := values.read? "debug" Json.looseBool? default.debug
  let logLevel := values.read? "log_level" logLevelName? default.logLevel
  let bindAddress := values.read? "host" Json.exactText? default.bindAddress
  let bindPort := values.read? "port" Json.looseInt? default.bindPort
  let origins := values.read? "cors_allowed_origins" Json.exactText? default.corsAllowedOrigins
  let root := values.read? "workspace_root" (·.exactText?.map Path.ofText) default.workspaceRoot
  let tolerance := values.read? "drift_tolerance" Json.looseNatural? default.driftTolerance
  let minLines := values.read? "min_lines" Json.looseNatural? default.minLines
  let serverName := values.read? "server_name" Json.exactText? default.serverName
  let version := values.read? "protocol_version" Json.exactText? default.protocolVersion
  match debug, logLevel, bindAddress, bindPort, origins, root, tolerance, minLines, serverName,
    version with
  | some debug, some logLevel, some bindAddress, some bindPort, some origins, some root,
    some tolerance, some minLines, some serverName, some version =>
    .ok ⟨debug, logLevel, bindAddress, bindPort, origins, root, tolerance, minLines, serverName,
      version⟩
  | _, _, _, _, _, _, _, _, _, _ =>
    .error (Json.faultyNames
      [("debug", debug.isSome), ("log_level", logLevel.isSome), ("host", bindAddress.isSome),
       ("port", bindPort.isSome), ("cors_allowed_origins", origins.isSome),
       ("workspace_root", root.isSome), ("drift_tolerance", tolerance.isSome),
       ("min_lines", minLines.isSome), ("server_name", serverName.isSome),
       ("protocol_version", version.isSome)])

/-- What is said when there are no settings. -/
def SettingsFault.message : SettingsFault → Text
  | .notText cause => cause.message
  | .invalid names => "invalid settings: " ++ Text.join ", " names

namespace Host

/-- The name of the environment file. -/
def environmentFileName : Text := ".env"

/-- The text of the environment file, or an empty one if there is no such file. -/
def environmentText (host : Host) : Except SettingsFault Text :=
  match host.lookup (Path.ofText environmentFileName) with
  | .found _ (.file bytes) =>
    match decodeUtf8 bytes with
    | .ok text => .ok (Text.normalizeNewlines text)
    | .error cause => .error (.notText cause)
  | _ => .ok []

/-- **The settings** for what is given directly and the variables of the environment. The
workspace is the working directory unless another one is set. -/
def loadSettings (host : Host) (given : Json.Members) (environment : List (Text × Text)) :
    Except SettingsFault Settings := do
  let environment := environment.map fun (name, value) => (name, some value)
  let file := EnvironmentFile.assignments environment.reverse (← host.environmentText)
  (Settings.ofValues { workspaceRoot := .ofLocation host.workingDirectory }
    ⟨given, environment, file⟩).mapError .invalid

end Host

end SectionIndex
