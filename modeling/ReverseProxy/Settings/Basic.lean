import ReverseProxy.Loading
import ReverseProxy.Settings.Layers
import ReverseProxy.Toml.Reader
import ReverseProxy.Validation

/-!
# Settings

What governs a run: how results are shown, what is logged, and how documents are found. Values given
by the caller come first, then those of the environment, then those of the settings file; what none
of them gives has a default.
-/

namespace ReverseProxy

open Files

structure Settings where
  configPath : Option Path
  json : Bool
  quiet : Bool
  verbose : Bool
  logJson : Bool
  source : SourceOptions
  deriving DecidableEq

namespace Settings

inductive Problem where
  | badToml (path : Path)
  | undecodable (problem : DecodeProblem)
  | digits (limit : Decimal.DigitLimit)
  | badRecord (field : String)
  | invalid (faults : List Fault)
  deriving DecidableEq

def Problem.message : Problem → String
  | .badToml path => s!"Invalid TOML in {path.text}"
  | .undecodable problem => problem.message
  | .digits limit => limit.message
  | .badRecord field =>
      s!"error parsing value for field \"{field}\" from source \"EnvSettingsSource\""
  | .invalid faults => "Invalid settings: " ++ "; ".intercalate (faults.map Fault.message)

def fileFields (files : FileSystem) (path : Path) : Except Problem Fields :=
  match Encoding.utf8.text ((files.content? path).getD []) with
  | .error problem => .error (.undecodable problem)
  | .ok text =>
      match Toml.parse text with
      | .ok fields => .ok fields
      | .error .malformed => .error (.badToml path)
      | .error (.digits limit) => .error (.digits limit)

def flagNames : List String := ["json_output", "quiet", "verbose", "log_json"]

def sourceFieldNames : List String := ["extension", "recursive", "encoding"]

def environmentFields (environment : Environment) : Except Problem Fields :=
  match recordField? "source" sourceFieldNames environment with
  | none => .error (.badRecord "source")
  | some record =>
      let flags := textFields ("config_path" :: flagNames) environment
      .ok (flags ++ record.toList.map fun value => ("source", value))

def validateSource : Json → Validated SourceOptions :=
  .record "SourceConfig" fun fields =>
    SourceOptions.mk <$> .optional fields "extension" ".kdl" .string
      <*> .optional fields "recursive" false .boolean
      <*> .optional fields "encoding" "utf-8" .string

def checkExtra (fields : Fields) : Validated Unit :=
  let known := "config_path" :: "source" :: flagNames
  match fields.filter fun field => !known.contains field.1 with
  | [] => .valid ()
  | extra => .faulty (extra.map fun field => ⟨[.field field.1], .extra⟩)

def validate (fields : Fields) : Validated Settings :=
  (fun settings _ => settings) <$>
    (Settings.mk <$> .optional fields "config_path" none (.nullable .path)
      <*> .optional fields "json_output" false .boolean
      <*> .optional fields "quiet" false .boolean
      <*> .optional fields "verbose" false .boolean
      <*> .optional fields "log_json" false .boolean
      <*> .optional fields "source" .default validateSource) <*> checkExtra fields

/-- The settings for values given by the caller. The settings file is read before the environment is
looked at. -/
def load (files : FileSystem) (environment : Environment) (path : Option Path) (given : Fields) :
    Except Problem Settings := do
  let file ← match path with
    | some path => fileFields files path
    | none => pure []
  let environment ← environmentFields environment
  let pathField : String × Json :=
    ("config_path", .ofOption (fun path => .string (Path.text path)) path)
  match validate (overlay file (overlay environment (pathField :: given))) with
  | .valid settings => return settings
  | .faulty faults => .error (.invalid faults)

def toJson (settings : Settings) : Json :=
  .object
    [("config_path", .ofOption (fun path => .string (Path.text path)) settings.configPath),
      ("json_output", .boolean settings.json), ("quiet", .boolean settings.quiet),
      ("verbose", .boolean settings.verbose), ("log_json", .boolean settings.logJson),
      ("source", .object
        [("extension", .string settings.source.extension),
          ("recursive", .boolean settings.source.recursive),
          ("encoding", .string settings.source.encoding)])]

end Settings

end ReverseProxy
