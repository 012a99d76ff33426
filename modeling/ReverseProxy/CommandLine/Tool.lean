import ReverseProxy.CommandLine.Manual
import ReverseProxy.Service.Operation
import ReverseProxy.Settings.Layers

/-!
# The tool and its commands

The options of the tool come before a command; each command has one path and options of its own. An
option that asks for a page shows it and nothing else happens.
-/

namespace ReverseProxy.CommandLine

open Settings

inductive Page where
  | version
  | examples
  | manual
  deriving DecidableEq, Repr

inductive ToolOption where
  | page (page : Page)
  | json
  | quiet
  | verbose
  | logJson
  | settingsFile (path : String)
  deriving DecidableEq, Repr

def ToolOption.page? : ToolOption → Option Page
  | .page wanted => some wanted
  | _ => none

def ToolOption.settingsFile? : ToolOption → Option String
  | .settingsFile path => some path
  | _ => none

def pageSwitches {α : Type} (meaning : Page → α) : List (Switch α) :=
  [⟨none, "examples", .plain (meaning .examples), "Show usage examples."⟩,
    ⟨none, "help", .plain (meaning .manual), "Show this message and exit."⟩]

def commandSummary : Operation → String
  | .check => "Validate PATH and summarise the services it defines."
  | .dump => "Print the configuration in PATH as JSON data."
  | .format => "Print each document in PATH in canonical KDL form."

def commandExamples : Operation → List String
  | .check =>
    ["proxyconf check proxy.kdl", "proxyconf check conf.d/", "proxyconf --json check conf.d/"]
  | .dump => ["proxyconf show proxy.kdl", "proxyconf --json show conf.d/"]
  | .format => ["proxyconf fmt proxy.kdl", "proxyconf fmt conf.d/ > merged.kdl"]

def commands : List Operation := [.check, .format, .dump]

def version : String := "0.1.0"

def versionText : String := s!"proxyconf, version {version}\n"

def tool : Manual ToolOption where
  path := "proxyconf"
  arguments := "[OPTIONS] [COMMAND] [ARGS]..."
  summary := "proxyconf — validate and format reverse-proxy KDL configuration."
  switches :=
    [⟨none, "version", .plain (.page .version), "Show the version and exit."⟩,
      ⟨none, "json", .plain .json, "Structured JSON output."⟩,
      ⟨some 'q', "quiet", .plain .quiet, "Minimal output."⟩,
      ⟨some 'v', "verbose", .plain .verbose, "Detailed output with debug info."⟩,
      ⟨none, "log-json", .plain .logJson, "Structured JSON log output to stderr."⟩,
      ⟨some 'c', "config", .valued "TEXT" .settingsFile, "Override settings file path."⟩] ++
    pageSwitches .page
  commands := commands.map fun operation => (operation.name, commandSummary operation)
  examples :=
    ["proxyconf check proxy.kdl", "proxyconf -v show conf.d/",
      "proxyconf -c ./proxyconf.toml fmt conf.d/"]

def commandManual (operation : Operation) : Manual Page where
  path := s!"proxyconf {operation.name}"
  arguments := "[OPTIONS] PATH"
  summary := commandSummary operation
  switches := pageSwitches id
  commands := []
  examples := commandExamples operation

def Manual.page {α : Type} (manual : Manual α) : Page → String
  | .version => versionText
  | .examples => manual.exampleText
  | .manual => manual.text

/-- The fields of settings that the options of the tool give; every flag is one of them, whether it
was given or not. -/
def givenFields (options : List ToolOption) : Fields :=
  [("json_output", .boolean (options.contains .json)),
    ("quiet", .boolean (options.contains .quiet)),
    ("verbose", .boolean (options.contains .verbose)),
    ("log_json", .boolean (options.contains .logJson))]

/-- The settings file that the options of the tool name; the last one counts. -/
def givenFile? (options : List ToolOption) : Option String :=
  (options.filterMap ToolOption.settingsFile?).getLast?

end ReverseProxy.CommandLine
