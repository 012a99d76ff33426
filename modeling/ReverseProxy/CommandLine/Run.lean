import ReverseProxy.CommandLine.LogLine
import ReverseProxy.CommandLine.Tool
import ReverseProxy.Output.Report
import ReverseProxy.Settings.Basic

/-!
# Running the tool

The options of the tool are read first, then the settings are found, and only then the arguments of
the command are looked at. Everything that goes wrong is told on the error output, except for a few
failures that interrupt the run.
-/

namespace ReverseProxy.CommandLine

open Files Settings

inductive Interruption where
  | settings (problem : Settings.Problem)
  /-- No path has a null character in it. -/
  | nullInPath
  | abort (abort : Abort)
  | report (problem : ReportProblem)
  deriving DecidableEq

def Interruption.message : Interruption → String
  | .settings problem => problem.message
  | .nullInPath => "embedded null byte"
  | .abort reason => reason.message
  | .report problem => problem.message

structure Outcome where
  log : List Event
  logJson : Bool
  emission : Emission
  interruption : Option Interruption
  deriving DecidableEq

namespace Outcome

def ofEmission (emission : Emission) : Outcome := ⟨[], false, emission, none⟩

def success (text : String) : Outcome := ofEmission ⟨0, text, ""⟩

def interrupted (interruption : Interruption) : Outcome :=
  ⟨[], false, ⟨1, "", ""⟩, some interruption⟩

def errors (time : String) (outcome : Outcome) : String :=
  String.join (outcome.log.map (Event.line outcome.logJson time)) ++ outcome.emission.errors

end Outcome

def Manual.refuse {α : Type} (manual : Manual α) (problem : UsageProblem) : Outcome :=
  .ofEmission ⟨2, "", Text.plainText (manual.complaint problem)⟩

/-- What comes after the options of the tool. -/
inductive Request where
  | manual
  | command (operation : Operation) (arguments : List String)
  deriving DecidableEq

inductive Plan where
  | over (outcome : Outcome)
  | go (options : List ToolOption) (request : Request)

def requestedPage? (options : List ToolOption) : Option Page := options.findSome? ToolOption.page?

/-- Words that are no command are looked at as options before they are refused. -/
def refuseWords (name : String) (words : List String) : Outcome :=
  match readArguments tool.switches false words with
  | .error problem => tool.refuse problem
  | .ok parsed =>
      match requestedPage? parsed.options with
      | some page => .success (tool.page page)
      | none => tool.refuse (.unknownCommand name (Text.closest name (commands.map Operation.name)))

def Plan.ofArguments (arguments : List String) : Plan :=
  match readArguments tool.switches false arguments with
  | .error problem => .over (tool.refuse problem)
  | .ok parsed =>
      match requestedPage? parsed.options, parsed.words with
      | some page, _ => .over (.success (tool.page page))
      | none, [] => .go parsed.options .manual
      | none, name :: words =>
          match Operation.ofName? name with
          | some operation => .go parsed.options (.command operation words)
          | none => .over (refuseWords name (name :: words))

def settingsOf (files : FileSystem) (environment : Environment) (options : List ToolOption) :
    Except Settings.Problem Settings :=
  let path := locate files environment (givenFile? options) none
  Settings.load files environment path (givenFields options)

/-- A settings file that is not TOML is reported. No other problem with settings is foreseen. -/
def refuseSettings : Settings.Problem → Outcome
  | .badToml path =>
      let complaint := s!"Error: {(Settings.Problem.badToml path).message}\n"
      .ofEmission ⟨1, "", Text.plainText complaint⟩
  | problem => .interrupted (.settings problem)

def outputMode (settings : Settings) : OutputMode :=
  ⟨settings.json, settings.quiet, settings.verbose⟩

def commandPath (operation : Operation) (arguments : List String) : Except Outcome Path :=
  let manual := commandManual operation
  match readArguments manual.switches true arguments with
  | .error problem => .error (manual.refuse problem)
  | .ok parsed =>
      match parsed.options, parsed.words with
      | page :: _, _ => .error (.success (manual.page page))
      | [], [] => .error (manual.refuse (.missingWord "PATH"))
      | [], [path] =>
          if '\x00' ∈ path.toList then .error (.interrupted .nullInPath) else .ok (Path.parse path)
      | [], _ :: words => .error (manual.refuse (.extraWords words))

def operate (host : Host) (settings : Settings) (operation : Operation) (path : Path) : Outcome :=
  let operated := operation.run path (host.collect settings.source path)
  let log := if settings.verbose then operated.log else []
  match operated.result with
  | .ok result =>
      match result.emit (outputMode settings) with
      | .ok emission => ⟨log, settings.logJson, emission, none⟩
      | .error problem => ⟨log, settings.logJson, ⟨1, "", ""⟩, some (.report problem)⟩
  | .error abort => ⟨log, settings.logJson, ⟨1, "", ""⟩, some (.abort abort)⟩

def run (host : Host) (environment : Environment) (arguments : List String) : Outcome :=
  match Plan.ofArguments arguments with
  | .over outcome => outcome
  | .go options request =>
      match settingsOf host.toFileSystem environment options with
      | .error problem => refuseSettings problem
      | .ok settings =>
          match request with
          | .manual => .success tool.text
          | .command operation arguments =>
              match commandPath operation arguments with
              | .error outcome => outcome
              | .ok path => operate host settings operation path

/-- The files that a run may have its settings from. -/
def settingsPlaces (files : FileSystem) (environment : Environment) (arguments : List String) :
    List Path :=
  match Plan.ofArguments arguments with
  | .over _ => []
  | .go options _ => places files environment (givenFile? options)

def documentsOf (files : FileSystem) (environment : Environment) (arguments : List String) :
    Option (SourceOptions × Path) :=
  match Plan.ofArguments arguments with
  | .go options (.command operation arguments) =>
      match settingsOf files environment options, commandPath operation arguments with
      | .ok settings, .ok path => some (settings.source, path)
      | _, _ => none
  | _ => none

end ReverseProxy.CommandLine
