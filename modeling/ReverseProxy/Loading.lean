import ReverseProxy.Config.Bundle
import ReverseProxy.Files.Search
import ReverseProxy.Kdl.Reader

/-!
# Loading documents

A path stands for one file, or for the files of a directory whose names match a star and the
extension, in the order of their names. All documents are read, at the same time, before the first
is checked. Most failures are reported to the user; a few are not foreseen by any report and end the
program.
-/

namespace ReverseProxy

open Decimal Files Kdl

/-- Why a path gives no documents. -/
inductive SourceProblem where
  | notFound (path : Path)
  | noFiles (pattern : String) (path : Path)
  | unreadable (path : Path) (reason : String)
  deriving DecidableEq

def SourceProblem.message : SourceProblem → String
  | .notFound path => s!"Config path not found: {path.text}"
  | .noFiles pattern path => s!"No '{pattern}' files in {path.text}"
  | .unreadable path reason => s!"Cannot read {path.text}: {reason}"

/-- A failure that no report is made of. -/
inductive Abort where
  | digits (limit : DigitLimit)
  | unknownEncoding (name : String)
  | brokenDecoding (message : String)
  | badPattern
  | system (refusal : Refusal)
  deriving DecidableEq, Repr

def Abort.message : Abort → String
  | .digits limit => limit.message
  | .unknownEncoding name => s!"unknown encoding: {name}"
  | .brokenDecoding message => message
  | .badPattern => "Invalid pattern: '**' can only be an entire path component"
  | .system refusal => refusal.message

inductive LoadFailure where
  | diagnostic (diagnostic : Diagnostic)
  | source (problem : SourceProblem)
  | abort (abort : Abort)
  deriving DecidableEq

abbrev Loading := Logged LoadFailure

def Kdl.ReadProblem.diagnostic (problem : ReadProblem) (span : Span)
    (source : Source) : Diagnostic :=
  ⟨.malformed, problem.message, span, source⟩

def Schema.Problem.diagnostic (problem : Schema.Problem) (span : Span) (source : Source) :
    Diagnostic :=
  ⟨problem.kind, problem.message, span, source⟩

def LoadFailure.of {Problem : Type} (diagnostic : Problem → Span → Source → Diagnostic)
    (source : Source) : Failure Problem → LoadFailure
  | .located problem span => .diagnostic (diagnostic problem span source)
  | .digits limit => .abort (.digits limit)

namespace Source

def read (source : Source) : Except LoadFailure Document :=
  (readDocument source.text.toList).mapError (LoadFailure.of Kdl.ReadProblem.diagnostic source)

def load (source : Source) : Loading Document := do
  let document ← liftM source.read
  Logged.note (.readNodes document.nodes.length source.name)
  return document

def report {α : Type} (source : Source) (check : Schema.Check α) : Loading α :=
  ⟨check.log, check.result.mapError (LoadFailure.of Schema.Problem.diagnostic source)⟩

end Source

/-- How files are found and read. -/
structure SourceOptions where
  extension : String
  recursive : Bool
  encoding : String
  deriving DecidableEq

def SourceOptions.default : SourceOptions := ⟨".kdl", false, "utf-8"⟩

def pathLe (left right : Path) : Bool := !(decide (right.sortKey < left.sortKey))

/-- A question that is not answered ends the loading. -/
def answered {α : Type} (asked : Except Refusal α) : Except LoadFailure α :=
  asked.mapError fun refusal => .abort (.system refusal)

namespace Files.Host

variable (host : Host)

def filesIn (options : SourceOptions) (directory : Path) : Except LoadFailure (List Path) := do
  let pattern := "*" ++ options.extension
  match selectors? pattern.toList with
  | none => .error (.abort .badPattern)
  | some selectors =>
      let selectors := if options.recursive then .anyDepth :: selectors else selectors
      match ← answered (host.filesAmong (host.select selectors directory)) with
      | [] => .error (.source (.noFiles pattern directory))
      | found => .ok (found.mergeSort pathLe)

def filesAt (options : SourceOptions) (path : Path) : Except LoadFailure (List Path) := do
  if ← answered (host.ask .isFile path (host.isFile path)) then return [path]
  else if ← answered (host.ask .isDirectory path (host.isDirectory path)) then
    host.filesIn options path
  else .error (.source (.notFound path))

/-- What could not be read or decoded is reported, but not that there is no such decoding. -/
def source (encoding : String) (path : Path) : Except LoadFailure Source :=
  match host.ask .content path ((host.content? path).getD []) with
  | .error refusal => .error (.source (.unreadable path refusal.message))
  | .ok bytes =>
      match host.codecs.decode encoding bytes with
      | .ok text => .ok ⟨path.text, String.ofList (normalizeLines text)⟩
      | .error (.undecodable message) => .error (.source (.unreadable path message))
      | .error .unknownEncoding => .error (.abort (.unknownEncoding encoding))
      | .error (.broken message) => .error (.abort (.brokenDecoding message))

def loadFile (encoding : String) (path : Path) : Loading (Source × Document) := do
  let source ← liftM (host.source encoding path)
  Logged.note (.readFile source.name source.text.length)
  return (source, ← source.load)

def collect (options : SourceOptions) (path : Path) : Loading (List (Source × Document)) := do
  let found ← liftM (host.filesAt options path)
  Logged.gather (host.finished found) found (host.loadFile options.encoding)

end Files.Host

namespace Files.FileSystem

def filesAt (files : FileSystem) (options : SourceOptions) (path : Path) :
    Except LoadFailure (List Path) := files.host.filesAt options path

def collect (files : FileSystem) (options : SourceOptions) (path : Path) :
    Loading (List (Source × Document)) := files.host.collect options path

end Files.FileSystem

def loadSources (sources : List Source) : Loading (List (Source × Document)) :=
  sources.mapM fun source => do return (source, ← source.load)

def loadBundles (path : Path) (documents : Loading (List (Source × Document))) :
    Loading (List Config.Bundle) := do
  let bundles ← (← documents).mapM fun (source, document) =>
    source.report (Config.Bundle.ofDocument source.name document)
  Logged.note (.loaded bundles.length path.text)
  return bundles

end ReverseProxy
