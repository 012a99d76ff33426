import ReverseProxy.Json.Printer
import ReverseProxy.Output.Nested
import ReverseProxy.Service.Result
import ReverseProxy.Text.ControlSequence

/-!
# Reports

A result is shown as JSON, in a single line, or at length. At length, each operation has a form of
its own and any other one lists its data; an error is followed by the lines that point to it. The
forms of the operations expect the data that the operations give and refuse other data.
-/

namespace ReverseProxy

/-- How results are shown; JSON comes before a single line, and that before the long form. -/
structure OutputMode where
  json : Bool
  quiet : Bool
  verbose : Bool
  deriving DecidableEq, Repr

def OutputMode.plain : OutputMode := ⟨false, false, false⟩

structure Emission where
  exitCode : UInt8
  output : String
  errors : String
  deriving DecidableEq, Repr

inductive ReportProblem where
  /-- Data of this kind has no members. -/
  | noMembers (kind : Json.Kind)
  /-- What should be a sequence of texts has no members. -/
  | noTexts
  /-- A member that should be a text is of another kind. -/
  | notText (position : Nat) (kind : Json.Kind)
  /-- Data of this kind cannot be counted. -/
  | noSize (kind : Json.Kind)
  /-- Data of this kind has no fields. -/
  | noFields (kind : Json.Kind)
  deriving DecidableEq, Repr

open Output

def Json.Kind.name : Json.Kind → String
  | .null => "NoneType"
  | .boolean => "bool"
  | .integer => "int"
  | .float => "float"
  | .string => "str"
  | .array => "list"
  | .object => "dict"

def ReportProblem.message : ReportProblem → String
  | .noMembers kind => s!"'{kind.name}' object is not iterable"
  | .noTexts => "can only join an iterable"
  | .notText position kind => s!"sequence item {position}: expected str instance, {kind.name} found"
  | .noSize kind => s!"object of type '{kind.name}' has no len()"
  | .noFields kind => s!"'{kind.name}' object has no attribute 'items'"

namespace Output

def members? : Json → Option (List Json)
  | .array items => some items
  | .string text | .moment text => some (text.toList.map fun c => .string c.toString)
  | .object fields => some (fields.map fun field => .string field.1)
  | _ => none

def isVoid : Json → Bool
  | .null => true
  | .boolean value => !value
  | .integer value => value = 0
  | .float value => value.isZero
  | .string text | .moment text => text.isEmpty
  | .array items => items.isEmpty
  | .object fields => fields.isEmpty

def texts (position : Nat) : List Json → Except ReportProblem (List String)
  | [] => .ok []
  | .string text :: members => (text :: ·) <$> texts (position + 1) members
  | member :: _ => .error (.notText position member.kind)

end Output

namespace Result

variable (result : Result)

def errorMessage : String := (result.error.map ResultError.message).getD "Unknown error"

def brief : String :=
  if result.ok then s!"OK: {result.operation}"
  else s!"ERROR: {result.operation} — {result.errorMessage}"

def statusLine : Printed := line s!"OK   {result.operation}"

def fieldLine (key value : String) : Printed := line s!"  {key}: {value}"

def datum (key : String) (default : Json) : Json := (result.data.lookup key).getD default

def counterNames : List String := ["listeners", "upstreams", "chains", "key_profiles"]

def fileLines : Except ReportProblem (List Printed) :=
  let files := result.datum "files" (.array [])
  match members? files with
  | some files => .ok (files.map fun file => line ("  " ++ display file))
  | none => .error (.noMembers files.kind)

def serviceLines : Except ReportProblem (List Printed) :=
  let services := result.datum "services" (.array [])
  if isVoid services then .ok []
  else
    match members? services with
    | some services => do return [line ("  services: " ++ ", ".intercalate (← texts 0 services))]
    | none => .error .noTexts

def checkReport : Except ReportProblem (List Printed) := do
  let counters :=
    counterNames.map fun key => fieldLine key (display (result.datum key (.integer 0)))
  return result.statusLine :: (← result.fileLines) ++ (← result.serviceLines) ++ counters

/-- A document as it is; other data in its place ends its own line if it is nested. -/
def documentText : Json → Printed
  | .array items => verbatim (nested (.array items))
  | .object fields => verbatim (nested (.object fields))
  | value => ⟨display value, false, ""⟩

def formatReport : Except ReportProblem (List Printed) :=
  match result.datum "documents" (.object []) with
  | .object documents =>
      .ok <| documents.flatMap fun (name, text) =>
        let label := if 1 < documents.length then [line ("// " ++ name)] else []
        label ++ [documentText text]
  | data => .error (if (members? data).isSome then .noFields data.kind else .noSize data.kind)

def dumpReport : List Printed :=
  [verbatim (Json.Style.asciiLines.write (result.datum "bundles" (.array [])))]

def genericReport : List Printed :=
  result.statusLine :: result.data.map fun (key, value) =>
    match value with
    | .array _ | .object _ => fieldLine key (Json.Style.compact.write value)
    | _ => fieldLine key (display value)

/-- The part of a help text that follows its first line. -/
def pointerOf (help : String) : List Printed :=
  match Text.splitFirst? '\n' help.toList with
  | some (_, pointer) => [verbatim (String.ofList pointer)]
  | none => []

def detailReport (detail : List (String × Json)) : List Printed :=
  if detail.isEmpty then []
  else
    line "  detail:" ::
      (detail.filter fun field => field.1 ≠ "help").map fun (key, value) =>
        line s!"    {key}: {display value}"

def errorReport (verbose : Bool) : List Printed :=
  match result.error with
  | none => [line s!"ERROR  {result.operation} — {result.errorMessage}"]
  | some error =>
      let header := line s!"ERROR  {result.operation} [{error.code}] — {error.message}"
      let pointer := match error.detail.lookup "help" with
        | some help => pointerOf (display help)
        | none => []
      header :: pointer ++ if verbose then detailReport error.detail else []

def reported (verbose : Bool) : Except ReportProblem (List Printed) :=
  if !result.ok then .ok (result.errorReport verbose)
  else
    match result.operation with
    | "check" => result.checkReport
    | "fmt" => result.formatReport
    | "show" => .ok result.dumpReport
    | _ => .ok result.genericReport

def report (verbose : Bool) : Except ReportProblem String :=
  Output.print <$> result.reported verbose

def render (mode : OutputMode) : Except ReportProblem String :=
  if mode.json then .ok (Json.Style.result.write result.toJson)
  else if mode.quiet then .ok result.brief
  else result.report mode.verbose

/-- A failure goes to the error output, and so do warnings unless the output is for programs. What
is written has no control sequences. -/
def emit (mode : OutputMode) : Except ReportProblem Emission := do
  let text := Text.plainText ((← result.render mode) ++ "\n")
  if result.ok then
    let warnings :=
      if mode.json then [] else result.warnings.map fun warning => s!"WARNING: {warning}\n"
    return ⟨0, text, Text.plainText (String.join warnings)⟩
  else return ⟨1, "", text⟩

end Result

end ReverseProxy
