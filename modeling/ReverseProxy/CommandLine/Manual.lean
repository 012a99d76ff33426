import ReverseProxy.CommandLine.Arguments

/-!
# Manuals

What a command says about itself: how it is called, what it does, which options and commands it has,
and examples of its use.
-/

namespace ReverseProxy.CommandLine

structure Manual (α : Type) where
  /-- The words that call the command. -/
  path : String
  arguments : String
  summary : String
  switches : List (Switch α)
  /-- The commands below this one with their summaries. -/
  commands : List (String × String)
  examples : List String

def padRight (width : Nat) (text : String) : String :=
  text ++ String.ofList (List.replicate (width - text.length) ' ')

def Switch.heading {α : Type} (switch : Switch α) : String :=
  let letter := match switch.letter with
    | some c => String.ofList ['-', c] ++ ", "
    | none => ""
  let placeholder := match switch.effect with
    | .plain _ => ""
    | .valued placeholder _ => " " ++ placeholder
  letter ++ switch.longName ++ placeholder

/-- A titled list whose second column starts two places after the longest text of the first. -/
def writeColumns (title : String) (rows : List (String × String)) : String :=
  if rows.isEmpty then ""
  else
    let width := (rows.map fun row => row.1.length).foldl max 0
    let lines := rows.map fun (heading, text) =>
      "  " ++ padRight (width + 2) heading ++ text ++ "\n"
    "\n" ++ title ++ ":\n" ++ String.join lines

namespace Manual

variable {α : Type} (manual : Manual α)

def usage : String := s!"Usage: {manual.path} {manual.arguments}\n"

def text : String :=
  manual.usage ++ "\n  " ++ manual.summary ++ "\n" ++
    writeColumns "Options" (manual.switches.map fun switch => (switch.heading, switch.help)) ++
    writeColumns "Commands" manual.commands

def exampleText : String :=
  s!"Examples for '{manual.path}':\n\n" ++
    String.join (manual.examples.map fun line => "  " ++ line ++ "\n")

def hint : String := s!"Try '{manual.path} --help' for help.\n"

def complaint (problem : UsageProblem) : String :=
  (if problem.isAboutUsage then manual.usage ++ manual.hint ++ "\n" else "") ++
    s!"Error: {problem.message}\n"

end Manual

end ReverseProxy.CommandLine
