import ReverseProxy.Text.Literal
import ReverseProxy.Text.Similarity
import ReverseProxy.Text.Split

/-!
# Arguments

An argument is a word or holds options: one by its long name, with a value after an equals sign, or
several by a letter each. An option that takes a value has the rest of its argument or the next one
for it. Two hyphens end the options.
-/

namespace ReverseProxy.CommandLine

inductive UsageProblem where
  | unknownOption (name : String) (similar : List String)
  | unknownCommand (name : String) (similar : List String)
  | missingValue (option : String)
  | unexpectedValue (option : String)
  | missingWord (placeholder : String)
  | extraWords (words : List String)
  deriving DecidableEq, Repr

def guess (similar : List String) : String :=
  match similar with
  | [] => ""
  | [name] => s!" Did you mean {Text.literal name}?"
  | names => " (Did you mean one of: " ++ ", ".intercalate (names.map Text.literal) ++ "?)"

namespace UsageProblem

def message : UsageProblem → String
  | .unknownOption name similar => s!"No such option {Text.literal name}." ++ guess similar
  | .unknownCommand name similar => s!"No such command {Text.literal name}." ++ guess similar
  | .missingValue option => s!"Option {Text.literal option} requires an argument."
  | .unexpectedValue option => s!"Option {Text.literal option} does not take a value."
  | .missingWord placeholder => s!"Missing argument {Text.literal placeholder}."
  | .extraWords words =>
      let noun := if words.length = 1 then "argument" else "arguments"
      s!"Got unexpected extra {noun} (" ++ " ".intercalate words ++ ")"

def isAboutUsage : UsageProblem → Bool
  | .missingValue _ | .unexpectedValue _ => false
  | _ => true

end UsageProblem

inductive Effect (α : Type) where
  | plain (meaning : α)
  | valued (placeholder : String) (meaning : String → α)

/-- A kind of option. -/
structure Switch (α : Type) where
  letter : Option Char
  name : String
  effect : Effect α
  help : String

variable {α : Type}

def Switch.longName (switch : Switch α) : String := "--" ++ switch.name

/-- An argument on its own. -/
inductive Token (α : Type) where
  | word
  | endOfOptions
  | options (meanings : List α)
  /-- The value of the last option is the next argument. -/
  | awaiting (meanings : List α) (option : String) (meaning : String → α)
  | wrong (problem : UsageProblem)

def Token.cons (meaning : α) : Token α → Token α
  | .options meanings => .options (meaning :: meanings)
  | .awaiting meanings option last => .awaiting (meaning :: meanings) option last
  | token => token

def letterToken (switches : List (Switch α)) : List Char → Token α
  | [] => .options []
  | c :: rest =>
      let name := String.ofList ['-', c]
      match switches.find? fun switch => switch.letter = some c with
      | none => .wrong (.unknownOption name [])
      | some switch =>
          match switch.effect with
          | .plain meaning => (letterToken switches rest).cons meaning
          | .valued _ meaning =>
              if rest = [] then .awaiting [] name meaning
              else .options [meaning (String.ofList rest)]

def longToken (switches : List (Switch α)) (name : String) (value : Option String) : Token α :=
  match switches.find? fun switch => switch.longName = name with
  | none => .wrong (.unknownOption name (Text.closest name (switches.map Switch.longName)))
  | some switch =>
      match switch.effect, value with
      | .plain meaning, none => .options [meaning]
      | .plain _, some _ => .wrong (.unexpectedValue name)
      | .valued _ meaning, none => .awaiting [] name meaning
      | .valued _ meaning, some value => .options [meaning value]

def Token.ofArgument (switches : List (Switch α)) (argument : String) : Token α :=
  match argument.toList with
  | ['-', '-'] => .endOfOptions
  | '-' :: '-' :: _ =>
      match Text.splitFirst? '=' argument.toList with
      | some (name, value) => longToken switches (String.ofList name) (some (String.ofList value))
      | none => longToken switches argument none
  | '-' :: c :: letters => letterToken switches (c :: letters)
  | _ => .word

structure Parsed (α : Type) where
  options : List α
  words : List String

def Parsed.addOptions (meanings : List α) (parsed : Parsed α) : Parsed α :=
  { parsed with options := meanings ++ parsed.options }

def Parsed.addWord (word : String) (parsed : Parsed α) : Parsed α :=
  { parsed with words := word :: parsed.words }

/-- Options may follow words only if they are mixed; otherwise the first word ends the options. -/
def readArguments (switches : List (Switch α)) (mixed : Bool) :
    List String → Except UsageProblem (Parsed α)
  | [] => .ok ⟨[], []⟩
  | argument :: rest =>
      match Token.ofArgument switches argument with
      | .word =>
          if mixed then (readArguments switches mixed rest).map (Parsed.addWord argument)
          else .ok ⟨[], argument :: rest⟩
      | .endOfOptions => .ok ⟨[], rest⟩
      | .options meanings => (readArguments switches mixed rest).map (Parsed.addOptions meanings)
      | .awaiting meanings option meaning =>
          match rest with
          | [] => .error (.missingValue option)
          | value :: rest =>
              (readArguments switches mixed rest).map
                (Parsed.addOptions (meanings ++ [meaning value]))
      | .wrong problem => .error problem

end ReverseProxy.CommandLine
