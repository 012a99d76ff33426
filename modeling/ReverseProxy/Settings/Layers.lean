import ReverseProxy.Json.Reader
import ReverseProxy.Settings.Discovery

/-!
# Layers of settings

Settings come from several layers of plain data that are laid over each other. A layer on top takes
the place of what is below it, field by field where both have fields. Variables of the environment
are one layer: a variable is a field, in any case, and a double underscore leads to a field of a
field.
-/

namespace ReverseProxy.Settings

abbrev Fields := List (String × Json)

def setField (fields : Fields) (key : String) (value : Json) : Fields :=
  if (fields.lookup key).isSome then
    fields.map fun field => if field.1 = key then (key, value) else field
  else fields ++ [(key, value)]

mutual

def overlay (below : Fields) : Fields → Fields
  | [] => below
  | (key, value) :: above =>
      overlay (setField below key (overlayValue ((below.lookup key).getD .null) value)) above

/-- A value over another one; only objects are merged. -/
def overlayValue (below : Json) : Json → Json
  | .object above =>
      match below with
      | .object below => .object (overlay below above)
      | _ => .object above
  | above => above

end

def lowerCase (text : String) : String := text.map Char.toLower

def Environment.lowered (environment : Environment) : Environment :=
  environment.map fun (name, value) => (lowerCase name, value)

def variablePrefixed (field : String) : String := "proxyconf_" ++ field

def splitName : List Char → List (List Char)
  | [] => [[]]
  | [c] => [[c]]
  | c :: d :: rest =>
      if c = '_' ∧ d = '_' then [] :: splitName rest
      else
        match splitName (d :: rest) with
        | [] => [[c]]
        | part :: parts => (c :: part) :: parts

/-- Puts a text at the end of a path of fields. A path through something without fields leads
nowhere. -/
def placeText (text : String) : List String → Fields → Fields
  | [], fields => fields
  | [key], fields => setField fields key (.string text)
  | key :: path, fields =>
      match (fields.lookup key).getD (.object []) with
      | .object below => setField fields key (.object (placeText text path below))
      | _ => fields

def nestedFields (field : String) (environment : Environment) : Fields :=
  let lead := (variablePrefixed field ++ "__").toList
  environment.lowered.foldl (fun fields (name, value) =>
    if lead.isPrefixOf name.toList then
      placeText value ((splitName (name.toList.drop lead.length)).map String.ofList) fields
    else fields) []

/-- Keys that name one of the given fields in another case are that field. -/
def nameFields (known : List String) (fields : Fields) : Fields :=
  fields.foldl (fun named (key, value) =>
    setField named ((known.find? fun name => name = lowerCase key).getD key) value) []

/-- The value of a field with fields of its own: a variable that holds JSON, below the variables of
its fields. Nothing if the variable does not hold JSON. -/
def recordField? (field : String) (known : List String) (environment : Environment) :
    Option (Option Json) :=
  let nested := nestedFields field environment
  match environment.lowered.value? (variablePrefixed field) with
  | none => some (if nested.isEmpty then none else some (.object (nameFields known nested)))
  | some text =>
      match Json.parse? text with
      | none => none
      | some .null => some none
      | some (.object fields) => some (some (.object (nameFields known (overlay fields nested))))
      | some value => some (some value)

def textFields (names : List String) (environment : Environment) : Fields :=
  names.filterMap fun name =>
    (environment.lowered.value? (variablePrefixed name)).map fun text => (name, .string text)

end ReverseProxy.Settings
