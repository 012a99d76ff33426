import ReverseProxy.Json.Value
import ReverseProxy.Names.Fqdn
import ReverseProxy.Names.SocketAddress
import ReverseProxy.Path

/-!
# Validation of plain data

Plain data becomes a typed value or a list of faults, each with the place of the datum that is at
fault. Unlike a document, data is validated to the end: the faults of all fields are reported, in
the order of the fields.
-/

namespace ReverseProxy

inductive Step where
  | field (name : String)
  | index (position : Nat)
  deriving DecidableEq, Repr

inductive FaultKind where
  | missing
  | string
  | choice (names : List String)
  | refused (reason : String)
  | extra
  | booleanText
  | boolean
  | table (type : String)
  | list
  | dictionary
  | path
  deriving DecidableEq, Repr

namespace FaultKind

def code : FaultKind → String
  | .missing => "missing"
  | .string => "string_type"
  | .choice _ => "enum"
  | .refused _ => "value_error"
  | .extra => "extra_forbidden"
  | .booleanText => "bool_parsing"
  | .boolean => "bool_type"
  | .table _ => "model_type"
  | .list => "list_type"
  | .dictionary => "dict_type"
  | .path => "path_type"

def alternatives : List String → String
  | [] => ""
  | [name] => s!"'{name}'"
  | [name, last] => s!"'{name}' or '{last}'"
  | name :: names => s!"'{name}', " ++ alternatives names

def message : FaultKind → String
  | .missing => "Field required"
  | .string => "Input should be a valid string"
  | .choice names => "Input should be " ++ alternatives names
  | .refused reason => "Value error, " ++ reason
  | .extra => "Extra inputs are not permitted"
  | .booleanText => "Input should be a valid boolean, unable to interpret input"
  | .boolean => "Input should be a valid boolean"
  | .table type => "Input should be a valid dictionary or instance of " ++ type
  | .list => "Input should be a valid list"
  | .dictionary => "Input should be a valid dictionary"
  | .path => "Input is not a valid path for <class 'pathlib.Path'>"

end FaultKind

structure Fault where
  location : List Step
  kind : FaultKind
  deriving DecidableEq, Repr

def Step.text : Step → String
  | .field name => name
  | .index position => toString position

def Fault.message (fault : Fault) : String :=
  ".".intercalate (fault.location.map Step.text) ++ ": " ++ fault.kind.message

inductive Validated (α : Type) where
  | valid (value : α)
  | faulty (faults : List Fault)
  deriving DecidableEq, Repr

namespace Validated

variable {α β : Type}

def fault (kind : FaultKind) : Validated α := .faulty [⟨[], kind⟩]

def map (f : α → β) : Validated α → Validated β
  | .valid value => .valid (f value)
  | .faulty faults => .faulty faults

/-- The faults of both sides come together. -/
def apply : Validated (α → β) → Validated α → Validated β
  | .valid f, .valid value => .valid (f value)
  | .valid _, .faulty faults => .faulty faults
  | .faulty faults, .valid _ => .faulty faults
  | .faulty before, .faulty after => .faulty (before ++ after)

instance : Applicative Validated where
  pure := .valid
  map := map
  seq f value := apply f (value ())

def under (step : Step) : Validated α → Validated α
  | .valid value => .valid value
  | .faulty faults =>
    .faulty (faults.map fun fault => { fault with location := step :: fault.location })

def items (validate : Json → Validated α) : (position : Nat) → List Json → Validated (List α)
  | _, [] => .valid []
  | position, item :: rest =>
      List.cons <$> under (.index position) (validate item) <*> items validate (position + 1) rest

def values (validate : Json → Validated α) : List (String × Json) → Validated (List (String × α))
  | [] => .valid []
  | (key, value) :: rest =>
      List.cons <$> map (key, ·) (under (.field key) (validate value)) <*> values validate rest

def string : Json → Validated String
  | .string text => .valid text
  | _ => fault .string

def booleanWords : List (String × Bool) :=
  [("0", false), ("off", false), ("f", false), ("false", false), ("n", false), ("no", false),
    ("1", true), ("on", true), ("t", true), ("true", true), ("y", true), ("yes", true)]

def ofWord (word : Option Bool) : Validated Bool :=
  match word with
  | some value => .valid value
  | none => fault .booleanText

/-- Two to the power of 63. -/
def wordBound : Int := 9223372036854775808

/-- A number counts if it is zero or one; beyond 64 bits, from `least` on, it is no number that
could have counted. -/
def ofNumber (least value : Int) : Validated Bool :=
  if value = 0 then .valid false
  else if value = 1 then .valid true
  else if least ≤ value ∧ value < wordBound then fault .booleanText
  else fault .boolean

def boolean : Json → Validated Bool
  | .boolean value => .valid value
  | .string text => ofWord (booleanWords.lookup (text.map Char.toLower))
  | .integer value => ofNumber (-wordBound) value
  | .float value =>
    if value.isIntegral then ofNumber (1 - wordBound) value.toInt else fault .boolean
  | _ => fault .boolean

def path : Json → Validated Path
  | .string text => .valid (Path.parse text)
  | _ => fault .path

def ofExcept {ε : Type} (message : ε → String) : Except ε α → Validated α
  | .ok value => .valid value
  | .error problem => fault (.refused (message problem))

def fqdn : Json → Validated Fqdn
  | .string text => ofExcept FqdnProblem.message (Fqdn.parse text)
  | _ => fault .string

def socketAddress : Json → Validated SocketAddress
  | .string text => ofExcept SocketProblem.message (SocketAddress.parse text)
  | _ => fault .string

def choice (names : List String) (ofName? : String → Option α) : Json → Validated α
  | .string text =>
      match ofName? text with
      | some value => .valid value
      | none => fault (.choice names)
  | _ => fault (.choice names)

def nullable (validate : Json → Validated α) : Json → Validated (Option α)
  | .null => .valid none
  | value => some <$> validate value

def list (validate : Json → Validated α) : Json → Validated (List α)
  | .array values => items validate 0 values
  | _ => fault .list

def dictionary (validate : Json → Validated α) : Json → Validated (Dictionary α)
  | .object fields => map Dictionary.ofList (values validate fields)
  | _ => fault .dictionary

def table : Json → Validated (List (String × Json))
  | .object fields => .valid fields
  | _ => fault .dictionary

def required (fields : List (String × Json)) (name : String) (validate : Json → Validated α) :
    Validated α :=
  under (.field name) <|
    match fields.lookup name with
    | some value => validate value
    | none => fault .missing

def optional (fields : List (String × Json)) (name : String) (default : α)
    (validate : Json → Validated α) : Validated α :=
  match fields.lookup name with
  | some value => under (.field name) (validate value)
  | none => .valid default

def record (type : String) (validate : List (String × Json) → Validated α) : Json → Validated α
  | .object fields => validate fields
  | _ => fault (.table type)

end Validated

end ReverseProxy
