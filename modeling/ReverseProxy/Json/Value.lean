import ReverseProxy.Decimal.Binary64
import ReverseProxy.Dictionary

/-!
# Plain data

Values as JSON has them, with integers apart from floats and the fields of an object in their order.
-/

namespace ReverseProxy

open Decimal (Binary64)

inductive Json where
  | null
  | boolean (value : Bool)
  | integer (value : Int)
  | float (value : Binary64)
  | string (text : String)
  /-- A date or a time of day, which only TOML knows. -/
  | moment (text : String)
  | array (items : List Json)
  | object (fields : List (String × Json))
  deriving Inhabited

namespace Json

inductive Kind where
  | null
  | boolean
  | integer
  | float
  | string
  | array
  | object
  deriving DecidableEq, Repr

def kind : Json → Kind
  | .null => .null
  | .boolean _ => .boolean
  | .integer _ => .integer
  | .float _ => .float
  | .string _ | .moment _ => .string
  | .array _ => .array
  | .object _ => .object

def ofOption {α : Type} (write : α → Json) : Option α → Json
  | none => .null
  | some value => write value

def ofList {α : Type} (write : α → Json) (values : List α) : Json := .array (values.map write)

def ofDictionary {α : Type} (write : α → Json) (dictionary : Dictionary α) : Json :=
  .object (dictionary.entries.map fun (key, value) => (key, write value))

def ofNat (value : Nat) : Json := .integer value

/-- An object of fields that may repeat a key; the last one counts. -/
def ofFields (fields : List (String × Json)) : Json := .object (Dictionary.ofList fields).entries

def field? (key : String) : Json → Option Json
  | .object fields => fields.lookup key
  | _ => none

def string? : Json → Option String
  | .string text => some text
  | _ => none

def bool? : Json → Option Bool
  | .boolean value => some value
  | _ => none

def array? : Json → Option (List Json)
  | .array items => some items
  | _ => none

def integer? : Json → Option Int
  | .integer value => some value
  | _ => none

end Json

end ReverseProxy
