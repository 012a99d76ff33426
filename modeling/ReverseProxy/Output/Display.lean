import ReverseProxy.Decimal.Integer
import ReverseProxy.Decimal.Layout
import ReverseProxy.Json.Value
import ReverseProxy.Text.Literal

/-!
# Data shown to people

A datum is shown as a literal; a string that stands alone is shown as it is.
-/

namespace ReverseProxy.Output

mutual

def literal : Json → String
  | .null => "None"
  | .boolean value => if value then "True" else "False"
  | .integer value => Decimal.text value
  | .float value => Decimal.Layout.standard.write value
  | .string text | .moment text => Text.literal text
  | .array items => "[" ++ ", ".intercalate (literals items) ++ "]"
  | .object fields => "\x7b" ++ ", ".intercalate (fieldLiterals fields) ++ "\x7d"

def literals : List Json → List String
  | [] => []
  | item :: items => literal item :: literals items

def fieldLiterals : List (String × Json) → List String
  | [] => []
  | (key, value) :: fields => (Text.literal key ++ ": " ++ literal value) :: fieldLiterals fields

end

def display : Json → String
  | .string text => text
  | value => literal value

end ReverseProxy.Output
