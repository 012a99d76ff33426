import ReverseProxy.Output.Console
import ReverseProxy.Output.Display

/-!
# Nested data in lines

Data that fits in the width is one line, written as a literal. Otherwise each member of an array or
an object stands on lines of its own, with a comma behind all but the last; room for a separator is
kept behind every member, the last one included.
-/

namespace ReverseProxy.Output

def indentation (depth : Nat) : String := String.ofList (List.replicate (4 * depth) ' ')

def fits (depth room : Nat) (text : String) : Bool :=
  4 * depth + Text.columns text.toList + room ≤ width

def separatorRoom : Nat := 2

mutual

def nestedLines (depth room : Nat) (lead ending : String) : Json → List String
  | .array items =>
      let whole := lead ++ literal (.array items)
      if items.isEmpty || fits depth room whole then [indentation depth ++ whole ++ ending]
      else
        (indentation depth ++ lead ++ "[") :: itemLines (depth + 1) items ++
          [indentation depth ++ "]" ++ ending]
  | .object fields =>
      let whole := lead ++ literal (.object fields)
      if fields.isEmpty || fits depth room whole then [indentation depth ++ whole ++ ending]
      else
        (indentation depth ++ lead ++ "\x7b") :: fieldLines (depth + 1) fields ++
          [indentation depth ++ "\x7d" ++ ending]
  | value => [indentation depth ++ lead ++ literal value ++ ending]

def itemLines (depth : Nat) : List Json → List String
  | [] => []
  | item :: items =>
      nestedLines depth separatorRoom "" (if items.isEmpty then "" else ",") item ++
        itemLines depth items

def fieldLines (depth : Nat) : List (String × Json) → List String
  | [] => []
  | (key, value) :: fields =>
      nestedLines depth separatorRoom (Text.literal key ++ ": ")
        (if fields.isEmpty then "" else ",")
        value ++ fieldLines depth fields

end

/-- An array or an object in lines. -/
def nested (value : Json) : String := "\n".intercalate (nestedLines 0 0 "" "" value)

end ReverseProxy.Output
