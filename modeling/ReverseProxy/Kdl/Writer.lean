import ReverseProxy.Kdl.Quoted

/-!
# Lines of a document

Configuration is written line by line. The lines of a block stand between a head with an opening
brace and a closing brace, one level further in.
-/

namespace ReverseProxy.Kdl

def indentation : String := "    "

inductive PropertyValue where
  | text (content : String)
  | flag (value : Bool)
  deriving DecidableEq, Repr

def PropertyValue.write : PropertyValue → String
  | .text content => quote content
  | .flag value => if value then "#true" else "#false"

def writeProperty (key : String) (value : PropertyValue) : String :=
  " " ++ writeName key ++ "=" ++ value.write

/-- Properties in order; an absent value leaves out its key. -/
def writeProperties (properties : List (String × Option PropertyValue)) : String :=
  String.join (properties.map fun (key, value) =>
    match value with
    | none => ""
    | some value => writeProperty key value)

def writeTexts (texts : List (String × String)) : String :=
  writeProperties (texts.map fun (key, text) => (key, some (.text text)))

def writeBlock (head : String) (lines : List String) : List String :=
  (head ++ " \x7b") :: (lines.map (indentation ++ ·) ++ ["\x7d"])

def joinLines (lines : List String) : String := "\n".intercalate lines ++ "\n"

end ReverseProxy.Kdl
