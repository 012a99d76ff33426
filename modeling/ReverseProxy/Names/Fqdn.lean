import ReverseProxy.Text.Split

/-!
# Fully qualified names

A qualified name such as `com.example.auth` is a list of labels separated by dots. A label has
letters, digits and hyphens, with no hyphen at either end, and may be followed by one line feed. A
dot at the end of the text is dropped.
-/

namespace ReverseProxy

structure Fqdn where
  text : String
  deriving DecidableEq, Repr

inductive FqdnProblem where
  | empty
  | tooLong
  | emptyLabel
  | badCharacter
  | longLabel
  | hyphen
  deriving DecidableEq, Repr

def FqdnProblem.message : FqdnProblem → String
  | .empty => "empty FQDN"
  | .tooLong => "too long FQDN"
  | .emptyLabel => "empty label in FQDN"
  | .badCharacter => "invalid char found in FQDN"
  | .longLabel => "too long label in FQDN"
  | .hyphen => "label in FQDN starts or ends with a hyphen"

namespace Fqdn

def maxLength : Nat := 253

def maxLabelLength : Nat := 63

/-- The text without one line feed at its end. -/
def dropLineFeed (text : List Char) : List Char :=
  if text.getLast? = some '\n' then text.dropLast else text

def isLabelChar (c : Char) : Bool := c.isAlphanum || c = '-'

def hyphensInside (label : List Char) : Bool :=
  label.head?.any (· ≠ '-') && label.getLast?.any (· ≠ '-')

def checkLabel (label : List Char) : Except FqdnProblem Unit :=
  if label = [] then .error .emptyLabel
  else if (dropLineFeed label).all isLabelChar = false then .error .badCharacter
  else if maxLabelLength < label.length then .error .longLabel
  else if hyphensInside (dropLineFeed label) = false then .error .hyphen
  else .ok ()

/-- The name without the dot at its end, unless the dot is all there is. -/
def dropFinalDot (text : List Char) : List Char :=
  if 1 < text.length ∧ text.getLast? = some '.' then text.dropLast else text

def parse (text : String) : Except FqdnProblem Fqdn := do
  let name := dropFinalDot text.toList
  if name = [] then .error .empty
  else if maxLength < name.length then .error .tooLong
  else
    (Text.splitAll '.' name).forM checkLabel
    return ⟨String.ofList name⟩

def labels (name : Fqdn) : List String := (Text.splitAll '.' name.text.toList).map String.ofList

end Fqdn

end ReverseProxy
