import ReverseProxy.Files.Tree

/-!
# Patterns for file names

A star stands for any characters, a question mark for one, and brackets for one of a set, which an
exclamation mark turns into its complement. A pattern may lead through directories, one part for
each; two stars alone are any number of directories, and nowhere else may two stars meet.
-/

namespace ReverseProxy.Files

/-- Part of the text of a set: a character, or the hyphen between the ends of a range. -/
inductive SetToken where
  | char (c : Char)
  | hyphen
  deriving DecidableEq, Repr

/-- The tokens of a set. A hyphen makes a range if there is a character on either side of it that is
not the end of another range; a range whose ends are in the wrong order vanishes. -/
def setTokens : List Char → List SetToken
  | c :: '-' :: d :: rest =>
      if d < c then setTokens rest else .char c :: .hyphen :: .char d :: setTokens rest
  | c :: rest => .char c :: setTokens rest
  | [] => []

def setRanges : List SetToken → List (Char × Char)
  | .char c :: .hyphen :: .char d :: rest => (c, d) :: setRanges rest
  | .char c :: rest => (c, c) :: setRanges rest
  | .hyphen :: rest => ('-', '-') :: setRanges rest
  | [] => []

/-- One position of a file name. -/
inductive Glyph where
  | many
  | one
  | literal (c : Char)
  | set (negated : Bool) (ranges : List (Char × Char))
  deriving DecidableEq, Repr

def glyphOfSet (text : List Char) : Glyph :=
  let tokens : List SetToken := match text with
    | '!' :: rest => .char '!' :: setTokens rest
    | text => setTokens text
  match tokens with
  | .char '!' :: rest => .set true (setRanges rest)
  | tokens => .set false (setRanges tokens)

/-- The text of a set that opens here, and what follows its closing bracket. A closing bracket that
comes first, or right after an exclamation mark, belongs to the set. -/
def splitSet? (text : List Char) : Option (List Char × List Char) :=
  let negation := if text.head? = some '!' then ['!'] else []
  let text := text.drop negation.length
  let bracket := if text.head? = some ']' then [']'] else []
  let text := text.drop bracket.length
  (Text.splitFirst? ']' text).map fun (inside, rest) => (negation ++ bracket ++ inside, rest)

/-- The glyphs of a name pattern; a bracket that does not close stands for itself. -/
def glyphs : (count : Nat) → List Char → List Glyph
  | 0, _ => []
  | _ + 1, [] => []
  | count + 1, '*' :: rest => .many :: glyphs count rest
  | count + 1, '?' :: rest => .one :: glyphs count rest
  | count + 1, '[' :: rest =>
      match splitSet? rest with
      | some (inside, rest) => glyphOfSet inside :: glyphs count rest
      | none => .literal '[' :: glyphs count rest
  | count + 1, c :: rest => .literal c :: glyphs count rest

def Glyph.accepts (c : Char) : Glyph → Bool
  | .many | .one => true
  | .literal d => c = d
  | .set negated ranges => ranges.any (fun (low, high) => low ≤ c && c ≤ high) != negated

def anyEnd (accepts : List Char → Bool) : List Char → Bool
  | [] => accepts []
  | c :: rest => accepts (c :: rest) || anyEnd accepts rest

def covers : List Glyph → List Char → Bool
  | [], name => name.isEmpty
  | .many :: glyphs, name => anyEnd (covers glyphs) name
  | glyph :: glyphs, c :: rest => glyph.accepts c && covers glyphs rest
  | _ :: _, [] => false

inductive Selector where
  /-- Any directory from here on downward. -/
  | anyDepth
  | named (glyphs : List Glyph)
  | exactly (name : String)
  /-- The directory itself, for a pattern that ends in a slash. -/
  | itself

def hasTwoStars : List Char → Bool
  | '*' :: '*' :: _ => true
  | _ :: rest => hasTwoStars rest
  | [] => false

def selector? (part : List Char) : Option Selector :=
  if part = ['*', '*'] then some .anyDepth
  else if hasTwoStars part then none
  else if part.any fun c => c = '*' || c = '?' || c = '[' then
    some (.named (glyphs (part.length + 1) part))
  else some (.exactly (String.ofList part))

/-- The parts of a pattern, or nothing if two stars meet in the wrong place. -/
def selectors? (pattern : List Char) : Option (List Selector) := do
  let parts := (Text.splitAll '/' pattern).filter fun part => part ≠ [] ∧ part ≠ ['.']
  let selectors ← parts.mapM selector?
  if pattern.getLast? = some '/' then some (selectors ++ [.itself]) else some selectors

end ReverseProxy.Files
