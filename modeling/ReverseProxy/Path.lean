import ReverseProxy.Text.Split

/-!
# File paths

A path is a root and the names below it. Empty names and single dots in its text have no meaning;
two dots are kept. Exactly two slashes in front are a root of their own.
-/

namespace ReverseProxy

inductive Root where
  | relative
  | absolute
  | doubled
  deriving DecidableEq, Repr

def Root.text : Root → String
  | .relative => ""
  | .absolute => "/"
  | .doubled => "//"

def IsPathPart (name : String) : Prop := name ≠ "" ∧ name ≠ "." ∧ '/' ∉ name.toList

instance (name : String) : Decidable (IsPathPart name) :=
  inferInstanceAs (Decidable (_ ∧ _ ∧ _))

structure Path where
  root : Root
  parts : List String
  valid : ∀ part ∈ parts, IsPathPart part
  deriving DecidableEq

namespace Path

def rootOf (text : List Char) : Root :=
  match (text.takeWhile (· = '/')).length with
  | 0 => .relative
  | 2 => .doubled
  | _ => .absolute

def keepParts (names : List String) : List String := names.filter fun name => IsPathPart name

def parse (text : String) : Path where
  root := rootOf text.toList
  parts := keepParts ((Text.splitAll '/' text.toList).map String.ofList)
  valid := fun _ member => by simpa using (List.mem_filter.mp member).2

def text (path : Path) : String :=
  match path.root, path.parts with
  | .relative, [] => "."
  | root, parts => root.text ++ "/".intercalate parts

instance : ToString Path := ⟨text⟩

/-- The path with further names; a name that is none has no effect. -/
def append (path : Path) (names : List String) : Path where
  root := path.root
  parts := path.parts ++ keepParts names
  valid := fun part member => by
    rcases List.mem_append.mp member with old | new
    · exact path.valid part old
    · simpa using (List.mem_filter.mp new).2

def parent (path : Path) : Path :=
  { path with
    parts := path.parts.dropLast
    valid := fun part member => path.valid part (List.dropLast_subset _ member) }

def sortKey (path : Path) : List String :=
  if path.root = .relative then path.parts else path.root.text :: path.parts

end Path

end ReverseProxy
