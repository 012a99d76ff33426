import ReverseProxy.Path

/-!
# Files and directories

The part of a file system that a run can see: a tree of directories below a root, and the directory
that relative paths start from. Two dots lead to the directory above, which the root is itself.
-/

namespace ReverseProxy.Files

inductive Tree where
  | file (content : List UInt8)
  | directory (entries : List (String × Tree))
  deriving Inhabited

namespace Tree

def isDirectory : Tree → Bool
  | directory _ => true
  | file _ => false

def child? (name : String) : Tree → Option Tree
  | directory entries => entries.lookup name
  | file _ => none

def names : Tree → List String
  | directory entries => entries.map Prod.fst
  | file _ => []

/-- The tree reached by names from one that has `above` over it, the nearest first. -/
def walk (above : List Tree) (here : Tree) : List String → Option Tree
  | [] => some here
  | name :: names =>
      if !here.isDirectory then none
      else if name = ".." then
        match above with
        | [] => walk [] here names
        | parent :: above => walk above parent names
      else
        match here.child? name with
        | some child => walk (here :: above) child names
        | none => none

/-- The tree with another one at a place; directories on the way are made. -/
def place (content : Tree) : List String → Tree → Tree
  | [], _ => content
  | name :: names, tree =>
      let entries := match tree with
        | directory entries => entries
        | file _ => []
      let child := place content names ((entries.lookup name).getD (.directory []))
      if (entries.lookup name).isSome then
        .directory (entries.map fun entry => if entry.1 = name then (name, child) else entry)
      else .directory (entries ++ [(name, child)])

end Tree

structure FileSystem where
  root : Tree
  /-- The names that lead from the root to the directory that relative paths start from. -/
  workingDirectory : List String

namespace FileSystem

def route (files : FileSystem) (path : Path) : List String :=
  match path.root with
  | .relative => files.workingDirectory ++ path.parts
  | _ => path.parts

def find? (files : FileSystem) (path : Path) : Option Tree :=
  files.root.walk [] (files.route path)

def content? (files : FileSystem) (path : Path) : Option (List UInt8) :=
  match files.find? path with
  | some (.file content) => some content
  | _ => none

def isFile (files : FileSystem) (path : Path) : Bool := (files.content? path).isSome

def isDirectory (files : FileSystem) (path : Path) : Bool :=
  (files.find? path).any Tree.isDirectory

/-- Names without two dots, each pair of which takes back the name before it. -/
def resolveNames (kept : List String) : List String → List String
  | [] => kept.reverse
  | name :: names => resolveNames (if name = ".." then kept.tail else name :: kept) names

def resolve (files : FileSystem) (path : Path) : Path :=
  ({ root := .absolute, parts := [], valid := nofun } : Path).append
    (resolveNames [] (files.route path))

def openWay (kept : List String) (root : Tree) : List String → Tree
  | [] => root
  | name :: names =>
      let kept := if name = ".." then kept.tail else name :: kept
      let found := root.walk [] kept.reverse
      openWay kept
        (if found.isSome then root else Tree.place (.directory []) kept.reverse root) names

def put (files : FileSystem) (content : Tree) (path : Path) : FileSystem :=
  let root := openWay [] files.root (files.route path).dropLast
  { files with root := Tree.place content (resolveNames [] (files.route path)) root }

end FileSystem

end ReverseProxy.Files
