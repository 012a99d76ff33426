import ReverseProxy.Files.Host
import ReverseProxy.Files.Pattern

/-!
# Searches for paths

A pattern leads from a directory to paths, which are found one after the other. A question that the
host refuses to answer cuts a search short. If permission is missing, the search goes on where the
directory in question has been left, with what was found in it until then.
-/

namespace ReverseProxy.Files

/-- What is found in order, and the refusal after which nothing more is found. -/
structure Search (α : Type) where
  found : List α
  refusal : Option Refusal

namespace Search

variable {α β : Type}

def nothing : Search α := ⟨[], none⟩

def one (value : α) : Search α := ⟨[value], none⟩

def append (first second : Search α) : Search α :=
  match first.refusal with
  | some _ => first
  | none => ⟨first.found ++ second.found, second.refusal⟩

def each (next : α → Search β) : List α → Search β
  | [] => nothing
  | value :: values => (next value).append (each next values)

def andThen (search : Search α) (next : α → Search β) : Search β :=
  (each next search.found).append ⟨[], search.refusal⟩

def after (answer : Except Refusal α) (next : α → Search β) : Search β :=
  match answer with
  | .error refusal => ⟨[], some refusal⟩
  | .ok value => next value

def unlessDenied (search : Search α) : Search α :=
  ⟨search.found, search.refusal.filter fun refusal => !refusal.denied⟩

def distinct [BEq α] (search : Search α) : Search α := ⟨search.found.eraseDups, search.refusal⟩

def result (search : Search α) : Except Refusal (List α) :=
  match search.refusal with
  | some refusal => .error refusal
  | none => .ok search.found

end Search

namespace Host

variable (host : Host)

mutual

/-- The ways down to the directories of a tree, which is itself reached by the way `names`. -/
def ways (start : Path) (names : List String) : Tree → Search (List String)
  | .file _ => .nothing
  | .directory entries =>
      let listing := host.ask .names (start.append names) ()
      (Search.one names).append
        (Search.after listing fun _ => waysBelow start names entries).unlessDenied

def waysBelow (start : Path) (names : List String) : List (String × Tree) → Search (List String)
  | [] => .nothing
  | (name, tree) :: entries =>
      let way := names ++ [name]
      let answer := host.ask .entry (start.append way) tree.isDirectory
      (Search.after answer fun isDirectory =>
        if isDirectory then ways start way tree else .nothing).append
          (waysBelow start names entries)

end

/-- Only directories are passed through. -/
def select : List Selector → Path → Search Path
  | [], path => .one path
  | .itself :: _, path => .one path
  | .exactly name :: rest, path =>
      let next := path.append [name]
      let answer :=
        if rest.isEmpty then host.ask .exists next (host.find? next).isSome
        else host.ask .isDirectory next (host.isDirectory next)
      (Search.after answer fun found =>
        if found then select rest next else .nothing).unlessDenied
  | .named glyphs :: rest, path =>
      let listing := host.ask .names path (((host.find? path).map Tree.names).getD [])
      (Search.after listing fun names => Search.each (fun name =>
        let next := path.append [name]
        let answer :=
          if rest.isEmpty then .ok true else host.ask .entry next (host.isDirectory next)
        Search.after answer fun found =>
          if found && covers glyphs name.toList then select rest next else .nothing)
        names).unlessDenied
  | .anyDepth :: rest, path =>
      let below := ((host.find? path).map (host.ways path [])).getD .nothing
      (below.andThen fun names => select rest (path.append names)).distinct.unlessDenied

def filesAmong (search : Search Path) : Except Refusal (List Path) :=
  (search.andThen fun path =>
    Search.after (host.ask .isFile path (host.isFile path)) fun isFile =>
      if isFile then .one path else .nothing).result

end Host

end ReverseProxy.Files
