import ReverseProxy.Files.Tree

/-!
# Finding the settings file

The settings file is named by a variable of the environment, or else it is the nearest one in a
directory from a starting point upward. A name that leads to no file means no settings file.
-/

namespace ReverseProxy.Settings

open Files

/-- The variables of the environment in their order; of several of one name the last counts. -/
abbrev Environment := List (String × String)

def Environment.value? (environment : Environment) (name : String) : Option String :=
  environment.reverse.lookup name

def fileName : String := "proxyconf.toml"

def pathVariable : String := "PROXYCONF_CONFIG"

def existing? (files : FileSystem) (path : Path) : Option Path :=
  if files.isFile path then some path else none

def placesAbove : (height : Nat) → (directory : Path) → List Path
  | 0, directory => [directory.append [fileName]]
  | height + 1, directory => directory.append [fileName] :: placesAbove height directory.parent

/-- The settings file for a starting point, which may be a file, a directory or missing. -/
def discover (files : FileSystem) (environment : Environment) (start : Option Path) : Option Path :=
  match environment.value? pathVariable with
  | some name =>
      if name = "" then search else existing? files (Path.parse name)
  | none => search
where
  search : Option Path :=
    let here := files.resolve (start.getD (Path.parse ""))
    let directory := if files.isFile here then here.parent else here
    (placesAbove directory.parts.length directory).find? files.isFile

def locate (files : FileSystem) (environment : Environment) (given : Option String)
    (start : Option Path) : Option Path :=
  match given with
  | some name =>
    if name = "" then discover files environment start else existing? files (Path.parse name)
  | none => discover files environment start

/-- Every place that is looked at for the settings file, from the working directory on. -/
def places (files : FileSystem) (environment : Environment) (given : Option String) : List Path :=
  let here := files.resolve (Path.parse "")
  let named := given.toList ++ (environment.value? pathVariable).toList
  named.map Path.parse ++ placesAbove here.parts.length here

end ReverseProxy.Settings
