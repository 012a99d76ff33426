import ReverseProxy.CommandLine.Run
import Std.Time.Format

/-!
# The program

Gathers the part of the file system that the run depends on: first the files that may hold its
settings, then the names below the path it is given, and then the content of the files that it
reads.
-/

namespace ReverseProxy

open CommandLine Files

def variableOf (text : String) : Option (String × String) :=
  (Text.splitFirst? '=' text.toList).map fun (name, value) =>
    (String.ofList name, String.ofList value)

def readEnvironment : IO Settings.Environment := do
  try
    let bytes ← IO.FS.readBinFile "/proc/self/environ"
    let text := (String.fromUTF8? bytes).getD ""
    return (Text.splitAll '\x00' text.toList).filterMap fun part => variableOf (String.ofList part)
  catch _ => return []

def addFile (files : FileSystem) (path : Path) : IO FileSystem := do
  try
    let content ← IO.FS.readBinFile path.text
    return files.put (.file content.toList) path
  catch _ => return files

def kindsOf (entry : IO.FS.DirEntry) : IO (Option (IO.FS.FileType × IO.FS.FileType)) := do
  try
    let own ← entry.path.symlinkMetadata
    let target ← entry.path.metadata
    return some (own.type, target.type)
  catch _ => return none

/-- The names below a directory; content is left out, and links to directories are not followed. -/
def readNames : (depth : Nat) → (directory : String) → IO Tree
  | 0, _ => return .directory []
  | depth + 1, directory => do
      let place ← IO.FS.realPath directory
      let mut entries := []
      for entry in ← place.readDir do
        match ← kindsOf entry with
        | some (.symlink, .dir) => entries := (entry.fileName, .directory []) :: entries
        | some (_, .dir) =>
            entries := (entry.fileName, ← readNames depth entry.path.toString) :: entries
        | some (_, .file) => entries := (entry.fileName, .file []) :: entries
        | _ => pure ()
      return .directory entries

def depthOf (options : SourceOptions) : Nat :=
  if options.recursive then 32 else (options.extension.toList.filter (· = '/')).length + 1

def isDirectory (path : Path) : IO Bool := do
  try
    (← IO.FS.realPath path.text).isDir
  catch _ => return false

def addDocuments (options : SourceOptions) (path : Path) (files : FileSystem) : IO FileSystem := do
  if ← isDirectory path then
    let files := files.put (← readNames (depthOf options) path.text) path
    match files.host.filesIn options path with
    | .ok found => found.foldlM addFile files
    | .error _ => return files
  else addFile files path

def readFiles (environment : Settings.Environment) (arguments : List String) : IO FileSystem := do
  let here := Path.parse (← IO.currentDir).toString
  let bare : FileSystem := ⟨.directory [], here.parts⟩
  let files ← (settingsPlaces bare environment arguments).foldlM addFile
    (bare.put (.directory []) here)
  match documentsOf files environment arguments with
  | none => return files
  | some (options, path) => addDocuments options path files

def currentTime : IO String := do
  let now ← Std.Time.Timestamp.now
  return (Std.Time.DateTime.ofTimestamp now .UTC).format "uuuu-MM-dd'T'HH:mm:ss.SSSSSS'Z'"

end ReverseProxy

open ReverseProxy in
def main (arguments : List String) : IO UInt32 := do
  let environment ← readEnvironment
  let outcome := CommandLine.run (← readFiles environment arguments) environment arguments
  IO.print outcome.emission.output
  IO.eprint (outcome.errors (← currentTime))
  if let some interruption := outcome.interruption then
    IO.eprintln s!"proxyconf: {interruption.message}"
  return outcome.emission.exitCode.toUInt32
