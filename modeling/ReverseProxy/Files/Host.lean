import ReverseProxy.Files.Decoding
import ReverseProxy.Files.Tree

/-!
# Hosts

A host has a file system, and three things about it are left open. It may refuse to answer a
question about a path, whatever there is at the path. It knows encodings by their names, of which
only three are described here. And of several files that are read at the same time, any may be done
first.
-/

namespace ReverseProxy.Files

inductive Question where
  | isFile
  | isDirectory
  | exists
  -- The names in a directory, and whether one of them is that of a directory.
  | names
  | entry
  | content
  deriving DecidableEq, Repr

/-- An error of the operating system other than that nothing is there. -/
structure Refusal where
  denied : Bool
  message : String
  deriving DecidableEq, Repr

inductive DecodeFailure where
  | undecodable (message : String)
  | unknownEncoding
  | broken (message : String)
  deriving DecidableEq, Repr

/-- The encodings that are at hand, each under all of its names. They decode to characters, so that
no surrogate stands alone. -/
structure Codecs where
  decode : String → List UInt8 → Except DecodeFailure (List Char)
  decode_of_name : ∀ name encoding bytes, Encoding.ofName? name = some encoding →
    decode name bytes =
      (encoding.decode bytes).mapError fun problem => .undecodable problem.message

structure Host extends FileSystem where
  refusal? : Question → Path → Option Refusal
  codecs : Codecs
  -- Files in the order in which they are done with, if they are read at the same time.
  finished : List Path → List Path
  finished_perm : ∀ paths, (finished paths).Perm paths

/-- Only the encodings that are described here. That of the system, the name of which is `locale`,
is UTF-8. -/
def Codecs.described : Codecs where
  decode name bytes :=
    match if name = "locale" then some .utf8 else Encoding.ofName? name with
    | none => .error .unknownEncoding
    | some encoding => (encoding.decode bytes).mapError fun problem => .undecodable problem.message
  decode_of_name name encoding bytes hname := by
    have hlocale : Encoding.ofName? "locale" = none := by decide +kernel
    have hother : name ≠ "locale" := by
      rintro rfl
      cases hlocale.symm.trans hname
    rw [if_neg hother, hname]

/-- A host that answers every question and is done with files in their order. -/
def FileSystem.host (files : FileSystem) : Host where
  toFileSystem := files
  refusal? _ _ := none
  codecs := .described
  finished paths := paths
  finished_perm := List.Perm.refl

instance : Coe FileSystem Host := ⟨FileSystem.host⟩

def Host.ask {α : Type} (host : Host) (question : Question) (path : Path) (answer : α) :
    Except Refusal α :=
  match host.refusal? question path with
  | some refusal => .error refusal
  | none => .ok answer

end ReverseProxy.Files
