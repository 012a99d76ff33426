import ReverseProxy.Kdl.Cursor
import ReverseProxy.Text.Hex

/-!
# Strings

A string is written between quotation marks with escapes, or raw: an optional letter `r`, hash
signs, a quotation mark, the text as it is, a quotation mark and as many hash signs. Without the
letter there is at least one hash sign.
-/

namespace ReverseProxy.Kdl

inductive StringStart where
  | quoted
  | raw (letter : Bool) (hashes : Nat)
  deriving DecidableEq, Repr

def rawStart? (letter : Bool) (text : List Char) : Option StringStart :=
  let hashes := (text.takeWhile (· = '#')).length
  if (text.drop hashes).head? = some '"' then some (.raw letter hashes) else none

def stringStart? : List Char → Option StringStart
  | '"' :: _ => some .quoted
  | 'r' :: rest => rawStart? true rest
  | '#' :: rest => rawStart? false ('#' :: rest)
  | _ => none

def StringStart.length : StringStart → Nat
  | .quoted => 1
  | .raw letter hashes => letter.toNat + hashes + 1

def escaped? : Char → Option Char
  | 'n' => some '\n'
  | 'r' => some '\r'
  | 't' => some '\t'
  | '\\' => some '\\'
  | '"' => some '"'
  | '/' => some '/'
  | 'b' => some '\x08'
  | 'f' => some '\x0c'
  | 's' => some ' '
  | _ => none

def charOfCode? (code : Nat) : Option Char :=
  if code.isValidChar then some (Char.ofNat code) else none

/-- Where in a quoted string the character at hand stands. Offsets are those of the backslash. -/
inductive QuotedState where
  | plain
  | escape (opened : Nat)
  /-- After the opening brace of a code point and `count` digits. -/
  | code (opened : Nat) (count : Nat) (value : Nat)
  deriving DecidableEq, Repr

def prepend (c : Char) : List Char × Cursor → List Char × Cursor
  | (text, cursor) => (c :: text, cursor)

def readQuoted (start : Nat) : QuotedState → Nat → List Char → Reading (List Char × Cursor)
  | .plain, _, [] => refuse .openString ⟨start, 1⟩
  | .plain, offset, c :: rest =>
      if c = '"' then .ok ([], ⟨offset + 1, rest⟩)
      else if c = '\\' then readQuoted start (.escape offset) (offset + 1) rest
      else (readQuoted start .plain (offset + 1) rest).map (prepend c)
  | .escape opened, _, [] => refuse (.badEscape none) ⟨opened, 2⟩
  | .escape opened, offset, 'u' :: '\x7b' :: rest =>
      readQuoted start (.code opened 0 0) (offset + 2) rest
  | .escape opened, offset, c :: rest =>
      match escaped? c with
      | some meant => (readQuoted start .plain (offset + 1) rest).map (prepend meant)
      | none => refuse (.badEscape (some c)) ⟨opened, 2⟩
  | .code opened _ _, _, [] => refuse .badCodePoint ⟨opened, 2⟩
  | .code opened count value, offset, c :: rest =>
      match Text.hexValue? c with
      | some digit =>
          if count < 6 then
            readQuoted start (.code opened (count + 1) (value * 16 + digit)) (offset + 1) rest
          else refuse .badCodePoint ⟨opened, 2⟩
      | none =>
          match if c = '\x7d' ∧ 0 < count then charOfCode? value else none with
          | some meant => (readQuoted start .plain (offset + 1) rest).map (prepend meant)
          | none => refuse .badCodePoint ⟨opened, 2⟩

def readUntil? (mark : List Char) (offset : Nat) : List Char → Option (List Char × Cursor)
  | [] => none
  | c :: rest =>
      if mark.isPrefixOf (c :: rest) then
        some ([], ⟨offset + mark.length, (c :: rest).drop mark.length⟩)
      else (readUntil? mark (offset + 1) rest).map (prepend c)

def readString (start : StringStart) (cursor : Cursor) : Reading (List Char × Cursor) :=
  let inside := cursor.skip start.length
  match start with
  | .quoted => readQuoted cursor.offset .plain inside.offset inside.rest
  | .raw _ hashes =>
      match readUntil? ('"' :: List.replicate hashes '#') inside.offset inside.rest with
      | some found => .ok found
      | none => refuse .openRawString cursor.here

def quoteChar : Char → List Char
  | '\\' => ['\\', '\\']
  | '"' => ['\\', '"']
  | '\n' => ['\\', 'n']
  | '\r' => ['\\', 'r']
  | '\t' => ['\\', 't']
  | c => [c]

def quoteChars (text : List Char) : List Char :=
  '"' :: (text.flatMap quoteChar ++ ['"'])

def quote (text : String) : String := String.ofList (quoteChars text.toList)

def isBareStart (c : Char) : Bool := c.isAlpha || c = '_'

def isBareChar (c : Char) : Bool := c.isAlphanum || c = '_' || c = '.' || c = '-'

/-- Whether a name is written without quotation marks. A single newline at its end does not count
against it. -/
def isBareName : List Char → Bool
  | [] => false
  | c :: rest =>
      isBareStart c &&
        (rest.dropWhile isBareChar = [] || rest.dropWhile isBareChar = ['\n'])

def reservedNames : List String := ["true", "false", "null", "inf", "nan"]

/-- A node name or key: bare where that is unambiguous, otherwise quoted. -/
def writeName (text : String) : String :=
  if isBareName text.toList && !reservedNames.contains text then text else quote text

end ReverseProxy.Kdl
