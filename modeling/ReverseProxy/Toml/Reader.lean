import ReverseProxy.Toml.Scalar
import ReverseProxy.Toml.Table

/-!
# Reading TOML

A document is a list of statements, one a line: a key with its value, or the header of a table. The
text has line feeds for newlines.
-/

namespace ReverseProxy.Toml

def isBareKeyChar (c : Char) : Bool := c.isAlphanum || c = '-' || c = '_'

def readKeyPart? (text : List Char) : Option (String × List Char) :=
  match text with
  | [] => none
  | c :: _ =>
      if isBareKeyChar c then
        some (String.ofList (text.takeWhile isBareKeyChar), text.dropWhile isBareKeyChar)
      else (readString? false text).map fun (key, rest) => (String.ofList key, rest)

def readKey? : (count : Nat) → List Char → Option ((List String × String) × List Char)
  | 0, _ => none
  | count + 1, text => do
      let (part, rest) ← readKeyPart? text
      match skipSpace rest with
      | '.' :: rest =>
          let ((path, key), rest) ← readKey? count (skipSpace rest)
          return ((part :: path, key), rest)
      | rest => return (([], part), rest)

def skipComment? (text : List Char) : Option (List Char) :=
  match text with
  | '#' :: rest =>
      if (rest.takeWhile (· ≠ '\n')).any isControl then none else some (rest.dropWhile (· ≠ '\n'))
  | _ => some text

def skipLines? : (count : Nat) → List Char → Option (List Char)
  | 0, text => some text
  | count + 1, text =>
      match text.dropWhile isSpaceOrNewline with
      | '#' :: rest => skipComment? ('#' :: rest) >>= skipLines? count
      | rest => some rest

def orMalformed {α : Type} (found : Option α) : Reading α :=
  match found with
  | some value => .ok value
  | none => .error .malformed

mutual

/-- A value. Each step of reading takes a character, so that the length of the text bounds their
number. -/
def readValue : (count : Nat) → List Char → Reading (Json × List Char)
  | 0, _ => .error .malformed
  | count + 1, text =>
      match text with
      | '"' :: _ | '\'' :: _ => do
          let (text, rest) ← orMalformed (readString? true text)
          return (.string (String.ofList text), rest)
      | '[' :: rest => do
          let (items, rest) ← readItems count (← orMalformed (skipLines? rest.length rest))
          return (.array items, rest)
      | '\x7b' :: rest =>
          match skipSpace rest with
          | '\x7d' :: rest => .ok (.object [], rest)
          | rest => do
              let (entries, rest) ← readPairs count [] rest
              return (.object (fieldsOf entries), rest)
      | text => readPlain text

def readItems : (count : Nat) → List Char → Reading (List Json × List Char)
  | 0, _ => .error .malformed
  | count + 1, text => do
      match text with
      | ']' :: rest => return ([], rest)
      | _ =>
          let (item, rest) ← readValue count text
          match ← orMalformed (skipLines? rest.length rest) with
          | ']' :: rest => return ([item], rest)
          | ',' :: rest =>
              let (items, rest) ← readItems count (← orMalformed (skipLines? rest.length rest))
              return (item :: items, rest)
          | _ => .error .malformed

def readPairs : (count : Nat) → Entries → List Char → Reading (Entries × List Char)
  | 0, _, _ => .error .malformed
  | count + 1, entries, text => do
      let ((path, key), rest) ← orMalformed (readKey? (text.length + 1) text)
      match rest with
      | '=' :: rest =>
          let (value, rest) ← readValue count (skipSpace rest)
          let entries ← orMalformed (entries.assign 0 value path key)
          match skipSpace rest with
          | '\x7d' :: rest => return (entries, rest)
          | ',' :: rest => readPairs count entries (skipSpace rest)
          | _ => .error .malformed
      | _ => .error .malformed

end

/-- What was read so far: the tables, the header that keys belong to, and its number. -/
structure State where
  entries : Entries
  header : List String
  number : Nat

def State.next (state : State) (entries : Entries) (header : List String) : State :=
  ⟨entries, header, state.number + 1⟩

def readHeader (state : State) (text : List Char) : Reading (State × List Char) := do
  let text := skipSpace text
  let ((path, key), rest) ← orMalformed (readKey? (text.length + 1) text)
  let entries ← orMalformed (state.entries.update (Entries.declare key) path)
  match rest with
  | ']' :: rest => return (state.next entries (path ++ [key]), rest)
  | _ => .error .malformed

def readListHeader (state : State) (text : List Char) : Reading (State × List Char) := do
  let text := skipSpace text
  let ((path, key), rest) ← orMalformed (readKey? (text.length + 1) text)
  let entries ← orMalformed (state.entries.update (Entries.declareNext key) path)
  match rest with
  | ']' :: ']' :: rest => return (state.next entries (path ++ [key]), rest)
  | _ => .error .malformed

def readPair (state : State) (text : List Char) : Reading (State × List Char) := do
  let ((path, key), rest) ← orMalformed (readKey? (text.length + 1) text)
  match rest with
  | '=' :: rest =>
      let (value, rest) ← readValue (2 * rest.length + 2) (skipSpace rest)
      let change := Entries.assign state.number value path key
      let entries ← orMalformed (state.entries.update change state.header)
      return ({ state with entries }, rest)
  | _ => .error .malformed

def readStatement (state : State) (text : List Char) : Reading (State × List Char) :=
  match text with
  | '[' :: '[' :: rest => readListHeader state rest
  | '[' :: rest => readHeader state rest
  | '#' :: _ => .ok (state, text)
  | _ => readPair state text

def readStatements : (count : Nat) → State → List Char → Reading State
  | 0, state, _ => .ok state
  | count + 1, state, text =>
      match skipSpace text with
      | [] => .ok state
      | '\n' :: rest => readStatements count state rest
      | text => do
          let (state, rest) ← readStatement state text
          match ← orMalformed (skipComment? (skipSpace rest)) with
          | [] => return state
          | '\n' :: rest => readStatements count state rest
          | _ => .error .malformed

def parse (text : List Char) : Reading (List (String × Json)) := do
  let state ← readStatements (text.length + 1) ⟨[], [], 0⟩ text
  return fieldsOf state.entries

end ReverseProxy.Toml
