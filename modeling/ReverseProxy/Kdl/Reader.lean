import ReverseProxy.Kdl.Blank
import ReverseProxy.Kdl.Quoted
import ReverseProxy.Kdl.Token

/-!
# Reading documents

Nodes are read by recursive descent. The reader of a block is a parameter of the reader of a node
and is given by recursion on the number of blocks that may still be opened. The two loops, over the
entries of a node and over the nodes of a block, take at least one character each time, so that the
length of the text bounds them.
-/

namespace ReverseProxy.Kdl

def maxDepth : Nat := 128

/-- Past a type annotation in parentheses, which has no meaning. -/
def skipType (cursor : Cursor) : Reading Cursor := do
  match cursor.rest with
  | '(' :: rest =>
      let inside : Cursor := ⟨cursor.offset + 1, rest⟩
      let after ← match stringStart? rest with
        | some start => Prod.snd <$> readString start inside
        | none => pure inside.token.2
      match after.rest with
      | ')' :: rest => return ⟨after.offset + 1, rest⟩
      | _ => refuse .openType cursor.here
  | _ => return cursor

def readName (cursor : Cursor) : Reading (String × Cursor) := do
  match stringStart? cursor.rest with
  | some start =>
      let (text, after) ← readString start cursor
      return (String.ofList text, after)
  | none =>
      match cursor.token with
      | ([], _) => refuse .noName cursor.here
      | (token, after) => return (String.ofList token, after)

def readValue (cursor : Cursor) : Reading (Scalar × Cursor) := do
  let cursor ← skipType cursor
  match stringStart? cursor.rest with
  | some start =>
      let (text, after) ← readString start cursor
      return (.string (String.ofList text), after)
  | none =>
      match cursor.token with
      | ([], _) => refuse .noValue cursor.here
      | (token, after) => return (← interpret token cursor, after)

def finishEntry (start : Cursor) (text : List Char) (after : Cursor)
    (value : Reading Scalar) : Reading (Entry × Cursor) := do
  match after.rest with
  | '=' :: rest =>
      let (value, stop) ← readValue ⟨after.offset + 1, rest⟩
      return (⟨some (String.ofList text), value, start.spanTo stop⟩, stop)
  | _ => return (⟨none, ← value, start.spanTo after⟩, after)

def readEntry (start : Cursor) : Reading (Entry × Cursor) := do
  let cursor ← skipType start
  match stringStart? cursor.rest with
  | some opening =>
      let (text, after) ← readString opening cursor
      finishEntry start text after (.ok (.string (String.ofList text)))
  | none =>
      match cursor.token with
      | ([], _) => refuse (.unexpected cursor.rest.head?) cursor.here
      | (token, after) => finishEntry start token after (interpret token cursor)

abbrev BlockReader := Cursor → Reading (Block Node × Cursor)

structure NodeTail where
  entries : List Entry
  children : Option (Block Node)
  /-- The offset where the last part of the node ends. -/
  finish : Nat

def endsNode : List Char → Bool
  | [] => true
  | c :: _ => isNewline c || c = ';' || c = '\x7d'

def skipLineComment (cursor : Cursor) : Cursor :=
  match cursor.rest with
  | '/' :: '/' :: _ => cursor.lineEnd
  | _ => cursor

def skipElement (readBlock : BlockReader) (cursor : Cursor) : Reading Cursor :=
  match cursor.rest with
  | '\x7b' :: _ => Prod.snd <$> readBlock cursor
  | _ => Prod.snd <$> readEntry cursor

def readLastBlock (readBlock : BlockReader) (cursor : Cursor) : Reading (NodeTail × Cursor) := do
  let (block, after) ← readBlock cursor
  let stop := skipLineComment (← after.inlineBlank)
  if endsNode stop.rest then return (⟨[], some block, after.offset⟩, stop)
  else refuse .textAfterBlock stop.here

/-- At most `count` elements of a node, the last part of which ended at `finish`. -/
def readTail (readBlock : BlockReader) :
    (count : Nat) → Cursor → (finish : Nat) → Reading (NodeTail × Cursor)
  | 0, cursor, finish => .ok (⟨[], none, finish⟩, cursor)
  | count + 1, cursor, finish => do
      let next ← cursor.inlineBlank
      match next.rest with
      | '/' :: '/' :: _ => return (⟨[], none, finish⟩, next.lineEnd)
      | '/' :: '-' :: rest =>
          let element ← Cursor.inlineBlank ⟨next.offset + 2, rest⟩
          let after ← skipElement readBlock element
          readTail readBlock count after after.offset
      | '\x7b' :: _ => readLastBlock readBlock next
      | _ =>
          if endsNode next.rest then return (⟨[], none, finish⟩, next)
          else if next.offset = cursor.offset then refuse .noSpaceBeforeEntry next.here
          else
            let (entry, after) ← readEntry next
            let (tail, stop) ← readTail readBlock count after after.offset
            return ({ tail with entries := entry :: tail.entries }, stop)

def skipSemicolon (cursor : Cursor) : Cursor :=
  match cursor.rest with
  | ';' :: rest => ⟨cursor.offset + 1, rest⟩
  | _ => cursor

def readNode (readBlock : BlockReader) (start : Cursor) : Reading (Node × Cursor) := do
  let named ← skipType start
  let (name, after) ← readName named
  let (tail, stop) ← readTail readBlock (after.rest.length + 1) after after.offset
  return ({ name, nameSpan := named.spanTo after
            span := ⟨start.offset, tail.finish - start.offset⟩
            entries := tail.entries, children := tail.children }, skipSemicolon stop)

/-- At most `count` nodes, up to the end of the text or, if nested, up to a closing brace. -/
def readNodes (readBlock : BlockReader) (nested : Bool) :
    (count : Nat) → Cursor → Reading (List Node × Cursor)
  | 0, cursor => .ok ([], cursor)
  | count + 1, cursor => do
      let next ← cursor.nodeBlank
      match next.rest with
      | [] => return ([], next)
      | '\x7d' :: _ => if nested then return ([], next) else refuse .strayBrace next.here
      | '/' :: '-' :: rest =>
          let start ← Cursor.nodeBlank ⟨next.offset + 2, rest⟩
          let (_, after) ← readNode readBlock start
          readNodes readBlock nested count after
      | _ =>
          let (node, after) ← readNode readBlock next
          let (nodes, stop) ← readNodes readBlock nested count after
          return (node :: nodes, stop)

/-- The block that opens at the cursor, of at most `depth` nested ones. -/
def readBlock : (depth : Nat) → BlockReader
  | 0, start => refuse .tooDeep start.here
  | depth + 1, start => do
      let inside := start.skip 1
      let (nodes, stop) ← readNodes (readBlock depth) true (inside.rest.length + 1) inside
      match stop.rest with
      | '\x7d' :: rest =>
          let after : Cursor := ⟨stop.offset + 1, rest⟩
          return (⟨nodes, start.spanTo after⟩, after)
      | _ => refuse .openBlock start.here

/-- The document that a text spells. -/
def readDocument (text : List Char) : Reading Document := do
  let (nodes, _) ← readNodes (readBlock maxDepth) false (text.length + 1) (Cursor.ofText text)
  return ⟨nodes, ⟨0, text.length⟩⟩

end ReverseProxy.Kdl
