import ReverseProxy.Kdl.Cursor

/-!
# Text that separates

Within a line, spaces, block comments, which nest, and line continuations are blank. Between nodes
newlines, semicolons and line comments are blank as well. A single pass over the characters keeps
track of what it is inside of.
-/

namespace ReverseProxy.Kdl

/-- What the character at hand is part of. Offsets are those of the opening mark. -/
inductive BlankState where
  | plain
  /-- Inside a block comment and `depth` more. -/
  | comment (opened : Nat) (depth : Nat)
  /-- After a backslash that has to be followed by a newline. -/
  | continuation (opened : Nat)
  /-- In the line comment of a continuation. -/
  | continuedComment
  /-- In a line comment between nodes. -/
  | lineComment
  deriving DecidableEq, Repr

def skipBlank (betweenNodes : Bool) :
    BlankState → Nat → List Char → Reading Cursor
  | .plain, offset, [] => .ok ⟨offset, []⟩
  | .plain, offset, '/' :: '*' :: rest =>
    skipBlank betweenNodes (.comment offset 0) (offset + 2) rest
  | .plain, offset, '/' :: '/' :: rest =>
      if betweenNodes then skipBlank betweenNodes .lineComment (offset + 2) rest
      else .ok ⟨offset, '/' :: '/' :: rest⟩
  | .plain, offset, c :: rest =>
      if c = '\\' then skipBlank betweenNodes (.continuation offset) (offset + 1) rest
      else if isInlineSpace c || (betweenNodes && (isNewline c || c = ';')) then
        skipBlank betweenNodes .plain (offset + 1) rest
      else .ok ⟨offset, c :: rest⟩
  | .comment opened _, _, [] => refuse .openComment ⟨opened, 2⟩
  | .comment opened depth, offset, '/' :: '*' :: rest =>
      skipBlank betweenNodes (.comment opened (depth + 1)) (offset + 2) rest
  | .comment opened depth, offset, '*' :: '/' :: rest =>
      match depth with
      | 0 => skipBlank betweenNodes .plain (offset + 2) rest
      | depth + 1 => skipBlank betweenNodes (.comment opened depth) (offset + 2) rest
  | .comment opened depth, offset, _ :: rest =>
      skipBlank betweenNodes (.comment opened depth) (offset + 1) rest
  | .continuation _, offset, [] => .ok ⟨offset, []⟩
  | .continuation _, offset, '/' :: '/' :: rest =>
      skipBlank betweenNodes .continuedComment (offset + 2) rest
  | .continuation _, offset, '\r' :: '\n' :: rest => skipBlank betweenNodes .plain (offset + 2) rest
  | .continuation opened, offset, c :: rest =>
      if isInlineSpace c then skipBlank betweenNodes (.continuation opened) (offset + 1) rest
      else if isNewline c then skipBlank betweenNodes .plain (offset + 1) rest
      else refuse .continuation ⟨opened, 1⟩
  | .continuedComment, offset, [] => .ok ⟨offset, []⟩
  | .continuedComment, offset, '\r' :: '\n' :: rest =>
    skipBlank betweenNodes .plain (offset + 2) rest
  | .continuedComment, offset, c :: rest =>
      if isNewline c then skipBlank betweenNodes .plain (offset + 1) rest
      else skipBlank betweenNodes .continuedComment (offset + 1) rest
  | .lineComment, offset, [] => .ok ⟨offset, []⟩
  | .lineComment, offset, c :: rest =>
      if isNewline c then skipBlank betweenNodes .plain (offset + 1) rest
      else skipBlank betweenNodes .lineComment (offset + 1) rest

namespace Cursor

/-- Past the blank text that may stand between the parts of a node. -/
def inlineBlank (cursor : Cursor) : Reading Cursor :=
  skipBlank false .plain cursor.offset cursor.rest

/-- Past the blank text that may stand between nodes. -/
def nodeBlank (cursor : Cursor) : Reading Cursor :=
  skipBlank true .plain cursor.offset cursor.rest

end Cursor

end ReverseProxy.Kdl
