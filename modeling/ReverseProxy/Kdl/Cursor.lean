import ReverseProxy.Kdl.Problem

/-!
# Positions in a text

A cursor is what is left of the text together with the number of characters before it. The classes
of characters settle where a bare token ends.
-/

namespace ReverseProxy.Kdl

def isNewline (c : Char) : Bool :=
  ['\n', '\r', '\x0c', '\u0085', '\u2028', '\u2029'].contains c

def isInlineSpace (c : Char) : Bool :=
  [' ', '\t', '\ufeff', '\u00a0', '\u1680', '\u2000', '\u2001', '\u2002', '\u2003', '\u2004',
    '\u2005', '\u2006', '\u2007', '\u2008', '\u2009', '\u200a', '\u202f', '\u205f',
    '\u3000'].contains c

def isTokenChar (c : Char) : Bool :=
  !(['\\', '/', '(', ')', '\x7b', '\x7d', '<', '>', ';', '[', ']', '=', ',', '"'].contains c ||
    isNewline c || isInlineSpace c)

structure Cursor where
  offset : Nat
  rest : List Char
  deriving DecidableEq, Repr

namespace Cursor

def ofText (text : List Char) : Cursor := ⟨0, text⟩

def skip (cursor : Cursor) (count : Nat) : Cursor :=
  ⟨cursor.offset + count, cursor.rest.drop count⟩

def takeWhile (cursor : Cursor) (accept : Char → Bool) : List Char × Cursor :=
  let taken := cursor.rest.takeWhile accept
  (taken, cursor.skip taken.length)

def token (cursor : Cursor) : List Char × Cursor := cursor.takeWhile isTokenChar

def lineEnd (cursor : Cursor) : Cursor := (cursor.takeWhile fun c => !isNewline c).2

def spanTo (start finish : Cursor) : Span := ⟨start.offset, finish.offset - start.offset⟩

/-- One character, whether there is one or the text has ended. -/
def here (cursor : Cursor) : Span := ⟨cursor.offset, 1⟩

@[simp]
theorem skip_offset (cursor : Cursor) (count : Nat) :
    (cursor.skip count).offset = cursor.offset + count := rfl

@[simp]
theorem skip_rest (cursor : Cursor) (count : Nat) :
    (cursor.skip count).rest = cursor.rest.drop count := rfl

end Cursor

/-- What a reader makes of the text at a cursor, or why it makes nothing of it. A reader of values
yields the cursor where it stopped as well. -/
abbrev Reading := Except (Failure ReadProblem)

def refuse {α : Type} (problem : ReadProblem) (span : Span) : Reading α :=
  .error (.located problem span)

end ReverseProxy.Kdl
