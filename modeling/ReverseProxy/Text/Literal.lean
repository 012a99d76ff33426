import ReverseProxy.Text.Hex
import ReverseProxy.Text.Printable

/-!
# Quoted literals in messages

A text shown inside a message stands in apostrophes, or in quotation marks if it holds an apostrophe
and no quotation mark. Inside, the enclosing mark and the backslash are escaped, and a character
that is not printable is written by its code point.
-/

namespace ReverseProxy.Text

/-- An unprintable character by its code point, in the shortest of three widths. -/
def escapedCodePoint (c : Char) : List Char :=
  if c.toNat ≤ 0xff then '\\' :: 'x' :: hexPadded 2 c.toNat
  else if c.toNat ≤ 0xffff then '\\' :: 'u' :: hexPadded 4 c.toNat
  else '\\' :: 'U' :: hexPadded 8 c.toNat

def literalChar (mark c : Char) : List Char :=
  if c = mark ∨ c = '\\' then ['\\', c]
  else if c = '\n' then ['\\', 'n']
  else if c = '\r' then ['\\', 'r']
  else if c = '\t' then ['\\', 't']
  else if isPrintable c then [c]
  else escapedCodePoint c

def literalMark (text : String) : Char :=
  if text.toList.contains '\'' && !text.toList.contains '"' then '"' else '\''

def literal (text : String) : String :=
  let mark := literalMark text
  String.ofList (mark :: (text.toList.flatMap (literalChar mark) ++ [mark]))

def literalList (texts : List String) : String :=
  "[" ++ ", ".intercalate (texts.map literal) ++ "]"

end ReverseProxy.Text
