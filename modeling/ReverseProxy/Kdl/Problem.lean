import ReverseProxy.Decimal.Integer
import ReverseProxy.Kdl.Document
import ReverseProxy.Text.Literal

/-!
# Why a text is not a document

A text is refused for a problem at a span of it. Apart from that, a decimal integer beyond the limit
on digits stops the reader without a place.
-/

namespace ReverseProxy.Kdl

open Decimal

/-- What was wrong, and where; or an integer whose decimal text is too long to convert. -/
inductive Failure (Problem : Type) where
  | located (problem : Problem) (span : Span)
  | digits (limit : DigitLimit)
  deriving DecidableEq, Repr

/-- At the end of the text there is no character to name. -/
inductive ReadProblem where
  | openComment
  | continuation
  | strayBrace
  | noSpaceBeforeEntry
  | textAfterBlock
  | tooDeep
  | openBlock
  | noName
  | unexpected (found : Option Char)
  | noValue
  | badNumber (token : String)
  | unknownKeyword (token : String)
  | openType
  | openString
  | badCodePoint
  | badEscape (found : Option Char)
  | openRawString
  deriving DecidableEq, Repr

def ReadProblem.message : ReadProblem → String
  | .openComment => "Unterminated block comment"
  | .continuation => "Expected a newline after line continuation"
  | .strayBrace => "Unexpected '\x7d' outside of a children block"
  | .noSpaceBeforeEntry => "Expected whitespace before node entry"
  | .textAfterBlock => "Expected end of node after children block"
  | .tooDeep => "Children blocks nested too deeply"
  | .openBlock => "Unclosed children block"
  | .noName => "Expected a node name"
  | .unexpected found => "Unexpected character " ++ Text.literal (String.ofList found.toList)
  | .noValue => "Expected a value after '='"
  | .badNumber token => s!"Invalid number literal '{token}'"
  | .unknownKeyword token => s!"Unknown keyword '{token}'"
  | .openType => "Unclosed type annotation"
  | .openString => "Unterminated string"
  | .badCodePoint => "Invalid unicode escape"
  | .badEscape found => "Invalid escape sequence '\\" ++ String.ofList found.toList ++ "'"
  | .openRawString => "Unterminated raw string"

end ReverseProxy.Kdl
