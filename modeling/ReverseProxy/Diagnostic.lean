import ReverseProxy.Kdl.Problem

/-!
# Diagnostics

A diagnostic names what is wrong with a document and points into its text. Lines end at line feeds
alone. The pointer shows the line on which the span starts and underlines what the span covers of
it, one character at least.
-/

namespace ReverseProxy

open Kdl (Span)

inductive DiagnosticKind where
  | general
  | structural
  | missingRequired
  | unknownDirective
  | unknownKey
  | typeMismatch
  | format
  | mutualExclusion
  | duplicateName
  | malformed
  deriving DecidableEq, Repr

def DiagnosticKind.code : DiagnosticKind → String
  | .general => "CONFIG_ERROR"
  | .structural => "STRUCTURAL"
  | .missingRequired => "MISSING_REQUIRED"
  | .unknownDirective => "UNKNOWN_DIRECTIVE"
  | .unknownKey => "UNKNOWN_KEY"
  | .typeMismatch => "TYPE_MISMATCH"
  | .format => "FORMAT"
  | .mutualExclusion => "MUTUAL_EXCLUSION"
  | .duplicateName => "DUPLICATE_NAME"
  | .malformed => "SYNTAX"

structure Source where
  name : String
  text : String
  deriving DecidableEq, Repr

structure Diagnostic where
  kind : DiagnosticKind
  message : String
  span : Span
  source : Source
  deriving DecidableEq, Repr

namespace Diagnostic

variable (diagnostic : Diagnostic)

def before : List Char := diagnostic.source.text.toList.take diagnostic.span.offset

def after : List Char := diagnostic.source.text.toList.drop diagnostic.span.offset

/-- What precedes the span on its line. -/
def lineHead : List Char :=
  (diagnostic.before.reverse.takeWhile (· ≠ '\n')).reverse

def lineTail : List Char := diagnostic.after.takeWhile (· ≠ '\n')

def line : Nat := diagnostic.before.count '\n' + 1

def lineStart : Nat := diagnostic.before.length - diagnostic.lineHead.length

def column : Nat := diagnostic.span.offset - diagnostic.lineStart + 1

def caretCount : Nat := max 1 (min diagnostic.span.length diagnostic.lineTail.length)

def location : String :=
  s!"  --> {diagnostic.source.name}:{diagnostic.line}:{diagnostic.column}"

def spaces (count : Nat) : String := String.ofList (List.replicate count ' ')

/-- The rows that show the line with carets below it. -/
def snippet : List String :=
  let gutter := spaces (toString diagnostic.line).length
  let shown := String.ofList (diagnostic.lineHead ++ diagnostic.lineTail)
  let carets := String.ofList (List.replicate diagnostic.caretCount '^')
  [s!" {gutter} |",
    s!" {diagnostic.line} | {shown}",
    s!" {gutter} | {spaces (diagnostic.column - 1)}{carets}"]

/-- What follows the message: the location and, if there is a text, the line in question. -/
def pointer : List String :=
  diagnostic.location :: if diagnostic.source.text.isEmpty then [] else diagnostic.snippet

def help : String := "\n".intercalate (diagnostic.message :: diagnostic.pointer)

end Diagnostic

end ReverseProxy
