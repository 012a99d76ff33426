import ReverseProxy.Decimal.Layout
import ReverseProxy.Diagnostic

/-!
# What a document can get wrong

The problems that checking a document against a schema can find, each with its kind and its wording.
-/

namespace ReverseProxy.Schema

open Decimal Kdl

inductive Wanted where
  | string
  | boolean
  | positive
  deriving DecidableEq, Repr

def Wanted.description : Wanted → String
  | .string => "a string value"
  | .boolean => "a boolean"
  | .positive => "a positive integer"

inductive NameTest where
  | socketAddress
  | qualifiedName
  deriving DecidableEq, Repr

def NameTest.description : NameTest → String
  | .socketAddress => "socket address"
  | .qualifiedName => "qualified name"

inductive Problem where
  -- the focus
  | enterDocument
  | enterMissing
  | noBlock
  | emptyBlock (name : String)
  | notANode
  | notTheNode (expected : String)
  | wrongName (expected found : String)
  -- entries
  | range
  | keyNotAllowed (key : String) (allowed : List String)
  | noFirst
  | noPositional (position : Int)
  | noProperty (key : String)
  | mismatch (wanted : Wanted) (found : Scalar)
  | nullText
  | badText (type raw reason : String)
  -- rules
  | hasBlock (name : String)
  | hasPositional (name : String)
  | keyKind (key : String) (expected found : ScalarKind)
  | badName (name : String) (test : NameTest)
  -- directives of a block
  | claimAfterEnd (name : String)
  | secondEnd
  | noDirective (name : String)
  | unknownDirective (name : String)
  -- listeners and connectors
  | halfTls
  | http2WithoutTls
  | severalAddresses
  | protocolWithoutTls (protocol : String)
  | hashWithoutKey (selection : String)
  | keyWithoutHash (selection : String)
  -- services and definitions
  | duplicateService (name : String)
  | propertyForName (directive key : String)
  | severalNames (directive : String)
  | duplicateDefinition (directive name : String)
  deriving DecidableEq, Repr

def describe : Scalar → String
  | .string text => "String(" ++ Text.literal text ++ ")"
  | .integer value => "Integer(" ++ Decimal.text value ++ ")"
  | .float value => "Float(" ++ Layout.standard.write value ++ ")"
  | .boolean value => if value then "Boolean(true)" else "Boolean(false)"
  | .null => "Null"

namespace Problem

def kind : Problem → DiagnosticKind
  | .enterDocument | .enterMissing | .noBlock | .emptyBlock _ | .notANode | .notTheNode _
  | .wrongName .. | .range | .hasBlock _ | .hasPositional _ | .claimAfterEnd _ | .secondEnd
  | .severalAddresses | .propertyForName .. | .severalNames _ => .structural
  | .noFirst | .noPositional _ | .noProperty _ | .noDirective _ => .missingRequired
  | .unknownDirective _ => .unknownDirective
  | .keyNotAllowed .. => .unknownKey
  | .mismatch .. | .nullText | .keyKind .. => .typeMismatch
  | .badText .. | .badName .. => .format
  | .halfTls | .http2WithoutTls | .protocolWithoutTls _ | .hashWithoutKey _
  | .keyWithoutHash _ => .mutualExclusion
  | .duplicateService _ | .duplicateDefinition .. => .duplicateName

def message : Problem → String
  | .enterDocument => "Cannot enter block: current context is already a document root"
  | .enterMissing => "Expected a children block \x7b ... \x7d, but none found"
  | .noBlock => "Expected children block"
  | .emptyBlock name => s!"Block '{name}' cannot be empty"
  | .notANode => "Expected node, but current is a document"
  | .notTheNode expected => s!"Expected node '{expected}', but current is a document"
  | .wrongName expected found => s!"Expected '{expected}', found '{found}'"
  | .range => "Range out of bounds"
  | .keyNotAllowed key allowed =>
      s!"Unknown configuration key: '{key}'. Allowed keys are: " ++ Text.literalList allowed
  | .noFirst => "Missing required first argument"
  | .noPositional position =>
    "Missing required argument at position " ++ Decimal.text (position + 1)
  | .noProperty key => s!"Missing required property '{key}'"
  | .mismatch wanted found => "Expected " ++ wanted.description ++ ", found " ++ describe found
  | .nullText => "Cannot parse 'null' as a string or number"
  | .badText type raw reason => s!"Invalid {type} '{raw}'. Reason: {reason}"
  | .hasBlock name => s!"Directive '{name}' does not accept a children block"
  | .hasPositional name => s!"Directive '{name}' does not accept positional arguments"
  | .keyKind key expected found =>
      s!"Key '{key}' expects {expected.name}, found {found.name}"
  | .badName name test => s!"Node name '{name}' is not a valid {test.description}"
  | .claimAfterEnd name => s!"Block already exhausted; cannot claim '{name}'"
  | .secondEnd => "Block already exhausted"
  | .noDirective name => s!"Missing required directive '{name}'"
  | .unknownDirective name => s!"Unknown directive: '{name}'"
  | .halfTls =>
      "'cert-path' and 'key-path' must either BOTH be present, or NEITHER should be present"
  | .http2WithoutTls => "'offer-h2' requires TLS, specify 'cert-path' and 'key-path'"
  | .severalAddresses => "'upstream' takes exactly one address"
  | .protocolWithoutTls protocol => s!"proto '{protocol}' requires TLS, specify 'tls-sni'"
  | .hashWithoutKey selection => s!"selection '{selection}' hashes requests, specify 'key'"
  | .keyWithoutHash selection => s!"'key' is only used by hashing selections, not '{selection}'"
  | .duplicateService name => s!"Duplicate service name '{name}'"
  | .propertyForName directive key =>
      s!"'{directive}' takes a positional name, found property '{key}'"
  | .severalNames directive => s!"'{directive}' takes exactly one name"
  | .duplicateDefinition directive name => s!"Duplicate {directive} definition '{name}'"

end Problem

/-- What a check yields, or the first problem it found. -/
abbrev Checked := Except (Failure Problem)

def reject {α : Type} (problem : Problem) (span : Span) : Checked α :=
  .error (.located problem span)

end ReverseProxy.Schema
