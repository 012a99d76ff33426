import ReverseProxy.Kdl.Writer
import ReverseProxy.Schema.Claims
import ReverseProxy.Schema.Rule
import ReverseProxy.Validation

/-!
# Filter chains

A chain applies filters in order. A filter has a qualified name, and every other property of its
directive is an argument.

    filter name="com.example.auth"
    filter name="com.example.logger" level="debug" format="json"
-/

namespace ReverseProxy.Config

open Kdl Schema

structure Filter where
  name : Fqdn
  arguments : Dictionary String
  deriving DecidableEq

structure Chain where
  filters : List Filter
  deriving DecidableEq

def Filter.read (focus : Focus) : Checked Filter := do
  focus.validate [.noBlock, .noPositional]
  let name ← (← focus.property "name").parseAs TextType.fqdn
  let texts ← focus.texts
  return ⟨name, texts.erase "name"⟩

def Chain.read (focus : Focus) : Check Chain :=
  Claiming.run focus do
    let filters ← Claiming.repeated "filter" fun focus => Filter.read focus
    Claiming.finish
    return ⟨filters⟩

def Filter.line (filter : Filter) : String :=
  "filter name=" ++ quote filter.name.text ++ writeTexts filter.arguments.entries

def Chain.lines (chain : Chain) : List String := chain.filters.map Filter.line

def Filter.toJson (filter : Filter) : Json :=
  .object
    [("name", .string filter.name.text), ("args", .ofDictionary .string filter.arguments)]

def Chain.toJson (chain : Chain) : Json :=
  .object [("filters", .ofList Filter.toJson chain.filters)]

def Filter.validate : Json → Validated Filter :=
  .record "ConfiguredFilter" fun fields =>
    Filter.mk <$> .required fields "name" .fqdn
      <*> .optional fields "args" ∅ (.dictionary .string)

def Chain.validate : Json → Validated Chain :=
  .record "FilterChain" fun fields =>
    Chain.mk <$> .optional fields "filters" [] (.list Filter.validate)

end ReverseProxy.Config
