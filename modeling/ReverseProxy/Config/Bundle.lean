import ReverseProxy.Config.Chain
import ReverseProxy.Config.KeyProfile
import ReverseProxy.Config.Service

/-!
# Bundles

Everything one document defines: its services, at least one, and the filter chains and key profiles
among its definitions, each under a name of its own.

    services {
        api-gateway { ... }
    }
    definitions {
        chain-filters "auth" { ... }
        key-profile "by-path" { ... }
    }
-/

namespace ReverseProxy.Config

open Kdl Schema

structure Bundle where
  sourceName : String
  services : List Service
  chains : Dictionary Chain
  keyProfiles : Dictionary KeyProfile
  deriving DecidableEq

structure Definitions where
  chains : Dictionary Chain
  keyProfiles : Dictionary KeyProfile

namespace Bundle

/-- Services in order, none of which has a name that is already taken. -/
def readServices (taken : List String) : List Node → Check (List Service)
  | [] => return []
  | node :: nodes => do
      if node.name ∈ taken then
        liftM ((Focus.node node).reject (α := Unit) (.duplicateService node.name))
      let service ← Service.read none (.node node)
      return service :: (← readServices (node.name :: taken) nodes)

/-- The only entry of a definition, which is its name. -/
def definitionName (focus : Focus) : Checked String := do
  let directive ← focus.name
  let entries ← focus.entries
  match entries.find? fun entry => !entry.isPositional with
  | some entry => reject (.propertyForName directive (entry.key.getD "")) entry.span
  | none =>
      match entries with
      | _ :: second :: _ => reject (.severalNames directive) second.span
      | _ => (← focus.positional 0).asString

structure Named (α : Type) where
  focus : Focus
  name : String
  value : α

def readNamed {α : Type} (read : Focus → Check α) (focus : Focus) : Check (Named α) := do
  let name ← liftM (definitionName focus)
  return ⟨focus, name, ← read focus⟩

def collectNamed {α : Type} : List (Named α) → Dictionary α → Checked (Dictionary α)
  | [], values => .ok values
  | named :: rest, values =>
      if isNew : named.name ∉ values.keys then
        collectNamed rest (values.push named.name named.value isNew)
      else do
        named.focus.reject (.duplicateDefinition (← named.focus.name) named.name)

def readDefinitions (focus : Focus) : Check Definitions :=
  Claiming.run focus do
    let chains ← Claiming.repeated "chain-filters" (readNamed Chain.read)
    let chains ← Claiming.lift (collectNamed chains ∅)
    let profiles ← Claiming.repeated "key-profile" (readNamed KeyProfile.read)
    let profiles ← Claiming.lift (collectNamed profiles ∅)
    Claiming.finish
    return ⟨chains, profiles⟩

def read (sourceName : String) (focus : Focus) : Check Bundle :=
  Claiming.run focus do
    let services ← Claiming.required "services" fun focus => do
      readServices [] (← liftM focus.nonemptyChildren)
    let definitions ← Claiming.optional "definitions" readDefinitions
    Claiming.finish
    let definitions := definitions.getD ⟨∅, ∅⟩
    return ⟨sourceName, services, definitions.chains, definitions.keyProfiles⟩

def ofDocument (sourceName : String) (document : Document) : Check Bundle := do
  let bundle ← read sourceName (.document document)
  Logged.note (.bundle sourceName bundle.services.length bundle.chains.size bundle.keyProfiles.size)
  return bundle

def chainLines : String × Chain → List String
  | (name, chain) => writeBlock ("chain-filters " ++ quote name) chain.lines

def keyProfileLines : String × KeyProfile → List String
  | (name, profile) => writeBlock ("key-profile " ++ quote name) profile.lines

def lines (bundle : Bundle) : List String :=
  let services := writeBlock "services" (bundle.services.flatMap Service.lines)
  let definitions :=
    bundle.chains.entries.flatMap chainLines ++ bundle.keyProfiles.entries.flatMap keyProfileLines
  if definitions.isEmpty then services
  else services ++ "" :: writeBlock "definitions" definitions

def toJson (bundle : Bundle) : Json :=
  .object
    [("source_name", .string bundle.sourceName),
      ("services", .ofList Service.toJson bundle.services),
      ("chains", .ofDictionary Chain.toJson bundle.chains),
      ("key_profiles", .ofDictionary KeyProfile.toJson bundle.keyProfiles)]

def validate : Json → Validated Bundle :=
  .record "ConfigBundle" fun fields =>
    Bundle.mk <$> .required fields "source_name" .string
      <*> .optional fields "services" [] (.list Service.validate)
      <*> .optional fields "chains" ∅ (.dictionary Chain.validate)
      <*> .optional fields "key_profiles" ∅ (.dictionary KeyProfile.validate)

end Bundle

end ReverseProxy.Config
