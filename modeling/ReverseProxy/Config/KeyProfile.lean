import ReverseProxy.Kdl.Writer
import ReverseProxy.Schema.Claims
import ReverseProxy.Validation

/-!
# Cache key profiles

A profile says how a cache key is built: from a template, with a fallback for it, a hash algorithm
and transforms that are applied in order.

    key "${cookie_session}" fallback="${client_ip}:${user_agent}"
    algorithm name="xxhash32" seed="idk"
    transforms-order {
        remove-query-params
        truncate length="256"
    }
-/

namespace ReverseProxy.Config

open Kdl Schema

structure HashAlgorithm where
  name : String
  seed : Option String
  deriving DecidableEq

def HashAlgorithm.defaultName : String := "xxhash64"

def HashAlgorithm.default : HashAlgorithm := ⟨defaultName, none⟩

structure Transform where
  name : String
  parameters : Dictionary String
  deriving DecidableEq

structure KeyProfile where
  source : String
  fallback : Option String
  algorithm : HashAlgorithm
  transforms : List Transform
  deriving DecidableEq

/-- The template is the first entry, and options are looked for behind it. -/
def KeyProfile.readKey (focus : Focus) : Checked (String × Option String) := do
  let source ← (← focus.firstEntry).asString
  let options ← focus.allowedTexts 1 none ["fallback"]
  return (source, options.get? "fallback")

def HashAlgorithm.read (focus : Focus) : Checked HashAlgorithm := do
  let options ← focus.allowedTexts 0 none ["name", "seed"]
  return ⟨(options.get? "name").getD defaultName, options.get? "seed"⟩

def Transform.read (node : Node) : Checked Transform := do
  return ⟨node.name, ← (Focus.node node).texts⟩

def Transform.readAll (focus : Focus) : Checked (List Transform) := do
  (← focus.children).mapM Transform.read

def KeyProfile.read (focus : Focus) : Check KeyProfile :=
  Claiming.run focus do
    let (source, fallback) ← Claiming.required "key" fun focus => KeyProfile.readKey focus
    let algorithm ← Claiming.optional "algorithm" fun focus => HashAlgorithm.read focus
    let transforms ← Claiming.optional "transforms-order" fun focus => Transform.readAll focus
    Claiming.finish
    return ⟨source, fallback, algorithm.getD .default, transforms.getD []⟩

def Transform.line (transform : Transform) : String :=
  writeName transform.name ++ writeTexts transform.parameters.entries

def KeyProfile.lines (profile : KeyProfile) : List String :=
  let key := "key " ++ quote profile.source ++
    writeProperties [("fallback", profile.fallback.map .text)]
  let algorithm := "algorithm" ++
    writeProperties
      [("name", some (.text profile.algorithm.name)), ("seed", profile.algorithm.seed.map .text)]
  let transforms :=
    if profile.transforms.isEmpty then []
    else writeBlock "transforms-order" (profile.transforms.map Transform.line)
  key :: algorithm :: transforms

def HashAlgorithm.toJson (algorithm : HashAlgorithm) : Json :=
  .object [("name", .string algorithm.name), ("seed", .ofOption .string algorithm.seed)]

def Transform.toJson (transform : Transform) : Json :=
  .object
    [("name", .string transform.name), ("params", .ofDictionary .string transform.parameters)]

def KeyProfile.toJson (profile : KeyProfile) : Json :=
  .object
    [("source", .string profile.source), ("fallback", .ofOption .string profile.fallback),
      ("algorithm", profile.algorithm.toJson),
      ("transforms", .ofList Transform.toJson profile.transforms)]

def HashAlgorithm.validate : Json → Validated HashAlgorithm :=
  .record "HashAlgorithm" fun fields =>
    HashAlgorithm.mk <$> .optional fields "name" defaultName .string
      <*> .optional fields "seed" none (.nullable .string)

def Transform.validate : Json → Validated Transform :=
  .record "Transform" fun fields =>
    Transform.mk <$> .required fields "name" .string
      <*> .optional fields "params" ∅ (.dictionary .string)

def KeyProfile.validate : Json → Validated KeyProfile :=
  .record "KeyTemplateConfig" fun fields =>
    KeyProfile.mk <$> .required fields "source" .string
      <*> .optional fields "fallback" none (.nullable .string)
      <*> .optional fields "algorithm" .default HashAlgorithm.validate
      <*> .optional fields "transforms" [] (.list Transform.validate)

end ReverseProxy.Config
