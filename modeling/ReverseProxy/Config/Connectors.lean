import ReverseProxy.Kdl.Writer
import ReverseProxy.Schema.Claims
import ReverseProxy.Schema.Rule
import ReverseProxy.Validation

/-!
# Connectors

A service hands requests to one or more upstreams. A load balancer picks one of them; a strategy
that hashes requests needs to know by which key.

    connectors {
        load-balance selection="ketama" key="uri-path"
        upstream "10.0.0.1:443" tls-sni="api.example.com" proto="h2-or-h1"
        upstream "10.0.0.2:8080"
    }
-/

namespace ReverseProxy.Config

open Kdl Schema

inductive Protocol where
  | http1
  | http2
  | either
  deriving DecidableEq, Repr

namespace Protocol

def all : List Protocol := [.http1, .http2, .either]

def name : Protocol → String
  | .http1 => "h1-only"
  | .http2 => "h2-only"
  | .either => "h2-or-h1"

def ofName? (name : String) : Option Protocol := all.find? fun protocol => protocol.name = name

def notOne (name : String) : String := Text.literal name ++ " is not a valid UpstreamProto"

def type : TextType Protocol :=
  ⟨"UpstreamProto", fun text => match ofName? text with
    | some protocol => .ok protocol
    | none => .error (notOne text)⟩

end Protocol

inductive Selection where
  | roundRobin
  | random
  | fnvHash
  | ketama
  deriving DecidableEq, Repr

namespace Selection

def all : List Selection := [.roundRobin, .random, .fnvHash, .ketama]

def name : Selection → String
  | .roundRobin => "round-robin"
  | .random => "random"
  | .fnvHash => "fnv-hash"
  | .ketama => "ketama"

def ofName? (name : String) : Option Selection := all.find? fun selection => selection.name = name

def notOne (name : String) : String := Text.literal name ++ " is not a valid SelectionKind"

def type : TextType Selection :=
  ⟨"SelectionKind", fun text => match ofName? text with
    | some selection => .ok selection
    | none => .error (notOne text)⟩

def isHashing (selection : Selection) : Bool := selection = .fnvHash || selection = .ketama

end Selection

structure Upstream where
  address : SocketAddress
  serverName : Option String
  protocol : Protocol
  deriving DecidableEq

structure LoadBalance where
  selection : Selection
  key : Option String
  deriving DecidableEq

structure Connectors where
  upstreams : List Upstream
  loadBalance : Option LoadBalance
  deriving DecidableEq

def Upstream.rules : List Rule :=
  [.noBlock, .onlyKeys ⟨[("tls-sni", .string), ("proto", .string)], by decide⟩]

def Upstream.addressEntry (focus : Focus) : Checked Entry := do
  match (← focus.entries).filter Entry.isPositional with
  | _ :: second :: _ => Schema.reject .severalAddresses second.span
  | _ => focus.positional 0

def Upstream.read (focus : Focus) : Checked Upstream := do
  focus.validate rules
  let address ← (← addressEntry focus).parseAs TextType.socketAddress
  let serverName ← focus.property? "tls-sni"
  let protocol ← focus.property? "proto"
  let serverName ← serverName.mapM Entry.asString
  let protocol := (← protocol.mapM (Entry.parseAs · Protocol.type)).getD .http1
  if protocol ≠ .http1 ∧ serverName = none then
    focus.reject (.protocolWithoutTls protocol.name)
  else return ⟨address, serverName, protocol⟩

def LoadBalance.rules : List Rule :=
  [.noBlock, .noPositional,
    .onlyKeys ⟨[("selection", .string), ("key", .string)], by decide⟩]

def LoadBalance.read (focus : Focus) : Checked LoadBalance := do
  focus.validate rules
  let selection ← focus.property? "selection"
  let key ← focus.property? "key"
  let selection := (← selection.mapM (Entry.parseAs · Selection.type)).getD .roundRobin
  let key ← key.mapM Entry.asString
  if selection.isHashing ∧ key = none then focus.reject (.hashWithoutKey selection.name)
  else if key ≠ none ∧ ¬selection.isHashing then focus.reject (.keyWithoutHash selection.name)
  else return ⟨selection, key⟩

def Connectors.read (focus : Focus) : Check Connectors := do
  focus.expectName "connectors"
  Claiming.run focus do
    let loadBalance ← Claiming.optional "load-balance" fun focus => LoadBalance.read focus
    let upstreams ← Claiming.repeated "upstream" fun focus => Upstream.read focus
    if upstreams.isEmpty then Claiming.fail (.noDirective "upstream")
    Claiming.finish
    Claiming.note (.upstreams upstreams.length)
    return ⟨upstreams, loadBalance⟩

def LoadBalance.line (balance : LoadBalance) : String :=
  let key := if balance.selection.isHashing then balance.key else none
  "load-balance" ++
    writeProperties [("selection", some (.text balance.selection.name)), ("key", key.map .text)]

def Upstream.line (upstream : Upstream) : String :=
  "upstream " ++ quote upstream.address.text ++
    writeProperties
      [("tls-sni", upstream.serverName.map .text), ("proto", some (.text upstream.protocol.name))]

def Connectors.lines (connectors : Connectors) : List String :=
  writeBlock "connectors"
    (connectors.loadBalance.toList.map LoadBalance.line ++ connectors.upstreams.map Upstream.line)

def Upstream.toJson (upstream : Upstream) : Json :=
  .object
    [("addr", .string upstream.address.text), ("tls_sni", .ofOption .string upstream.serverName),
      ("proto", .string upstream.protocol.name)]

def LoadBalance.toJson (balance : LoadBalance) : Json :=
  .object
    [("selection", .string balance.selection.name), ("key", .ofOption .string balance.key)]

def Connectors.toJson (connectors : Connectors) : Json :=
  .object
    [("upstreams", .ofList Upstream.toJson connectors.upstreams),
      ("load_balance", .ofOption LoadBalance.toJson connectors.loadBalance)]

def Upstream.validate : Json → Validated Upstream :=
  .record "UpstreamConfig" fun fields =>
    Upstream.mk <$> .required fields "addr" .socketAddress
      <*> .optional fields "tls_sni" none (.nullable .string)
      <*> .optional fields "proto" .http1
        (.choice (Protocol.all.map Protocol.name) Protocol.ofName?)

def LoadBalance.validate : Json → Validated LoadBalance :=
  .record "LoadBalanceConfig" fun fields =>
    LoadBalance.mk
      <$> .optional fields "selection" .roundRobin
        (.choice (Selection.all.map Selection.name) Selection.ofName?)
      <*> .optional fields "key" none (.nullable .string)

def Connectors.validate : Json → Validated Connectors :=
  .record "Connectors" fun fields =>
    Connectors.mk <$> .optional fields "upstreams" [] (.list Upstream.validate)
      <*> .optional fields "load_balance" none (.nullable LoadBalance.validate)

end ReverseProxy.Config
