import ReverseProxy.Kdl.Writer
import ReverseProxy.Schema.Claims
import ReverseProxy.Schema.Rule
import ReverseProxy.Validation

/-!
# Listeners

A service listens on socket addresses. Each is a node of that name; with a certificate and a key it
terminates TLS, and offers HTTP/2 unless told otherwise.

    listeners {
        "0.0.0.0:80"
        "0.0.0.0:443" cert-path="./cert.pem" key-path="./key.pem" offer-h2=#true
    }
-/

namespace ReverseProxy.Config

open Kdl Schema

structure Tls where
  certificate : Path
  key : Path
  deriving DecidableEq

structure Listener where
  address : SocketAddress
  tls : Option Tls
  offersHttp2 : Bool
  deriving DecidableEq

structure Listeners where
  listeners : List Listener
  deriving DecidableEq

def Listener.rules : List Rule :=
  [.noBlock, .noPositional,
    .onlyKeys ⟨[("cert-path", .string), ("key-path", .string), ("offer-h2", .boolean)], by decide⟩,
    .nameIs .socketAddress]

/-- The certificate and the key come together, and HTTP/2 is only offered over TLS. -/
def Listener.combine (focus : Focus) (address : SocketAddress) (certificate key : Option String)
    (http2 : Option Bool) : Checked Listener :=
  match certificate, key with
  | some certificate, some key =>
      .ok ⟨address, some ⟨Path.parse certificate, Path.parse key⟩, http2.getD true⟩
  | none, none =>
      if http2.isSome then focus.reject .http2WithoutTls else .ok ⟨address, none, false⟩
  | _, _ => focus.reject .halfTls

def Listener.read (focus : Focus) : Checked Listener := do
  focus.validate rules
  let address ← focus.parseName TextType.socketAddress
  let certificate ← focus.property? "cert-path"
  let key ← focus.property? "key-path"
  let http2 ← focus.property? "offer-h2"
  let certificate ← certificate.mapM Entry.asString
  let key ← key.mapM Entry.asString
  let http2 ← http2.mapM Entry.asBool
  combine focus address certificate key http2

def Listeners.read (focus : Focus) : Check Listeners := do
  focus.expectName "listeners"
  let nodes ← focus.nonemptyChildren
  let listeners ← nodes.mapM fun node => Listener.read (.node node)
  Logged.note (.listeners listeners.length)
  return ⟨listeners⟩

def Listener.line (listener : Listener) : String :=
  quote listener.address.text ++
    match listener.tls with
    | none => ""
    | some tls =>
        writeProperties
          [("cert-path", some (.text tls.certificate.text)),
            ("key-path", some (.text tls.key.text)),
            ("offer-h2", some (.flag listener.offersHttp2))]

def Listeners.lines (listeners : Listeners) : List String :=
  writeBlock "listeners" (listeners.listeners.map Listener.line)

def Tls.toJson (tls : Tls) : Json :=
  .object [("cert_path", .string tls.certificate.text), ("key_path", .string tls.key.text)]

def Listener.toJson (listener : Listener) : Json :=
  .object [("source", .object
    [("addr", .string listener.address.text), ("tls", .ofOption Tls.toJson listener.tls),
      ("offer_h2", .boolean listener.offersHttp2)])]

def Listeners.toJson (listeners : Listeners) : Json :=
  .object [("listeners", .ofList Listener.toJson listeners.listeners)]

def Tls.validate : Json → Validated Tls :=
  .record "TlsConfig" fun fields =>
    Tls.mk <$> .required fields "cert_path" .path <*> .required fields "key_path" .path

def Listener.validate : Json → Validated Listener :=
  .record "ListenerConfig" fun fields =>
    .required fields "source" <| .record "TcpListener" fun fields =>
      Listener.mk <$> .required fields "addr" .socketAddress
        <*> .optional fields "tls" none (.nullable Tls.validate)
        <*> .optional fields "offer_h2" false .boolean

def Listeners.validate : Json → Validated Listeners :=
  .record "Listeners" fun fields =>
    Listeners.mk <$> .optional fields "listeners" [] (.list Listener.validate)

end ReverseProxy.Config
