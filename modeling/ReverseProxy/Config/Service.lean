import ReverseProxy.Config.Connectors
import ReverseProxy.Config.Listeners

/-!
# Services

A service is a node with its listeners and its connectors, named by the node unless another name is
given.

    api-gateway {
        listeners { ... }
        connectors { ... }
    }
-/

namespace ReverseProxy.Config

open Kdl Schema

structure Service where
  name : String
  listeners : Listeners
  connectors : Connectors
  deriving DecidableEq

/-- The given name, if it is not empty, before that of the node. -/
def Service.chooseName (given : Option String) (focus : Focus) : Checked String :=
  match given with
  | some name => if name = "" then focus.name else .ok name
  | none => focus.name

def Service.read (given : Option String) (focus : Focus) : Check Service := do
  let name ← liftM (Service.chooseName given focus)
  Claiming.run focus do
    let listeners ← Claiming.required "listeners" Listeners.read
    let connectors ← Claiming.required "connectors" Connectors.read
    Claiming.finish
    Claiming.note (.service name)
    return ⟨name, listeners, connectors⟩

def Service.lines (service : Service) : List String :=
  writeBlock (writeName service.name) (service.listeners.lines ++ service.connectors.lines)

def Service.toJson (service : Service) : Json :=
  .object
    [("name", .string service.name), ("listeners", service.listeners.toJson),
      ("connectors", service.connectors.toJson)]

def Service.validate : Json → Validated Service :=
  .record "ProxyConfig" fun fields =>
    Service.mk <$> .required fields "name" .string
      <*> .required fields "listeners" Listeners.validate
      <*> .required fields "connectors" Connectors.validate

end ReverseProxy.Config
