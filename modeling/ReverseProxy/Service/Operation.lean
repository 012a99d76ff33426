import ReverseProxy.Loading
import ReverseProxy.Service.Result

/-!
# Operations

What can be done with the documents of a path: check them and count what they define, give their
content as plain data, or write them in canonical form. A failure of loading becomes a result unless
it aborts.
-/

namespace ReverseProxy

open Config Kdl

inductive Operation where
  | check
  | dump
  | format
  deriving DecidableEq, Repr

namespace Operation

def name : Operation → String
  | .check => "check"
  | .dump => "show"
  | .format => "fmt"

def all : List Operation := [.check, .dump, .format]

def ofName? (name : String) : Option Operation := all.find? fun operation => operation.name = name

end Operation

def Config.Bundle.text (bundle : Bundle) : String := joinLines bundle.lines

def Config.Service.listenerCount (service : Service) : Nat := service.listeners.listeners.length

def Config.Service.upstreamCount (service : Service) : Nat := service.connectors.upstreams.length

namespace Operation

def total : List Nat → Nat
  | [] => 0
  | count :: counts => count + total counts

def summary (bundles : List Bundle) : List (String × Json) :=
  let services := bundles.flatMap Bundle.services
  [("files", .ofList (fun bundle => .string bundle.sourceName) bundles),
    ("services", .ofList (fun service => .string service.name) services),
    ("listeners", .ofNat (total (services.map Service.listenerCount))),
    ("upstreams", .ofNat (total (services.map Service.upstreamCount))),
    ("chains", .ofNat (total (bundles.map fun bundle => bundle.chains.size))),
    ("key_profiles", .ofNat (total (bundles.map fun bundle => bundle.keyProfiles.size)))]

def texts (bundles : List Bundle) : Dictionary String :=
  .ofList (bundles.map fun bundle => (bundle.sourceName, bundle.text))

def data (bundles : List Bundle) : Operation → List (String × Json)
  | .check => summary bundles
  | .dump => [("bundles", .ofList Bundle.toJson bundles)]
  | .format => [("documents", .ofDictionary .string (texts bundles))]

def report (operation : Operation) : LoadFailure → Logged Abort Result
  | .diagnostic diagnostic => do
      Logged.note
        (.failed operation.name diagnostic.kind.code diagnostic.source.name diagnostic.line)
      return Result.failure operation.name diagnostic.error
  | .source problem =>
      return Result.failure operation.name ⟨"SOURCE", problem.message, []⟩
  | .abort abort => liftM (Except.error (α := Result) abort)

/-- The result for documents that come from a path. -/
def run (operation : Operation) (path : Path) (documents : Loading (List (Source × Document))) :
    Logged Abort Result :=
  let loaded := loadBundles path documents
  match loaded.result with
  | .ok bundles => ⟨loaded.log, .ok (Result.success operation.name (operation.data bundles))⟩
  | .error failure =>
      let report := operation.report failure
      ⟨loaded.log ++ report.log, report.result⟩

end Operation

end ReverseProxy
