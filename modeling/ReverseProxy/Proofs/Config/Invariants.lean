import ReverseProxy.Proofs.Config.RoundTrip

/-!
# What holds of every bundle

What the sections check of their own parts holds of the whole bundle: there is something to serve,
names are distinct, and no setting depends on one that is missing.
-/

namespace ReverseProxy.Config.Bundle

open Kdl Schema

/-- Addresses and qualified names are those that their texts are read as. -/
def IsCanonical (bundle : Bundle) : Prop :=
  (∀ service ∈ bundle.services,
    (∀ listener ∈ service.listeners.listeners,
      SocketAddress.parse listener.address.text = .ok listener.address) ∧
    ∀ upstream ∈ service.connectors.upstreams,
      SocketAddress.parse upstream.address.text = .ok upstream.address) ∧
  ∀ entry ∈ bundle.chains.entries, ∀ filter ∈ entry.2.filters,
    Fqdn.parse filter.name.text = .ok filter.name

/-- A valid bundle is in canonical form: writing and reading each of its values changes nothing. -/
theorem isCanonical_of_valid {bundle : Bundle} (hvalid : bundle.Valid) :
    bundle.IsCanonical := by
  constructor
  · intro service _
    exact ⟨fun listener _ => SocketAddress.parse_text listener.address,
      fun upstream _ => SocketAddress.parse_text upstream.address⟩
  · intro entry hentry filter hfilter
    obtain ⟨⟨text, htext⟩, -⟩ := hvalid.chains_valid entry hentry filter hfilter
    exact Fqdn.parse_text htext

/-- **Every bundle is consistent.** It has services under distinct names, each with listeners and
upstreams; HTTP/2 is offered only with a certificate and spoken only with a server name; a load
balancer has a key exactly if it hashes; no argument of a filter takes the place of its name; and
addresses and names are canonical. -/
theorem consistent_of_ofDocument {sourceName : String} {document : Document} {bundle : Bundle}
    (hread : (ofDocument sourceName document).result = .ok bundle) :
    bundle.services ≠ [] ∧ (bundle.services.map Service.name).Nodup ∧
      (∀ service ∈ bundle.services,
        service.listeners.listeners ≠ [] ∧ service.connectors.upstreams ≠ [] ∧
        (∀ listener ∈ service.listeners.listeners,
          listener.offersHttp2 = true → listener.tls ≠ none) ∧
        (∀ upstream ∈ service.connectors.upstreams,
          upstream.protocol ≠ .http1 → upstream.serverName ≠ none) ∧
        ∀ balance ∈ service.connectors.loadBalance,
          (balance.key ≠ none ↔ balance.selection.isHashing = true)) ∧
      (∀ entry ∈ bundle.chains.entries, ∀ filter ∈ entry.2.filters,
        "name" ∉ filter.arguments.keys) ∧
      bundle.IsCanonical := by
  have hvalid := valid_of_read (ofDocument_eq_ok.mp hread)
  refine ⟨hvalid.services_ne_nil, hvalid.nodup_names, ?_, ?_, isCanonical_of_valid hvalid⟩
  · intro service hservice
    obtain ⟨⟨hlisteners, htls⟩, hupstreams, hprotocol, hbalance⟩ :=
      hvalid.services_valid service hservice
    exact ⟨hlisteners, hupstreams, htls, hprotocol, hbalance⟩
  · intro entry hentry filter hfilter
    exact (hvalid.chains_valid entry hentry filter hfilter).2

/-- A service with TLS on both sides that hashes requests, and a chain with a named filter. -/
theorem consistent_of_ofDocument_balanced :
    let named (key value : String) : Entry := ⟨some key, .string value, ⟨0, 0⟩⟩
    let leaf (name : String) (entries : List Entry) : Node := ⟨name, ⟨0, 0⟩, ⟨0, 0⟩, entries, none⟩
    let parent (name : String) (entries : List Entry) (nodes : List Node) : Node :=
      ⟨name, ⟨0, 0⟩, ⟨0, 0⟩, entries, some ⟨nodes, ⟨0, 0⟩⟩⟩
    let document : Document :=
      ⟨[parent "services" [] [parent "a" []
          [parent "listeners" [] [leaf "1.1.1.1:1" [named "cert-path" "c", named "key-path" "k"]],
            parent "connectors" []
              [leaf "load-balance" [named "selection" "ketama", named "key" "u"],
                leaf "upstream" [⟨none, .string "1.1.1.1:1", ⟨0, 0⟩⟩, named "tls-sni" "s",
                  named "proto" "h2-only"]]]],
        parent "definitions" [] [parent "chain-filters" [⟨none, .string "c", ⟨0, 0⟩⟩]
          [leaf "filter" [named "name" "x.y", named "k" "v"]]]], ⟨0, 0⟩⟩
    let address : SocketAddress := ⟨.v4 ⟨[1, 1, 1, 1], rfl⟩, 1⟩
    let listener : Listener := ⟨address, some ⟨Path.parse "c", Path.parse "k"⟩, true⟩
    let upstream : Upstream := ⟨address, some "s", .http2⟩
    let service : Service := ⟨"a", ⟨[listener]⟩, ⟨[upstream], some ⟨.ketama, some "u"⟩⟩⟩
    let filter : Filter := ⟨⟨"x.y"⟩, ⟨[("k", "v")], by decide⟩⟩
    let bundle : Bundle := ⟨"", [service], ⟨[("c", ⟨[filter]⟩)], by decide⟩, ∅⟩
    (ofDocument "" document).result = .ok bundle ∧ bundle.services ≠ [] ∧
      "name" ∉ filter.arguments.keys ∧ bundle.IsCanonical := by
  intro named leaf parent document address listener upstream service filter bundle
  have hread : (ofDocument "" document).result = .ok bundle := by decide +kernel
  obtain ⟨hservices, -, -, hfilters, hcanonical⟩ := consistent_of_ofDocument hread
  exact ⟨hread, hservices,
    hfilters ("c", ⟨[filter]⟩) List.mem_cons_self filter List.mem_cons_self, hcanonical⟩

end ReverseProxy.Config.Bundle
