import ReverseProxy.Proofs.Config.Listeners
import ReverseProxy.Proofs.Schema.FirstValues

/-!
# Which nodes are listeners

A node is read as listeners exactly if each node in its block is one that says what a listener needs
and nothing else; and what it is read as is then settled by the first value of each key.
-/

namespace ReverseProxy.Config

open Kdl Schema

namespace Listener

/-- A node that says what a listener needs and nothing else. -/
structure IsAccepted (node : Node) : Prop where
  no_block : node.children = none
  named : ∀ entry ∈ node.entries, entry.key ≠ none
  typed : ∀ entry ∈ node.entries, ∀ key, entry.key = some key →
    ((key = "cert-path" ∨ key = "key-path") ∧ ∃ text, entry.value = .string text) ∨
      (key = "offer-h2" ∧ ∃ flag, entry.value = .boolean flag)
  address : ∃ address, SocketAddress.parse node.name = .ok address
  key_iff : node.HasKey "key-path" ↔ node.HasKey "cert-path"
  http2 : node.HasKey "offer-h2" → node.HasKey "cert-path"

/-- The listener has the address that the name of the node spells, its paths and its offer as the
node first says them; without paths it has no TLS, and without an offer it makes one over TLS. -/
structure IsReadFrom (node : Node) (listener : Listener) : Prop where
  address : SocketAddress.parse node.name = .ok listener.address
  tls : listener.tls = (node.text? "cert-path").bind fun certificate =>
    (node.text? "key-path").map fun key => ⟨Path.parse certificate, Path.parse key⟩
  http2 : listener.offersHttp2 = (node.flag? "offer-h2").getD listener.tls.isSome

/-- The keys of a listener and the kinds of their values. -/
theorem allowed_iff {key : String} {value : Scalar} :
    [("cert-path", ScalarKind.string), ("key-path", .string), ("offer-h2", .boolean)].lookup key =
        some value.kind ↔
      ((key = "cert-path" ∨ key = "key-path") ∧ ∃ text, value = .string text) ∨
        (key = "offer-h2" ∧ ∃ flag, value = .boolean flag) := by
  rw [lookup_eq_some_iff (by decide), ← Scalar.kind_eq_string, ← Scalar.kind_eq_boolean]
  simp only [List.mem_cons, List.not_mem_nil, Prod.mk.injEq, or_false]
  tauto

/-- What the rules ask for, said of the entries. -/
theorem rules_iff {node : Node} :
    (∀ rule ∈ rules, (Focus.node node).check rule = .ok ()) ↔
      node.children = none ∧ (∀ entry ∈ node.entries, entry.key ≠ none) ∧
        (∀ entry ∈ node.entries, ∀ key, entry.key = some key →
          ((key = "cert-path" ∨ key = "key-path") ∧ ∃ text, entry.value = .string text) ∨
            (key = "offer-h2" ∧ ∃ flag, entry.value = .boolean flag)) ∧
        ∃ address, SocketAddress.parse node.name = .ok address := by
  have haddress : (SocketAddress.parse node.name).isOk = true ↔
      ∃ address, SocketAddress.parse node.name = .ok address :=
    ⟨exists_of_isOk, fun ⟨address, hok⟩ => by rw [hok]; rfl⟩
  simp only [rules_hold_iff, Node.data, List.forall_mem_map, Option.mem_def, allowed_iff, haddress]
  rfl

namespace IsAccepted

variable {node : Node} (haccepted : IsAccepted node)

include haccepted

theorem path_string {key : String} (hpath : key = "cert-path" ∨ key = "key-path") :
    ∀ entry ∈ node.entries, entry.key = some key → ∃ text, entry.value = .string text := by
  intro entry hentry hkey
  rcases haccepted.typed entry hentry key hkey with ⟨-, htext⟩ | ⟨rfl, -⟩
  · exact htext
  · exact absurd hpath (by decide)

theorem offer_boolean : ∀ entry ∈ node.entries, entry.key = some "offer-h2" →
    ∃ flag, entry.value = .boolean flag := by
  intro entry hentry hkey
  rcases haccepted.typed entry hentry _ hkey with ⟨hpath, -⟩ | ⟨-, hflag⟩
  · exact absurd hpath (by decide)
  · exact hflag

end IsAccepted

/-- What is read from a node is settled by the first values of its keys. -/
theorem isReadFrom_of_read {node : Node} {listener : Listener}
    (hread : Listener.read (.node node) = .ok listener) : IsReadFrom node listener := by
  obtain ⟨-, haddress, certificate, key, http2, hcertificate, hkey, hhttp2, hcombine⟩ :=
    read_eq_ok.mp hread
  have hcert := Node.text?_of_value? hcertificate
  have hpath := Node.text?_of_value? hkey
  have hoffer := Node.flag?_of_value? hhttp2
  rcases combine_eq_ok.mp hcombine with ⟨cert, path, rfl, rfl, hlistener⟩ |
    ⟨rfl, rfl, rfl, hlistener⟩
  · exact ⟨haddress, by rw [hcert, hpath, hlistener]; rfl, by rw [hoffer, hlistener]; rfl⟩
  · exact ⟨haddress, by rw [hcert, hpath, hlistener]; rfl, by rw [hoffer, hlistener]; rfl⟩

/-- Every node that is read as a listener is one that is accepted. -/
theorem isAccepted_of_read {node : Node} {listener : Listener}
    (hread : Listener.read (.node node) = .ok listener) : IsAccepted node := by
  obtain ⟨hrules, -, certificate, key, http2, hcertificate, hkey, hhttp2, hcombine⟩ :=
    read_eq_ok.mp hread
  obtain ⟨hblock, hnamed, htyped, haddress⟩ := rules_iff.mp hrules
  refine ⟨hblock, hnamed, htyped, haddress, ?_, ?_⟩ <;>
    simp only [Node.hasKey_iff_of_value? hcertificate, Node.hasKey_iff_of_value? hkey,
      Node.hasKey_iff_of_value? hhttp2]
  · rcases combine_eq_ok.mp hcombine with ⟨cert, path, rfl, rfl, -⟩ | ⟨rfl, rfl, -⟩ <;> rfl
  · rcases combine_eq_ok.mp hcombine with ⟨cert, path, rfl, -⟩ | ⟨-, -, rfl, -⟩
    · exact fun _ => rfl
    · nofun

/-- An accepted node is read as some listener. -/
theorem IsAccepted.exists_read {node : Node} (haccepted : IsAccepted node) :
    ∃ listener, Listener.read (.node node) = .ok listener := by
  obtain ⟨address, haddress⟩ := haccepted.address
  have hcertificate := Node.value?_eq_text? (haccepted.path_string (.inl rfl))
  have hkey := Node.value?_eq_text? (haccepted.path_string (.inr rfl))
  have hhttp2 := Node.value?_eq_flag? haccepted.offer_boolean
  have hrules := rules_iff.mpr
    ⟨haccepted.no_block, haccepted.named, haccepted.typed, haccepted.address⟩
  have hboth := haccepted.key_iff
  have honly := haccepted.http2
  rw [Node.hasKey_iff_of_value? hkey, Node.hasKey_iff_of_value? hcertificate] at hboth
  rw [Node.hasKey_iff_of_value? hhttp2, Node.hasKey_iff_of_value? hcertificate] at honly
  cases hcert : node.text? "cert-path" with
  | none =>
      have hnokey : node.text? "key-path" = none := by simpa [hcert] using hboth
      have hnooffer : node.flag? "offer-h2" = none := by simpa [hcert] using honly
      exact ⟨⟨address, none, false⟩, read_eq_ok.mpr ⟨hrules, haddress, _, _, _, hcertificate, hkey,
        hhttp2, combine_eq_ok.mpr (.inr ⟨hcert, hnokey, hnooffer, rfl⟩)⟩⟩
  | some certificate =>
      obtain ⟨path, hpath⟩ := Option.isSome_iff_exists.mp (hboth.mpr (by rw [hcert]; rfl))
      exact ⟨⟨address, some ⟨Path.parse certificate, Path.parse path⟩, _⟩, read_eq_ok.mpr ⟨hrules,
        haddress, _, _, _, hcertificate, hkey, hhttp2,
        combine_eq_ok.mpr (.inl ⟨certificate, path, hcert, hpath, rfl⟩)⟩⟩

end Listener

/-- When a node is read as listeners, and what they are then. -/
theorem Listeners.listeners_read_iff (node : Node) :
    ((∃ listeners, (Listeners.read (.node node)).result = .ok listeners) ↔
        node.name = "listeners" ∧ ∃ block, node.children = some block ∧ block.nodes ≠ [] ∧
          ∀ child ∈ block.nodes, Listener.IsAccepted child) ∧
      ∀ listeners, (Listeners.read (.node node)).result = .ok listeners →
        ∃ block, node.children = some block ∧
          List.Forall₂ Listener.IsReadFrom block.nodes listeners.listeners := by
  refine ⟨⟨?_, ?_⟩, ?_⟩
  · rintro ⟨listeners, hread⟩
    obtain ⟨hname, block, hblock, hne, hall⟩ := read_eq_ok.mp hread
    exact ⟨hname, block, hblock, hne,
      forall_of_forall₂ hall.flip fun _ _ hchild => Listener.isAccepted_of_read hchild⟩
  · rintro ⟨hname, block, hblock, hne, haccepted⟩
    obtain ⟨found, hall⟩ :=
      exists_forall₂ fun child hchild => (haccepted child hchild).exists_read
    exact ⟨⟨found⟩, read_eq_ok.mpr ⟨hname, block, hblock, hne, hall⟩⟩
  · intro listeners hread
    obtain ⟨-, block, hblock, -, hall⟩ := read_eq_ok.mp hread
    exact ⟨block, hblock, hall.imp fun _ _ => Listener.isReadFrom_of_read⟩

end ReverseProxy.Config
