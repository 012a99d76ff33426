import ReverseProxy.Config.Listeners
import ReverseProxy.Proofs.Names.Canonical
import ReverseProxy.Proofs.Schema.Entries

/-!
# Listeners are read as they were written

When a node is read as listeners, what listeners that were read satisfy, and that those which
satisfy it are read from what is written for them.
-/

namespace ReverseProxy.Config

open Kdl Schema

namespace Listener

def Valid (listener : Listener) : Prop := listener.offersHttp2 = true → listener.tls ≠ none

/-- Both files or none of them; only with files the offer of HTTP/2, which is the default then. -/
theorem combine_eq_ok {focus : Focus} {address : SocketAddress} {certificate key : Option String}
    {http2 : Option Bool} {listener : Listener} :
    combine focus address certificate key http2 = .ok listener ↔
      (∃ cert path, certificate = some cert ∧ key = some path ∧
        listener = ⟨address, some ⟨Path.parse cert, Path.parse path⟩, http2.getD true⟩) ∨
      (certificate = none ∧ key = none ∧ http2 = none ∧ listener = ⟨address, none, false⟩) := by
  rcases certificate with _ | cert <;> rcases key with _ | path <;> rcases http2 with _ | flag <;>
    simp [combine, Focus.reject, reject, eq_comm]

/-- A listener has no block, and only three keys of the right kinds. -/
theorem rules_hold_iff {node : Node} :
    (∀ rule ∈ rules, (Focus.node node).check rule = .ok ()) ↔
      node.children = none ∧ (∀ datum ∈ node.data, datum.key ≠ none) ∧
        (∀ datum ∈ node.data, ∀ key ∈ datum.key,
          [("cert-path", .string), ("key-path", .string), ("offer-h2", .boolean)].lookup key =
            some datum.value.kind) ∧
        (SocketAddress.parse node.name).isOk = true := by
  simp only [rules, List.forall_mem_cons, Focus.check_noBlock, Focus.check_noPositional,
    Focus.check_onlyKeys, Focus.check_nameIs]
  simp only [List.not_mem_nil, false_imp_iff, implies_true, and_true]
  rfl

/-- When a node is read as a listener. -/
theorem read_eq_ok {node : Node} {listener : Listener} :
    Listener.read (.node node) = .ok listener ↔
      (∀ rule ∈ rules, (Focus.node node).check rule = .ok ()) ∧
        SocketAddress.parse node.name = .ok listener.address ∧
        ∃ certificate key http2, node.value? "cert-path" = certificate.map .string ∧
          node.value? "key-path" = key.map .string ∧ node.value? "offer-h2" = http2.map .boolean ∧
          combine (.node node) listener.address certificate key http2 = .ok listener := by
  rw [Listener.read]
  simp only [Focus.property?_node, ok_bind, bind_eq_ok, Entry.readsString.optional_eq_ok_iff,
    Entry.readsBool.optional_eq_ok_iff,
    Focus.parseName_socketAddress]
  constructor
  · rintro ⟨⟨⟩, hrules, address, haddress, certificate, hcertificate, key, hkey, http2, hhttp2,
      hlistener⟩
    have hsame : listener.address = address := by
      rcases combine_eq_ok.mp hlistener with ⟨_, _, -, -, rfl⟩ | ⟨-, -, -, rfl⟩ <;> rfl
    rw [hsame]
    exact ⟨Focus.validate_eq_ok.mp hrules, haddress, certificate, key, http2, hcertificate, hkey,
      hhttp2, hlistener⟩
  · rintro ⟨hrules, haddress, certificate, key, http2, hcertificate, hkey, hhttp2, hlistener⟩
    exact ⟨(), Focus.validate_eq_ok.mpr hrules, listener.address, haddress, certificate,
      hcertificate, key, hkey, http2, hhttp2, hlistener⟩

theorem valid_of_read {node : Node} {listener : Listener}
    (hread : Listener.read (.node node) = .ok listener) : listener.Valid := by
  obtain ⟨-, -, certificate, key, http2, -, -, -, hcombine⟩ := read_eq_ok.mp hread
  intro hoffers
  rcases combine_eq_ok.mp hcombine with ⟨cert, path, -, -, hlistener⟩ | ⟨-, -, -, hlistener⟩
  · rw [hlistener]
    nofun
  · rw [hlistener] at hoffers
    cases hoffers

def shape (listener : Listener) : Shape :=
  .mk listener.address.text
    (match listener.tls with
      | none => []
      | some tls =>
          [⟨some "cert-path", .string tls.certificate.text⟩,
            ⟨some "key-path", .string tls.key.text⟩,
            ⟨some "offer-h2", .boolean listener.offersHttp2⟩])
    none

/-- What is written for a valid listener is read as that listener. -/
theorem read_of_shape {node : Node} {listener : Listener} (hshape : node.shape = listener.shape)
    (hvalid : listener.Valid) : Listener.read (.node node) = .ok listener := by
  obtain ⟨hname, hdata, hchildren⟩ := Node.shape_eq_mk.mp hshape
  have hblock : node.children = none := Option.map_eq_none_iff.mp hchildren
  have haddress : SocketAddress.parse node.name = .ok listener.address := by
    rw [hname]
    exact SocketAddress.parse_text listener.address
  have hrules : ∀ rule ∈ rules, (Focus.node node).check rule = .ok () := by
    rw [rules_hold_iff, hdata, haddress]
    refine ⟨hblock, ?_, ?_, rfl⟩
    · cases listener.tls <;> simp
    · cases listener.tls <;> simp [List.lookup_cons, Scalar.kind]
  refine read_eq_ok.mpr ⟨hrules, haddress, ?_⟩
  simp only [Node.value?_eq, hdata]
  rcases listener with ⟨address, _ | tls, offers⟩
  · obtain rfl : offers = false := by
      cases offers
      · rfl
      · exact absurd rfl (hvalid rfl)
    exact ⟨none, none, none, rfl, rfl, rfl, rfl⟩
  · refine ⟨some tls.certificate.text, some tls.key.text, some offers, rfl, rfl, rfl, ?_⟩
    rw [combine, Path.parse_text, Path.parse_text]
    rfl

theorem linesRead (listener : Listener) (depth : Nat) :
    LinesRead depth [listener.line] (some [listener.shape]) := by
  rcases listener with ⟨address, _ | tls, offers⟩
  · exact LinesRead.line (.quoted address.text) .nil (by simp [line, quote])
  · have hkeys : ∀ property ∈ [("cert-path", some (PropertyValue.text tls.certificate.text)),
        ("key-path", some (.text tls.key.text)), ("offer-h2", some (.flag offers))],
        ¬IsBareLine property.1 := by
      simp only [List.forall_mem_cons]
      exact ⟨by decide, by decide, by decide, List.forall_mem_nil _⟩
    exact LinesRead.line (.quoted address.text) (spellsData_writeProperties hkeys)
      (by simp [line, quote])

end Listener

namespace Listeners

def Valid (listeners : Listeners) : Prop :=
  listeners.listeners ≠ [] ∧ ∀ listener ∈ listeners.listeners, listener.Valid

/-- When a node is read as the listeners of a service. -/
theorem read_eq_ok {node : Node} {listeners : Listeners} :
    (Listeners.read (.node node)).result = .ok listeners ↔
      node.name = "listeners" ∧ ∃ block, node.children = some block ∧ block.nodes ≠ [] ∧
        List.Forall₂ (fun node listener => Listener.read (.node node) = .ok listener) block.nodes
          listeners.listeners := by
  simp only [Listeners.read, Logged.result_bind, Logged.result_lift, Logged.result_note,
    Logged.result_pure, Logged.result_mapM, bind_eq_ok, Focus.nonemptyChildren_node, mapM_eq_ok]
  constructor
  · rintro ⟨⟨⟩, hname, _, ⟨block, hblock, hne, rfl⟩, found, hall, ⟨⟩, -, ⟨⟩⟩
    exact ⟨Focus.expectName_node.mp hname, block, hblock, hne, hall⟩
  · rintro ⟨hname, block, hblock, hne, hall⟩
    exact ⟨(), Focus.expectName_node.mpr hname, block.nodes, ⟨block, hblock, hne, rfl⟩,
      listeners.listeners, hall, (), trivial, rfl⟩

theorem valid_of_read {node : Node} {listeners : Listeners}
    (hread : (Listeners.read (.node node)).result = .ok listeners) : listeners.Valid := by
  obtain ⟨-, block, -, hne, hall⟩ := read_eq_ok.mp hread
  refine ⟨fun hnil => hne ?_, forall_of_forall₂ hall fun _ _ => Listener.valid_of_read⟩
  rw [hnil] at hall
  exact List.forall₂_nil_right_iff.mp hall

def shape (listeners : Listeners) : Shape :=
  .mk "listeners" [] (some (listeners.listeners.map Listener.shape))

/-- What is written for valid listeners is read as these listeners. -/
theorem read_of_shape {node : Node} {listeners : Listeners} (hshape : node.shape = listeners.shape)
    (hvalid : listeners.Valid) : (Listeners.read (.node node)).result = .ok listeners := by
  obtain ⟨hname, -, hchildren⟩ := Node.shape_eq_mk.mp hshape
  obtain ⟨block, hblock, hshapes⟩ := Option.map_eq_some_iff.mp hchildren
  have hnodes : block.nodes.map Node.shape = listeners.listeners.map Listener.shape :=
    (shapes_eq_map block.nodes).symm.trans hshapes
  refine read_eq_ok.mpr ⟨hname, block, hblock, fun hnil => hvalid.1 ?_, ?_⟩
  · rw [hnil] at hnodes
    exact List.map_eq_nil_iff.mp hnodes.symm
  · exact forall₂_imp_of_forall (forall₂_of_map_eq hnodes) hvalid.2 fun _ _ =>
      Listener.read_of_shape

theorem linesRead (listeners : Listeners) (depth : Nat) :
    LinesRead (depth + 1) listeners.lines (some [listeners.shape]) := by
  have hinside : LinesRead depth (listeners.listeners.map Listener.line)
      (some (listeners.listeners.map Listener.shape)) :=
    LinesRead.map fun listener _ => listener.linesRead depth
  exact LinesRead.block (spellsName_of_isToken (by decide)) .nil (List.append_nil _).symm hinside

end Listeners

end ReverseProxy.Config
