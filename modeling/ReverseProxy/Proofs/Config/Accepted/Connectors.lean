import ReverseProxy.Proofs.Config.Connectors
import ReverseProxy.Proofs.Schema.FirstValues
import ReverseProxy.Proofs.Schema.PlainText

/-!
# Which nodes are connectors

A node is read as connectors exactly if its block holds upstreams, at most one way to balance load
beside them and nothing else, each in order. What they are read as is settled by the first value of
each key.
-/

namespace ReverseProxy.Config

open Kdl Schema

/-- What is found by its name is read from that name only. -/
theorem parse_eq_ok_iff_name {α : Type} {type : TextType α} (all : List α) {name : α → String}
    (hfind : ∀ text, (type.parse text).toOption = all.find? fun value => name value = text)
    (hname : ∀ value, type.parse (name value) = .ok value) {text : String} {value : α} :
    type.parse text = .ok value ↔ name value = text := by
  refine ⟨fun hparse => ?_, fun hsame => hsame ▸ hname value⟩
  have hfound : (all.find? fun value => name value = text) = some value := by
    rw [← hfind, hparse]
    rfl
  simpa using List.find?_some hfound

theorem Protocol.parse_eq_ok {text : String} {protocol : Protocol} :
    Protocol.type.parse text = .ok protocol ↔ protocol.name = text := by
  refine parse_eq_ok_iff_name all (fun text => ?_) Protocol.parse_name
  change (Protocol.type.parse text).toOption = Protocol.ofName? text
  cases hfound : Protocol.ofName? text <;> simp [Protocol.type, hfound, Except.toOption]

theorem Selection.parse_eq_ok {text : String} {selection : Selection} :
    Selection.type.parse text = .ok selection ↔ selection.name = text := by
  refine parse_eq_ok_iff_name all (fun text => ?_) Selection.parse_name
  change (Selection.type.parse text).toOption = Selection.ofName? text
  cases hfound : Selection.ofName? text <;> simp [Selection.type, hfound, Except.toOption]

namespace Upstream

/-- A node that says what an upstream needs and nothing else. -/
structure IsAccepted (node : Node) : Prop where
  no_block : node.children = none
  texts : node.OnlyTexts ["tls-sni", "proto"]
  address : ∃ entry text address, node.entries.filter Entry.isPositional = [entry] ∧
    entry.value = .string text ∧ SocketAddress.parse text = .ok address
  protocol : ∃ protocol : Protocol,
    protocol.name = (node.text? "proto").getD Protocol.http1.name ∧
      (protocol ≠ .http1 → node.HasKey "tls-sni")

/-- The upstream has the address that is the only value without a key, the name and the protocol as
the node first says them; without a protocol it is HTTP/1. -/
structure IsReadFrom (node : Node) (upstream : Upstream) : Prop where
  address : ∃ entry text, node.entries.filter Entry.isPositional = [entry] ∧
    entry.value = .string text ∧ SocketAddress.parse text = .ok upstream.address
  serverName : upstream.serverName = node.text? "tls-sni"
  protocol : upstream.protocol.name = (node.text? "proto").getD Protocol.http1.name

/-- The rules for upstreams allow two keys, each with strings only, and no block. -/
theorem rules_iff {node : Node} :
    (∀ rule ∈ rules, (Focus.node node).check rule = .ok ()) ↔
      node.children = none ∧ node.OnlyTexts ["tls-sni", "proto"] := by
  rw [rules_hold_iff, ← Node.onlyTexts_iff (by decide)]
  rfl

/-- What an upstream is read as, with the rules in terms of what the node says. -/
theorem read_iff {node : Node} {upstream : Upstream} :
    Upstream.read (.node node) = .ok upstream ↔
      node.children = none ∧ node.OnlyTexts ["tls-sni", "proto"] ∧ IsReadFrom node upstream ∧
        upstream.Valid := by
  rw [read_eq_ok, rules_iff, and_assoc]
  refine and_congr_right fun _ => and_congr_right fun htexts => ?_
  rw [exists_choice_iff Protocol.parse_eq_ok htexts.value?_eq]
  simp only [Entry.parseAs_socketAddress, htexts.value?_eq_iff]
  constructor
  · rintro ⟨⟨entry, hentry, text, hvalue, haddress⟩, hserver, hprotocol, hvalid⟩
    exact ⟨⟨⟨entry, text, hentry, hvalue, haddress⟩, hserver, hprotocol⟩, hvalid⟩
  · rintro ⟨⟨⟨entry, text, hentry, hvalue, haddress⟩, hserver, hprotocol⟩, hvalid⟩
    exact ⟨⟨entry, hentry, text, hvalue, haddress⟩, hserver, hprotocol, hvalid⟩

theorem isAccepted_of_read {node : Node} {upstream : Upstream}
    (hread : Upstream.read (.node node) = .ok upstream) : IsAccepted node := by
  obtain ⟨hblock, htexts, hfrom, hvalid⟩ := read_iff.mp hread
  obtain ⟨entry, text, hentry, hvalue, haddress⟩ := hfrom.address
  refine ⟨hblock, htexts, ⟨entry, text, upstream.address, hentry, hvalue, haddress⟩,
    upstream.protocol, hfrom.protocol, fun hother => ?_⟩
  rw [Node.hasKey_iff_of_value? htexts.value?_eq, ← hfrom.serverName]
  exact Option.isSome_iff_ne_none.mpr (hvalid hother)

/-- A node that says what an upstream needs is read as some upstream. -/
theorem IsAccepted.exists_read {node : Node} (haccepted : IsAccepted node) :
    ∃ upstream, Upstream.read (.node node) = .ok upstream := by
  obtain ⟨entry, text, address, hentry, hvalue, haddress⟩ := haccepted.address
  obtain ⟨protocol, hprotocol, hserver⟩ := haccepted.protocol
  rw [Node.hasKey_iff_of_value? haccepted.texts.value?_eq] at hserver
  exact ⟨⟨address, node.text? "tls-sni", protocol⟩, read_iff.mpr ⟨haccepted.no_block,
    haccepted.texts, ⟨⟨entry, text, hentry, hvalue, haddress⟩, rfl, hprotocol⟩,
    fun hother => Option.isSome_iff_ne_none.mp (hserver hother)⟩⟩

end Upstream

/-! ### Load balancing

A way to balance load is read like an upstream: the rules hold exactly of nodes with two optional
texts, and what is read satisfies what the writer of a configuration has to respect.
-/

namespace LoadBalance

/-- A node that says what balancing load needs and nothing else. -/
structure IsAccepted (node : Node) : Prop where
  no_block : node.children = none
  named : ∀ entry ∈ node.entries, entry.key ≠ none
  texts : node.OnlyTexts ["selection", "key"]
  selection : ∃ selection : Selection,
    selection.name = (node.text? "selection").getD Selection.roundRobin.name ∧
      (node.HasKey "key" ↔ selection.isHashing = true)

/-- The strategy and the key are as the node first says them; without a strategy the upstreams take
turns. -/
structure IsReadFrom (node : Node) (balance : LoadBalance) : Prop where
  selection : balance.selection.name =
    (node.text? "selection").getD Selection.roundRobin.name
  key : balance.key = node.text? "key"

theorem rules_iff {node : Node} :
    (∀ rule ∈ rules, (Focus.node node).check rule = .ok ()) ↔
      node.children = none ∧ (∀ entry ∈ node.entries, entry.key ≠ none) ∧
        node.OnlyTexts ["selection", "key"] := by
  rw [rules_hold_iff, ← Node.onlyTexts_iff (by decide), Node.data, List.forall_mem_map]
  rfl

/-- What a way to balance load is read as, in terms of what the node says. -/
theorem read_iff {node : Node} {balance : LoadBalance} :
    LoadBalance.read (.node node) = .ok balance ↔
      node.children = none ∧ (∀ entry ∈ node.entries, entry.key ≠ none) ∧
        node.OnlyTexts ["selection", "key"] ∧ IsReadFrom node balance ∧ balance.Valid := by
  rw [read_eq_ok, rules_iff, and_assoc, and_assoc]
  refine and_congr_right fun _ => and_congr_right fun _ => and_congr_right fun htexts => ?_
  rw [exists_choice_iff Selection.parse_eq_ok htexts.value?_eq, htexts.value?_eq_iff]
  constructor
  · rintro ⟨hselection, hkey, hvalid⟩
    exact ⟨⟨hselection, hkey⟩, hvalid⟩
  · rintro ⟨⟨hselection, hkey⟩, hvalid⟩
    exact ⟨hselection, hkey, hvalid⟩

theorem isAccepted_of_read {node : Node} {balance : LoadBalance}
    (hread : LoadBalance.read (.node node) = .ok balance) : IsAccepted node := by
  obtain ⟨hblock, hnamed, htexts, hfrom, hvalid⟩ := read_iff.mp hread
  refine ⟨hblock, hnamed, htexts, balance.selection, hfrom.selection, ?_⟩
  rw [Node.hasKey_iff_of_value? htexts.value?_eq, ← hfrom.key, Option.isSome_iff_ne_none]
  exact hvalid

theorem IsAccepted.exists_read {node : Node} (haccepted : IsAccepted node) :
    ∃ balance, LoadBalance.read (.node node) = .ok balance := by
  obtain ⟨selection, hselection, hkey⟩ := haccepted.selection
  rw [Node.hasKey_iff_of_value? haccepted.texts.value?_eq, Option.isSome_iff_ne_none] at hkey
  exact ⟨⟨selection, node.text? "key"⟩, read_iff.mpr ⟨haccepted.no_block, haccepted.named,
    haccepted.texts, ⟨hselection, rfl⟩, hkey⟩⟩

end LoadBalance

namespace Connectors

/-- The nodes of the block by name: at most one balances load, and each of the others is an
upstream. -/
theorem splits_iff {nodes : List Node} {connectors : Connectors} :
    (∃ first others, Claims.Takes "load-balance" nodes first others ∧
        Option.Rel (fun node balance => LoadBalance.read (.node node) = .ok balance) first
          connectors.loadBalance ∧
        (∀ other ∈ others, other.name = "upstream") ∧
        List.Forall₂ (fun node upstream => Upstream.read (.node node) = .ok upstream) others
          connectors.upstreams) ↔
      (∀ node ∈ nodes, node.name = "load-balance" ∨ node.name = "upstream") ∧
        List.Forall₂ (fun node balance => LoadBalance.read (.node node) = .ok balance)
          (nodesNamed "load-balance" nodes) connectors.loadBalance.toList ∧
        List.Forall₂ (fun node upstream => Upstream.read (.node node) = .ok upstream)
          (nodesNamed "upstream" nodes) connectors.upstreams := by
  constructor
  · rintro ⟨first, others, htakes, hfirst, hnames, hall⟩
    have hothers : nodesNamed "load-balance" others = [] :=
      nodesNamed_eq_nil.mpr fun other hother => by rw [hnames other hother]; decide
    rw [htakes.nodesNamed, hothers, List.append_nil, forall₂_toList_iff,
      htakes.nodesNamed_of_ne (by decide), nodesNamed, filter_named_eq_self hnames]
    refine ⟨fun node hnode => ?_, hfirst, hall⟩
    rcases htakes.mem_iff.mp hnode with hfound | hother
    · exact .inl (htakes.name_eq node hfound)
    · exact .inr (hnames node hother)
  · rintro ⟨hnames, hbalances, hall⟩
    obtain ⟨first, hfirst⟩ := exists_toList_of_forall₂ hbalances
    obtain ⟨others, htakes, hnone⟩ := Claims.exists_takes hfirst
    have hupstreams : ∀ other ∈ others, other.name = "upstream" := fun other hother =>
      (hnames other (htakes.mem_iff.mpr (.inr hother))).resolve_left
        (nodesNamed_eq_nil.mp hnone other hother)
    rw [hfirst, forall₂_toList_iff] at hbalances
    rw [htakes.nodesNamed_of_ne (by decide), nodesNamed, filter_named_eq_self hupstreams] at hall
    exact ⟨first, others, htakes, hbalances, hupstreams, hall⟩

/-- Each directive of the block is read on its own, in the order of the nodes of its name. -/
theorem read_iff {node : Node} {connectors : Connectors} :
    (Connectors.read (.node node)).result = .ok connectors ↔
      node.name = "connectors" ∧ ∃ block, node.children = some block ∧
        (∀ child ∈ block.nodes, child.name = "load-balance" ∨ child.name = "upstream") ∧
        List.Forall₂ (fun node balance => LoadBalance.read (.node node) = .ok balance)
          (nodesNamed "load-balance" block.nodes) connectors.loadBalance.toList ∧
        List.Forall₂ (fun node upstream => Upstream.read (.node node) = .ok upstream)
          (nodesNamed "upstream" block.nodes) connectors.upstreams ∧
        connectors.upstreams ≠ [] := by
  rw [read_eq_ok]
  refine and_congr_right fun _ => exists_congr fun block => ?_
  constructor
  · rintro ⟨first, others, hblock, htakes, hfirst, hnames, hall, hne⟩
    obtain ⟨hnames, hbalances, hall⟩ := splits_iff.mp ⟨first, others, htakes, hfirst, hnames, hall⟩
    exact ⟨hblock, hnames, hbalances, hall, hne⟩
  · rintro ⟨hblock, hnames, hbalances, hall, hne⟩
    obtain ⟨first, others, htakes, hfirst, hnames, hall⟩ :=
      splits_iff.mpr ⟨hnames, hbalances, hall⟩
    exact ⟨first, others, hblock, htakes, hfirst, hnames, hall, hne⟩

/-- When a node is read as connectors, and what they are then. -/
theorem connectors_read_iff (node : Node) :
    ((∃ connectors, (Connectors.read (.node node)).result = .ok connectors) ↔
        node.name = "connectors" ∧ ∃ block, node.children = some block ∧
          (∀ child ∈ block.nodes, child.name = "load-balance" ∨ child.name = "upstream") ∧
          (nodesNamed "load-balance" block.nodes).length ≤ 1 ∧
          nodesNamed "upstream" block.nodes ≠ [] ∧
          (∀ child ∈ nodesNamed "load-balance" block.nodes, LoadBalance.IsAccepted child) ∧
          ∀ child ∈ nodesNamed "upstream" block.nodes, Upstream.IsAccepted child) ∧
      ∀ connectors, (Connectors.read (.node node)).result = .ok connectors →
        ∃ block, node.children = some block ∧
          List.Forall₂ Upstream.IsReadFrom (nodesNamed "upstream" block.nodes)
            connectors.upstreams ∧
          List.Forall₂ LoadBalance.IsReadFrom (nodesNamed "load-balance" block.nodes)
            connectors.loadBalance.toList := by
  refine ⟨⟨?_, ?_⟩, ?_⟩
  · rintro ⟨connectors, hread⟩
    obtain ⟨hname, block, hblock, hnames, hbalances, hall, hne⟩ := read_iff.mp hread
    have hlength : (nodesNamed "load-balance" block.nodes).length ≤ 1 := by
      rw [hbalances.length_eq]
      cases connectors.loadBalance <;> simp
    refine ⟨hname, block, hblock, hnames, hlength, fun hnil => hne ?_,
      forall_of_forall₂ hbalances.flip fun _ _ => LoadBalance.isAccepted_of_read,
      forall_of_forall₂ hall.flip fun _ _ => Upstream.isAccepted_of_read⟩
    rw [hnil] at hall
    exact List.forall₂_nil_left_iff.mp hall
  · rintro ⟨hname, block, hblock, hnames, hlength, hne, hbalances, hupstreams⟩
    obtain ⟨upstreams, hall⟩ :=
      exists_forall₂ fun child hchild => (hupstreams child hchild).exists_read
    obtain ⟨balances, hbalanced⟩ :=
      exists_forall₂ fun child hchild => (hbalances child hchild).exists_read
    have htoList : balances.head?.toList = balances := by
      rw [hbalanced.length_eq] at hlength
      match balances, hlength with
      | [], _ => rfl
      | [_], _ => rfl
    refine ⟨⟨upstreams, balances.head?⟩, read_iff.mpr ⟨hname, block, hblock, hnames,
      htoList.symm ▸ hbalanced, hall, fun hnil => hne ?_⟩⟩
    obtain rfl : upstreams = [] := hnil
    exact List.forall₂_nil_right_iff.mp hall
  · intro connectors hread
    obtain ⟨-, block, hblock, -, hbalances, hall, -⟩ := read_iff.mp hread
    exact ⟨block, hblock, hall.imp fun _ _ hupstream => (Upstream.read_iff.mp hupstream).2.2.1,
      hbalances.imp fun _ _ hbalance => (LoadBalance.read_iff.mp hbalance).2.2.2.1⟩

end Connectors

end ReverseProxy.Config
