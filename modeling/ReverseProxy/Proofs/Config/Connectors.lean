import ReverseProxy.Config.Connectors
import ReverseProxy.Proofs.Names.Canonical
import ReverseProxy.Proofs.Schema.Directives

/-!
# Connectors are read as they were written

When a node is read as connectors, what connectors that were read satisfy, and that those which
satisfy it are read from what is written for them.
-/

namespace ReverseProxy.Config

open Kdl Schema

/-- The name of a protocol is read as that protocol. -/
theorem Protocol.parse_name (protocol : Protocol) :
    Protocol.type.parse protocol.name = .ok protocol := by
  cases protocol <;> rfl

theorem Selection.parse_name (selection : Selection) :
    Selection.type.parse selection.name = .ok selection := by
  cases selection <;> rfl

namespace Upstream

def Valid (upstream : Upstream) : Prop :=
  upstream.protocol ≠ .http1 → upstream.serverName ≠ none

/-- Only two keys are known to an upstream, both with strings. -/
theorem rules_hold_iff {node : Node} :
    (∀ rule ∈ rules, (Focus.node node).check rule = .ok ()) ↔
      node.children = none ∧
        ∀ datum ∈ node.data, ∀ key ∈ datum.key,
          [("tls-sni", ScalarKind.string), ("proto", .string)].lookup key =
            some datum.value.kind := by
  simp only [rules, List.forall_mem_cons, Focus.check_noBlock, Focus.check_onlyKeys]
  simp only [List.not_mem_nil, false_imp_iff, implies_true, and_true]
  rfl

/-- The address is the only value without a key. -/
theorem addressEntry_eq_ok {node : Node} {entry : Entry} :
    addressEntry (.node node) = .ok entry ↔ node.entries.filter Entry.isPositional = [entry] := by
  rw [addressEntry]
  simp only [Focus.positional, Focus.entries, Focus.theNode, ok_bind, pure_eq_ok]
  rcases node.entries.filter Entry.isPositional with _ | ⟨first, _ | ⟨second, others⟩⟩
  · simp [Focus.reject, reject]
  · simp
  · simp [reject]

/-- When a node is read as an upstream. -/
theorem read_eq_ok {node : Node} {upstream : Upstream} :
    Upstream.read (.node node) = .ok upstream ↔
      (∀ rule ∈ rules, (Focus.node node).check rule = .ok ()) ∧
        (∃ entry, node.entries.filter Entry.isPositional = [entry] ∧
          entry.parseAs TextType.socketAddress = .ok upstream.address) ∧
        node.value? "tls-sni" = upstream.serverName.map .string ∧
        (∃ protocol : Option Protocol,
          (node.entries.find? fun entry => entry.key = some "proto").mapM
              (Entry.parseAs · Protocol.type) = .ok protocol ∧
            upstream.protocol = protocol.getD .http1) ∧
        upstream.Valid := by
  rw [Upstream.read]
  simp only [Focus.property?_node, ok_bind, bind_eq_ok, Entry.readsString.optional_eq_ok_iff,
    addressEntry_eq_ok]
  constructor
  · rintro ⟨⟨⟩, hrules, entry, hentry, address, haddress, serverName, hserver, protocol, hprotocol,
      hupstream⟩
    split at hupstream
    · cases hupstream
    · next htls =>
      cases hupstream
      refine ⟨Focus.validate_eq_ok.mp hrules, ⟨entry, hentry, haddress⟩, hserver,
        ⟨protocol, hprotocol, rfl⟩, fun hother hnone => htls ⟨hother, hnone⟩⟩
  · rintro ⟨hrules, ⟨entry, hentry, haddress⟩, hserver, ⟨protocol, hprotocol, hsame⟩, hvalid⟩
    refine ⟨(), Focus.validate_eq_ok.mpr hrules, entry, hentry, upstream.address, haddress,
      upstream.serverName, hserver, protocol, hprotocol, ?_⟩
    rw [← hsame, if_neg fun htls => hvalid htls.1 htls.2]
    rfl

def shape (upstream : Upstream) : Shape :=
  .mk "upstream"
    (⟨none, .string upstream.address.text⟩ ::
      propertyData [("tls-sni", upstream.serverName.map .text),
        ("proto", some (.text upstream.protocol.name))])
    none

/-- What is written for a valid upstream is read as that upstream. -/
theorem read_of_shape {node : Node} {upstream : Upstream} (hshape : node.shape = upstream.shape)
    (hvalid : upstream.Valid) : Upstream.read (.node node) = .ok upstream := by
  obtain ⟨-, hdata, hchildren⟩ := Node.shape_eq_mk.mp hshape
  have hblock : node.children = none := Option.map_eq_none_iff.mp hchildren
  have hrules : ∀ rule ∈ rules, (Focus.node node).check rule = .ok () := by
    rw [rules_hold_iff, hdata]
    refine ⟨hblock, ?_⟩
    cases upstream.serverName <;>
      simp [propertyData, PropertyValue.scalar, List.lookup_cons, Scalar.kind]
  refine read_eq_ok.mpr ⟨hrules, ?_, ?_, ⟨some upstream.protocol, ?_, rfl⟩, hvalid⟩
  · obtain ⟨entry, hentry, hvalue⟩ := filter_isPositional hdata key_ne_none_of_mem_propertyData
    refine ⟨entry, hentry, (Entry.parseAs_of_string hvalue).mpr ?_⟩
    rw [TextType.socketAddress, mapError_eq_ok, SocketAddress.parse_text]
  · rw [Node.value?_eq, hdata]
    cases upstream.serverName <;> rfl
  · refine optional_parseAs ?_ (Protocol.parse_name upstream.protocol)
    change node.value? "proto" = _
    rw [Node.value?_eq, hdata]
    cases upstream.serverName <;> rfl

theorem linesRead (upstream : Upstream) (depth : Nat) :
    LinesRead depth [upstream.line] (some [upstream.shape]) := by
  have hkeys : ∀ property ∈ [("tls-sni", upstream.serverName.map PropertyValue.text),
      ("proto", some (.text upstream.protocol.name))], ¬IsBareLine property.1 := by
    simp only [List.forall_mem_cons]
    exact ⟨by decide, by decide, List.forall_mem_nil _⟩
  exact LinesRead.line (spellsName_of_isToken (by decide))
    (.cons (.positional (.quoted _)) (spellsData_writeProperties hkeys))
    (by simp [line, quote])

end Upstream

namespace LoadBalance

def Valid (balance : LoadBalance) : Prop := balance.key ≠ none ↔ balance.selection.isHashing = true

theorem rules_hold_iff {node : Node} :
    (∀ rule ∈ rules, (Focus.node node).check rule = .ok ()) ↔
      node.children = none ∧ (∀ datum ∈ node.data, datum.key ≠ none) ∧
        ∀ datum ∈ node.data, ∀ key ∈ datum.key,
          [("selection", ScalarKind.string), ("key", .string)].lookup key =
            some datum.value.kind := by
  simp only [rules, List.forall_mem_cons, Focus.check_noBlock, Focus.check_noPositional,
    Focus.check_onlyKeys]
  simp only [List.not_mem_nil, false_imp_iff, implies_true, and_true]
  rfl

/-- When a node is read as a way to balance load. -/
theorem read_eq_ok {node : Node} {balance : LoadBalance} :
    LoadBalance.read (.node node) = .ok balance ↔
      (∀ rule ∈ rules, (Focus.node node).check rule = .ok ()) ∧
        (∃ selection : Option Selection,
          (node.entries.find? fun entry => entry.key = some "selection").mapM
              (Entry.parseAs · Selection.type) = .ok selection ∧
            balance.selection = selection.getD .roundRobin) ∧
        node.value? "key" = balance.key.map .string ∧ balance.Valid := by
  rw [LoadBalance.read]
  simp only [Focus.property?_node, ok_bind, bind_eq_ok, Entry.readsString.optional_eq_ok_iff]
  constructor
  · rintro ⟨⟨⟩, hrules, selection, hselection, key, hkey, hbalance⟩
    split at hbalance
    · cases hbalance
    · next hhash =>
      split at hbalance
      · cases hbalance
      · next hplain =>
        cases hbalance
        refine ⟨Focus.validate_eq_ok.mp hrules, ⟨selection, hselection, rfl⟩, hkey, ?_⟩
        exact ⟨fun hsome => not_not.mp fun hnot => hplain ⟨hsome, hnot⟩,
          fun hhashing hnone => hhash ⟨hhashing, hnone⟩⟩
  · rintro ⟨hrules, ⟨selection, hselection, hsame⟩, hkey, hvalid⟩
    refine ⟨(), Focus.validate_eq_ok.mpr hrules, selection, hselection, balance.key, hkey, ?_⟩
    rw [← hsame, if_neg fun hhash => hvalid.mpr hhash.1 hhash.2,
      if_neg fun hplain => hplain.2 (hvalid.mp hplain.1)]
    rfl

def shape (balance : LoadBalance) : Shape :=
  .mk "load-balance"
    (propertyData [("selection", some (.text balance.selection.name)),
      ("key", (if balance.selection.isHashing then balance.key else none).map .text)])
    none

/-- What is written for a valid way to balance load is read as that way. -/
theorem read_of_shape {node : Node} {balance : LoadBalance} (hshape : node.shape = balance.shape)
    (hvalid : balance.Valid) : LoadBalance.read (.node node) = .ok balance := by
  obtain ⟨-, hdata, hchildren⟩ := Node.shape_eq_mk.mp hshape
  have hblock : node.children = none := Option.map_eq_none_iff.mp hchildren
  have hwritten : (if balance.selection.isHashing then balance.key else none) = balance.key := by
    split
    · rfl
    · next hplain => exact (not_not.mp fun hsome => hplain (hvalid.mp hsome)).symm
  rw [hwritten] at hdata
  have hrules : ∀ rule ∈ rules, (Focus.node node).check rule = .ok () := by
    rw [rules_hold_iff, hdata]
    refine ⟨hblock, ?_, ?_⟩
    · cases balance.key <;> simp [propertyData]
    · cases balance.key <;> simp [propertyData, PropertyValue.scalar, List.lookup_cons, Scalar.kind]
  refine read_eq_ok.mpr ⟨hrules, ⟨some balance.selection, ?_, rfl⟩, ?_, hvalid⟩
  · refine optional_parseAs ?_ (Selection.parse_name balance.selection)
    change node.value? "selection" = _
    rw [Node.value?_eq, hdata]
    cases balance.key <;> rfl
  · rw [Node.value?_eq, hdata]
    cases balance.key <;> rfl

theorem linesRead (balance : LoadBalance) (depth : Nat) :
    LinesRead depth [balance.line] (some [balance.shape]) := by
  have hkeys : ∀ property ∈ [("selection", some (PropertyValue.text balance.selection.name)),
      ("key", (if balance.selection.isHashing then balance.key else none).map .text)],
      ¬IsBareLine property.1 := by
    simp only [List.forall_mem_cons]
    exact ⟨by decide, by decide, List.forall_mem_nil _⟩
  exact LinesRead.line (spellsName_of_isToken (by decide)) (spellsData_writeProperties hkeys)
    (by simp [line])

end LoadBalance

namespace Connectors

def Valid (connectors : Connectors) : Prop :=
  connectors.upstreams ≠ [] ∧ (∀ upstream ∈ connectors.upstreams, upstream.Valid) ∧
    ∀ balance ∈ connectors.loadBalance, balance.Valid

/-- How taking apart the block of connectors ends. -/
theorem finish_eq_ok {upstreams : List Upstream} {balance : Option LoadBalance}
    {claims left : Claims} {connectors : Connectors} (hopen : claims.ended = false) :
    Claiming.outcome (do
        if upstreams.isEmpty then Claiming.fail (.noDirective "upstream")
        Claiming.finish
        Claiming.note (.upstreams upstreams.length)
        return ⟨upstreams, balance⟩ : Claiming Connectors) claims = .ok (connectors, left) ↔
      upstreams ≠ [] ∧ claims.pending = [] ∧ left = { claims with ended := true } ∧
        connectors = ⟨upstreams, balance⟩ := by
  cases upstreams with
  | nil =>
      refine iff_of_false (fun hdone => ?_) (fun hne => hne.1 rfl)
      rw [List.isEmpty_nil, if_pos rfl, Claiming.outcome_bind] at hdone
      cases hdone
  | cons upstream upstreams =>
      simp only [List.isEmpty_cons, Bool.false_eq_true, if_false, Claiming.outcome_bind, bind_eq_ok]
      constructor
      · rintro ⟨⟨⟨⟩, after⟩, hfinish, hnote⟩
        obtain ⟨hpending, rfl⟩ := (Claiming.finish_eq_ok hopen).mp hfinish
        obtain ⟨-, ⟨⟩, ⟨⟩⟩ := hnote
        exact ⟨List.cons_ne_nil _ _, hpending, rfl, rfl⟩
      · rintro ⟨-, hpending, rfl, rfl⟩
        exact ⟨_, (Claiming.finish_eq_ok hopen).mpr ⟨hpending, rfl⟩, _, rfl, rfl⟩

/-- When a node is read as the connectors of a service: its first directive about load balancing, if
there is one, and apart from it only upstreams, at least one. -/
theorem read_eq_ok {node : Node} {connectors : Connectors} :
    (Connectors.read (.node node)).result = .ok connectors ↔
      node.name = "connectors" ∧ ∃ block first others, node.children = some block ∧
        Claims.Takes "load-balance" block.nodes first others ∧
        Option.Rel (fun node balance => LoadBalance.read (.node node) = .ok balance) first
          connectors.loadBalance ∧
        (∀ other ∈ others, other.name = "upstream") ∧
        List.Forall₂ (fun node upstream => Upstream.read (.node node) = .ok upstream) others
          connectors.upstreams ∧
        connectors.upstreams ≠ [] := by
  rw [Connectors.read]
  simp only [Logged.result_bind, Logged.result_lift, bind_eq_ok, Claiming.result_run,
    Claims.ofFocus_node, Claiming.outcome_bind]
  constructor
  · rintro ⟨⟨⟩, hname, _, left, ⟨block, hblock, rfl⟩, ⟨balance, rest⟩, hbalance, ⟨upstreams, last⟩,
      hupstreams, hfinish⟩
    obtain ⟨first, others, htakes, hfirst, rfl⟩ := (Claiming.optional_eq_ok rfl).mp hbalance
    obtain ⟨hall, rfl⟩ := (Claiming.repeated_eq_ok rfl).mp hupstreams
    obtain ⟨hne, hpending, -, rfl⟩ := (finish_eq_ok rfl).mp hfinish
    have hnames : ∀ other ∈ others, other.name = "upstream" := filter_other_eq_nil.mp hpending
    rw [filter_named_eq_self hnames] at hall
    exact ⟨Focus.expectName_node.mp hname, block, first, others, hblock, htakes, hfirst, hnames,
      hall, hne⟩
  · rintro ⟨hname, block, first, others, hblock, htakes, hfirst, hnames, hall, hne⟩
    have hpending : others.filter (fun node => node.name ≠ "upstream") = [] :=
      filter_other_eq_nil.mpr hnames
    refine ⟨(), Focus.expectName_node.mpr hname, _,
      ⟨.document block, others.filter fun node => node.name ≠ "upstream", true⟩,
      ⟨block, hblock, rfl⟩, (connectors.loadBalance, ⟨.document block, others, false⟩),
      (Claiming.optional_eq_ok rfl).mpr ⟨first, others, htakes, hfirst, rfl⟩, _,
      (Claiming.repeated_eq_ok rfl).mpr ⟨(filter_named_eq_self hnames).symm ▸ hall, rfl⟩, ?_⟩
    exact (finish_eq_ok rfl).mpr ⟨hne, hpending, rfl, rfl⟩

/-- What is read is valid in the sense of the checks of its parts. -/
theorem valid_of_read {node : Node} {connectors : Connectors}
    (hread : (Connectors.read (.node node)).result = .ok connectors) : connectors.Valid := by
  obtain ⟨-, block, first, others, -, -, hfirst, -, hall, hne⟩ := read_eq_ok.mp hread
  refine ⟨hne, forall_of_forall₂ hall fun _ _ hupstream => ?_, fun balance hbalance => ?_⟩
  · exact (Upstream.read_eq_ok.mp hupstream).2.2.2.2
  · rw [Option.mem_def.mp hbalance] at hfirst
    cases hfirst with
    | some hfound => exact (LoadBalance.read_eq_ok.mp hfound).2.2.2

def shape (connectors : Connectors) : Shape :=
  .mk "connectors" []
    (some (connectors.loadBalance.toList.map LoadBalance.shape ++
      connectors.upstreams.map Upstream.shape))

/-- What is written for valid connectors is read as these connectors. -/
theorem read_of_shape {node : Node} {connectors : Connectors}
    (hshape : node.shape = connectors.shape) (hvalid : connectors.Valid) :
    (Connectors.read (.node node)).result = .ok connectors := by
  obtain ⟨hname, -, hchildren⟩ := Node.shape_eq_mk.mp hshape
  obtain ⟨block, hblock, hshapes⟩ := Option.map_eq_some_iff.mp hchildren
  have hnodes : block.nodes.map Node.shape = connectors.loadBalance.toList.map LoadBalance.shape ++
      connectors.upstreams.map Upstream.shape := (shapes_eq_map block.nodes).symm.trans hshapes
  obtain ⟨balances, others, hsplit, hbalances, hothers⟩ := List.map_eq_append_iff.mp hnodes
  have hall := forall₂_of_map_eq hothers
  have hnames : ∀ other ∈ others, other.name = "upstream" := by
    intro other hother
    have hmem : other.shape ∈ connectors.upstreams.map Upstream.shape :=
      hothers ▸ List.mem_map_of_mem hother
    obtain ⟨upstream, -, hupstream⟩ := List.mem_map.mp hmem
    exact (Node.shape_eq_mk.mp hupstream.symm).1
  have hupstreams := forall₂_imp_of_forall hall hvalid.2.1 fun _ _ => Upstream.read_of_shape
  cases hbalance : connectors.loadBalance with
  | none =>
      obtain rfl : balances = [] := by simpa [hbalance] using hbalances
      rw [List.nil_append] at hsplit
      have hnone : Claims.takeFirst? "load-balance" block.nodes = none := by
        refine Claims.takeFirst?_eq_none.mpr fun other hother => ?_
        rw [hnames other (hsplit ▸ hother)]
        decide
      exact read_eq_ok.mpr ⟨hname, block, none, others, hblock, hsplit ▸ .nothing hnone,
        hbalance ▸ .none, hnames, hupstreams, hvalid.1⟩
  | some balance =>
      rw [hbalance, Option.toList_some, List.map_singleton] at hbalances
      obtain ⟨first, rfl, hfirst⟩ := List.map_eq_singleton_iff.mp hbalances
      have hfound : Claims.takeFirst? "load-balance" block.nodes = some (first, others) := by
        rw [hsplit]
        exact Claims.takeFirst?_cons (Node.shape_eq_mk.mp hfirst).1 others
      have hread := LoadBalance.read_of_shape hfirst (hvalid.2.2 balance hbalance)
      exact read_eq_ok.mpr ⟨hname, block, first, others, hblock, .first hfound,
        hbalance ▸ .some hread, hnames, hupstreams, hvalid.1⟩

/-- The lines of connectors are read as one block. -/
theorem linesRead (connectors : Connectors) (depth : Nat) :
    LinesRead (depth + 1) connectors.lines (some [connectors.shape]) := by
  have hbalance : LinesRead depth (connectors.loadBalance.toList.map LoadBalance.line)
      (some (connectors.loadBalance.toList.map LoadBalance.shape)) :=
    LinesRead.map fun balance _ => balance.linesRead depth
  have hupstreams : LinesRead depth (connectors.upstreams.map Upstream.line)
      (some (connectors.upstreams.map Upstream.shape)) :=
    LinesRead.map fun upstream _ => upstream.linesRead depth
  exact LinesRead.block (spellsName_of_isToken (by decide)) .nil (List.append_nil _).symm
    (hbalance.append hupstreams)

end Connectors

end ReverseProxy.Config
