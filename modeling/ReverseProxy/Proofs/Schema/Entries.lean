import ReverseProxy.Proofs.Kdl.Lines
import ReverseProxy.Schema.Rule

/-!
# What a node has to be like

When entries are read as values and when the rules for nodes hold, in terms of what the node says.
-/

namespace ReverseProxy

open Kdl Schema

namespace Kdl.Entry

theorem mismatch_ne_ok {α : Type} {entry : Kdl.Entry} {wanted : Wanted} {value : α} :
    entry.mismatch wanted ≠ .ok value := by
  unfold mismatch
  split
  · split <;> nofun
  · nofun

/-- Entries are read as what scalars of one kind hold; any other scalar is a mismatch. -/
structure ReadsKind {α : Type} (read : Kdl.Entry → Checked α) (scalar : α → Scalar)
    (wanted : Wanted) : Prop where
  kind : ∀ entry value, entry.value = scalar value → read entry = .ok value
  other : ∀ entry, (∀ value, entry.value ≠ scalar value) → read entry = entry.mismatch wanted

theorem readsString : ReadsKind asString .string .string where
  kind entry text hvalue := by rw [asString, hvalue]
  other entry hother := by
    unfold asString
    split
    · next text hvalue => exact absurd hvalue (hother text)
    · rfl

theorem readsBool : ReadsKind asBool .boolean .boolean where
  kind entry flag hvalue := by rw [asBool, hvalue]
  other entry hother := by
    unfold asBool
    split
    · next flag hvalue => exact absurd hvalue (hother flag)
    · rfl

namespace ReadsKind

variable {α : Type} {read : Kdl.Entry → Checked α} {scalar : α → Scalar} {wanted : Wanted}
  (hkind : ReadsKind read scalar wanted)

include hkind

/-- An entry is either of the kind or mismatched. -/
theorem cases (entry : Kdl.Entry) :
    (∃ value, entry.value = scalar value ∧ read entry = .ok value) ∨
      (∀ value, entry.value ≠ scalar value) ∧ read entry = entry.mismatch wanted := by
  by_cases hvalue : ∃ value, entry.value = scalar value
  · obtain ⟨value, hvalue⟩ := hvalue
    exact .inl ⟨value, hvalue, hkind.kind entry value hvalue⟩
  · rw [not_exists] at hvalue
    exact .inr ⟨hvalue, hkind.other entry hvalue⟩

theorem eq_ok_iff {entry : Kdl.Entry} {value : α} :
    read entry = .ok value ↔ entry.value = scalar value := by
  refine ⟨fun hread => ?_, hkind.kind entry value⟩
  obtain ⟨found, hvalue, hfound⟩ | ⟨-, hmismatch⟩ := hkind.cases entry
  · rw [hvalue, Except.ok.inj (hfound.symm.trans hread)]
  · exact absurd (hmismatch.symm.trans hread) mismatch_ne_ok

/-- An entry that may be missing is read as a value that may be missing. -/
theorem optional_eq_ok_iff {entry : Option Kdl.Entry} {value : Option α} :
    entry.mapM read = .ok value ↔ entry.map Entry.value = value.map scalar := by
  cases entry with
  | none => cases value <;> simp
  | some entry =>
      cases value with
      | none => simp [map_eq_ok]
      | some value => simp [map_eq_ok, hkind.eq_ok_iff]

end ReadsKind

theorem asText_eq_ok {entry : Kdl.Entry} {text : String} :
    entry.asText = .ok text ↔ entry.value.plainText = .ok (some text) := by
  unfold asText
  split <;> simp_all [Schema.reject]

theorem asText_of_string {entry : Kdl.Entry} {text : String} (hvalue : entry.value = .string text) :
    entry.asText = .ok text := by
  rw [asText_eq_ok, hvalue]
  rfl

/-- An entry is read as a value of some type through its text. -/
theorem parseAs_eq_ok {α : Type} {entry : Kdl.Entry} {type : TextType α} {value : α} :
    entry.parseAs type = .ok value ↔
      ∃ raw, entry.asText = .ok raw ∧ type.parse raw = .ok value := by
  rw [parseAs, bind_eq_ok]
  refine exists_congr fun raw => and_congr_right fun _ => ?_
  split <;> simp_all [Schema.reject]

/-- An entry that holds a string is read as the value that the string stands for. -/
theorem parseAs_of_string {α : Type} {entry : Kdl.Entry} {type : TextType α} {text : String}
    {value : α} (hvalue : entry.value = .string text) :
    entry.parseAs type = .ok value ↔ type.parse text = .ok value := by
  rw [parseAs_eq_ok, asText_of_string hvalue]
  simp

end Kdl.Entry

/-- The value of the first entry with a key. -/
def Kdl.Node.value? (node : Node) (key : String) : Option Scalar :=
  (node.entries.find? fun entry => entry.key = some key).map Entry.value

def Kdl.Node.data (node : Node) : List Datum := node.entries.map Entry.datum

theorem Kdl.Node.value?_eq (node : Node) (key : String) :
    node.value? key =
      (node.data.find? fun datum => datum.key = some key).map Datum.value := by
  rw [data, List.find?_map, Option.map_map]
  rfl

/-- What a node says are its name, its data and its block. -/
theorem Kdl.Node.shape_eq_mk {node : Node} {name : String} {data : List Datum}
    {children : Option (List Shape)} :
    node.shape = .mk name data children ↔
      node.name = name ∧ node.data = data ∧ node.children.map Block.shapes = children := by
  rw [Node.shape_eq, Shape.mk.injEq]
  rfl

theorem optional_parseAs {α : Type} {entry : Option Entry} {type : TextType α} {text : String}
    {value : α} (htext : entry.map Entry.value = some (.string text))
    (hparse : type.parse text = .ok value) :
    entry.mapM (Entry.parseAs · type) = .ok (some value) := by
  obtain ⟨entry, rfl, hvalue⟩ := Option.map_eq_some_iff.mp htext
  exact map_eq_ok.mpr ⟨value, (Entry.parseAs_of_string hvalue).mpr hparse, rfl⟩

/-- A node that says one value without a key has one positional entry. -/
theorem filter_isPositional {node : Node} {value : Scalar} {data : List Datum}
    (hdata : node.data = ⟨none, value⟩ :: data) (hnamed : ∀ datum ∈ data, datum.key ≠ none) :
    ∃ entry, node.entries.filter Entry.isPositional = [entry] ∧ entry.value = value := by
  obtain ⟨entry, others, hentries, hentry, hothers⟩ := List.map_eq_cons_iff.mp hdata
  have hkey : entry.key = none := congrArg Datum.key hentry
  have hrest : others.filter Entry.isPositional = [] := by
    refine List.filter_eq_nil_iff.mpr fun other hother => ?_
    have hmem : other.datum ∈ data := hothers ▸ List.mem_map_of_mem hother
    have hother : other.key ≠ none := hnamed _ hmem
    simpa [Entry.isPositional] using hother
  refine ⟨entry, ?_, congrArg Datum.value hentry⟩
  rw [hentries, List.filter_cons_of_pos (by simp [Entry.isPositional, hkey]), hrest]

namespace Schema.Focus

variable {node : Node}

theorem entries_node (node : Node) : (Focus.node node).entries = .ok node.entries := rfl

theorem property?_node (key : String) :
    (Focus.node node).property? key =
      .ok (node.entries.find? fun entry => entry.key = some key) := rfl

theorem expectName_node {expected : String} :
    (Focus.node node).expectName expected = .ok () ↔ node.name = expected := by
  rw [expectName]
  split <;> simp_all [Focus.reject, Schema.reject]

/-- A node has to have a block for its nodes to be read. -/
theorem children_node {nodes : List Node} :
    (Focus.node node).children = .ok nodes ↔
      ∃ block, node.children = some block ∧ nodes = block.nodes := by
  rw [children]
  cases node.children with
  | none => simp [Focus.reject, Schema.reject]
  | some block => simp [eq_comm]

theorem nonemptyChildren_node {nodes : List Node} :
    (Focus.node node).nonemptyChildren = .ok nodes ↔
      ∃ block, node.children = some block ∧ block.nodes ≠ [] ∧ nodes = block.nodes := by
  rw [nonemptyChildren, children]
  cases node.children with
  | none => simp [Focus.reject, Schema.reject]
  | some block =>
      cases hblock : block.nodes with
      | nil => simp [hblock, name, theNode, Focus.reject, Schema.reject]
      | cons first others => simp [hblock, eq_comm]

theorem parseName_node {α : Type} {type : TextType α} {value : α} :
    (Focus.node node).parseName type = .ok value ↔ type.parse node.name = .ok value := by
  rw [parseName]
  simp only [theNode, ok_bind]
  exact Entry.parseAs_of_string rfl

theorem parseName_socketAddress {address : SocketAddress} :
    (Focus.node node).parseName TextType.socketAddress = .ok address ↔
      SocketAddress.parse node.name = .ok address := by
  rw [parseName_node, TextType.socketAddress, mapError_eq_ok]

theorem property_eq_ok {key : String} {entry : Entry} :
    (Focus.node node).property key = .ok entry ↔
      node.entries.find? (fun entry => entry.key = some key) = some entry := by
  rw [property, property?_node, ok_bind]
  cases node.entries.find? fun entry => entry.key = some key with
  | none => simp [Focus.reject, Schema.reject]
  | some found => simp

theorem check_noBlock : (Focus.node node).check .noBlock = .ok () ↔ node.children = none := by
  rw [check]
  simp only [hasBlock, theNode, ok_bind, pure_eq_ok]
  cases node.children with
  | none => simp
  | some block => simp [name, theNode, Focus.reject, Schema.reject]

theorem check_noPositional :
    (Focus.node node).check .noPositional = .ok () ↔ ∀ datum ∈ node.data, datum.key ≠ none := by
  rw [check, Node.data, List.forall_mem_map]
  simp only [entries, theNode, ok_bind, pure_eq_ok]
  cases hfound : node.entries.find? Entry.isPositional with
  | none =>
      refine iff_of_true rfl fun entry hentry => ?_
      have hnamed := List.find?_eq_none.mp hfound entry hentry
      change entry.key ≠ none
      simpa [Entry.isPositional] using hnamed
  | some entry =>
      refine iff_of_false (by simp [name, theNode, Schema.reject]) fun hnamed => ?_
      have hpositional : entry.key = none := by
        simpa [Entry.isPositional] using List.find?_some hfound
      exact hnamed entry (List.mem_of_find?_eq_some hfound) hpositional

/-- The rule holds if each key is allowed with the kind of its value. -/
theorem check_onlyKeys {allowed : Dictionary ScalarKind} :
    (Focus.node node).check (.onlyKeys allowed) = .ok () ↔
      ∀ datum ∈ node.data, ∀ key ∈ datum.key, allowed.get? key = some datum.value.kind := by
  rw [check, Node.data, List.forall_mem_map]
  simp only [entries, theNode, ok_bind, pure_eq_ok, forM_eq_ok]
  refine forall₂_congr fun entry _ => ?_
  unfold checkKey
  change _ ↔ ∀ key ∈ entry.key, allowed.get? key = some entry.value.kind
  cases entry.key with
  | none => simp
  | some key =>
      cases hget : allowed.get? key with
      | none => simp [hget, Schema.reject]
      | some expected =>
          by_cases hkind : entry.value.kind = expected
          · simp [hget, hkind]
          · simp [hget, hkind, Ne.symm hkind, Schema.reject]

theorem check_nameIs {test : NameTest} :
    (Focus.node node).check (.nameIs test) = .ok () ↔ test.accepts node.name = true := by
  rw [check]
  simp only [name, theNode, ok_bind, pure_eq_ok]
  split <;> simp_all [Focus.reject, Schema.reject]

/-- All rules have to hold. -/
theorem validate_eq_ok {focus : Focus} {rules : List Rule} :
    focus.validate rules = .ok () ↔ ∀ rule ∈ rules, focus.check rule = .ok () :=
  forM_eq_ok

/-- Entries with keys of their own are collected in order. -/
theorem collectTexts_of_nodup {entries : List Entry} {pairs : List (String × String)}
    {texts : Dictionary String} (hdata : entries.map Entry.datum = textData pairs)
    (hkeys : (texts.keys ++ pairs.map Prod.fst).Nodup) :
    ∃ found, collectTexts entries texts = .ok found ∧ found.entries = texts.entries ++ pairs := by
  induction entries generalizing pairs texts with
  | nil =>
      obtain rfl : pairs = [] := by simpa [textData] using hdata
      exact ⟨texts, rfl, (List.append_nil _).symm⟩
  | cons entry entries ih =>
      obtain _ | ⟨⟨key, text⟩, pairs⟩ := pairs
      · cases hdata
      · obtain ⟨hentry, hentries⟩ := List.cons.inj hdata
        have hkey : entry.key = some key := congrArg Datum.key hentry
        have hvalue : entry.value = .string text := congrArg Datum.value hentry
        have hnew : key ∉ texts.keys := by
          intro hmem
          exact (List.nodup_append.mp hkeys).2.2 key hmem key List.mem_cons_self rfl
        have hpushed : ((texts.push key text hnew).keys ++ pairs.map Prod.fst).Nodup := by
          simpa [Dictionary.keys] using hkeys
        obtain ⟨found, hfound, hall⟩ := ih hentries hpushed
        refine ⟨found, ?_, by rw [hall, Dictionary.entries_push, List.append_assoc]; rfl⟩
        rw [collectTexts, hkey]
        dsimp only
        rw [dif_pos hnew, Entry.asText_of_string hvalue, ok_bind, hfound]

/-- The texts from some entry on. -/
theorem textsBetween_of_nodup {start : Nat} {pairs : List (String × String)}
    (hstart : start ≤ node.entries.length) (hdata : node.data.drop start = textData pairs)
    (hkeys : (pairs.map Prod.fst).Nodup) :
    (Focus.node node).textsBetween start none = .ok ⟨pairs, hkeys⟩ := by
  have hdropped : (node.entries.drop start).map Entry.datum = textData pairs := by
    rw [List.map_drop]
    exact hdata
  have hempty : ((∅ : Dictionary String).keys ++ pairs.map Prod.fst).Nodup := hkeys
  obtain ⟨⟨found, hnodup⟩, hfound, hpairs⟩ := collectTexts_of_nodup hdropped hempty
  obtain rfl : found = pairs := hpairs
  have hbounds : (0 : Int) ≤ start ∧ (start : Int) ≤ node.entries.length ∧
      (node.entries.length : Int) ≤ node.entries.length := ⟨by omega, by omega, by omega⟩
  simp only [textsBetween, Focus.entries, theNode, ok_bind, pure_eq_ok, Option.getD_none,
    if_pos hbounds, Int.toNat_natCast, List.take_length]
  exact hfound

theorem allowedTexts_of_nodup {start : Nat} {pairs : List (String × String)}
    {allowed : List String} (hstart : start ≤ node.entries.length)
    (hdata : node.data.drop start = textData pairs) (hkeys : (pairs.map Prod.fst).Nodup)
    (hallowed : ∀ pair ∈ pairs, pair.1 ∈ allowed) :
    (Focus.node node).allowedTexts start none allowed = .ok ⟨pairs, hkeys⟩ := by
  have hnone :
      (Dictionary.keys ⟨pairs, hkeys⟩).find? (fun key => !allowed.contains key) = none := by
    refine List.find?_eq_none.mpr fun key hkey => ?_
    obtain ⟨pair, hpair, rfl⟩ := List.mem_map.mp hkey
    simpa using hallowed pair hpair
  rw [allowedTexts, textsBetween_of_nodup hstart hdata hkeys, ok_bind]
  simp only [hnone]
  rfl

end Schema.Focus

end ReverseProxy
