import ReverseProxy.Proofs.Config.Chain
import ReverseProxy.Proofs.Schema.FirstValues
import ReverseProxy.Proofs.Schema.PlainText

/-!
# Which blocks are filter chains

A document, or the block of a node, is read as a chain exactly if each node in it is a filter with a
name whose first values all have a text. The name and the arguments are read on different paths,
but both go by the first value of a key.
-/

namespace ReverseProxy

open Kdl Schema

def Schema.Focus.block? : Focus → Option (Block Node)
  | .document block => some block
  | .node parent => parent.children

namespace Config

namespace Filter

/-- A node that says what a filter needs: a name, and a first value with a text for each key. -/
structure IsAccepted (node : Node) : Prop where
  directive : node.name = "filter"
  no_block : node.children = none
  named : ∀ entry ∈ node.entries, entry.key ≠ none
  not_null : ∀ key, node.HasKey key → node.value? key ≠ some .null
  name : ∃ value raw name, node.value? "name" = some value ∧ value.plainText = .ok (some raw) ∧
    Fqdn.parse raw = .ok name

/-- The filter has the name that the first value of that key spells. Each other key is an argument,
in the order in which they first come, with the text of its first value. -/
structure IsReadFrom (node : Node) (filter : Filter) : Prop where
  name : ∃ value raw, node.value? "name" = some value ∧ value.plainText = .ok (some raw) ∧
    Fqdn.parse raw = .ok filter.name
  keys : filter.arguments.keys = node.firstKeys.filter fun key => key ≠ "name"
  arguments : ∀ pair ∈ filter.arguments.entries, ∃ value, node.value? pair.1 = some value ∧
    value.plainText = .ok (some pair.2)

/-- What a filter is read as, in terms of the first value of the key `name`. -/
theorem read_iff {node : Node} {filter : Filter} :
    Filter.read (.node node) = .ok filter ↔
      node.children = none ∧ (∀ entry ∈ node.entries, entry.key ≠ none) ∧
        (∃ value raw, node.value? "name" = some value ∧ value.plainText = .ok (some raw) ∧
          Fqdn.parse raw = .ok filter.name) ∧
        ∃ texts, (Focus.node node).texts = .ok texts ∧ filter.arguments = texts.erase "name" := by
  rw [read_eq_ok, Node.data, List.forall_mem_map]
  simp only [Node.value?, Option.map_eq_some_iff, Entry.parseAs_eq_ok, Entry.asText_eq_ok,
    TextType.fqdn, mapError_eq_ok]
  refine and_congr_right fun _ => and_congr_right fun _ => ?_
  constructor
  · rintro ⟨entry, hentry, ⟨raw, hraw, hparse⟩, htexts⟩
    exact ⟨⟨entry.value, raw, ⟨entry, hentry, rfl⟩, hraw, hparse⟩, htexts⟩
  · rintro ⟨⟨_, raw, ⟨entry, hentry, rfl⟩, hraw, hparse⟩, htexts⟩
    exact ⟨entry, hentry, ⟨raw, hraw, hparse⟩, htexts⟩

theorem isReadFrom_of_read {node : Node} {filter : Filter}
    (hread : Filter.read (.node node) = .ok filter) : IsReadFrom node filter := by
  obtain ⟨-, -, hname, texts, htexts, harguments⟩ := read_iff.mp hread
  obtain ⟨hkeys, hall⟩ := Focus.texts_eq_ok.mp htexts
  refine ⟨hname, ?_, ?_⟩
  · rw [harguments, Dictionary.keys_erase, hkeys]
  · rw [harguments]
    exact fun pair hpair => hall pair (List.mem_filter.mp hpair).1

/-- Every node that is read as a filter is one that is accepted. -/
theorem isAccepted_of_read {node : Node} {filter : Filter} (hdirective : node.name = "filter")
    (hread : Filter.read (.node node) = .ok filter) : IsAccepted node := by
  obtain ⟨hblock, hnamed, ⟨value, raw, hname, hraw, hparse⟩, texts, htexts, -⟩ := read_iff.mp hread
  refine ⟨hdirective, hblock, hnamed, fun key hkey hnull => ?_,
    value, raw, filter.name, hname, hraw, hparse⟩
  obtain ⟨value, text, hvalue, htext⟩ := Focus.exists_texts_iff.mp ⟨texts, htexts⟩ key hkey
  obtain rfl : value = .null := Option.some.inj (hvalue.symm.trans hnull)
  cases htext

/-- An accepted node is read, as long as no integer in it has too many digits. -/
theorem IsAccepted.exists_read {node : Node} (haccepted : IsAccepted node)
    (hbounded : ∀ entry ∈ node.entries, entry.value.IsBounded) :
    ∃ filter, Filter.read (.node node) = .ok filter := by
  obtain ⟨value, raw, name, hname, hraw, hparse⟩ := haccepted.name
  obtain ⟨texts, htexts⟩ : ∃ texts, (Focus.node node).texts = .ok texts := by
    refine Focus.exists_texts_iff.mpr fun key hkey => ?_
    obtain ⟨first, hfirst⟩ : ∃ first, node.value? key = some first :=
      Option.ne_none_iff_exists'.mp fun hnone => Node.value?_eq_none.mp hnone hkey
    obtain ⟨entry, hentry, -, rfl⟩ := Node.exists_entry_of_value? hfirst
    have hnull : entry.value ≠ .null := fun hnull => haccepted.not_null key hkey (hnull ▸ hfirst)
    obtain ⟨text, htext⟩ := Scalar.exists_plainText (hbounded entry hentry) hnull
    exact ⟨entry.value, text, hfirst, htext⟩
  exact ⟨⟨name, texts.erase "name"⟩, read_iff.mpr ⟨haccepted.no_block, haccepted.named,
    ⟨value, raw, hname, hraw, hparse⟩, texts, htexts, rfl⟩⟩

end Filter

namespace Chain

/-- A chain is read from a block of filters, one for each node. -/
theorem read_iff {focus : Focus} {chain : Chain} :
    (Chain.read focus).result = .ok chain ↔
      ∃ block, focus.block? = some block ∧ (∀ child ∈ block.nodes, child.name = "filter") ∧
        List.Forall₂ (fun node filter => Filter.read (.node node) = .ok filter) block.nodes
          chain.filters := by
  cases focus with
  | document block => simp [Focus.block?, read_document_eq_ok]
  | node parent => exact read_eq_ok

/-- When a chain is read from what is in focus, and what it is then. -/
theorem chain_read_iff (focus : Focus)
    (hbounded : ∀ block, focus.block? = some block → ∀ child ∈ block.nodes,
      ∀ entry ∈ child.entries, entry.value.IsBounded) :
    ((∃ chain, (Chain.read focus).result = .ok chain) ↔
        ∃ block, focus.block? = some block ∧ ∀ child ∈ block.nodes, Filter.IsAccepted child) ∧
      ∀ chain, (Chain.read focus).result = .ok chain →
        ∃ block, focus.block? = some block ∧
          List.Forall₂ Filter.IsReadFrom block.nodes chain.filters := by
  refine ⟨⟨?_, ?_⟩, ?_⟩
  · rintro ⟨chain, hread⟩
    obtain ⟨block, hblock, hnames, hall⟩ := read_iff.mp hread
    have hread : ∀ child ∈ block.nodes, ∃ filter, Filter.read (.node child) = .ok filter :=
      forall_of_forall₂ hall.flip fun filter _ hfilter => ⟨filter, hfilter⟩
    refine ⟨block, hblock, fun child hchild => ?_⟩
    obtain ⟨filter, hfilter⟩ := hread child hchild
    exact Filter.isAccepted_of_read (hnames child hchild) hfilter
  · rintro ⟨block, hblock, haccepted⟩
    obtain ⟨filters, hall⟩ := exists_forall₂ fun child hchild =>
      (haccepted child hchild).exists_read (hbounded block hblock child hchild)
    exact ⟨⟨filters⟩, read_iff.mpr ⟨block, hblock,
      fun child hchild => (haccepted child hchild).directive, hall⟩⟩
  · intro chain hread
    obtain ⟨block, hblock, -, hall⟩ := read_iff.mp hread
    exact ⟨block, hblock, hall.imp fun _ _ => Filter.isReadFrom_of_read⟩

/-- A null that is not the first value of its key does not count. -/
theorem chain_read_iff_repeated :
    let entry (key : String) (value : Scalar) : Entry := ⟨some key, value, ⟨0, 1⟩⟩
    let child : Node := ⟨"filter", ⟨0, 1⟩, ⟨0, 1⟩,
      [entry "level" (.integer 5), entry "name" (.string "auth"), entry "level" .null], none⟩
    let focus : Focus := .document ⟨[child], ⟨0, 1⟩⟩
    (∀ entry ∈ child.entries, entry.value.IsBounded) ∧
      ∃ filter, (Chain.read focus).result = .ok ⟨[filter]⟩ ∧
        filter.name = ⟨"auth"⟩ ∧ filter.arguments.keys = ["level"] := by
  intro entry child focus
  have hbounded : ∀ entry ∈ child.entries, entry.value.IsBounded := by
    simp only [child, entry, List.forall_mem_cons]
    have hdigits : (Nat.repr 5).length ≤ Decimal.maxDigits := by decide
    exact ⟨hdigits, trivial, trivial, List.forall_mem_nil _⟩
  have hchild : Filter.IsAccepted child := by
    refine ⟨rfl, rfl, by decide, ?_, .string "auth", "auth", ⟨"auth"⟩, rfl, rfl, rfl⟩
    rintro key ⟨own, hown, hkey⟩
    simp only [child, entry, List.mem_cons, List.not_mem_nil, or_false] at hown
    rcases hown with rfl | rfl | rfl <;> cases hkey <;> decide
  have hall := chain_read_iff focus fun block hblock other hother => by
    cases hblock
    cases List.mem_singleton.mp hother
    exact hbounded
  obtain ⟨⟨filters⟩, hread⟩ := hall.1.mpr ⟨_, rfl, List.forall_mem_singleton.mpr hchild⟩
  obtain ⟨block, hblock, hfrom⟩ := hall.2 _ hread
  cases hblock
  obtain ⟨filter, rest, hfilter, hrest, rfl⟩ := List.forall₂_cons_left_iff.mp hfrom
  obtain rfl := List.forall₂_nil_left_iff.mp hrest
  obtain ⟨value, raw, hvalue, hraw, hparse⟩ := hfilter.name
  cases hvalue
  cases hraw
  exact ⟨hbounded, filter, hread, (Except.ok.inj hparse).symm, hfilter.keys⟩

end Chain

end Config

end ReverseProxy
