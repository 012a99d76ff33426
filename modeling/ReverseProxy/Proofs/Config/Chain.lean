import ReverseProxy.Config.Chain
import ReverseProxy.Proofs.Names.Canonical
import ReverseProxy.Proofs.Schema.Directives

/-!
# Filter chains are read as they were written

The arguments of a filter have keys of any kind. A key that is a bare name with a line feed behind
it breaks its line, and then nothing is read from it.
-/

namespace ReverseProxy.Config

open Kdl Schema

namespace Filter

/-- The name is one that is read from a text, and no argument takes its key. -/
def Valid (filter : Filter) : Prop :=
  (∃ text, Fqdn.parse text = .ok filter.name) ∧ "name" ∉ filter.arguments.keys

/-- What a filter is read as, entry by entry. -/
theorem read_eq_ok {node : Node} {filter : Filter} :
    Filter.read (.node node) = .ok filter ↔
      node.children = none ∧ (∀ datum ∈ node.data, datum.key ≠ none) ∧
        ∃ entry, node.entries.find? (fun entry => entry.key = some "name") = some entry ∧
          entry.parseAs TextType.fqdn = .ok filter.name ∧
          ∃ texts, (Focus.node node).texts = .ok texts ∧ filter.arguments = texts.erase "name" := by
  rw [Filter.read]
  simp only [bind_eq_ok, Focus.property_eq_ok, pure_eq_ok, Except.ok.injEq]
  have hrules : (Focus.node node).validate [.noBlock, .noPositional] = .ok () ↔
      node.children = none ∧ ∀ datum ∈ node.data, datum.key ≠ none := by
    rw [Focus.validate_eq_ok, List.forall_mem_cons, List.forall_mem_singleton,
      Focus.check_noBlock, Focus.check_noPositional]
  constructor
  · rintro ⟨⟨⟩, hvalidate, entry, hentry, name, hname, texts, htexts, rfl⟩
    obtain ⟨hblock, hnamed⟩ := hrules.mp hvalidate
    exact ⟨hblock, hnamed, entry, hentry, hname, texts, htexts, rfl⟩
  · rintro ⟨hblock, hnamed, entry, hentry, hname, texts, htexts, harguments⟩
    refine ⟨(), hrules.mpr ⟨hblock, hnamed⟩, entry, hentry, filter.name, hname, texts, htexts, ?_⟩
    rw [← harguments]

theorem valid_of_read {node : Node} {filter : Filter}
    (hread : Filter.read (.node node) = .ok filter) : filter.Valid := by
  obtain ⟨-, -, entry, -, hname, texts, -, harguments⟩ := read_eq_ok.mp hread
  obtain ⟨raw, -, hparse⟩ := Entry.parseAs_eq_ok.mp hname
  refine ⟨⟨raw, mapError_eq_ok.mp hparse⟩, ?_⟩
  rw [harguments]
  exact texts.not_mem_keys_erase "name"

def shape? (filter : Filter) : Option Shape :=
  if ∀ text ∈ filter.arguments.entries, ¬IsBareLine text.1 then
    some (.mk "filter" (textData (("name", filter.name.text) :: filter.arguments.entries)) none)
  else none

/-- A filter is written as one node unless some key is a bare name with a line feed behind it. -/
theorem shape?_isSome {filter : Filter} :
    filter.shape?.isSome = true ↔ ∀ key ∈ filter.arguments.keys, ¬IsBareLine key := by
  rw [Dictionary.keys, List.forall_mem_map]
  unfold shape?
  split
  · next hkeys => exact iff_of_true rfl hkeys
  · next hkeys => exact iff_of_false Bool.false_ne_true hkeys

theorem name_of_shape {node : Node} {filter : Filter} (hshape : filter.shape? = some node.shape) :
    node.name = "filter" := by
  unfold shape? at hshape
  split at hshape
  · exact (Node.shape_eq_mk.mp (Option.some.inj hshape).symm).1
  · cases hshape

/-- A node of the shape that is written for a filter is read as that filter. -/
theorem read_of_shape {node : Node} {filter : Filter} (hshape : filter.shape? = some node.shape)
    (hvalid : filter.Valid) : Filter.read (.node node) = .ok filter := by
  obtain ⟨⟨text, hparse⟩, hname⟩ := hvalid
  unfold shape? at hshape
  split at hshape
  · obtain ⟨-, hdata, hchildren⟩ := Node.shape_eq_mk.mp (Option.some.inj hshape).symm
    have hblock : node.children = none := Option.map_eq_none_iff.mp hchildren
    obtain ⟨entry, others, hentries, hentry, -⟩ := List.map_eq_cons_iff.mp hdata
    have hkey : entry.key = some "name" := congrArg Datum.key hentry
    have hvalue : entry.value = .string filter.name.text := congrArg Datum.value hentry
    have hkeys : ((("name", filter.name.text) :: filter.arguments.entries).map Prod.fst).Nodup :=
      List.nodup_cons.mpr ⟨hname, filter.arguments.nodup⟩
    refine read_eq_ok.mpr ⟨hblock, ?_, entry, ?_, ?_, _,
      Focus.textsBetween_of_nodup (Nat.zero_le _) hdata hkeys, ?_⟩
    · intro datum hdatum
      rw [hdata] at hdatum
      obtain ⟨pair, -, rfl⟩ := List.mem_map.mp hdatum
      nofun
    · rw [hentries, List.find?_cons_of_pos (by simp [hkey])]
    · rw [Entry.parseAs_of_string hvalue]
      exact mapError_eq_ok.mpr (Fqdn.parse_text hparse)
    · have hothers : filter.arguments.entries.filter (fun pair => pair.1 ≠ "name") =
          filter.arguments.entries := by
        refine List.filter_eq_self.mpr fun pair hpair => decide_eq_true fun hsame => hname ?_
        rw [← hsame]
        exact List.mem_map_of_mem hpair
      simp only [Dictionary.erase, List.filter_cons_of_neg, hothers, ne_eq, not_true_eq_false,
        decide_false, Bool.false_eq_true, not_false_eq_true]
  · cases hshape

/-- The line of a filter is read as one node of its shape. -/
theorem linesRead (filter : Filter) (depth : Nat) :
    LinesRead depth [filter.line] (filter.shape?.map ([·])) := by
  have hname : SpellsData (" name=" ++ quote filter.name.text).toList
      [⟨some "name", .string filter.name.text⟩] := by
    have hkey : ¬IsBareLine "name" := by decide
    have hdatum := SpellsData.cons (.property (spellsName_writeName hkey)
      (spellsScalar_write (.text filter.name.text))) .nil
    have hwritten : (writeName "name").toList = "name".toList := by decide
    simpa [hwritten, PropertyValue.write, PropertyValue.scalar] using hdatum
  have hline : LinesRead depth [filter.line]
      (if ∀ text ∈ filter.arguments.entries, ¬IsBareLine text.1 then
        some [.mk "filter" ([⟨some "name", .string filter.name.text⟩] ++
          textData filter.arguments.entries) none] else none) :=
    LinesRead.textsLine (spellsName_of_isToken (by decide)) hname (by simp [line])
  rw [shape?, apply_ite (Option.map ([·]))]
  exact hline

end Filter

namespace Chain

def Valid (chain : Chain) : Prop := ∀ filter ∈ chain.filters, filter.Valid

theorem read_document_eq_ok {block : Block Node} {chain : Chain} :
    (Chain.read (.document block)).result = .ok chain ↔
      (∀ other ∈ block.nodes, other.name = "filter") ∧
        List.Forall₂ (fun node filter => Filter.read (.node node) = .ok filter) block.nodes
          chain.filters := by
  rw [Chain.read]
  simp only [bind_eq_ok, Claiming.result_run, Claims.ofFocus_document, Claiming.outcome_bind]
  constructor
  · rintro ⟨_, left, rfl, ⟨filters, _⟩, hfilters, ⟨⟨⟩, _⟩, hfinish, hchain⟩
    obtain ⟨hall, rfl⟩ := (Claiming.repeated_eq_ok rfl).mp hfilters
    obtain ⟨hpending, -⟩ := (Claiming.finish_eq_ok rfl).mp hfinish
    have hnames := filter_other_eq_nil.mp hpending
    rw [filter_named_eq_self hnames] at hall
    cases hchain
    exact ⟨hnames, hall⟩
  · rintro ⟨hnames, hall⟩
    have hpending := filter_other_eq_nil.mpr hnames
    exact ⟨_, _, rfl, _,
      (Claiming.repeated_eq_ok rfl).mpr ⟨(filter_named_eq_self hnames).symm ▸ hall, rfl⟩, _,
      (Claiming.finish_eq_ok rfl).mpr ⟨hpending, rfl⟩, rfl⟩

/-- Every node in the block of a chain is a filter. -/
theorem read_eq_ok {node : Node} {chain : Chain} :
    (Chain.read (.node node)).result = .ok chain ↔
      ∃ block, node.children = some block ∧ (∀ other ∈ block.nodes, other.name = "filter") ∧
        List.Forall₂ (fun node filter => Filter.read (.node node) = .ok filter) block.nodes
          chain.filters :=
  Claiming.result_run_node.trans
    (exists_congr fun _ => and_congr_right fun _ => read_document_eq_ok)

theorem valid_of_read {node : Node} {chain : Chain}
    (hread : (Chain.read (.node node)).result = .ok chain) : chain.Valid := by
  obtain ⟨block, -, -, hall⟩ := read_eq_ok.mp hread
  exact forall_of_forall₂ hall fun _ _ => Filter.valid_of_read

def shapes? (chain : Chain) : Option (List Shape) := chain.filters.mapM Filter.shape?

theorem shapes?_isSome {chain : Chain} :
    chain.shapes?.isSome = true ↔
      ∀ filter ∈ chain.filters, ∀ key ∈ filter.arguments.keys, ¬IsBareLine key := by
  rw [shapes?, isSome_mapM]
  exact forall₂_congr fun filter _ => Filter.shape?_isSome

/-- Nodes of the shapes that are written for a chain are read as that chain. -/
theorem read_of_shapes {node : Node} {block : Block Node} {chain : Chain}
    (hblock : node.children = some block) (hshapes : chain.shapes? = some block.shapes)
    (hvalid : chain.Valid) : (Chain.read (.node node)).result = .ok chain := by
  have hall : List.Forall₂ (fun node filter => filter.shape? = some node.shape) block.nodes
      chain.filters := by
    rw [Block.shapes, shapes_eq_map] at hshapes
    have hshaped := (mapM_eq_some.mp hshapes).flip
    rwa [List.forall₂_map_left_iff] at hshaped
  refine read_eq_ok.mpr ⟨block, hblock, ?_,
    forall₂_imp_of_forall hall hvalid fun _ _ => Filter.read_of_shape⟩
  exact forall_of_forall₂ hall.flip fun filter node hshape => Filter.name_of_shape hshape

theorem linesRead (chain : Chain) (depth : Nat) : LinesRead depth chain.lines chain.shapes? :=
  LinesRead.mapM fun filter _ => filter.linesRead depth

end Chain

end ReverseProxy.Config
