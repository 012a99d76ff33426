import Mathlib.Data.List.Nodup
import ReverseProxy.Proofs.Config.PlainData

/-!
# Which documents are bundles

A document is a bundle exactly if each of its parts is read on its own and no two parts that a name
tells apart have the same one. The bundle holds what the parts are read as, in their order.
-/

namespace ReverseProxy

open Kdl Schema

namespace Config.Bundle

def inside (nodes : List Node) : List Node :=
  nodes.flatMap fun node => (node.children.map Block.nodes).getD []

def serviceNodes (document : Document) : List Node :=
  inside (nodesNamed "services" document.nodes)

def definitionNodes (document : Document) : List Node :=
  inside (nodesNamed "definitions" document.nodes)

def definedName? (node : Node) : Option String :=
  match node.data with
  | [⟨none, .string name⟩] => some name
  | _ => none

def Defines {α : Type} (read : Focus → Check α) (node : Node) (entry : String × α) : Prop :=
  definedName? node = some entry.1 ∧
    ∃ block, node.children = some block ∧ (read (.document block)).result = .ok entry.2

/-- Nothing is missing, nothing is left over, and services have distinct names. -/
structure IsLaidOut (document : Document) : Prop where
  one_services : (nodesNamed "services" document.nodes).length = 1
  definitions_le_one : (nodesNamed "definitions" document.nodes).length ≤ 1
  name_mem : ∀ node ∈ document.nodes, node.name = "services" ∨ node.name = "definitions"
  services_ne_nil : serviceNodes document ≠ []
  services_nodup : ((serviceNodes document).map Node.name).Nodup
  definitions_block : ∀ node ∈ nodesNamed "definitions" document.nodes, node.children.isSome = true
  definition_name_mem : ∀ node ∈ definitionNodes document,
    node.name = "chain-filters" ∨ node.name = "key-profile"

/-- Besides, every part is read on its own, and definitions of one kind have distinct names. -/
structure IsAccepted (document : Document) : Prop extends IsLaidOut document where
  services_read : ∀ node ∈ serviceNodes document,
    ∃ service, (Service.read none (.node node)).result = .ok service
  chains_read : ∀ node ∈ nodesNamed "chain-filters" (definitionNodes document),
    ∃ entry, Defines Chain.read node entry
  chains_nodup :
    ((nodesNamed "chain-filters" (definitionNodes document)).map definedName?).Nodup
  profiles_read : ∀ node ∈ nodesNamed "key-profile" (definitionNodes document),
    ∃ entry, Defines KeyProfile.read node entry
  profiles_nodup :
    ((nodesNamed "key-profile" (definitionNodes document)).map definedName?).Nodup

/-- The bundle holds what the parts of the document are read as, in order. -/
structure Holds (document : Document) (bundle : Bundle) : Prop where
  services : List.Forall₂
    (fun node service => (Service.read none (.node node)).result = .ok service)
    (serviceNodes document) bundle.services
  chains : List.Forall₂ (Defines Chain.read)
    (nodesNamed "chain-filters" (definitionNodes document)) bundle.chains.entries
  profiles : List.Forall₂ (Defines KeyProfile.read)
    (nodesNamed "key-profile" (definitionNodes document)) bundle.keyProfiles.entries

theorem definedName?_eq_some {node : Node} {name : String} :
    definedName? node = some name ↔ node.data = [⟨none, .string name⟩] := by
  unfold definedName?
  split
  · next found hdata => simp [hdata]
  · next hother => exact iff_of_false nofun (hother name)

/-- A definition has the name that stands alone behind its directive. -/
theorem definitionName_eq_ok {node : Node} {name : String} :
    definitionName (.node node) = .ok name ↔ definedName? node = some name := by
  refine ⟨fun hname => definedName?_eq_some.mpr ?_,
    fun hname => definitionName_of_data (definedName?_eq_some.mp hname)⟩
  obtain ⟨_, _, _, entries, _⟩ := node
  simp only [definitionName, Focus.name, Focus.theNode, Focus.entries, Focus.positional, ok_bind,
    pure_eq_ok] at hname
  split at hname
  · cases hname
  · next hnone =>
    rcases entries with _ | ⟨entry, _ | ⟨second, others⟩⟩
    · cases hname
    · have hpositional : entry.isPositional = true := by simpa using hnone
      have hstring : entry.value = .string name :=
        Entry.readsString.eq_ok_iff.mp (by simpa [hpositional] using hname)
      have hkey : entry.key = none := by simpa [Entry.isPositional] using hpositional
      simp [Node.data, Entry.datum, hkey, hstring]
    · cases hname

section Definitions

variable {α : Type} {read : Focus → Check α}

/-- The directives of one kind, and the values under their names. -/
theorem forall₂_defines (hread : ∀ {node : Node} {value : α},
      (read (.node node)).result = .ok value ↔
        ∃ block, node.children = some block ∧ (read (.document block)).result = .ok value)
    {nodes : List Node} {entries : List (String × α)} :
    (∃ found, List.Forall₂ (fun node found => (readNamed read (.node node)).result = .ok found)
        nodes found ∧ entries = found.map fun found => (found.name, found.value)) ↔
      List.Forall₂ (Defines read) nodes entries := by
  constructor
  · rintro ⟨found, hall, rfl⟩
    refine List.forall₂_map_right_iff.mpr (hall.imp fun node found hfound => ?_)
    obtain ⟨hname, hvalue, -⟩ := readNamed_eq_ok.mp hfound
    exact ⟨definitionName_eq_ok.mp hname, hread.mp hvalue⟩
  · intro hall
    induction hall with
    | nil => exact ⟨[], .nil, rfl⟩
    | @cons node entry _ _ hdefines _ ih =>
        obtain ⟨found, hall, rfl⟩ := ih
        have hnamed : (readNamed read (.node node)).result = .ok ⟨.node node, entry.1, entry.2⟩ :=
          readNamed_eq_ok.mpr ⟨definitionName_eq_ok.mpr hdefines.1, hread.mpr hdefines.2, rfl⟩
        exact ⟨_ :: found, .cons hnamed hall, rfl⟩

theorem map_definedName? {nodes : List Node} {entries : List (String × α)}
    (hall : List.Forall₂ (Defines read) nodes entries) :
    nodes.map definedName? = (entries.map Prod.fst).map some := by
  induction hall with
  | nil => rfl
  | cons hdefines _ ih => rw [List.map_cons, ih, hdefines.1, List.map_cons, List.map_cons]

/-- Definitions that are read make a dictionary if and only if their names are distinct. -/
theorem exists_dictionary {nodes : List Node} :
    (∃ values : Dictionary α, List.Forall₂ (Defines read) nodes values.entries) ↔
      (∀ node ∈ nodes, ∃ entry, Defines read node entry) ∧ (nodes.map definedName?).Nodup := by
  constructor
  · rintro ⟨values, hall⟩
    refine ⟨forall_of_forall₂ hall.flip fun entry _ hdefines => ⟨entry, hdefines⟩, ?_⟩
    rw [map_definedName? hall]
    exact List.Nodup.map (fun _ _ => Option.some.inj) values.nodup
  · rintro ⟨hread, hnodup⟩
    obtain ⟨entries, hall⟩ := exists_forall₂ hread
    rw [map_definedName? hall] at hnodup
    exact ⟨⟨entries, List.Nodup.of_map some hnodup⟩, hall⟩

end Definitions

/-- When a block of definitions is read, and as what. -/
theorem readDefinitions_eq_ok_iff {node : Node} {definitions : Definitions} :
    (readDefinitions (.node node)).result = .ok definitions ↔
      ∃ block, node.children = some block ∧
        (∀ child ∈ block.nodes, child.name = "chain-filters" ∨ child.name = "key-profile") ∧
        List.Forall₂ (Defines Chain.read) (nodesNamed "chain-filters" block.nodes)
          definitions.chains.entries ∧
        List.Forall₂ (Defines KeyProfile.read) (nodesNamed "key-profile" block.nodes)
          definitions.keyProfiles.entries := by
  have hprofiles (nodes : List Node) :
      (nodes.filter fun node => node.name ≠ "chain-filters").filter
        (fun node => node.name = "key-profile") = nodesNamed "key-profile" nodes := by
    rw [List.filter_filter, nodesNamed]
    refine List.filter_congr fun node _ => ?_
    by_cases hname : node.name = "key-profile" <;> simp [hname]
  have hnames (nodes : List Node) :
      (∀ node ∈ nodes.filter (fun node => node.name ≠ "chain-filters"),
          node.name = "key-profile") ↔
        ∀ node ∈ nodes, node.name = "chain-filters" ∨ node.name = "key-profile" := by
    simp only [List.mem_filter, decide_eq_true_eq, and_imp, or_iff_not_imp_left, ne_eq]
  rw [readDefinitions_eq_ok]
  constructor
  · rintro ⟨block, chains, profiles, hblock, hchains, hentries, hkeys, hentries', hothers⟩
    rw [hprofiles] at hkeys
    exact ⟨block, hblock, (hnames _).mp hothers,
      (forall₂_defines Claiming.result_run_node).mp ⟨chains, hchains, hentries⟩,
      (forall₂_defines Claiming.result_run_node).mp ⟨profiles, hkeys, hentries'⟩⟩
  · rintro ⟨block, hblock, hothers, hchains, hkeys⟩
    obtain ⟨chains, hchains, hentries⟩ :=
      (forall₂_defines Claiming.result_run_node).mpr hchains
    obtain ⟨profiles, hkeys, hentries'⟩ :=
      (forall₂_defines Claiming.result_run_node).mpr hkeys
    rw [← hprofiles] at hkeys
    exact ⟨block, chains, profiles, hblock, hchains, hentries, hkeys, hentries',
      (hnames _).mpr hothers⟩

theorem inside_singleton {node : Node} {block : Block Node} (hblock : node.children = some block) :
    inside [node] = block.nodes := by
  simp [inside, hblock]

/-- A node with something inside it has a block. -/
theorem exists_block_of_inside_ne_nil {node : Node} (hne : inside [node] ≠ []) :
    ∃ block, node.children = some block := by
  cases hblock : node.children with
  | some block => exact ⟨block, rfl⟩
  | none => exact absurd (by simp [inside, hblock]) hne

/-- The two directives of a document take all of its nodes. -/
theorem takesAll_iff {nodes : List Node} {services : Node} {definitions : Option Node} :
    Claims.TakesAll [("services", some services), ("definitions", definitions)] nodes ↔
      (∀ node ∈ nodes, node.name = "services" ∨ node.name = "definitions") ∧
        nodesNamed "services" nodes = [services] ∧
        nodesNamed "definitions" nodes = definitions.toList := by
  rw [Claims.takesAll_iff (by simp), and_comm]
  simp

/-- What is claimed of a document, said of its nodes: the services and, if they are there, the
definitions. -/
theorem read_eq_ok_iff {sourceName : String} {document : Document} {bundle : Bundle} :
    (Bundle.read sourceName (.document document)).result = .ok bundle ↔
      bundle.sourceName = sourceName ∧
        (∀ node ∈ document.nodes, node.name = "services" ∨ node.name = "definitions") ∧
        (∃ services block, nodesNamed "services" document.nodes = [services] ∧
          services.children = some block ∧ block.nodes ≠ [] ∧
          (readServices [] block.nodes).result = .ok bundle.services) ∧
        ((nodesNamed "definitions" document.nodes = [] ∧
            bundle.chains = ∅ ∧ bundle.keyProfiles = ∅) ∨
          ∃ definitions, nodesNamed "definitions" document.nodes = [definitions] ∧
            (readDefinitions (.node definitions)).result =
              .ok ⟨bundle.chains, bundle.keyProfiles⟩) := by
  rw [read_eq_ok]
  refine and_congr_right fun _ => ?_
  constructor
  · rintro ⟨services, others, block, hfound, hblock, hnodes, hservices, ⟨rfl, hnone⟩ |
      ⟨definitions, hsecond, hread⟩⟩
    · obtain ⟨hnames, hnamed, habsent⟩ :=
        takesAll_iff.mp (.step (.first hfound) (.step (.nothing rfl) .done))
      exact ⟨hnames, ⟨services, block, hnamed, hblock, hnodes, hservices⟩, .inl ⟨habsent, hnone⟩⟩
    · obtain ⟨hnames, hnamed, hdefined⟩ :=
        takesAll_iff.mp (.step (.first hfound) (.step (.first hsecond) .done))
      exact ⟨hnames, ⟨services, block, hnamed, hblock, hnodes, hservices⟩,
        .inr ⟨definitions, hdefined, hread⟩⟩
  · rintro ⟨hnames, ⟨services, block, hnamed, hblock, hnodes, hservices⟩, ⟨habsent, hnone⟩ |
      ⟨definitions, hdefined, hread⟩⟩
    · have htakes : Claims.TakesAll [("services", some services), ("definitions", none)]
          document.nodes := takesAll_iff.mpr ⟨hnames, hnamed, habsent⟩
      obtain _ | ⟨_ | hfound, _ | ⟨_ | _, ⟨⟩⟩⟩ := htakes
      exact ⟨services, [], block, hfound, hblock, hnodes, hservices, .inl ⟨rfl, hnone⟩⟩
    · have htakes : Claims.TakesAll [("services", some services), ("definitions", some definitions)]
          document.nodes := takesAll_iff.mpr ⟨hnames, hnamed, hdefined⟩
      obtain _ | ⟨_ | hfound, _ | ⟨_ | hsecond, ⟨⟩⟩⟩ := htakes
      exact ⟨services, _, block, hfound, hblock, hnodes, hservices,
        .inr ⟨definitions, hsecond, hread⟩⟩

/-- When the services of a document are read, and as what. -/
theorem services_eq_ok_iff {document : Document} {services : List Service} :
    (∃ node block, nodesNamed "services" document.nodes = [node] ∧ node.children = some block ∧
        block.nodes ≠ [] ∧ (readServices [] block.nodes).result = .ok services) ↔
      (nodesNamed "services" document.nodes).length = 1 ∧ serviceNodes document ≠ [] ∧
        ((serviceNodes document).map Node.name).Nodup ∧
        List.Forall₂ (fun node service => (Service.read none (.node node)).result = .ok service)
          (serviceNodes document) services := by
  constructor
  · rintro ⟨node, block, hone, hblock, hne, hread⟩
    obtain ⟨-, hnodup, hread⟩ := readServices_eq_ok.mp hread
    rw [serviceNodes, hone, inside_singleton hblock]
    exact ⟨rfl, hne, hnodup, hread⟩
  · rintro ⟨hone, hne, hnodup, hread⟩
    obtain ⟨node, hone⟩ := List.length_eq_one_iff.mp hone
    rw [serviceNodes, hone] at hne hnodup hread
    obtain ⟨block, hblock⟩ := exists_block_of_inside_ne_nil hne
    rw [inside_singleton hblock] at hne hnodup hread
    exact ⟨node, block, hone, hblock, hne,
      readServices_eq_ok.mpr ⟨fun _ _ => List.not_mem_nil, hnodup, hread⟩⟩

/-- When the definitions of a document are read, and as what; there may be none. -/
theorem definitions_eq_ok_iff {document : Document} {chains : Dictionary Chain}
    {profiles : Dictionary KeyProfile} :
    (nodesNamed "definitions" document.nodes = [] ∧ chains = ∅ ∧ profiles = ∅ ∨
        ∃ node, nodesNamed "definitions" document.nodes = [node] ∧
          (readDefinitions (.node node)).result = .ok ⟨chains, profiles⟩) ↔
      (nodesNamed "definitions" document.nodes).length ≤ 1 ∧
        (∀ node ∈ nodesNamed "definitions" document.nodes, node.children.isSome = true) ∧
        (∀ node ∈ definitionNodes document,
          node.name = "chain-filters" ∨ node.name = "key-profile") ∧
        List.Forall₂ (Defines Chain.read) (nodesNamed "chain-filters" (definitionNodes document))
          chains.entries ∧
        List.Forall₂ (Defines KeyProfile.read)
          (nodesNamed "key-profile" (definitionNodes document)) profiles.entries := by
  constructor
  · rintro (⟨hnone, rfl, rfl⟩ | ⟨node, hone, hread⟩)
    · rw [definitionNodes, hnone]
      exact ⟨Nat.zero_le 1, nofun, nofun, .nil, .nil⟩
    · obtain ⟨block, hblock, hkinds, hchains, hprofiles⟩ := readDefinitions_eq_ok_iff.mp hread
      rw [definitionNodes, hone, inside_singleton hblock]
      refine ⟨Nat.le_refl 1, ?_, hkinds, hchains, hprofiles⟩
      exact List.forall_mem_singleton.mpr (Option.isSome_iff_exists.mpr ⟨block, hblock⟩)
  · rintro ⟨hle, hblocks, hkinds, hchains, hprofiles⟩
    rw [definitionNodes] at hkinds hchains hprofiles
    rcases Nat.le_one_iff_eq_zero_or_eq_one.mp hle with hnone | hone
    · have hnone := List.eq_nil_of_length_eq_zero hnone
      rw [hnone] at hchains hprofiles
      exact .inl ⟨hnone, Dictionary.eq_of_entries (List.forall₂_nil_left_iff.mp hchains),
        Dictionary.eq_of_entries (List.forall₂_nil_left_iff.mp hprofiles)⟩
    · obtain ⟨node, hone⟩ := List.length_eq_one_iff.mp hone
      rw [hone] at hblocks hkinds hchains hprofiles
      obtain ⟨block, hblock⟩ := Option.isSome_iff_exists.mp (hblocks node List.mem_cons_self)
      rw [inside_singleton hblock] at hkinds hchains hprofiles
      exact .inr ⟨node, hone,
        readDefinitions_eq_ok_iff.mpr ⟨block, hblock, hkinds, hchains, hprofiles⟩⟩

/-- When a document is read, and as which bundle. -/
theorem ofDocument_eq_ok_iff {sourceName : String} {document : Document} {bundle : Bundle} :
    (ofDocument sourceName document).result = .ok bundle ↔
      bundle.sourceName = sourceName ∧ IsLaidOut document ∧ Holds document bundle := by
  rw [ofDocument_eq_ok, read_eq_ok_iff, services_eq_ok_iff, definitions_eq_ok_iff]
  refine and_congr_right fun _ => ?_
  constructor
  · rintro ⟨hnames, ⟨hone, hne, hnodup, hread⟩, hle, hblocks, hkinds, hchains, hprofiles⟩
    exact ⟨⟨hone, hle, hnames, hne, hnodup, hblocks, hkinds⟩, hread, hchains, hprofiles⟩
  · rintro ⟨hlaid, hholds⟩
    exact ⟨hlaid.name_mem,
      ⟨hlaid.one_services, hlaid.services_ne_nil, hlaid.services_nodup, hholds.services⟩,
      hlaid.definitions_le_one, hlaid.definitions_block, hlaid.definition_name_mem,
      hholds.chains, hholds.profiles⟩

/-- **Which documents are bundles.** A document is read as a bundle if and only if it is laid out
like one and each of its parts is read on its own, definitions of one kind under distinct names. The
bundle then holds exactly what the parts are read as, in order; its addresses and names are
canonical, so that its plain data is valid. -/
theorem ofDocument_accepts_iff (sourceName : String) (document : Document) :
    ((∃ bundle, (ofDocument sourceName document).result = .ok bundle) ↔ IsAccepted document) ∧
      ∀ bundle, (ofDocument sourceName document).result = .ok bundle →
        bundle.sourceName = sourceName ∧ Holds document bundle ∧ bundle.IsCanonical ∧
          Bundle.validate bundle.toJson = .valid bundle := by
  refine ⟨⟨?_, fun haccepted => ?_⟩, fun bundle hread => ?_⟩
  · rintro ⟨bundle, hread⟩
    obtain ⟨-, hlaid, hservices, hchains, hprofiles⟩ := ofDocument_eq_ok_iff.mp hread
    obtain ⟨hchains, hchains'⟩ := exists_dictionary.mp ⟨bundle.chains, hchains⟩
    obtain ⟨hprofiles, hprofiles'⟩ := exists_dictionary.mp ⟨bundle.keyProfiles, hprofiles⟩
    exact { hlaid with
      services_read := forall_of_forall₂ hservices.flip fun service _ hread => ⟨service, hread⟩
      chains_read := hchains
      chains_nodup := hchains'
      profiles_read := hprofiles
      profiles_nodup := hprofiles' }
  · obtain ⟨services, hservices⟩ := exists_forall₂ haccepted.services_read
    obtain ⟨chains, hchains⟩ :=
      exists_dictionary.mpr ⟨haccepted.chains_read, haccepted.chains_nodup⟩
    obtain ⟨profiles, hprofiles⟩ :=
      exists_dictionary.mpr ⟨haccepted.profiles_read, haccepted.profiles_nodup⟩
    exact ⟨⟨sourceName, services, chains, profiles⟩, ofDocument_eq_ok_iff.mpr
      ⟨rfl, haccepted.toIsLaidOut, hservices, hchains, hprofiles⟩⟩
  · obtain ⟨hname, -, hholds⟩ := ofDocument_eq_ok_iff.mp hread
    have hcanonical := isCanonical_of_valid (valid_of_read (ofDocument_eq_ok.mp hread))
    exact ⟨hname, hholds, hcanonical, validate_toJson hcanonical⟩

end Config.Bundle

end ReverseProxy
