import ReverseProxy.Proofs.Config.Bundle
import ReverseProxy.Service.Operation

/-!
# Which bundles survive writing and reading

A bundle that was read from a document is written line by line and read again. What can be lost on
the way are the names that are written bare where that is possible: those of services and of
transforms, and the keys of arguments and parameters. A name is lost if it is a bare name with a
line feed behind it.
-/

namespace ReverseProxy.Config.Bundle

open Kdl Schema

/-- The bundle that is read where one was written. -/
def reread (bundle : Bundle) : Bundle :=
  { bundle with
    keyProfiles :=
      ⟨bundle.keyProfiles.entries.map fun entry => (entry.1, entry.2.reread), by
        rw [List.map_map]
        exact bundle.keyProfiles.nodup⟩ }

def serviceShapes? (bundle : Bundle) : Option (List Shape) :=
  (bundle.services.mapM Service.shape?).map fun below => [.mk "services" [] (some below)]

def definedShapes? (bundle : Bundle) : Option (List Shape) := do
  return (← bundle.chains.entries.mapM (definitionShape? "chain-filters" Chain.shapes?)) ++
    (← bundle.keyProfiles.entries.mapM (definitionShape? "key-profile" KeyProfile.shapes?))

def definitionShapes? (bundle : Bundle) : Option (List Shape) :=
  if bundle.chains.entries = [] ∧ bundle.keyProfiles.entries = [] then some []
  else bundle.definedShapes?.map fun below => [.mk "definitions" [] (some below)]

def shapes? (bundle : Bundle) : Option (List Shape) := do
  return (← bundle.serviceShapes?) ++ (← bundle.definitionShapes?)

theorem definedLines_eq_nil {bundle : Bundle} :
    bundle.chains.entries.flatMap chainLines ++
        bundle.keyProfiles.entries.flatMap keyProfileLines = [] ↔
      bundle.chains.entries = [] ∧ bundle.keyProfiles.entries = [] := by
  have hnil {α : Type} {lines : α → List String} (hlines : ∀ value, lines value ≠ [])
      (values : List α) : values.flatMap lines = [] ↔ values = [] := by
    cases values with
    | nil => simp
    | cons value values => simp [hlines]
  rw [List.append_eq_nil_iff]
  exact and_congr (hnil (fun _ => List.cons_ne_nil _ _) _) (hnil (fun _ => List.cons_ne_nil _ _) _)

/-- The lines of a bundle, with the definitions left out if there are none. -/
theorem lines_eq (bundle : Bundle) :
    bundle.lines = writeBlock "services" (bundle.services.flatMap Service.lines) ++
      if bundle.chains.entries = [] ∧ bundle.keyProfiles.entries = [] then []
      else [""] ++ writeBlock "definitions" (bundle.chains.entries.flatMap chainLines ++
        bundle.keyProfiles.entries.flatMap keyProfileLines) := by
  simp only [lines, List.isEmpty_iff, definedLines_eq_nil]
  split <;> simp

theorem linesRead_blank (depth : Nat) : LinesRead depth [""] (some []) := by
  intro indent
  have hfeed : SpellsNodes depth ['\n'] [] := .blank (.inr rfl) .nil
  simpa [linesText] using spellsNodes_spaces hfeed indent

theorem linesRead_services (bundle : Bundle) (depth : Nat) :
    LinesRead (depth + 3) (writeBlock "services" (bundle.services.flatMap Service.lines))
      bundle.serviceShapes? :=
  LinesRead.block (spellsName_of_isToken (by decide)) .nil (List.append_nil _).symm
    (LinesRead.flatMap fun service _ => service.linesRead depth)

theorem linesRead_defined (bundle : Bundle) (depth : Nat) :
    LinesRead (depth + 2) (bundle.chains.entries.flatMap chainLines ++
      bundle.keyProfiles.entries.flatMap keyProfileLines) bundle.definedShapes? := by
  have hchains : LinesRead (depth + 2) (bundle.chains.entries.flatMap chainLines)
      (bundle.chains.entries.mapM (definitionShape? "chain-filters" Chain.shapes?)) :=
    LinesRead.flatMap fun entry _ => linesRead_definition (by decide) (by simp)
      (entry.2.linesRead (depth + 1))
  have hprofiles : LinesRead (depth + 2) (bundle.keyProfiles.entries.flatMap keyProfileLines)
      (bundle.keyProfiles.entries.mapM (definitionShape? "key-profile" KeyProfile.shapes?)) :=
    LinesRead.flatMap fun entry _ => linesRead_definition (by decide) (by simp)
      (entry.2.linesRead depth)
  exact hchains.append hprofiles

/-- The lines of a bundle are read as the nodes that it is written for. -/
theorem linesRead (bundle : Bundle) (depth : Nat) :
    LinesRead (depth + 3) bundle.lines bundle.shapes? := by
  rw [lines_eq]
  apply (bundle.linesRead_services depth).append
  rw [definitionShapes?]
  split
  · exact LinesRead.nil
  · have hblock : LinesRead (depth + 3) (writeBlock "definitions" _)
        (bundle.definedShapes?.map fun below => [.mk "definitions" [] (some below)]) :=
      LinesRead.block (spellsName_of_isToken (by decide)) .nil (List.append_nil _).symm
        (bundle.linesRead_defined depth)
    have hall := (linesRead_blank (depth + 3)).append hblock
    cases hshapes : bundle.definedShapes? <;> simpa [hshapes] using hall

theorem readDefinitions_of_shapes {node : Node} {block : Block Node} {bundle : Bundle}
    (hblock : node.children = some block) (hshapes : bundle.definedShapes? = some block.shapes)
    (hvalid : bundle.Valid) :
    (readDefinitions (.node node)).result = .ok ⟨bundle.chains, bundle.reread.keyProfiles⟩ := by
  obtain ⟨chainShapes, hchains, hrest⟩ := Option.bind_eq_some_iff.mp hshapes
  obtain ⟨profileShapes, hprofiles, hjoined⟩ := Option.bind_eq_some_iff.mp hrest
  have hnodes : block.nodes.map Node.shape = chainShapes ++ profileShapes := by
    rw [← shapes_eq_map]
    exact (Option.some.inj hjoined).symm
  obtain ⟨chainNodes, profileNodes, hsplit, rfl, rfl⟩ := List.map_eq_append_iff.mp hnodes
  obtain ⟨hchainNames, chains, hchainsRead, hchainEntries⟩ :=
    readNamed_of_shapes id hchains fun entry hentry node block hblock hshapes =>
      Chain.read_of_shapes hblock hshapes (hvalid.chains_valid entry hentry)
  obtain ⟨hprofileNames, profiles, hprofilesRead, hprofileEntries⟩ :=
    readNamed_of_shapes KeyProfile.reread hprofiles fun entry _ node block hblock hshapes =>
      KeyProfile.read_of_shapes hblock hshapes
  have hnone : profileNodes.filter (fun node => node.name = "chain-filters") = [] :=
    List.filter_eq_nil_iff.mpr fun node hnode => by simp [hprofileNames node hnode]
  have hothers : block.nodes.filter (fun node => node.name ≠ "chain-filters") = profileNodes := by
    rw [hsplit, List.filter_append, filter_other_eq_nil.mpr hchainNames, List.nil_append]
    exact List.filter_eq_self.mpr fun node hnode => by simp [hprofileNames node hnode]
  refine readDefinitions_eq_ok.mpr ⟨block, chains, profiles, hblock, ?_, ?_, ?_, ?_, ?_⟩
  · rwa [hsplit, List.filter_append, filter_named_eq_self hchainNames, hnone, List.append_nil]
  · rw [hchainEntries]
    exact (List.map_id _).symm
  · rwa [hothers, filter_named_eq_self hprofileNames]
  · exact hprofileEntries.symm
  · rwa [hothers]

theorem readServices_of_shapes {nodes : List Node} {services : List Service}
    (hshapes : services.mapM Service.shape? = some (nodes.map Node.shape))
    (hnodup : (services.map Service.name).Nodup) (hvalid : ∀ service ∈ services, service.Valid) :
    (readServices [] nodes).result = .ok services := by
  have hshaped : List.Forall₂ (fun node service => service.shape? = some node.shape) nodes
      services := by
    have hflipped := (mapM_eq_some.mp hshapes).flip
    rwa [List.forall₂_map_left_iff] at hflipped
  have hall : List.Forall₂ (fun node service =>
      (Service.read none (.node node)).result = .ok service) nodes services :=
    forall₂_imp_of_forall hshaped hvalid fun _ _ => Service.read_of_shape
  refine readServices_eq_ok.mpr ⟨fun _ _ => List.not_mem_nil, ?_, hall⟩
  rwa [← map_name_of_forall₂ hall]

/-- Whatever document has the shapes written for a valid bundle is read as what survives of it. -/
theorem read_of_shapes {document : Document} {bundle : Bundle}
    (hshapes : bundle.shapes? = some document.shapes) (hvalid : bundle.Valid) :
    (Bundle.read bundle.sourceName (.document document)).result = .ok bundle.reread := by
  obtain ⟨serviceShapes, hservices, hrest⟩ := Option.bind_eq_some_iff.mp hshapes
  obtain ⟨definitionShapes, hdefinitions, hjoined⟩ := Option.bind_eq_some_iff.mp hrest
  obtain ⟨below, hbelow, rfl⟩ := Option.map_eq_some_iff.mp hservices
  have hnodes : document.nodes.map Node.shape =
      .mk "services" [] (some below) :: definitionShapes := by
    rw [← shapes_eq_map]
    exact (Option.some.inj hjoined).symm
  obtain ⟨first, others, hsplit, hfirst, rfl⟩ := List.map_eq_cons_iff.mp hnodes
  obtain ⟨hname, -, hchildren⟩ := Node.shape_eq_mk.mp hfirst
  obtain ⟨block, hblock, rfl⟩ := Option.map_eq_some_iff.mp hchildren
  rw [Block.shapes, shapes_eq_map] at hbelow
  have hread : (readServices [] block.nodes).result = .ok bundle.services :=
    readServices_of_shapes hbelow hvalid.nodup_names hvalid.services_valid
  refine read_eq_ok.mpr ⟨rfl, first, others, block, ?_, hblock, ?_, hread, ?_⟩
  · rw [hsplit]
    exact Claims.takeFirst?_cons hname others
  · intro hnil
    rw [hnil] at hread
    cases hservices' : bundle.services with
    | nil => exact hvalid.services_ne_nil hservices'
    | cons service services =>
        rw [hservices'] at hread
        cases hread
  -- Without chains and profiles no block of definitions is written.
  · unfold definitionShapes? at hdefinitions
    split at hdefinitions
    · next hempty =>
      refine .inl ⟨List.map_eq_nil_iff.mp (Option.some.inj hdefinitions).symm,
        Dictionary.eq_of_entries hempty.1, Dictionary.eq_of_entries ?_⟩
      change bundle.keyProfiles.entries.map _ = []
      rw [hempty.2, List.map_nil]
    · obtain ⟨defined, hdefined, hblocks⟩ := Option.map_eq_some_iff.mp hdefinitions
      obtain ⟨second, rfl, hsecond⟩ := List.map_eq_singleton_iff.mp hblocks.symm
      obtain ⟨hname, -, hchildren⟩ := Node.shape_eq_mk.mp hsecond
      obtain ⟨inside, hinside, rfl⟩ := Option.map_eq_some_iff.mp hchildren
      exact .inr ⟨second, Claims.takeFirst?_cons hname [],
        readDefinitions_of_shapes hinside hdefined hvalid⟩

/-! ### Which bundles survive

A name is written without quotation marks if it looks like one word, even with a line feed behind
it. That line feed then ends the node instead of belonging to its name; nothing else is lost where a
bundle is written.
-/

/-- The names that are written bare where that is possible. -/
def writtenNames (bundle : Bundle) : List String :=
  bundle.services.map Service.name ++
    bundle.chains.entries.flatMap (fun entry =>
      entry.2.filters.flatMap fun filter => filter.arguments.keys) ++
    bundle.keyProfiles.entries.flatMap fun entry =>
      entry.2.transforms.flatMap fun transform => transform.name :: transform.parameters.keys

theorem definitionShape?_isSome {α : Type} {directive : String}
    {shapes? : α → Option (List Shape)} {entries : List (String × α)} :
    (entries.mapM (definitionShape? directive shapes?)).isSome = true ↔
      ∀ entry ∈ entries, (shapes? entry.2).isSome = true := by
  rw [isSome_mapM]
  exact forall₂_congr fun entry _ => by rw [definitionShape?, Option.isSome_map]

theorem shapes?_isSome {bundle : Bundle} :
    bundle.shapes?.isSome = true ↔
      (∀ service ∈ bundle.services, service.shape?.isSome = true) ∧
      (∀ entry ∈ bundle.chains.entries, entry.2.shapes?.isSome = true) ∧
      ∀ entry ∈ bundle.keyProfiles.entries, entry.2.shapes?.isSome = true := by
  have hjoin {first second : Option (List Shape)} :
      (do return (← first) ++ (← second) : Option (List Shape)).isSome = true ↔
        first.isSome = true ∧ second.isSome = true := by
    cases first <;> cases second <;> simp
  have hdefined : bundle.definedShapes?.isSome = true ↔
      (∀ entry ∈ bundle.chains.entries, entry.2.shapes?.isSome = true) ∧
      ∀ entry ∈ bundle.keyProfiles.entries, entry.2.shapes?.isSome = true := by
    rw [definedShapes?, hjoin, definitionShape?_isSome, definitionShape?_isSome]
  rw [shapes?, hjoin, serviceShapes?, Option.isSome_map, isSome_mapM, ← hdefined]
  refine and_congr_right fun _ => ?_
  rw [definitionShapes?]
  split
  · next hempty => simp [hdefined, hempty.1, hempty.2]
  · rw [Option.isSome_map]

theorem reread_eq_self {bundle : Bundle} :
    bundle.reread = bundle ↔ ∀ entry ∈ bundle.keyProfiles.entries, entry.2.reread = entry.2 := by
  have hentries : bundle.reread = bundle ↔
      bundle.keyProfiles.entries.map (fun entry => (entry.1, entry.2.reread)) =
        bundle.keyProfiles.entries.map id := by
    rw [List.map_id]
    constructor
    · intro hsame
      exact congrArg (fun other : Bundle => other.keyProfiles.entries) hsame
    · intro hsame
      have hprofiles : bundle.reread.keyProfiles = bundle.keyProfiles :=
        Dictionary.eq_of_entries hsame
      exact congrArg (fun profiles => { bundle with keyProfiles := profiles }) hprofiles
  rw [hentries, List.map_inj_left]
  exact forall₂_congr fun entry _ => by simp [Prod.ext_iff]

/-- A bundle survives exactly if none of its names is a bare one with a line feed behind it. -/
theorem survives_iff {bundle : Bundle} :
    bundle.shapes?.isSome = true ∧ bundle.reread = bundle ↔
      ∀ name ∈ bundle.writtenNames, ¬IsBareLine name := by
  rw [shapes?_isSome, reread_eq_self, and_assoc, and_assoc, ← forall₂_and, writtenNames,
    List.forall_mem_append, List.forall_mem_append, and_assoc]
  refine and_congr ?_ (and_congr ?_ ?_)
  · rw [List.forall_mem_map]
    exact forall₂_congr fun service _ => Service.shape?_isSome
  · rw [List.forall_mem_flatMap]
    simp only [List.forall_mem_flatMap]
    exact forall₂_congr fun entry _ => Chain.shapes?_isSome
  · simp only [List.forall_mem_flatMap]
    exact forall₂_congr fun entry _ => KeyProfile.survives_iff

/-- The bundle that a text is read as, if there is one. -/
def ofText? (sourceName text : String) : Option Bundle := do
  let document ← (readDocument text.toList).toOption
  (ofDocument sourceName document).result.toOption

/-- A text is read as a bundle if it is read as a document and the document as the bundle. -/
theorem ofText?_eq_some {sourceName text : String} {bundle : Bundle} :
    ofText? sourceName text = some bundle ↔
      ∃ document, readDocument text.toList = .ok document ∧
        (Bundle.read sourceName (.document document)).result = .ok bundle := by
  have htoOption {ε α : Type} {result : Except ε α} {value : α} :
      result.toOption = some value ↔ result = .ok value := by
    cases result <;> simp [Except.toOption]
  rw [ofText?]
  simp only [Option.bind_eq_bind, Option.bind_eq_some_iff, htoOption]
  exact exists_congr fun document => and_congr_right fun _ => ofDocument_eq_ok

/-- The text of a bundle is read if its lines say something, and then as what they say. -/
theorem ofText?_text {bundle second : Bundle} (hvalid : bundle.Valid) :
    ofText? bundle.sourceName bundle.text = some second ↔
      bundle.shapes?.isSome = true ∧ second = bundle.reread := by
  have hne : bundle.lines ≠ [] := by simp [lines_eq, writeBlock]
  have hlines : LinesRead maxDepth bundle.lines bundle.shapes? := bundle.linesRead 125
  rw [ofText?_eq_some, text]
  cases hshapes : bundle.shapes? with
  | none =>
      rw [hshapes] at hlines
      obtain ⟨failure, hfailure⟩ := readDocument_joinLines_spoiled hne hlines
      rw [hfailure]
      constructor
      · rintro ⟨_, ⟨⟩, -⟩
      · rintro ⟨⟨⟩, -⟩
  | some shapes =>
      rw [hshapes] at hlines
      obtain ⟨document, hdocument, rfl⟩ := readDocument_joinLines hne hlines
      have hread := read_of_shapes hshapes hvalid
      rw [hdocument]
      constructor
      · rintro ⟨_, ⟨⟩, hsecond⟩
        rw [hread] at hsecond
        exact ⟨rfl, (Except.ok.inj hsecond).symm⟩
      · rintro ⟨-, rfl⟩
        exact ⟨document, rfl, hread⟩

/-- **Which bundles survive writing and reading.** The text of a bundle that was read from a
document is read as the same bundle, with the same text, unless a service, a transform, an argument
of a filter or a parameter of a transform has a name that is bare but for a line feed behind it. -/
theorem ofText?_text_iff {sourceName text : String} {bundle : Bundle}
    (hread : ofText? sourceName text = some bundle) :
    (∃ second, ofText? sourceName bundle.text = some second ∧ second = bundle ∧
        second.text = bundle.text) ↔
      ∀ name ∈ bundle.writtenNames, ¬IsBareLine name := by
  obtain ⟨document, -, hbundle⟩ := ofText?_eq_some.mp hread
  obtain ⟨rfl, -⟩ := read_eq_ok.mp hbundle
  rw [← survives_iff]
  simp only [ofText?_text (valid_of_read hbundle)]
  constructor
  · rintro ⟨_, ⟨hsome, hreread⟩, rfl, -⟩
    exact ⟨hsome, hreread.symm⟩
  · rintro ⟨hsome, hreread⟩
    exact ⟨bundle, ⟨hsome, hreread.symm⟩, rfl, rfl⟩

/-- A service with a reserved name, and a key with two line feeds, both of which are quoted. -/
theorem ofText?_text_quoted :
    let address : SocketAddress := ⟨.v4 ⟨[1, 1, 1, 1], rfl⟩, 1⟩
    let service : Service := ⟨"true", ⟨[⟨address, none, false⟩]⟩, ⟨[⟨address, none, .http1⟩], none⟩⟩
    let chain : Chain := ⟨[⟨⟨"x.y"⟩, ⟨[("k\n\n", "v")], by decide⟩⟩]⟩
    let bundle : Bundle := ⟨"", [service], ⟨[("c", chain)], by decide⟩, ∅⟩
    ofText? "" "services \x7b \"true\" \x7b listeners \x7b \"1.1.1.1:1\"; \x7d;
      connectors \x7b upstream \"1.1.1.1:1\"; \x7d; \x7d; \x7d; definitions \x7b
      chain-filters c \x7b filter name=x.y \"k\\n\\n\"=v; \x7d; \x7d" = some bundle ∧
    ∃ second, ofText? "" bundle.text = some second ∧ second = bundle ∧
      second.text = bundle.text := by
  intro address service chain bundle
  have hread : ofText? "" "services \x7b \"true\" \x7b listeners \x7b \"1.1.1.1:1\"; \x7d;
      connectors \x7b upstream \"1.1.1.1:1\"; \x7d; \x7d; \x7d; definitions \x7b
      chain-filters c \x7b filter name=x.y \"k\\n\\n\"=v; \x7d; \x7d" = some bundle := by
    decide +kernel
  exact ⟨hread, (ofText?_text_iff hread).mpr (by decide +kernel)⟩

/-- A service whose name ends in a line feed: what is written for it is not a document. -/
theorem ofText?_text_lost :
    let address : SocketAddress := ⟨.v4 ⟨[1, 1, 1, 1], rfl⟩, 1⟩
    let bundle : Bundle :=
      ⟨"", [⟨"a\n", ⟨[⟨address, none, false⟩]⟩, ⟨[⟨address, none, .http1⟩], none⟩⟩], ∅, ∅⟩
    ofText? "" "services \x7b \"a\\n\" \x7b listeners \x7b \"1.1.1.1:1\"; \x7d;
      connectors \x7b upstream \"1.1.1.1:1\"; \x7d; \x7d; \x7d" = some bundle ∧
    ∀ second, ofText? "" bundle.text ≠ some second := by
  intro address bundle
  have hlost : ofText? "" bundle.text = none := by decide +kernel
  refine ⟨by decide +kernel, fun second => ?_⟩
  rw [hlost]
  nofun

end ReverseProxy.Config.Bundle
