import ReverseProxy.Config.Bundle
import ReverseProxy.Proofs.Config.Chain
import ReverseProxy.Proofs.Config.KeyProfile
import ReverseProxy.Proofs.Config.Service

/-!
# Bundles are read as they were written

When a document is read as a bundle, and what is read from the lines of a bundle: the bundle itself,
but for the names of its transforms.
-/

namespace ReverseProxy.Config.Bundle

open Kdl Schema

/-- Services are read one by one, each under a name of its own. -/
theorem readServices_eq_ok {taken : List String} {nodes : List Node} {services : List Service} :
    (readServices taken nodes).result = .ok services ↔
      (∀ node ∈ nodes, node.name ∉ taken) ∧ (nodes.map Node.name).Nodup ∧
        List.Forall₂ (fun node service => (Service.read none (.node node)).result = .ok service)
          nodes services := by
  induction nodes generalizing taken services with
  | nil => simp [readServices, eq_comm]
  | cons node nodes ih =>
      rw [readServices]
      by_cases htaken : node.name ∈ taken
      · rw [if_pos htaken]
        exact iff_of_false nofun fun hall => hall.1 node List.mem_cons_self htaken
      · rw [if_neg htaken]
        simp only [Logged.result_bind, Logged.result_pure, bind_eq_ok]
        constructor
        · rintro ⟨service, hservice, others, hothers, ⟨⟩⟩
          obtain ⟨hnew, hnodup, hall⟩ := ih.mp hothers
          refine ⟨List.forall_mem_cons.mpr ⟨htaken, fun other hother hmem => ?_⟩,
            List.nodup_cons.mpr ⟨fun hmem => ?_, hnodup⟩, .cons hservice hall⟩
          · exact hnew other hother (List.mem_cons_of_mem _ hmem)
          · obtain ⟨other, hother, hsame⟩ := List.mem_map.mp hmem
            exact hnew other hother (hsame ▸ List.mem_cons_self)
        · rintro ⟨hnew, hnodup, _ | ⟨hservice, hall⟩⟩
          obtain ⟨-, hothers⟩ := List.forall_mem_cons.mp hnew
          obtain ⟨hfresh, hnodup⟩ := List.nodup_cons.mp hnodup
          refine ⟨_, hservice, _, ih.mpr ⟨fun other hother hmem => ?_, hnodup, hall⟩, rfl⟩
          rcases List.mem_cons.mp hmem with hsame | hmem
          · exact hfresh (hsame ▸ List.mem_map_of_mem hother)
          · exact hothers other hother hmem

theorem readNamed_eq_ok {α : Type} {read : Focus → Check α} {focus : Focus} {named : Named α} :
    (readNamed read focus).result = .ok named ↔
      definitionName focus = .ok named.name ∧ (read focus).result = .ok named.value ∧
        named.focus = focus := by
  simp only [readNamed, Logged.result_bind, Logged.result_lift, Logged.result_pure, bind_eq_ok]
  constructor
  · rintro ⟨name, hname, value, hvalue, ⟨⟩⟩
    exact ⟨hname, hvalue, rfl⟩
  · rintro ⟨hname, hvalue, rfl⟩
    exact ⟨named.name, hname, named.value, hvalue, rfl⟩

/-- Definitions are collected if their names, and those they are added to, are distinct. -/
theorem collectNamed_eq_ok {α : Type} {found : List (Named α)} {values result : Dictionary α} :
    collectNamed found values = .ok result ↔
      result.entries = values.entries ++ found.map fun named => (named.name, named.value) := by
  induction found generalizing values with
  | nil =>
      rw [collectNamed, List.map_nil, List.append_nil, Except.ok.injEq]
      exact ⟨fun hsame => hsame ▸ rfl, fun hentries => Dictionary.eq_of_entries hentries.symm⟩
  | cons named found ih =>
      rw [collectNamed]
      by_cases hnew : named.name ∉ values.keys
      · rw [dif_pos hnew, ih, Dictionary.entries_push, List.append_assoc]
        rfl
      · rw [dif_neg hnew]
        refine iff_of_false ?_ fun hentries => hnew fun hmem => ?_
        · cases named.focus <;> simp [Focus.name, Focus.theNode, Focus.reject, reject]
        · have hnodup := result.nodup
          rw [hentries, List.map_append, List.nodup_append] at hnodup
          exact hnodup.2.2 _ hmem _ List.mem_cons_self rfl

/-- Chains and profiles are read apart from each other, and the dictionaries keep their order. -/
theorem readDefinitions_eq_ok {node : Node} {definitions : Definitions} :
    (readDefinitions (.node node)).result = .ok definitions ↔
      ∃ block chains profiles, node.children = some block ∧
        List.Forall₂ (fun node named => (readNamed Chain.read (.node node)).result = .ok named)
          (block.nodes.filter fun node => node.name = "chain-filters") chains ∧
        definitions.chains.entries = chains.map (fun named => (named.name, named.value)) ∧
        List.Forall₂ (fun node named => (readNamed KeyProfile.read (.node node)).result = .ok named)
          ((block.nodes.filter fun node => node.name ≠ "chain-filters").filter
            fun node => node.name = "key-profile") profiles ∧
        definitions.keyProfiles.entries =
          profiles.map (fun named => (named.name, named.value)) ∧
        ∀ node ∈ block.nodes.filter fun node => node.name ≠ "chain-filters",
          node.name = "key-profile" := by
  rw [readDefinitions]
  simp only [bind_eq_ok, Claiming.result_run, Claims.ofFocus_node, Claiming.outcome_bind]
  constructor
  · rintro ⟨_, left, ⟨block, hblock, rfl⟩, ⟨chains, _⟩, hstep₁, ⟨chainsFound, _⟩, hstep₂,
      ⟨profiles, _⟩, hstep₃, ⟨profilesFound, _⟩, hstep₄, ⟨⟨⟩, _⟩, hfinish, hdone⟩
    obtain ⟨hchains, rfl⟩ := (Claiming.repeated_eq_ok rfl).mp hstep₁
    obtain ⟨hcollected, rfl⟩ := Claiming.outcome_lift.mp hstep₂
    obtain ⟨hprofiles, rfl⟩ := (Claiming.repeated_eq_ok rfl).mp hstep₃
    obtain ⟨hcollected', rfl⟩ := Claiming.outcome_lift.mp hstep₄
    obtain ⟨hpending, -⟩ := (Claiming.finish_eq_ok rfl).mp hfinish
    cases hdone
    exact ⟨block, chains, profiles, hblock, hchains, collectNamed_eq_ok.mp hcollected, hprofiles,
      collectNamed_eq_ok.mp hcollected', filter_other_eq_nil.mp hpending⟩
  · rintro ⟨block, chains, profiles, hblock, hchains, hcollected, hprofiles, hcollected', hnames⟩
    exact ⟨_, _, ⟨block, hblock, rfl⟩, _, (Claiming.repeated_eq_ok rfl).mpr ⟨hchains, rfl⟩, _,
      Claiming.outcome_lift.mpr ⟨collectNamed_eq_ok.mpr hcollected, rfl⟩, _,
      (Claiming.repeated_eq_ok rfl).mpr ⟨hprofiles, rfl⟩, _,
      Claiming.outcome_lift.mpr ⟨collectNamed_eq_ok.mpr hcollected', rfl⟩, _,
      (Claiming.finish_eq_ok rfl).mpr ⟨filter_other_eq_nil.mpr hnames, rfl⟩, rfl⟩

def definitionShape? {α : Type} (directive : String) (shapes? : α → Option (List Shape))
    (entry : String × α) : Option Shape :=
  (shapes? entry.2).map fun below => .mk directive [⟨none, .string entry.1⟩] (some below)

theorem definitionName_of_data {node : Node} {name : String}
    (hdata : node.data = [⟨none, .string name⟩]) :
    definitionName (.node node) = .ok name := by
  obtain ⟨entry, hentries, hentry⟩ := List.map_eq_singleton_iff.mp hdata
  have hpositional : entry.isPositional = true := by
    rw [Entry.isPositional, show entry.key = none from congrArg Datum.key hentry]
    rfl
  have hstring : entry.asString = .ok name :=
    Entry.readsString.eq_ok_iff.mpr (congrArg Datum.value hentry)
  simp [definitionName, Focus.name, Focus.theNode, Focus.entries, Focus.positional, hentries,
    hpositional, hstring]

/-- The definitions of one kind are read under their names. -/
theorem readNamed_of_shapes {α : Type} {read : Focus → Check α} {directive : String}
    {shapes? : α → Option (List Shape)} (reread : α → α) {entries : List (String × α)}
    {nodes : List Node}
    (hshapes : entries.mapM (definitionShape? directive shapes?) = some (nodes.map Node.shape))
    (hread : ∀ entry ∈ entries, ∀ (node : Node) (block : Block Node), node.children = some block →
      shapes? entry.2 = some block.shapes → (read (.node node)).result = .ok (reread entry.2)) :
    (∀ node ∈ nodes, node.name = directive) ∧ ∃ found,
      List.Forall₂ (fun node named => (readNamed read (.node node)).result = .ok named)
          nodes found ∧
        found.map (fun named => (named.name, named.value)) =
          entries.map fun entry => (entry.1, reread entry.2) := by
  induction entries generalizing nodes with
  | nil =>
      obtain rfl : nodes = [] := List.map_eq_nil_iff.mp (Option.some.inj hshapes).symm
      exact ⟨nofun, [], .nil, rfl⟩
  | cons entry entries ih =>
      obtain ⟨hentry, hothers⟩ := List.forall_mem_cons.mp hread
      rw [List.mapM_cons] at hshapes
      obtain ⟨shape, hshape, hrest⟩ := Option.bind_eq_some_iff.mp hshapes
      obtain ⟨shapes, hshapes, hjoined⟩ := Option.bind_eq_some_iff.mp hrest
      obtain ⟨node, others, rfl, rfl, rfl⟩ := List.map_eq_cons_iff.mp (Option.some.inj hjoined).symm
      obtain ⟨below, hbelow, hmade⟩ := Option.map_eq_some_iff.mp hshape
      obtain ⟨hname, hdata, hchildren⟩ := Node.shape_eq_mk.mp hmade.symm
      obtain ⟨block, hblock, rfl⟩ := Option.map_eq_some_iff.mp hchildren
      obtain ⟨hnames, found, hall, hfound⟩ := ih hshapes hothers
      refine ⟨List.forall_mem_cons.mpr ⟨hname, hnames⟩,
        ⟨.node node, entry.1, reread entry.2⟩ :: found, .cons ?_ hall, congrArg (_ :: ·) hfound⟩
      exact readNamed_eq_ok.mpr ⟨definitionName_of_data hdata, hentry node block hblock hbelow, rfl⟩

/-- The block of one definition is read as the node that it is written for. -/
theorem linesRead_definition {α : Type} {lines : α → List String} {directive head : String}
    {shapes? : α → Option (List Shape)} {depth : Nat} {entry : String × α}
    (htoken : IsToken directive.toList) (hhead : head = directive ++ " " ++ quote entry.1)
    (hlines : LinesRead depth (lines entry.2) (shapes? entry.2)) :
    LinesRead (depth + 1) (writeBlock head (lines entry.2))
      ((definitionShape? directive shapes? entry).map ([·])) := by
  have hwritten : head.toList = directive.toList ++ ' ' :: (quoteChars entry.1.toList ++ []) := by
    rw [hhead]
    simp [quote]
  have hblock := LinesRead.block (spellsName_of_isToken htoken)
    (.cons (.positional (.quoted entry.1)) .nil) hwritten hlines
  rw [definitionShape?, Option.map_map]
  exact hblock

theorem servicesIn_eq_ok {node : Node} {services : List Service} :
    (do readServices [] (← liftM (Focus.node node).nonemptyChildren) :
        Check (List Service)).result = .ok services ↔
      ∃ block, node.children = some block ∧ block.nodes ≠ [] ∧
        (readServices [] block.nodes).result = .ok services := by
  simp only [Logged.result_bind, Logged.result_lift, bind_eq_ok, Focus.nonemptyChildren_node]
  constructor
  · rintro ⟨_, ⟨block, hblock, hne, rfl⟩, hread⟩
    exact ⟨block, hblock, hne, hread⟩
  · rintro ⟨block, hblock, hne, hread⟩
    exact ⟨_, ⟨block, hblock, hne, rfl⟩, hread⟩

/-- A document is read from the block of its services and that of its definitions, if any. -/
theorem read_eq_ok {sourceName : String} {document : Document} {bundle : Bundle} :
    (Bundle.read sourceName (.document document)).result = .ok bundle ↔
      bundle.sourceName = sourceName ∧ ∃ first others block,
        Claims.takeFirst? "services" document.nodes = some (first, others) ∧
        first.children = some block ∧ block.nodes ≠ [] ∧
        (readServices [] block.nodes).result = .ok bundle.services ∧
        ((others = [] ∧ bundle.chains = ∅ ∧ bundle.keyProfiles = ∅) ∨
          ∃ second, Claims.takeFirst? "definitions" others = some (second, []) ∧
            (readDefinitions (.node second)).result = .ok ⟨bundle.chains, bundle.keyProfiles⟩) := by
  rw [Bundle.read]
  simp only [bind_eq_ok, Claiming.result_run, Claims.ofFocus_document, Claiming.outcome_bind]
  constructor
  · rintro ⟨_, left, rfl, ⟨services, _⟩, hstep₁, ⟨definitions, _⟩, hstep₂, ⟨⟨⟩, _⟩, hfinish, hdone⟩
    obtain ⟨first, others, hfirst, hread, rfl⟩ := (Claiming.required_eq_ok rfl).mp hstep₁
    obtain ⟨block, hblock, hne, hread⟩ := servicesIn_eq_ok.mp hread
    obtain ⟨_, rest, htakes, hfound, rfl⟩ := (Claiming.optional_eq_ok rfl).mp hstep₂
    obtain ⟨hrest, -⟩ := (Claiming.finish_eq_ok rfl).mp hfinish
    obtain rfl : rest = [] := hrest
    rcases htakes with _ | hsecond
    · cases hfound
      cases hdone
      exact ⟨rfl, first, [], block, hfirst, hblock, hne, hread, .inl ⟨rfl, rfl, rfl⟩⟩
    · cases hfound with
      | some hfound =>
      cases hdone
      exact ⟨rfl, first, others, block, hfirst, hblock, hne, hread, .inr ⟨_, hsecond, hfound⟩⟩
  · rintro ⟨rfl, first, others, block, hfirst, hblock, hne, hread, hdefinitions⟩
    have hread := servicesIn_eq_ok.mpr ⟨block, hblock, hne, hread⟩
    rcases hdefinitions with ⟨rfl, hchains, hprofiles⟩ | ⟨second, hsecond, hfound⟩
    · refine ⟨_, ⟨.document document, [], true⟩, rfl, _,
        (Claiming.required_eq_ok rfl).mpr ⟨first, [], hfirst, hread, rfl⟩, _,
        (Claiming.optional_eq_ok rfl).mpr ⟨none, [], .nothing rfl, .none, rfl⟩, _,
        (Claiming.finish_eq_ok rfl).mpr ⟨rfl, rfl⟩, ?_⟩
      obtain ⟨_, _, _, _⟩ := bundle
      cases hchains
      cases hprofiles
      rfl
    · exact ⟨_, ⟨.document document, [], true⟩, rfl, _,
        (Claiming.required_eq_ok rfl).mpr ⟨first, others, hfirst, hread, rfl⟩, _,
        (Claiming.optional_eq_ok rfl).mpr ⟨some second, [], .first hsecond, .some hfound, rfl⟩, _,
        (Claiming.finish_eq_ok rfl).mpr ⟨rfl, rfl⟩, rfl⟩

/-- Checking once more what was read changes nothing. -/
theorem ofDocument_eq_ok {sourceName : String} {document : Document} {bundle : Bundle} :
    (ofDocument sourceName document).result = .ok bundle ↔
      (Bundle.read sourceName (.document document)).result = .ok bundle := by
  simp only [ofDocument, Logged.result_bind, Logged.result_note, Logged.result_pure, ok_bind]
  cases (Bundle.read sourceName (.document document)).result <;> simp

/-! ### What holds of every bundle that is read

Reading checks more than it keeps. What it has checked is said here as a condition on the bundle
alone, which the texts written for it rest on.
-/

/-- There are services, each under a name of its own, and everything that was read is in order. -/
structure Valid (bundle : Bundle) : Prop where
  services_ne_nil : bundle.services ≠ []
  nodup_names : (bundle.services.map Service.name).Nodup
  services_valid : ∀ service ∈ bundle.services, service.Valid
  chains_valid : ∀ entry ∈ bundle.chains.entries, entry.2.Valid

theorem map_name_of_forall₂ {nodes : List Node} {services : List Service}
    (hall : List.Forall₂ (fun node service => (Service.read none (.node node)).result = .ok service)
      nodes services) : services.map Service.name = nodes.map Node.name := by
  induction hall with
  | nil => rfl
  | cons hservice _ ih =>
      rw [List.map_cons, List.map_cons, ih, (Service.read_eq_ok.mp hservice).1]

theorem valid_of_read {sourceName : String} {document : Document} {bundle : Bundle}
    (hread : (Bundle.read sourceName (.document document)).result = .ok bundle) :
    bundle.Valid := by
  obtain ⟨-, first, others, block, -, -, hne, hservices, hdefinitions⟩ := read_eq_ok.mp hread
  obtain ⟨-, hnodup, hall⟩ := readServices_eq_ok.mp hservices
  refine ⟨fun hnil => hne ?_, ?_, forall_of_forall₂ hall fun _ _ => Service.valid_of_read, ?_⟩
  · rw [hnil] at hall
    exact List.forall₂_nil_right_iff.mp hall
  · rw [map_name_of_forall₂ hall]
    exact hnodup
  · intro entry hentry
    rcases hdefinitions with ⟨-, hchains, -⟩ | ⟨second, -, hsecond⟩
    · rw [hchains] at hentry
      cases hentry
    · obtain ⟨_, chains, _, -, hread, hcollected, -⟩ := readDefinitions_eq_ok.mp hsecond
      change bundle.chains.entries = _ at hcollected
      rw [hcollected] at hentry
      obtain ⟨named, hnamed, rfl⟩ := List.mem_map.mp hentry
      have hvalid := forall_of_forall₂ hread fun _ _ hnamed =>
        Chain.valid_of_read (readNamed_eq_ok.mp hnamed).2.1
      exact hvalid named hnamed

end ReverseProxy.Config.Bundle
