import ReverseProxy.Loading
import ReverseProxy.Proofs.Config.Bundle
import ReverseProxy.Proofs.Config.Reordering

/-!
# Documents that are read alike

What is read from a document depends on what the document says and not on how it is laid out, and
neither does it depend on the order of directives where that is free.
-/

namespace ReverseProxy.Config

open Kdl Schema

variable {strict : Prop} {inside : List Node → List Node → Prop} {node other : Node}

/-- Nodes with the same name and the same data are read as the same listener, or refused alike. -/
theorem Listener.read_agree (hlike : node.Like inside other) :
    Agree strict Eq (Listener.read (.node node)) (Listener.read (.node other)) := by
  have hcombine (address : SocketAddress) (certificate key : Option String)
      (http2 : Option Bool) : Agree strict Eq
        (Listener.combine (.node node) address certificate key http2)
        (Listener.combine (.node other) address certificate key http2) := by
    unfold Listener.combine
    split
    · exact .ok rfl
    · split
      · exact .rejectAt ..
      · exact .ok rfl
    · exact .rejectAt ..
  rw [Listener.read, Listener.read]
  simp only [Focus.property?_node, ok_bind]
  apply (Focus.validate_agree hlike).bind
  rintro _ _ rfl
  apply (Focus.parseName_agree hlike).bind
  rintro address _ rfl
  apply (Focus.readsKind_agree hlike Entry.readsString _).bind
  rintro certificate _ rfl
  apply (Focus.readsKind_agree hlike Entry.readsString _).bind
  rintro key _ rfl
  apply (Focus.readsKind_agree hlike Entry.readsBool _).bind
  rintro http2 _ rfl
  exact hcombine ..

theorem Listeners.read_agree (hlike : node.Like (Alike strict .fixed) other) :
    Agree strict Eq (Listeners.read (.node node)).result (Listeners.read (.node other)).result := by
  simp only [Listeners.read, Logged.result_bind, Logged.result_lift, Logged.result_mapM]
  apply (Focus.expectName_agree hlike).bind
  rintro _ _ rfl
  apply (Focus.nonemptyChildren_agree hlike fun _ _ halike => (halike.forall₂ rfl).length_eq).bind
  intro nodes others halike
  apply (Agree.mapM (halike.forall₂ rfl) fun _ _ => Listener.read_agree).bind
  intro listeners listeners' hsame
  rw [List.forall₂_eq_eq_eq] at hsame
  rw [hsame]
  exact .ok rfl

theorem Upstream.addressEntry_agree (hlike : node.Like inside other) :
    Agree strict (fun entry other => entry.datum = other.datum) (addressEntry (.node node))
      (addressEntry (.node other)) := by
  have hpositionals := Focus.positionals_related hlike
  have hfirst : Agree strict (fun entry other => entry.datum = other.datum)
      ((Focus.node node).positional 0) ((Focus.node other).positional 0) :=
    Focus.positional_agree hlike 0
  unfold addressEntry
  rw [Focus.entries_node, Focus.entries_node, ok_bind, ok_bind]
  generalize node.entries.filter Entry.isPositional = found at hpositionals ⊢
  generalize other.entries.filter Entry.isPositional = found' at hpositionals ⊢
  rcases hpositionals with _ | ⟨_, _ | ⟨_, _⟩⟩
  · exact hfirst
  · exact hfirst
  · exact .reject ..

theorem Upstream.read_agree (hlike : node.Like inside other) :
    Agree strict Eq (Upstream.read (.node node)) (Upstream.read (.node other)) := by
  rw [Upstream.read, Upstream.read]
  simp only [Focus.property?_node, ok_bind]
  apply (Focus.validate_agree hlike).bind
  rintro _ _ rfl
  apply (Upstream.addressEntry_agree hlike).bind
  intro entry entry' hdatum
  apply (parseAs_agree hdatum _).bind
  rintro address _ rfl
  apply (Focus.readsKind_agree hlike Entry.readsString _).bind
  rintro serverName _ rfl
  apply (Agree.optional (Focus.property?_related hlike _) fun _ _ h => parseAs_agree h _).bind
  rintro protocol _ rfl
  split
  · exact .rejectAt ..
  · exact .ok rfl

theorem LoadBalance.read_agree (hlike : node.Like inside other) :
    Agree strict Eq (LoadBalance.read (.node node)) (LoadBalance.read (.node other)) := by
  rw [LoadBalance.read, LoadBalance.read]
  simp only [Focus.property?_node, ok_bind]
  apply (Focus.validate_agree hlike).bind
  rintro _ _ rfl
  apply (Agree.optional (Focus.property?_related hlike _) fun _ _ h => parseAs_agree h _).bind
  rintro selection _ rfl
  apply (Focus.readsKind_agree hlike Entry.readsString _).bind
  rintro key _ rfl
  split
  · exact .rejectAt ..
  · split
    · exact .rejectAt ..
    · exact .ok rfl

/-- Upstreams may stand before or behind the way to balance load. -/
theorem Connectors.read_agree (hlike : node.Like (Alike strict .connectors) other) :
    Agree strict Eq (Connectors.read (.node node)).result
      (Connectors.read (.node other)).result := by
  simp only [Connectors.read, Logged.result_bind, Logged.result_lift]
  apply (Focus.expectName_agree hlike).bind
  rintro _ _ rfl
  apply Claiming.runNode_agree hlike fun _ _ halike => halike.sameNames
  apply (Claiming.AgreeOn.optional fun _ _ => LoadBalance.read_agree).bind
  rintro balance _ rfl
  apply (Claiming.AgreeOn.repeated fun _ _ => Upstream.read_agree).bind
  intro upstreams upstreams' hsame
  rw [List.forall₂_eq_eq_eq] at hsame
  have hend : Claiming.AgreeOn strict
      (fun name node other => node.Like (Alike strict (Place.connectors.inside name)) other) Eq
      (do
        Claiming.finish
        Claiming.note (.upstreams upstreams.length)
        return ⟨upstreams, balance⟩ : Claiming Connectors)
      (do
        Claiming.finish
        Claiming.note (.upstreams upstreams.length)
        return ⟨upstreams, balance⟩ : Claiming Connectors) :=
    Claiming.AgreeOn.finish.bind fun _ _ _ =>
      (Claiming.AgreeOn.note _ _).bind fun _ _ _ => .pure rfl
  rw [← hsame]
  split
  · exact (Claiming.AgreeOn.fail _).bind fun _ _ _ => hend
  · exact hend

/-- The blocks of a service may come in any order. -/
theorem Service.read_agree (hlike : node.Like (Alike strict .service) other) :
    Agree strict Eq (Service.read none (.node node)).result
      (Service.read none (.node other)).result := by
  simp only [Service.read, Logged.result_bind, Logged.result_lift, Service.chooseName_none, ok_bind,
    hlike.name]
  apply Claiming.runNode_agree hlike fun _ _ halike => halike.sameNames
  apply (Claiming.AgreeOn.required fun _ _ => Listeners.read_agree).bind
  rintro listeners _ rfl
  apply (Claiming.AgreeOn.required fun _ _ => Connectors.read_agree).bind
  rintro connectors _ rfl
  exact Claiming.AgreeOn.finish.bind fun _ _ _ =>
    (Claiming.AgreeOn.note _ _).bind fun _ _ _ => .pure rfl

theorem Filter.read_agree (hlike : node.Like inside other) :
    Agree strict Eq (Filter.read (.node node)) (Filter.read (.node other)) := by
  rw [Filter.read, Filter.read]
  apply (Focus.validate_agree hlike).bind
  rintro _ _ rfl
  apply (Focus.property_agree hlike _).bind
  intro entry entry' hdatum
  apply (parseAs_agree hdatum _).bind
  rintro name _ rfl
  apply (Focus.textsBetween_agree hlike ..).bind
  rintro texts _ rfl
  exact .ok rfl

theorem Chain.read_agree (hlike : node.Like (Alike strict .fixed) other) :
    Agree strict Eq (Chain.read (.node node)).result (Chain.read (.node other)).result := by
  apply Claiming.runNode_agree hlike fun _ _ halike => halike.sameNames
  apply (Claiming.AgreeOn.repeated fun _ _ => Filter.read_agree).bind
  intro filters filters' hsame
  rw [List.forall₂_eq_eq_eq] at hsame
  rw [hsame]
  exact Claiming.AgreeOn.finish.bind fun _ _ _ => .pure rfl

theorem KeyProfile.readKey_agree (hlike : node.Like inside other) :
    Agree strict Eq (KeyProfile.readKey (.node node)) (KeyProfile.readKey (.node other)) := by
  apply (Focus.firstEntry_agree hlike).bind
  intro entry entry' hdatum
  apply (readsKind_agree hdatum Entry.readsString).bind
  rintro source _ rfl
  apply (Focus.allowedTexts_agree hlike ..).bind
  rintro options _ rfl
  exact .ok rfl

theorem HashAlgorithm.read_agree (hlike : node.Like inside other) :
    Agree strict Eq (HashAlgorithm.read (.node node)) (HashAlgorithm.read (.node other)) := by
  apply (Focus.allowedTexts_agree hlike ..).bind
  rintro options _ rfl
  exact .ok rfl

theorem Transform.read_agree (hlike : node.Like inside other) :
    Agree strict Eq (Transform.read node) (Transform.read other) := by
  rw [Transform.read, Transform.read, hlike.name]
  apply (Focus.textsBetween_agree hlike ..).bind
  rintro texts _ rfl
  exact .ok rfl

theorem Transform.readAll_agree (hlike : node.Like (Alike strict .fixed) other) :
    Agree strict Eq (Transform.readAll (.node node)) (Transform.readAll (.node other)) := by
  apply (Focus.children_agree hlike).bind
  intro nodes others halike
  rw [← List.forall₂_eq_eq_eq]
  exact Agree.mapM (halike.forall₂ rfl) fun _ _ => Transform.read_agree

/-- The three directives of a profile may come in any order. -/
theorem KeyProfile.read_agree (hlike : node.Like (Alike strict .keyProfile) other) :
    Agree strict Eq (KeyProfile.read (.node node)).result
      (KeyProfile.read (.node other)).result := by
  apply Claiming.runNode_agree hlike fun _ _ halike => halike.sameNames
  apply (Claiming.AgreeOn.required fun _ _ => KeyProfile.readKey_agree).bind
  rintro key _ rfl
  apply (Claiming.AgreeOn.optional fun _ _ => HashAlgorithm.read_agree).bind
  rintro algorithm _ rfl
  apply (Claiming.AgreeOn.optional fun _ _ => Transform.readAll_agree).bind
  rintro transforms _ rfl
  exact Claiming.AgreeOn.finish.bind fun _ _ _ => .pure rfl

/-! ### Bundles

Directives of a block are claimed by name, so that blocks are read alike if the nodes of each name
are. If reading one of them fails, so does reading the other, and under `strict` in the same way.
-/

namespace Bundle

theorem readServices_agree {nodes others : List Node} (taken : List String)
    (hnodes :
      List.Forall₂ (fun node other => node.Like (Alike strict .service) other) nodes others) :
    Agree strict Eq (readServices taken nodes).result (readServices taken others).result := by
  induction hnodes generalizing taken with
  | nil => exact .ok rfl
  | cons hlike _ ih =>
      rw [readServices, readServices, hlike.name]
      split
      · exact .rejectAt ..
      · simp only [Logged.result_bind]
        apply (Service.read_agree hlike).bind
        rintro service _ rfl
        apply (ih _).bind
        rintro services _ rfl
        exact .ok rfl

theorem definitionName_agree (hlike : node.Like inside other) :
    Agree strict Eq (definitionName (.node node)) (definitionName (.node other)) := by
  have hentries := forall₂_of_map_eq hlike.data
  have hproperty : Option.Rel _ (node.entries.find? fun entry => !entry.isPositional)
      (other.entries.find? fun entry => !entry.isPositional) :=
    find?_forall₂ hentries fun _ _ hdatum => congrArg not (Focus.isPositional_congr hdatum)
  have hname : Agree strict Eq (do (← (Focus.node node).positional 0).asString)
      (do (← (Focus.node other).positional 0).asString) :=
    (Focus.positional_agree hlike 0).bind fun _ _ hdatum =>
      readsKind_agree hdatum Entry.readsString
  simp only [definitionName, Focus.entries_node, Focus.name, Focus.theNode, ok_bind, hlike.name]
  generalize node.entries.find? (fun entry => !entry.isPositional) = found at hproperty ⊢
  generalize other.entries.find? (fun entry => !entry.isPositional) = found' at hproperty ⊢
  cases hproperty with
  | @some entry entry' hdatum =>
      have hkey : entry.key = entry'.key := congrArg Datum.key hdatum
      dsimp only
      rw [hkey]
      exact .reject ..
  | none =>
      generalize node.entries = entries at hentries ⊢
      generalize other.entries = entries' at hentries ⊢
      rcases hentries with _ | ⟨_, _ | ⟨_, _⟩⟩
      · exact hname
      · exact hname
      · exact .reject ..

structure Named.Like {α : Type} (named other : Named α) : Prop where
  name : named.name = other.name
  value : named.value = other.value
  directive : ∃ node node', named.focus = .node node ∧ other.focus = .node node' ∧
    node.name = node'.name

theorem readNamed_agree {α : Type} {read : Focus → Check α} (hlike : node.Like inside other)
    (hread : Agree strict Eq (read (.node node)).result (read (.node other)).result) :
    Agree strict Named.Like (readNamed read (.node node)).result
      (readNamed read (.node other)).result := by
  simp only [readNamed, Logged.result_bind, Logged.result_lift]
  apply (definitionName_agree hlike).bind
  rintro name _ rfl
  apply hread.bind
  rintro value _ rfl
  exact .ok ⟨rfl, rfl, node, other, rfl, rfl, hlike.name⟩

/-- Definitions of the same names and values give the same dictionary, or the same name twice. -/
theorem collectNamed_agree {α : Type} {found found' : List (Named α)}
    (hfound : List.Forall₂ Named.Like found found') (values : Dictionary α) :
    Agree strict Eq (collectNamed found values) (collectNamed found' values) := by
  induction hfound generalizing values with
  | nil => exact .ok rfl
  | @cons named named' _ _ hlike _ ih =>
      obtain ⟨focus, name, value⟩ := named
      obtain ⟨focus', _, _⟩ := named'
      obtain ⟨rfl, rfl, first, second, hfocus, hfocus', hname⟩ := hlike
      cases hfocus
      cases hfocus'
      rw [collectNamed, collectNamed]
      split
      · exact ih _
      · refine .error fun _ => ?_
        rw [hname]
        rfl

theorem readDefinitions_agree (hlike : node.Like (Alike strict .definitions) other) :
    Agree strict Eq (readDefinitions (.node node)).result
      (readDefinitions (.node other)).result := by
  apply Claiming.runNode_agree hlike fun _ _ halike => halike.sameNames
  apply (Claiming.AgreeOn.repeated fun _ _ hbelow =>
    readNamed_agree hbelow (Chain.read_agree hbelow)).bind
  intro chains chains' hchains
  apply (Claiming.AgreeOn.lift (collectNamed_agree hchains ∅)).bind
  rintro chains _ rfl
  apply (Claiming.AgreeOn.repeated fun _ _ hbelow =>
    readNamed_agree hbelow (KeyProfile.read_agree hbelow)).bind
  intro profiles profiles' hprofiles
  apply (Claiming.AgreeOn.lift (collectNamed_agree hprofiles ∅)).bind
  rintro profiles _ rfl
  exact Claiming.AgreeOn.finish.bind fun _ _ _ => .pure rfl

/-- Documents that say the same up to the order in free blocks give the same bundle. -/
theorem ofDocument_agree {document document' : Document} (sourceName : String)
    (halike : Alike strict .document document.nodes document'.nodes) :
    Agree strict Eq (ofDocument sourceName document).result
      (ofDocument sourceName document').result := by
  have hservices (node other : Node) (hlike : node.Like (Alike strict .services) other) :
      Agree strict Eq
        (do readServices [] (← liftM (Focus.node node).nonemptyChildren) :
          Check (List Service)).result
        (do readServices [] (← liftM (Focus.node other).nonemptyChildren) :
          Check (List Service)).result := by
    simp only [Logged.result_bind, Logged.result_lift]
    apply (Focus.nonemptyChildren_agree hlike
      fun _ _ halike => (halike.forall₂ rfl).length_eq).bind
    intro nodes others halike
    exact readServices_agree [] (halike.forall₂ rfl)
  have hread : Agree strict Eq (read sourceName (.document document)).result
      (read sourceName (.document document')).result := by
    apply Claiming.runDocument_agree halike.sameNames
    apply (Claiming.AgreeOn.required hservices).bind
    rintro services _ rfl
    apply (Claiming.AgreeOn.optional fun _ _ => readDefinitions_agree).bind
    rintro definitions _ rfl
    exact Claiming.AgreeOn.finish.bind fun _ _ _ => .pure rfl
  simp only [ofDocument, Logged.result_bind]
  apply hread.bind
  rintro bundle _ rfl
  exact .ok rfl

/-- Equal shapes are alike, strictly or not. -/
theorem alike_of_shapes {document document' : Document} {place : Place}
    (hshapes : document.shapes = document'.shapes) :
    Alike strict place document.nodes document'.nodes := by
  rw [Block.shapes, Block.shapes, shapes_eq_map, shapes_eq_map] at hshapes
  exact .inl hshapes

/-- Equal values, diagnostics of the same kind with the same message, or the same end. -/
inductive SameOutcome {α : Type} : Except LoadFailure α → Except LoadFailure α → Prop
  | ok (value : α) : SameOutcome (.ok value) (.ok value)
  | diagnostic {first second : Diagnostic} (hkind : first.kind = second.kind)
      (hmessage : first.message = second.message) :
      SameOutcome (.error (.diagnostic first)) (.error (.diagnostic second))
  | abort (abort : Abort) : SameOutcome (.error (.abort abort)) (.error (.abort abort))

/-- **Layout has no meaning.** Documents that say the same, wherever it stands and whatever the
texts they come from, give the same bundle under the same name, or both fail with the same kind of
diagnostic and the same message. -/
theorem report_same_of_shapes {document document' : Document} (name text text' : String)
    (hshapes : document.shapes = document'.shapes) :
    SameOutcome (Source.report ⟨name, text⟩ (ofDocument name document)).result
      (Source.report ⟨name, text'⟩ (ofDocument name document')).result := by
  have hagree : Agree True Eq (ofDocument name document).result
      (ofDocument name document').result := ofDocument_agree name (alike_of_shapes hshapes)
  unfold Source.report
  dsimp only
  generalize (ofDocument name document).result = result at hagree ⊢
  generalize (ofDocument name document').result = result' at hagree ⊢
  cases hagree with
  | @ok bundle _ hsame =>
      cases hsame
      exact .ok bundle
  | @error failure failure' hcause =>
      have hcause := hcause trivial
      cases failure <;> cases failure' <;> cases hcause
      · exact .diagnostic rfl rfl
      · exact .abort _

/-- The same mistake in a document on one line and in one on several. -/
theorem report_same_of_shapes_unknown :
    let text := "services \x7b web; \x7d"
    let text' := "services \x7b\n  \"web\"\n\x7d\n"
    let document : Document :=
      ⟨[⟨"services", ⟨0, 8⟩, ⟨0, 17⟩, [], some ⟨[⟨"web", ⟨11, 3⟩, ⟨11, 3⟩, [], none⟩], ⟨9, 8⟩⟩⟩],
        ⟨0, 17⟩⟩
    let document' : Document :=
      ⟨[⟨"services", ⟨0, 8⟩, ⟨0, 20⟩, [], some ⟨[⟨"web", ⟨13, 5⟩, ⟨13, 5⟩, [], none⟩], ⟨9, 11⟩⟩⟩],
        ⟨0, 21⟩⟩
    readDocument text.toList = .ok document ∧ readDocument text'.toList = .ok document' ∧
      document.shapes = document'.shapes ∧
      SameOutcome (Source.report ⟨"web.kdl", text⟩ (ofDocument "web.kdl" document)).result
        (Source.report ⟨"web.kdl", text'⟩ (ofDocument "web.kdl" document')).result :=
  ⟨rfl, rfl, rfl, report_same_of_shapes "web.kdl" _ _ rfl⟩

/-- **Directive order is free.** A document whose directives are reordered in any of the blocks
where their order is free, those of one name keeping theirs, gives the same bundle if it gives any:
its services, listeners, upstreams, filters and transforms and the names of its definitions come in
the same order. -/
theorem ofDocument_reordered {document document' : Document} (sourceName : String) (bundle : Bundle)
    (hreordered :
      Relation.ReflTransGen (Reorders .document) document.shapes document'.shapes) :
    (ofDocument sourceName document).result = .ok bundle ↔
      (ofDocument sourceName document').result = .ok bundle := by
  have halike {first second : Document} (halike : Alike False .document first.nodes second.nodes) :
      (ofDocument sourceName first).result = .ok bundle ↔
        (ofDocument sourceName second).result = .ok bundle :=
    (ofDocument_agree sourceName halike).eq_ok
  generalize hbefore : document.shapes = before at hreordered
  generalize hafter : document'.shapes = after at hreordered
  induction hreordered generalizing document' with
  | refl => exact halike (alike_of_shapes (hbefore.trans hafter.symm))
  | @tail middle after _ hstep ih =>
      -- the order in between is that of some document
      have hmiddle : Block.shapes ⟨nodesOfShapes middle, ⟨0, 0⟩⟩ = middle :=
        shapes_nodesOfShapes middle
      refine (ih hmiddle).trans (halike (.inr ⟨id, ?_⟩))
      rw [← shapes_eq_map, ← shapes_eq_map]
      rw [← hmiddle, ← hafter] at hstep
      exact hstep

/-- Definitions before the services, and connectors before the listeners of a service. -/
theorem ofDocument_reordered_twice :
    let address : SocketAddress := ⟨.v4 ⟨[1, 1, 1, 1], rfl⟩, 1⟩
    let service : Service := ⟨"web", ⟨[⟨address, none, false⟩]⟩, ⟨[⟨address, none, .http1⟩], none⟩⟩
    let bundle : Bundle := ⟨"", [service], ⟨[("c", ⟨[]⟩)], by decide⟩, ∅⟩
    let document := nodesOfShapes
      [.mk "services" [] (some [.mk "web" [] (some
        [.mk "listeners" [] (some [.mk "1.1.1.1:1" [] none]),
          .mk "connectors" [] (some [.mk "upstream" [⟨none, .string "1.1.1.1:1"⟩] none])])]),
        .mk "definitions" [] (some [.mk "chain-filters" [⟨none, .string "c"⟩] (some [])])]
    let document' := nodesOfShapes
      [.mk "definitions" [] (some [.mk "chain-filters" [⟨none, .string "c"⟩] (some [])]),
        .mk "services" [] (some [.mk "web" [] (some
          [.mk "connectors" [] (some [.mk "upstream" [⟨none, .string "1.1.1.1:1"⟩] none]),
            .mk "listeners" [] (some [.mk "1.1.1.1:1" [] none])])])]
    (ofDocument "" ⟨document, ⟨0, 0⟩⟩).result = .ok bundle ∧
      (ofDocument "" ⟨document', ⟨0, 0⟩⟩).result = .ok bundle := by
  intro address service bundle document document'
  have hread : (ofDocument "" ⟨document, ⟨0, 0⟩⟩).result = .ok bundle := by decide +kernel
  refine ⟨hread, (ofDocument_reordered "" bundle ?_).mp hread⟩
  rw [Block.shapes, Block.shapes, shapes_nodesOfShapes, shapes_nodesOfShapes]
  refine .tail (.single (.swap [] [] rfl (by decide))) ?_
  exact .inside [_] [] (.inside [] [] (.swap [] [] rfl (by decide)))

end Bundle

end ReverseProxy.Config
