import ReverseProxy.Config.Bundle
import ReverseProxy.Proofs.Config.Bundle
import ReverseProxy.Proofs.Kdl.Faults
import ReverseProxy.Proofs.Schema.Faults

/-!
# Why a document gives no bundle

Each part of a bundle is refused because of the node it is read from, or because of something in
that node; hence a document is refused because of something in it.
-/

namespace ReverseProxy.Config

open Decimal Kdl Schema

variable {node : Node}

/-- A listener is refused at its own node or an entry of it. -/
theorem Listener.read_failsBy : FailsBy (IsNodeFault node) (Listener.read (.node node)) := by
  have hcombine (address : SocketAddress) (certificate key : Option String)
      (http2 : Option Bool) : FailsBy (IsNodeFault node)
        (Listener.combine (.node node) address certificate key http2) := by
    unfold Listener.combine
    split
    · exact .ok
    · split
      · exact rejectNode_failsBy
      · exact .ok
    · exact rejectNode_failsBy
  rw [Listener.read]
  simp only [Focus.property?_node, ok_bind]
  apply Focus.validate_failsBy.bind
  intro _ _
  apply Focus.parseName_failsBy.bind
  intro address _
  apply (optional_failsBy (readsKind_failsBy Entry.readsString)).bind
  intro certificate _
  apply (optional_failsBy (readsKind_failsBy Entry.readsString)).bind
  intro key _
  apply (optional_failsBy (readsKind_failsBy Entry.readsBool)).bind
  intro http2 _
  exact hcombine ..

/-- What is wrong with listeners is wrong with the node or with one inside it. -/
theorem Listeners.read_failsBy :
    FailsBy (IsNodeFault node) (Listeners.read (.node node)).result := by
  simp only [Listeners.read, Logged.result_bind, Logged.result_lift, Logged.result_mapM]
  apply Focus.expectName_failsBy.bind
  intro _ _
  apply Focus.bindNonempty_failsBy
  intro block _
  apply FailsBy.bind
  · apply FailsBy.mapM
    intro child hchild
    exact Listener.read_failsBy.mono fun _ hfault => hfault.ofBlock hchild
  · intro listeners _
    exact .ok

theorem Upstream.read_failsBy : FailsBy (IsNodeFault node) (Upstream.read (.node node)) := by
  have haddress : FailsBy (IsNodeFault node)
      (Upstream.addressEntry (.node node) >>= (·.parseAs TextType.socketAddress)) := by
    unfold Upstream.addressEntry
    rw [bind_assoc, Focus.entries_node, ok_bind]
    split
    · next first second others hentries =>
      have hsecond : second ∈ node.entries.filter Entry.isPositional := by
        rw [hentries]
        exact List.mem_cons_of_mem first List.mem_cons_self
      apply (rejectEntry_failsBy (List.mem_of_mem_filter hsecond)).bind
      intro value hvalue
      cases hvalue
    · exact positional_failsBy (parseAs_failsBy · _)
  rw [Upstream.read]
  simp only [Focus.property?_node, ok_bind]
  apply Focus.validate_failsBy.bind
  intro _ _
  rw [← bind_assoc]
  apply haddress.bind
  intro address _
  apply (optional_failsBy (readsKind_failsBy Entry.readsString)).bind
  intro serverName _
  apply (optional_failsBy (parseAs_failsBy · _)).bind
  intro protocol _
  split
  · exact rejectNode_failsBy
  · exact .ok

theorem LoadBalance.read_failsBy : FailsBy (IsNodeFault node) (LoadBalance.read (.node node)) := by
  rw [LoadBalance.read]
  simp only [Focus.property?_node, ok_bind]
  apply Focus.validate_failsBy.bind
  intro _ _
  apply (optional_failsBy (parseAs_failsBy · _)).bind
  intro selection _
  apply (optional_failsBy (readsKind_failsBy Entry.readsString)).bind
  intro key _
  split
  · exact rejectNode_failsBy
  · split
    · exact rejectNode_failsBy
    · exact .ok

/-- What is wrong with connectors is wrong with the node or with one inside it. -/
theorem Connectors.read_failsBy :
    FailsBy (IsNodeFault node) (Connectors.read (.node node)).result := by
  rw [Connectors.read, Logged.result_bind, Logged.result_lift]
  apply Focus.expectName_failsBy.bind
  intro _ _
  apply Claiming.runNode_failsBy
  intro block
  apply (Claiming.FailsIn.optional fun _ => LoadBalance.read_failsBy).bind
  intro balance _
  apply (Claiming.FailsIn.repeated fun _ => Upstream.read_failsBy).bind
  intro upstreams _
  have hend : Claiming.FailsIn block (do
      Claiming.finish
      Claiming.note (.upstreams upstreams.length)
      return ⟨upstreams, balance⟩ : Claiming Connectors) :=
    Claiming.FailsIn.finish.bind fun _ _ => Claiming.FailsIn.note.bind fun _ _ => .pure
  split
  · exact Claiming.FailsIn.fail.bind fun _ _ => hend
  · exact hend

theorem Service.read_failsBy :
    FailsBy (IsNodeFault node) (Service.read none (.node node)).result := by
  rw [Service.read, Logged.result_bind, Logged.result_lift]
  apply (FailsBy.ok : FailsBy _ (Service.chooseName none (.node node))).bind
  intro name _
  apply Claiming.runNode_failsBy
  intro block
  apply (Claiming.FailsIn.required fun _ => Listeners.read_failsBy).bind
  intro listeners _
  apply (Claiming.FailsIn.required fun _ => Connectors.read_failsBy).bind
  intro connectors _
  exact Claiming.FailsIn.finish.bind fun _ _ => Claiming.FailsIn.note.bind fun _ _ => .pure

theorem Filter.read_failsBy : FailsBy (IsNodeFault node) (Filter.read (.node node)) := by
  rw [Filter.read]
  apply Focus.validate_failsBy.bind
  intro _ _
  rw [← bind_assoc]
  apply (property_failsBy (parseAs_failsBy · _)).bind
  intro name _
  apply textsBetween_failsBy.bind
  intro texts _
  exact .ok

theorem Chain.read_failsBy : FailsBy (IsNodeFault node) (Chain.read (.node node)).result := by
  apply Claiming.runNode_failsBy
  intro block
  apply (Claiming.FailsIn.repeated fun _ => Filter.read_failsBy).bind
  intro filters _
  exact Claiming.FailsIn.finish.bind fun _ _ => .pure

theorem KeyProfile.readKey_failsBy :
    FailsBy (IsNodeFault node) (KeyProfile.readKey (.node node)) := by
  rw [KeyProfile.readKey, ← bind_assoc]
  apply (firstEntry_failsBy (readsKind_failsBy Entry.readsString)).bind
  intro source _
  apply allowedTexts_failsBy.bind
  intro options _
  exact .ok

theorem HashAlgorithm.read_failsBy :
    FailsBy (IsNodeFault node) (HashAlgorithm.read (.node node)) := by
  apply allowedTexts_failsBy.bind
  intro options _
  exact .ok

theorem Transform.readAll_failsBy :
    FailsBy (IsNodeFault node) (Transform.readAll (.node node)) := by
  apply Focus.children_failsBy.bind
  intro nodes hnodes
  obtain ⟨block, hblock, rfl⟩ := Focus.children_node.mp hnodes
  apply FailsBy.mapM
  intro child hchild
  have htexts : FailsBy (IsNodeFault node) (Focus.node child).texts :=
    textsBetween_failsBy.mono fun _ hfault => (hfault.ofBlock hchild).ofNode hblock
  apply htexts.bind
  intro texts _
  exact .ok

/-- What is wrong with a profile is wrong with the node or with one inside it. -/
theorem KeyProfile.read_failsBy :
    FailsBy (IsNodeFault node) (KeyProfile.read (.node node)).result := by
  apply Claiming.runNode_failsBy
  intro block
  apply (Claiming.FailsIn.required fun _ => KeyProfile.readKey_failsBy).bind
  intro key _
  apply (Claiming.FailsIn.optional fun _ => HashAlgorithm.read_failsBy).bind
  intro algorithm _
  apply (Claiming.FailsIn.optional fun _ => Transform.readAll_failsBy).bind
  intro transforms _
  exact Claiming.FailsIn.finish.bind fun _ _ => .pure

namespace Bundle

/-- A name that is taken is a fault of the service that has it. -/
theorem readServices_failsBy {block : Block Node} (taken : List String) (nodes : List Node)
    (hnodes : nodes ⊆ block.nodes) :
    FailsBy (IsBlockFault block) (readServices taken nodes).result := by
  induction nodes generalizing taken with
  | nil => exact .ok
  | cons node nodes ih =>
      obtain ⟨hnode, hothers⟩ := List.cons_subset.mp hnodes
      rw [readServices]
      split
      · exact rejectNode_failsBy.mono fun _ hfault => hfault.ofBlock hnode
      · simp only [Logged.result_bind]
        apply (Service.read_failsBy.mono fun _ hfault => hfault.ofBlock hnode).bind
        intro service _
        apply (ih _ hothers).bind
        intro services _
        exact .ok

theorem definitionName_failsBy : FailsBy (IsNodeFault node) (definitionName (.node node)) := by
  unfold definitionName
  simp only [Focus.name, Focus.theNode, Focus.entries_node, ok_bind]
  split
  · next entry hfound => exact rejectEntry_failsBy (List.mem_of_find?_eq_some hfound)
  · split
    · next first second others hentries =>
      have hsecond : second ∈ node.entries := by
        rw [hentries]
        exact List.mem_cons_of_mem first List.mem_cons_self
      exact rejectEntry_failsBy hsecond
    · exact positional_failsBy (readsKind_failsBy Entry.readsString)

theorem readNamed_failsBy {α : Type} {read : Focus → Check α}
    (hread : FailsBy (IsNodeFault node) (read (.node node)).result) :
    FailsBy (IsNodeFault node) (readNamed read (.node node)).result := by
  simp only [readNamed, Logged.result_bind, Logged.result_lift]
  apply definitionName_failsBy.bind
  intro name _
  apply hread.bind
  intro value _
  exact .ok

/-- A name that is defined twice is a fault of the second definition. -/
theorem collectNamed_failsBy {α : Type} {block : Block Node} (found : List (Named α))
    (values : Dictionary α)
    (hfound : ∀ named ∈ found, ∃ node ∈ block.nodes, named.focus = .node node) :
    FailsBy (IsBlockFault block) (collectNamed found values) := by
  induction found generalizing values with
  | nil => exact .ok
  | cons named found ih =>
      obtain ⟨⟨node, hnode, hfocus⟩, hothers⟩ := List.forall_mem_cons.mp hfound
      rw [collectNamed]
      split
      · exact ih _ hothers
      · rw [hfocus]
        exact rejectNode_failsBy.mono fun _ hfault => hfault.ofBlock hnode

/-- The definitions that were found in the block are collected. -/
theorem collect_failsIn {α : Type} {directive : String} {read : Focus → Check α}
    {block : Block Node} {found : List (Named α)}
    (hfound : ∃ claims : Claims, claims.AreOf block ∧
      (Claiming.repeated directive (readNamed read) claims).1.result = .ok found) :
    Claiming.FailsIn block (Claiming.lift (collectNamed found ∅)) := by
  obtain ⟨claims, hclaims, hfound⟩ := hfound
  apply Claiming.FailsIn.lift
  apply collectNamed_failsBy
  intro named hnamed
  obtain ⟨node, hnode, hnamed⟩ :=
    Claiming.FailsIn.exists_node_of_repeated hclaims hfound named hnamed
  obtain ⟨-, -, hfocus⟩ := readNamed_eq_ok.mp hnamed
  exact ⟨node, hnode, hfocus⟩

theorem readDefinitions_failsBy :
    FailsBy (IsNodeFault node) (readDefinitions (.node node)).result := by
  apply Claiming.runNode_failsBy
  intro block
  apply (Claiming.FailsIn.repeated fun _ => readNamed_failsBy Chain.read_failsBy).bind
  intro chains hchains
  apply (collect_failsIn hchains).bind
  intro chains _
  apply (Claiming.FailsIn.repeated fun _ => readNamed_failsBy KeyProfile.read_failsBy).bind
  intro profiles hprofiles
  apply (collect_failsIn hprofiles).bind
  intro profiles _
  exact Claiming.FailsIn.finish.bind fun _ _ => .pure

/-- A document that gives no bundle is refused because of something in it. -/
theorem ofDocument_failsBy (sourceName : String) (document : Document) :
    FailsBy (IsBlockFault document) (ofDocument sourceName document).result := by
  have hservices (node : Node) : FailsBy (IsNodeFault node)
      (do readServices [] (← liftM (Focus.node node).nonemptyChildren) :
        Check (List Service)).result := by
    rw [Logged.result_bind, Logged.result_lift]
    apply Focus.bindNonempty_failsBy
    intro block _
    exact readServices_failsBy [] block.nodes (List.Subset.refl _)
  have hread : FailsBy (IsBlockFault document) (read sourceName (.document document)).result := by
    apply Claiming.runDocument_failsBy
    apply (Claiming.FailsIn.required hservices).bind
    intro services _
    apply (Claiming.FailsIn.optional fun _ => readDefinitions_failsBy).bind
    intro definitions _
    exact Claiming.FailsIn.finish.bind fun _ _ => .pure
  rw [ofDocument, Logged.result_bind]
  apply hread.bind
  intro bundle _
  exact .ok

end Bundle

end ReverseProxy.Config
