import ReverseProxy.Proofs.Config.Connectors
import ReverseProxy.Proofs.Config.Listeners

/-!
# Which listeners and connectors are read back

Listeners and connectors are plain data, so there are some that no document stands for: none at all,
HTTP/2 offered without TLS, a hash key that nothing hashes. Their lines are read, but not as the
value they were written for.
-/

namespace ReverseProxy.Config

open Kdl Schema

/-- The lines written for a value make a document whose first node is read as that value. -/
def ReadsBack {α : Type} (read : Focus → Check α) (lines : List String) (value : α) : Prop :=
  ∃ document node, readDocument (joinLines lines).toList = .ok document ∧
    document.nodes.head? = some node ∧ (read (.node node)).result = .ok value

/-- Lines that are read as one node of a shape are read back if all nodes of that shape are. -/
theorem readsBack_of_linesRead {α : Type} {read : Focus → Check α} {lines : List String}
    {value : α} {shape : Shape} (hne : lines ≠ [])
    (hlines : LinesRead maxDepth lines (some [shape]))
    (hread : ∀ node : Node, node.shape = shape → (read (.node node)).result = .ok value) :
    ReadsBack read lines value := by
  obtain ⟨document, hdocument, hshapes⟩ := readDocument_joinLines hne hlines
  have hmap : document.nodes.map Node.shape = [shape] :=
    (shapes_eq_map document.nodes).symm.trans hshapes
  obtain ⟨node, hnodes, hnode⟩ := List.map_eq_singleton_iff.mp hmap
  refine ⟨document, node, hdocument, ?_, hread node hnode⟩
  rw [hnodes]
  rfl

/-- Listeners are read back from their lines exactly if they are valid. -/
theorem Listeners.readsBack_iff (listeners : Listeners) :
    ReadsBack Listeners.read listeners.lines listeners ↔ listeners.Valid := by
  constructor
  · rintro ⟨document, node, -, -, hread⟩
    exact valid_of_read hread
  · intro hvalid
    apply readsBack_of_linesRead (List.cons_ne_nil _ _) (listeners.linesRead 127)
    intro node hshape
    exact read_of_shape hshape hvalid

theorem Connectors.readsBack_iff (connectors : Connectors) :
    ReadsBack Connectors.read connectors.lines connectors ↔ connectors.Valid := by
  constructor
  · rintro ⟨document, node, -, -, hread⟩
    exact valid_of_read hread
  · intro hvalid
    apply readsBack_of_linesRead (List.cons_ne_nil _ _) (connectors.linesRead 127)
    intro node hshape
    exact read_of_shape hshape hvalid

/-- **The listeners and the connectors that survive writing and reading are those that can be
read.** Listeners survive if there are any and HTTP/2 is offered over TLS only; connectors if there
are upstreams, those that speak another protocol than HTTP/1 name a server, and a load balancer has
a key exactly if it hashes. -/
theorem sections_readBack_iff :
    (∀ listeners : Listeners,
      (ReadsBack Listeners.read listeners.lines listeners ↔
        listeners.listeners ≠ [] ∧
          ¬∃ listener ∈ listeners.listeners, listener.offersHttp2 = true ∧ listener.tls = none) ∧
      (ReadsBack Listeners.read listeners.lines listeners ↔
        ∃ node, (Listeners.read (.node node)).result = .ok listeners)) ∧
    ∀ connectors : Connectors,
      (ReadsBack Connectors.read connectors.lines connectors ↔
        connectors.upstreams ≠ [] ∧
          (∀ upstream ∈ connectors.upstreams,
            upstream.protocol ≠ .http1 → upstream.serverName ≠ none) ∧
          ∀ balance, connectors.loadBalance = some balance →
            (balance.key ≠ none ↔ balance.selection = .fnvHash ∨ balance.selection = .ketama)) ∧
      (ReadsBack Connectors.read connectors.lines connectors ↔
        ∃ node, (Connectors.read (.node node)).result = .ok connectors) := by
  constructor
  · intro listeners
    refine ⟨?_, fun ⟨_, node, _, _, hread⟩ => ⟨node, hread⟩, fun ⟨_, hread⟩ => ?_⟩
    · rw [Listeners.readsBack_iff]
      simp only [Listeners.Valid, Listener.Valid, not_exists, not_and]
    · exact listeners.readsBack_iff.mpr (Listeners.valid_of_read hread)
  · intro connectors
    refine ⟨?_, fun ⟨_, node, _, _, hread⟩ => ⟨node, hread⟩, fun ⟨_, hread⟩ => ?_⟩
    · rw [Connectors.readsBack_iff]
      simp only [Connectors.Valid, Upstream.Valid, LoadBalance.Valid, Selection.isHashing,
        Option.mem_def, Bool.or_eq_true, decide_eq_true_eq]
    · exact connectors.readsBack_iff.mpr (Connectors.valid_of_read hread)

end ReverseProxy.Config
