import ReverseProxy.Config.Service
import ReverseProxy.Proofs.Config.Connectors
import ReverseProxy.Proofs.Config.Listeners

/-!
# Services are read as they were written

The name of a service is written bare where that is possible. A bare name with a line feed behind it
is taken for a bare name too, and then there is no block behind the name.
-/

namespace ReverseProxy.Config

open Kdl Schema

namespace Service

def Valid (service : Service) : Prop := service.listeners.Valid ∧ service.connectors.Valid

theorem chooseName_none {node : Node} :
    Service.chooseName none (.node node) = .ok node.name := rfl

/-- When a node is read as a service under its own name. -/
theorem read_eq_ok {node : Node} {service : Service} :
    (Service.read none (.node node)).result = .ok service ↔
      service.name = node.name ∧ ∃ block first second others, node.children = some block ∧
        Claims.takeFirst? "listeners" block.nodes = some (first, others) ∧
        (Listeners.read (.node first)).result = .ok service.listeners ∧
        Claims.takeFirst? "connectors" others = some (second, []) ∧
        (Connectors.read (.node second)).result = .ok service.connectors := by
  rw [Service.read]
  simp only [Logged.result_bind, Logged.result_lift, chooseName_none, ok_bind, bind_eq_ok,
    Claiming.result_run, Claims.ofFocus_node, Claiming.outcome_bind]
  constructor
  · rintro ⟨_, left, ⟨block, hblock, rfl⟩, ⟨listeners, _⟩, hclaimed, ⟨connectors, _⟩, hclaimed',
      ⟨⟨⟩, _⟩, hfinish, _, -, hservice⟩
    obtain ⟨first, others, hfirst, hlisteners, rfl⟩ := (Claiming.required_eq_ok rfl).mp hclaimed
    obtain ⟨second, rest, hsecond, hconnectors, rfl⟩ := (Claiming.required_eq_ok rfl).mp hclaimed'
    obtain ⟨hrest, -⟩ := (Claiming.finish_eq_ok rfl).mp hfinish
    obtain rfl : rest = [] := hrest
    cases hservice
    exact ⟨rfl, block, first, second, others, hblock, hfirst, hlisteners, hsecond, hconnectors⟩
  · rintro ⟨hname, block, first, second, others, hblock, hfirst, hlisteners, hsecond, hconnectors⟩
    refine ⟨_, ⟨.document block, [], true⟩, ⟨block, hblock, rfl⟩, _,
      (Claiming.required_eq_ok rfl).mpr ⟨first, others, hfirst, hlisteners, rfl⟩, _,
      (Claiming.required_eq_ok rfl).mpr ⟨second, [], hsecond, hconnectors, rfl⟩, _,
      (Claiming.finish_eq_ok rfl).mpr ⟨rfl, rfl⟩, _, rfl, ?_⟩
    rw [← hname]
    rfl

theorem valid_of_read {node : Node} {service : Service}
    (hread : (Service.read none (.node node)).result = .ok service) : service.Valid := by
  obtain ⟨-, _, _, _, _, -, -, hlisteners, -, hconnectors⟩ := read_eq_ok.mp hread
  exact ⟨Listeners.valid_of_read hlisteners, Connectors.valid_of_read hconnectors⟩

def shape? (service : Service) : Option Shape :=
  if IsBareLine service.name then none
  else some (.mk service.name [] (some [service.listeners.shape, service.connectors.shape]))

/-- A service is written as one block unless its name is lost. -/
theorem shape?_isSome {service : Service} :
    service.shape?.isSome = true ↔ ¬IsBareLine service.name := by
  unfold shape?
  split <;> simp_all

/-- What is written for a valid service is read as that service. -/
theorem read_of_shape {node : Node} {service : Service}
    (hshape : service.shape? = some node.shape) (hvalid : service.Valid) :
    (Service.read none (.node node)).result = .ok service := by
  unfold shape? at hshape
  split at hshape
  · cases hshape
  · obtain ⟨hname, -, hchildren⟩ := Node.shape_eq_mk.mp (Option.some.inj hshape).symm
    obtain ⟨block, hblock, hshapes⟩ := Option.map_eq_some_iff.mp hchildren
    have hnodes : block.nodes.map Node.shape =
        [service.listeners.shape, service.connectors.shape] :=
      (shapes_eq_map block.nodes).symm.trans hshapes
    obtain ⟨first, others, hfirst, hlisteners, hothers⟩ := List.map_eq_cons_iff.mp hnodes
    obtain ⟨second, rfl, hconnectors⟩ := List.map_eq_singleton_iff.mp hothers
    refine read_eq_ok.mpr ⟨hname.symm, block, first, second, [second], hblock, ?_,
      Listeners.read_of_shape hlisteners hvalid.1, ?_,
      Connectors.read_of_shape hconnectors hvalid.2⟩
    · rw [hfirst]
      exact Claims.takeFirst?_cons (Node.shape_eq_mk.mp hlisteners).1 [second]
    · exact Claims.takeFirst?_cons (Node.shape_eq_mk.mp hconnectors).1 []

theorem linesRead (service : Service) (depth : Nat) :
    LinesRead (depth + 2) service.lines (service.shape?.map ([·])) := by
  unfold shape?
  split
  · next hname => exact LinesRead.blockOfBareLine hname _
  · next hname =>
    exact LinesRead.block (spellsName_writeName hname) .nil (List.append_nil _).symm
      ((service.listeners.linesRead depth).append (service.connectors.linesRead depth))

end Service

end ReverseProxy.Config
