import Mathlib.Logic.Relation
import ReverseProxy.Proofs.Schema.Agreement

/-!
# Directives in another order

In most blocks of a document the directives may come in any order, as long as those of one name keep
theirs. Services, listeners, filters and transforms are lists, whose order counts.
-/

namespace ReverseProxy

open Kdl Schema

namespace Kdl

def Shape.name : Shape → String
  | .mk name _ _ => name

@[simp]
theorem Node.name_shape (node : Node) : node.shape.name = node.name := by
  rw [Node.shape_eq]
  rfl

mutual

def Shape.node : Shape → Node
  | .mk name data children =>
      ⟨name, ⟨0, 0⟩, ⟨0, 0⟩, data.map fun datum => ⟨datum.key, datum.value, ⟨0, 0⟩⟩,
        blockOfShapes children⟩

def blockOfShapes : Option (List Shape) → Option (Block Node)
  | none => none
  | some shapes => some ⟨nodesOfShapes shapes, ⟨0, 0⟩⟩

def nodesOfShapes : List Shape → List Node
  | [] => []
  | shape :: shapes => shape.node :: nodesOfShapes shapes

end

mutual

/-- The node that is made for a shape has that shape. -/
theorem Shape.shape_node : ∀ shape : Shape, shape.node.shape = shape
  | .mk name data children => by
      have hdata : (data.map fun datum => (⟨datum.key, datum.value, ⟨0, 0⟩⟩ : Entry)).map
          Entry.datum = data := by
        rw [List.map_map]
        exact List.map_id data
      rw [Shape.node, Node.shape, hdata, childShapes_blockOfShapes children]

theorem childShapes_blockOfShapes :
    ∀ children : Option (List Shape), childShapes (blockOfShapes children) = children
  | none => rfl
  | some below => congrArg some (shapes_nodesOfShapes below)

theorem shapes_nodesOfShapes : ∀ below : List Shape, shapes (nodesOfShapes below) = below
  | [] => rfl
  | shape :: below => by rw [nodesOfShapes, shapes, shape.shape_node, shapes_nodesOfShapes below]

end

end Kdl

namespace Config

/-- The blocks in which directives may come in any order, and what is around them. -/
inductive Place where
  | document
  | services
  | service
  | connectors
  | definitions
  | keyProfile
  | fixed
  deriving DecidableEq

namespace Place

def isFree : Place → Bool
  | .services | .fixed => false
  | _ => true

def inside : Place → String → Place
  | .document, "services" => .services
  | .document, "definitions" => .definitions
  | .services, _ => .service
  | .service, "connectors" => .connectors
  | .definitions, "key-profile" => .keyProfile
  | _, _ => .fixed

end Place

/-- One block at a place, or somewhere inside of it, has its directives in another order. Those of
one name keep theirs. -/
inductive Reorders : Place → List Shape → List Shape → Prop
  | block {place : Place} {before after : List Shape} (hfree : place.isFree = true)
      (hperm : before.Perm after)
      (hnamed : ∀ name, before.filter (fun shape => shape.name = name) =
        after.filter fun shape => shape.name = name) : Reorders place before after
  | inside {place : Place} {name : String} {data : List Datum} {below below' : List Shape}
      (before after : List Shape) (hbelow : Reorders (place.inside name) below below') :
      Reorders place (before ++ .mk name data (some below) :: after)
        (before ++ .mk name data (some below') :: after)

/-- In a free block, neighbours with different names may change places. -/
theorem Reorders.swap {place : Place} {first second : Shape} (before after : List Shape)
    (hfree : place.isFree = true) (hnames : first.name ≠ second.name) :
    Reorders place (before ++ first :: second :: after) (before ++ second :: first :: after) := by
  refine .block hfree ((List.Perm.swap second first after).append_left before) fun name => ?_
  simp only [List.filter_append, List.filter_cons, decide_eq_true_eq]
  split <;> split <;> simp_all

/-- The nodes say the same, except that without `strict` a block may have been reordered. -/
def Alike (strict : Prop) (place : Place) (nodes others : List Node) : Prop :=
  nodes.map Node.shape = others.map Node.shape ∨
    ¬strict ∧ Reorders place (nodes.map Node.shape) (others.map Node.shape)

variable {strict : Prop} {place : Place} {node other : Node} {nodes others : List Node}

/-- Nodes of the same shape are read alike. -/
theorem like_of_shape (hshape : node.shape = other.shape) : node.Like (Alike strict place) other :=
  Node.like_of_shape hshape fun _ _ hshapes => .inl hshapes

/-- A block that is reordered somewhere inside keeps the order of its own directives. -/
theorem forall₂_like_of_inside {name : String} {data : List Datum}
    {below below' before after : List Shape} (hstrict : ¬strict)
    (hbelow : Reorders (place.inside name) below below')
    (hnodes : nodes.map Node.shape = before ++ .mk name data (some below) :: after)
    (hothers : others.map Node.shape = before ++ .mk name data (some below') :: after) :
    List.Forall₂ (fun node other => node.Like (Alike strict (place.inside node.name)) other)
      nodes others := by
  obtain ⟨first, rest, rfl, hfirst, hrest⟩ := List.map_eq_append_iff.mp hnodes
  obtain ⟨node, last, rfl, hnode, hlast⟩ := List.map_eq_cons_iff.mp hrest
  obtain ⟨first', rest', rfl, hfirst', hrest'⟩ := List.map_eq_append_iff.mp hothers
  obtain ⟨node', last', rfl, hnode', hlast'⟩ := List.map_eq_cons_iff.mp hrest'
  have hsame {nodes others : List Node} (hmap : nodes.map Node.shape = others.map Node.shape) :
      List.Forall₂ (fun node other => node.Like (Alike strict (place.inside node.name)) other)
        nodes others :=
    (forall₂_of_map_eq hmap).imp fun _ _ => like_of_shape
  refine List.rel_append (hsame (hfirst.trans hfirst'.symm))
    (.cons ?_ (hsame (hlast.trans hlast'.symm)))
  obtain ⟨hname, hdata, hchildren⟩ := Node.shape_eq_mk.mp hnode
  obtain ⟨hname', hdata', hchildren'⟩ := Node.shape_eq_mk.mp hnode'
  obtain ⟨block, hblock, hshapes⟩ := Option.map_eq_some_iff.mp hchildren
  obtain ⟨block', hblock', hshapes'⟩ := Option.map_eq_some_iff.mp hchildren'
  refine ⟨hname.trans hname'.symm, hdata.trans hdata'.symm, ?_⟩
  rw [hblock, hblock', hname]
  refine .some (.inr ⟨hstrict, ?_⟩)
  rw [← shapes_eq_map, ← shapes_eq_map]
  rw [Block.shapes] at hshapes hshapes'
  rw [hshapes, hshapes']
  exact hbelow

/-- Either the directives correspond one to one in order, or those of each name do. -/
theorem Alike.ordered_or (halike : Alike strict place nodes others) :
    List.Forall₂ (fun node other => node.Like (Alike strict (place.inside node.name)) other)
        nodes others ∨
      ¬strict ∧ place.isFree = true ∧
        ∀ name, (nodesNamed name nodes).map Node.shape =
          (nodesNamed name others).map Node.shape := by
  rcases halike with hshapes | ⟨hstrict, hreorders⟩
  · exact .inl ((forall₂_of_map_eq hshapes).imp fun _ _ => like_of_shape)
  · generalize hnodes : nodes.map Node.shape = before at hreorders
    generalize hothers : others.map Node.shape = after at hreorders
    cases hreorders with
    | inside _ _ hbelow => exact .inl (forall₂_like_of_inside hstrict hbelow hnodes hothers)
    | block hfree _ hnamed =>
        refine .inr ⟨hstrict, hfree, fun name => ?_⟩
        have hname := hnamed name
        rw [← hnodes, ← hothers, List.filter_map, List.filter_map] at hname
        simp only [Function.comp_def, Node.name_shape] at hname
        exact hname

/-- Where the order counts it is the same. -/
theorem Alike.forall₂ (halike : Alike strict place nodes others) (hfixed : place.isFree = false) :
    List.Forall₂ (fun node other => node.Like (Alike strict (place.inside node.name)) other)
      nodes others := by
  rcases halike.ordered_or with hordered | ⟨-, hfree, -⟩
  · exact hordered
  · rw [hfixed] at hfree
    cases hfree

/-- Blocks that are alike hold the same nodes of each name, in the same order. -/
theorem Alike.sameNames (halike : Alike strict place nodes others) :
    SameNames strict (fun name node other => node.Like (Alike strict (place.inside name)) other)
      nodes others := by
  rcases halike.ordered_or with hordered | ⟨hstrict, -, hnamed⟩
  · constructor
    · intro name
      have hfiltered : List.Forall₂
          (fun node other => node.Like (Alike strict (place.inside node.name)) other)
          (nodesNamed name nodes) (nodesNamed name others) := by
        refine List.rel_filter ?_ hordered
        intro node other hlike
        simp only [hlike.name]
      have hnames : ∀ node ∈ nodesNamed name nodes, node.name = name :=
        fun node hnode => (mem_nodesNamed.mp hnode).2
      refine ((List.forall₂_and_left _ _).mpr ⟨hnames, hfiltered⟩).imp ?_
      rintro node other ⟨rfl, hlike⟩
      exact hlike
    · intro _
      have hnames : List.Forall₂ Eq (nodes.map Node.name) (others.map Node.name) :=
        List.forall₂_map_left_iff.mpr
          (List.forall₂_map_right_iff.mpr (hordered.imp fun _ _ hlike => hlike.name))
      rw [List.forall₂_eq_eq_eq] at hnames
      exact hnames
  · exact ⟨fun name => (forall₂_of_map_eq (hnamed name)).imp fun _ _ => like_of_shape,
      fun hholds => absurd hholds hstrict⟩

end Config

end ReverseProxy
