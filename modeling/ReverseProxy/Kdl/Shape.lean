import ReverseProxy.Kdl.Document

/-!
# What a document says

The shape of a node is the node without its spans: what it says, wherever it stands. Moving a node
changes its spans and keeps its shape (`shape_shift`).
-/

namespace ReverseProxy.Kdl

/-- An entry without its span. -/
structure Datum where
  key : Option String
  value : Scalar
  deriving DecidableEq, Repr

def Entry.datum (entry : Entry) : Datum := ⟨entry.key, entry.value⟩

inductive Shape where
  | mk (name : String) (data : List Datum) (children : Option (List Shape))

mutual

def Node.shape : Node → Shape
  | ⟨name, _, _, entries, children⟩ => .mk name (entries.map Entry.datum) (childShapes children)

def childShapes : Option (Block Node) → Option (List Shape)
  | none => none
  | some ⟨nodes, _⟩ => some (shapes nodes)

def shapes : List Node → List Shape
  | [] => []
  | node :: nodes => node.shape :: shapes nodes

end

def Block.shapes (block : Block Node) : List Shape := Kdl.shapes block.nodes

theorem shapes_eq_map (nodes : List Node) : shapes nodes = nodes.map Node.shape := by
  induction nodes with
  | nil => rfl
  | cons node nodes ih => rw [shapes, ih, List.map_cons]

theorem childShapes_eq_map (children : Option (Block Node)) :
    childShapes children = children.map Block.shapes := by
  rcases children with _ | ⟨nodes, span⟩ <;> rfl

theorem Node.shape_eq (node : Node) :
    node.shape = .mk node.name (node.entries.map Entry.datum) (node.children.map Block.shapes) := by
  rw [← childShapes_eq_map]
  cases node
  rfl

/-- A node holds itself and what the nodes in its block hold. -/
inductive Node.Holds : Node → Node → Prop
  | self {node : Node} : node.Holds node
  | inBlock {node child held : Node} {block : Block Node} (hblock : node.children = some block)
      (hchild : child ∈ block.nodes) (hheld : child.Holds held) : node.Holds held

def Block.Holds (block : Block Node) (held : Node) : Prop := ∃ node ∈ block.nodes, node.Holds held

/-- The spans that a node itself carries. -/
inductive Node.HasSpan (node : Node) : Span → Prop
  | whole : node.HasSpan node.span
  | name : node.HasSpan node.nameSpan
  | entry {entry : Entry} (hentry : entry ∈ node.entries) : node.HasSpan entry.span
  | block {block : Block Node} (hblock : node.children = some block) : node.HasSpan block.span

def Block.HasSpan (block : Block Node) (span : Span) : Prop :=
  span = block.span ∨ ∃ node, block.Holds node ∧ node.HasSpan span

def Entry.shift (distance : Nat) (entry : Entry) : Entry :=
  { entry with span := entry.span.shift distance }

mutual

/-- The node as it would be read that many characters further on. -/
def Node.shift (distance : Nat) : Node → Node
  | ⟨name, nameSpan, span, entries, children⟩ =>
      ⟨name, nameSpan.shift distance, span.shift distance, entries.map (Entry.shift distance),
        shiftChildren distance children⟩

def shiftChildren (distance : Nat) : Option (Block Node) → Option (Block Node)
  | none => none
  | some ⟨nodes, span⟩ => some ⟨shiftNodes distance nodes, span.shift distance⟩

def shiftNodes (distance : Nat) : List Node → List Node
  | [] => []
  | node :: nodes => node.shift distance :: shiftNodes distance nodes

end

theorem shiftNodes_eq_map (distance : Nat) (nodes : List Node) :
    shiftNodes distance nodes = nodes.map (Node.shift distance) := by
  induction nodes with
  | nil => rfl
  | cons node nodes ih => rw [shiftNodes, ih, List.map_cons]

def Block.shift (distance : Nat) (block : Block Node) : Block Node :=
  ⟨shiftNodes distance block.nodes, block.span.shift distance⟩

theorem shiftChildren_eq_map (distance : Nat) (children : Option (Block Node)) :
    shiftChildren distance children = children.map (Block.shift distance) := by
  cases children <;> rfl

@[simp]
theorem Node.shift_span (distance : Nat) (node : Node) :
    (node.shift distance).span = node.span.shift distance := by
  cases node
  rfl

@[simp]
theorem Node.shift_entries (distance : Nat) (node : Node) :
    (node.shift distance).entries = node.entries.map (Entry.shift distance) := by
  cases node
  rfl

@[simp]
theorem Node.shift_children (distance : Nat) (node : Node) :
    (node.shift distance).children = node.children.map (Block.shift distance) := by
  cases node
  exact shiftChildren_eq_map distance _

@[simp]
theorem Block.shift_nodes (distance : Nat) (block : Block Node) :
    (block.shift distance).nodes = block.nodes.map (Node.shift distance) :=
  shiftNodes_eq_map distance block.nodes

theorem Span.shift_shift (span : Span) (first second : Nat) :
    (span.shift first).shift second = span.shift (first + second) := by
  simp only [Span.shift, Nat.add_assoc]

@[simp]
theorem Entry.shift_shift (entry : Entry) (first second : Nat) :
    (entry.shift first).shift second = entry.shift (first + second) := by
  simp only [Entry.shift, Span.shift_shift]

/-- Moving twice is moving by both distances. -/
@[simp]
theorem Node.shift_shift (node : Node) (first second : Nat) :
    (node.shift first).shift second = node.shift (first + second) := by
  induction node using Node.induction with
  | step node below =>
    rcases node with ⟨name, nameSpan, span, entries, _ | ⟨nodes, blockSpan⟩⟩
    · simp only [Node.shift, shiftChildren, Span.shift_shift, List.map_map, Function.comp_def,
        Entry.shift_shift]
    · have inside : (nodes.map (Node.shift first)).map (Node.shift second) =
          nodes.map (Node.shift (first + second)) := by
        rw [List.map_map]
        exact List.map_congr_left (below ⟨nodes, blockSpan⟩ rfl)
      simp only [Node.shift, shiftChildren, Span.shift_shift, List.map_map, Function.comp_def,
        Entry.shift_shift, shiftNodes_eq_map, ← inside]

@[simp]
theorem Block.shift_shift (block : Block Node) (first second : Nat) :
    (block.shift first).shift second = block.shift (first + second) := by
  simp only [Block.shift, shiftNodes_eq_map, List.map_map, Function.comp_def, Node.shift_shift,
    Span.shift_shift]

@[simp]
theorem Node.shift_zero (node : Node) : node.shift 0 = node := by
  induction node using Node.induction with
  | step node below =>
    have entriesSame (entries : List Entry) : entries.map (Entry.shift 0) = entries :=
      List.map_id entries
    rcases node with ⟨name, nameSpan, span, entries, _ | ⟨nodes, blockSpan⟩⟩
    · simp only [Node.shift, shiftChildren, entriesSame]
      rfl
    · have inside : nodes.map (Node.shift 0) = nodes :=
        (List.map_congr_left (below ⟨nodes, blockSpan⟩ rfl)).trans (List.map_id nodes)
      simp only [Node.shift, shiftChildren, entriesSame, shiftNodes_eq_map, inside]
      rfl

theorem map_shift_zero (nodes : List Node) : nodes.map (Node.shift 0) = nodes := by
  have hsame : Node.shift 0 = id := funext Node.shift_zero
  rw [hsame, List.map_id]

@[simp]
theorem Block.shift_zero (block : Block Node) : block.shift 0 = block := by
  rw [Block.shift, shiftNodes_eq_map, map_shift_zero]
  rfl

@[simp]
theorem datum_shift (distance : Nat) (entry : Entry) : (entry.shift distance).datum = entry.datum :=
  rfl

theorem shape_shift (distance : Nat) (node : Node) : (node.shift distance).shape = node.shape := by
  induction node using Node.induction with
  | step node below =>
    have data (entries : List Entry) :
        (entries.map (Entry.shift distance)).map Entry.datum = entries.map Entry.datum := by
      simp [Function.comp_def]
    rcases node with ⟨name, nameSpan, span, entries, _ | ⟨nodes, blockSpan⟩⟩
    · simp only [Node.shift, shiftChildren, Node.shape, childShapes, data]
    · have inside : (nodes.map (Node.shift distance)).map Node.shape = nodes.map Node.shape := by
        rw [List.map_map]
        exact List.map_congr_left (below ⟨nodes, blockSpan⟩ rfl)
      simp only [Node.shift, shiftChildren, Node.shape, childShapes, data, shapes_eq_map,
        shiftNodes_eq_map, inside]

end ReverseProxy.Kdl
