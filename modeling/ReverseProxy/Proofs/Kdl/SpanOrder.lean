import ReverseProxy.Proofs.Kdl.Slices

/-!
# The order of spans

The parts of a node stand one behind the other in the span of the node: its name, its entries, its
block. The nodes of a block stand one behind the other between its braces, and those of a document
in its text. So no two elements of a document overlap unless one is part of the other
(`readDocument_nests`).
-/

namespace ReverseProxy.Kdl

namespace Span

def Before (first second : Span) : Prop := first.finish ≤ second.offset

def Within (inner outer : Span) : Prop :=
  outer.offset ≤ inner.offset ∧ inner.finish ≤ outer.finish

/-- The parts stand in the span one behind the other, and none is empty. -/
structure InRow (outer : Span) (parts : List Span) : Prop where
  nonempty : ∀ part ∈ parts, 0 < part.length
  within : ∀ part ∈ parts, part.Within outer
  ordered : parts.Pairwise Before

variable {first second inner outer : Span} {parts more : List Span}

theorem Within.refl (span : Span) : span.Within span := ⟨Nat.le_refl _, Nat.le_refl _⟩

theorem Within.trans {middle : Span} (hinner : inner.Within middle)
    (hmiddle : middle.Within outer) : inner.Within outer :=
  ⟨hmiddle.1.trans hinner.1, hinner.2.trans hmiddle.2⟩

theorem Within.shift (hinner : inner.Within outer) (distance : Nat) :
    (inner.shift distance).Within (outer.shift distance) := by
  simp only [Within, Span.shift, finish] at hinner ⊢
  omega

theorem Before.shift (hbefore : first.Before second) (distance : Nat) :
    (first.shift distance).Before (second.shift distance) := by
  simp only [Before, Span.shift, finish] at hbefore ⊢
  omega

/-- Parts of two spans of which one is behind the other. -/
theorem Before.of_within (hbefore : first.Before second) {part other : Span}
    (hpart : part.Within first) (hother : other.Within second) : part.Before other :=
  hpart.2.trans (Nat.le_trans hbefore hother.1)

namespace InRow

theorem nil (outer : Span) : outer.InRow [] := ⟨nofun, nofun, .nil⟩

theorem single (hpos : 0 < inner.length) : inner.InRow [inner] where
  nonempty := List.forall_mem_singleton.mpr hpos
  within := List.forall_mem_singleton.mpr (.refl inner)
  ordered := List.pairwise_singleton _ _

theorem mono (hparts : inner.InRow parts) (hinner : inner.Within outer) : outer.InRow parts where
  nonempty := hparts.nonempty
  within part hpart := (hparts.within part hpart).trans hinner
  ordered := hparts.ordered

/-- Parts in one span and parts in a later one make one row. -/
theorem append (hparts : first.InRow parts) (hmore : second.InRow more)
    (hbefore : first.Before second) (hfirst : first.Within outer) (hsecond : second.Within outer) :
    outer.InRow (parts ++ more) where
  nonempty := List.forall_mem_append.mpr ⟨hparts.nonempty, hmore.nonempty⟩
  within :=
    List.forall_mem_append.mpr ⟨(hparts.mono hfirst).within, (hmore.mono hsecond).within⟩
  ordered := List.pairwise_append.mpr ⟨hparts.ordered, hmore.ordered, fun part hpart other hother =>
    hbefore.of_within (hparts.within part hpart) (hmore.within other hother)⟩

theorem shift (hparts : outer.InRow parts) (distance : Nat) :
    (outer.shift distance).InRow (parts.map fun part => part.shift distance) where
  nonempty := List.forall_mem_map.mpr hparts.nonempty
  within := List.forall_mem_map.mpr fun part hpart => (hparts.within part hpart).shift distance
  ordered := List.pairwise_map.mpr (hparts.ordered.imp fun hbefore => hbefore.shift distance)

end InRow

end Span

def Node.parts (node : Node) : List Span :=
  node.nameSpan :: (node.entries.map Entry.span ++ node.children.toList.map Block.span)

/-- A block goes from one brace to another, and its nodes stand between them. -/
structure Block.Nests (text : List Char) (block : Block Node) : Prop where
  braces : ∃ inside, block.span.slice text = '\x7b' :: (inside ++ ['\x7d'])
  nodes : Span.InRow ⟨block.span.offset + 1, block.span.length - 2⟩ (block.nodes.map Node.span)

/-- How the spans of a node and of its block stand in the text. -/
structure Node.Nests (text : List Char) (node : Node) : Prop where
  within : node.span.Within ⟨0, text.length⟩
  parts : node.span.InRow node.parts
  block : ∀ block, node.children = some block →
    block.span.finish = node.span.finish ∧ block.Nests text

theorem Node.parts_shift (node : Node) (distance : Nat) :
    (node.shift distance).parts = node.parts.map fun part => part.shift distance := by
  have hname : (node.shift distance).nameSpan = node.nameSpan.shift distance := by
    cases node
    rfl
  have hblock (children : Option (Block Node)) :
      (children.map (Block.shift distance)).toList.map Block.span =
        (children.toList.map Block.span).map fun part => part.shift distance := by
    cases children <;> rfl
  simp only [Node.parts, hname, Node.shift_entries, Node.shift_children, hblock, List.map_cons,
    List.map_append, List.map_map]
  rfl

section Parts

variable {read : BlockReader} {base : Nat} {text : List Char} {entries : List Entry}
  {children : Option (Block Node)}

/-- The parts of a node stand one behind the other. -/
theorem IsTail.inRow (htail : IsTail read base text entries children) :
    Span.InRow ⟨base, text.length⟩
      (entries.map Entry.span ++ children.toList.map Block.span) := by
  induction htail with
  | nil => exact .nil _
  | @block base blank text block _ hblock =>
      obtain ⟨more, rfl⟩ := hblock.head
      have hwithin : Span.Within ⟨base + blank.length, ('\x7b' :: more).length⟩
          ⟨base, (blank ++ '\x7b' :: more).length⟩ := by
        simp only [Span.Within, Span.finish, List.length_append]
        omega
      simp only [List.map_nil, List.nil_append, Option.toList_some, List.map_cons,
        hblock.span_shift]
      exact (Span.InRow.single (Nat.succ_pos _)).mono hwithin
  | @entry base blank text rest entry entries children _ _ hentry _ ih =>
      obtain ⟨c, more, rfl, -⟩ := hentry.head
      rw [List.map_cons, hentry.span_shift]
      refine (Span.InRow.single (Nat.succ_pos _)).append ih (Nat.le_refl _) ?_ ?_
      · simp only [Span.Within, Span.finish, List.length_append]
        omega
      · simp only [Span.Within, Span.finish, List.length_append]
        omega
  | skipped _ _ _ _ ih =>
      refine ih.mono ?_
      simp only [Span.Within, Span.finish, List.length_append, List.length_cons]
      omega

/-- A block is the last part of a node. -/
theorem IsTail.block_finish {block : Block Node} (htail : IsTail read base text entries children)
    (hblock : children = some block) : block.span.finish = base + text.length := by
  induction htail with
  | nil => cases hblock
  | block _ horigin =>
      cases hblock
      rw [horigin.span_shift, Span.finish, List.length_append, Nat.add_assoc]
  | entry _ _ _ _ ih =>
      rw [ih hblock]
      simp only [List.length_append]
      omega
  | skipped _ _ _ _ ih =>
      rw [ih hblock]
      simp only [List.length_append, List.length_cons]
      omega

theorem IsNode.inRow {node : Node} (hnode : IsNode read text node) :
    node.span.InRow node.parts := by
  cases hnode with
  | @mk type word content tail value entries children _ hword htail =>
    obtain ⟨c, more, rfl, -⟩ := hword.head_content
    have hname : Span.InRow ⟨type.length, (c :: more).length⟩
        [⟨type.length, (c :: more).length⟩] := .single (Nat.succ_pos _)
    refine hname.append htail.inRow (Nat.le_refl _) ?_ ?_
    · simp only [Span.Within, Span.finish, List.length_append]
      omega
    · simp only [Span.Within, Span.finish, List.length_append]
      omega

theorem IsNode.block_finish {node : Node} {block : Block Node} (hnode : IsNode read text node)
    (hblock : node.children = some block) : block.span.finish = node.span.finish := by
  cases hnode with
  | mk _ _ htail =>
    rw [htail.block_finish hblock]
    simp only [Span.finish, List.length_append]
    omega

end Parts

section Nodes

variable {read : BlockReader} {text : List Char} {nodes : List Node}

theorem IsItem.inRow (hitem : IsItem read text nodes) :
    Span.InRow ⟨0, text.length⟩ (nodes.map Node.span) := by
  cases hitem with
  | node hnode =>
      obtain ⟨c, more, rfl, -⟩ := hnode.head
      rw [List.map_singleton, hnode.span_eq]
      exact .single (Nat.succ_pos _)
  | skipped => exact .nil _

theorem map_span_shift (nodes : List Node) (distance : Nat) :
    (nodes.map (Node.shift distance)).map Node.span =
      (nodes.map Node.span).map fun part => part.shift distance := by
  simp only [List.map_map, Function.comp_def, Node.shift_span]

/-- Nodes stand one behind the other. -/
theorem IsNodes.inRow {next : Option Char} {base : Nat}
    (hnodes : IsNodes read next base text nodes) :
    Span.InRow ⟨base, text.length⟩ (nodes.map Node.span) := by
  induction hnodes with
  | nil => exact .nil _
  | @last base blank text close nodes _ hitem =>
      rw [map_span_shift]
      refine (hitem.inRow.shift (base + blank.length)).mono ?_
      simp only [Span.Within, Span.shift, Span.finish, List.length_append]
      omega
  | @item base blank text close rest c nodes more _ hitem _ _ _ ih =>
      rw [List.map_append, map_span_shift]
      refine (hitem.inRow.shift (base + blank.length)).append ih ?_ ?_ ?_
      · simp only [Span.Before, Span.shift, Span.finish]
        omega
      · simp only [Span.Within, Span.shift, Span.finish, List.length_append, List.length_cons]
        omega
      · simp only [Span.Within, Span.finish, List.length_append, List.length_cons]
        omega

end Nodes

/-- A block stands in a text as it stands in a piece of it. -/
theorem IsBlock.nests {depth offset : Nat} {piece text : List Char} {block : Block Node}
    (hblock : IsBlock (readBlock depth) piece block) (hoccurs : Occurs piece offset text) :
    (block.shift offset).Nests text := by
  obtain ⟨fewer, inside, rfl, rfl, hinside⟩ := hblock.inside
  have hspan := hblock.span_shift offset
  constructor
  · refine ⟨inside, ?_⟩
    rw [hspan]
    exact hoccurs.slice
  · rw [hspan, Block.shift_nodes, map_span_shift]
    refine (hinside.inRow.shift offset).mono ?_
    simp only [Span.Within, Span.shift, Span.finish, List.length_cons, List.length_append,
      List.length_nil]
    omega

/-- A node stands in a text as it stands in a piece of it. -/
theorem IsNode.nests {depth offset : Nat} {piece text : List Char} {node : Node}
    (hnode : IsNode (readBlock depth) piece node) (hoccurs : Occurs piece offset text) :
    (node.shift offset).Nests text where
  within := by
    have hfinish := hoccurs.finish_le
    rw [Node.shift_span, hnode.span_eq]
    simp only [Span.Within, Span.shift, Span.finish]
    omega
  parts := by
    rw [Node.shift_span, Node.parts_shift]
    exact hnode.inRow.shift offset
  block block hblock := by
    rw [Node.shift_children] at hblock
    obtain ⟨found, hfound, rfl⟩ := Option.map_eq_some_iff.mp hblock
    constructor
    · have hfinish := hnode.block_finish hfound
      rw [Node.shift_span]
      simp only [Block.shift, Span.shift, Span.finish] at hfinish ⊢
      omega
    · obtain ⟨braced, origin, inner, hinner, horigin, rfl⟩ := hnode.block_occurs hfound
      rw [Block.shift_shift, Nat.add_comm]
      exact horigin.nests (hoccurs.trans hinner)

/-- **Spans nest and never overlap.** The nodes of a document stand one behind the other in its
text. Of a node at any depth, the name, the entries and the block stand one behind the other in its
span, and none of them is empty; the block ends where the node ends, begins with one brace and ends
with another, and between the two its nodes stand one behind the other. -/
theorem readDocument_nests {text : List Char} {document : Document}
    (hread : readDocument text = .ok document) :
    Span.InRow ⟨0, text.length⟩ (document.nodes.map Node.span) ∧
      ∀ node, document.Holds node → node.Nests text := by
  obtain ⟨isnodes, -⟩ := readDocument_eq_ok.mp hread
  refine ⟨isnodes.inRow, fun node ⟨top, htop, hheld⟩ => ?_⟩
  obtain ⟨piece, origin, offset, hoccurs, isnode, rfl⟩ := isnodes.held_occurs hheld htop
  rw [Nat.zero_add]
  exact isnode.nests hoccurs

/-- Annotations in front of a name and of an entry, an entry that is thrown away, and two nodes in a
block, one of which has an empty block of its own. -/
theorem readDocument_nests_annotated :
    let text := "(t)a k=(u)\"v\" /-x \x7b b; \"c\" \x7b\x7d /**/ \x7d // d".toList
    let first : Node := ⟨"b", ⟨20, 1⟩, ⟨20, 1⟩, [], none⟩
    let second : Node := ⟨"c", ⟨23, 3⟩, ⟨23, 6⟩, [], some ⟨[], ⟨27, 2⟩⟩⟩
    let outer : Node := ⟨"a", ⟨3, 1⟩, ⟨0, 36⟩, [⟨some "k", .string "v", ⟨5, 8⟩⟩],
      some ⟨[first, second], ⟨18, 18⟩⟩⟩
    readDocument text = .ok ⟨[outer], ⟨0, 41⟩⟩ ∧ Span.InRow ⟨0, 41⟩ [outer.span] ∧
      outer.Nests text ∧ second.Nests text := by
  intro text first second outer
  have hread : readDocument text = .ok ⟨[outer], ⟨0, 41⟩⟩ := by
    unfold text
    rfl
  obtain ⟨hrow, hnests⟩ := readDocument_nests hread
  have hsecond : second ∈ [first, second] := List.mem_cons_of_mem _ List.mem_cons_self
  exact ⟨hread, hrow, hnests outer ⟨outer, List.mem_cons_self, .self⟩,
    hnests second ⟨outer, List.mem_cons_self, .inBlock rfl hsecond .self⟩⟩

end ReverseProxy.Kdl
