import ReverseProxy.Proofs.Kdl.Surroundings

/-!
# Slices of a document

Spans are faithful. A node of a document stands in its text where its span says, whatever its depth,
so that the slice of the text at this span is a document of that node alone; likewise the slice at
the span of an entry spells that entry (`readDocument_slice`).
-/

namespace ReverseProxy.Kdl

def Span.slice (span : Span) (text : List Char) : List Char :=
  (text.drop span.offset).take span.length

/-- The piece stands in the text behind that many characters. -/
def Occurs (piece : List Char) (offset : Nat) (text : List Char) : Prop :=
  ∃ before after, text = before ++ (piece ++ after) ∧ before.length = offset

namespace Occurs

variable {piece part text : List Char} {offset inner : Nat}

theorem between (front blank piece back : List Char) :
    Occurs piece (front ++ blank).length (front ++ (blank ++ (piece ++ back))) :=
  ⟨front ++ blank, back, (List.append_assoc _ _ _).symm, rfl⟩

theorem trans (hpiece : Occurs piece offset text) (hpart : Occurs part inner piece) :
    Occurs part (offset + inner) text := by
  obtain ⟨before, after, rfl, rfl⟩ := hpart
  obtain ⟨first, last, rfl, rfl⟩ := hpiece
  refine ⟨first ++ before, after ++ last, ?_, List.length_append⟩
  simp only [List.append_assoc]

/-- A piece is what its span covers. -/
theorem slice (hpiece : Occurs piece offset text) :
    Span.slice ⟨offset, piece.length⟩ text = piece := by
  obtain ⟨before, after, rfl, rfl⟩ := hpiece
  rw [Span.slice, List.drop_left, List.take_left]

theorem finish_le (hpiece : Occurs piece offset text) : offset + piece.length ≤ text.length := by
  obtain ⟨before, after, rfl, rfl⟩ := hpiece
  simp only [List.length_append]
  omega

end Occurs

section Parts

variable {read : BlockReader} {text : List Char} {node : Node}

/-- The text of an entry is a piece of the text of its node. -/
theorem IsNode.entry_occurs {entry : Entry} (hnode : IsNode read text node)
    (hentry : entry ∈ node.entries) :
    ∃ piece origin offset, Occurs piece offset text ∧ IsEntry piece origin ∧
      entry = origin.shift offset := by
  obtain ⟨first, last, hentries⟩ := List.append_of_mem hentry
  obtain ⟨front, blank, piece, rest, origin, rfl, -, -, -, horigin, hshift, -⟩ :=
    hnode.split_entry hentries
  exact ⟨piece, origin, _, .between front blank piece rest, horigin, hshift⟩

/-- The text of a block is a piece of the text of its node. -/
theorem IsNode.block_occurs {block : Block Node} (hnode : IsNode read text node)
    (hblock : node.children = some block) :
    ∃ piece origin offset, Occurs piece offset text ∧ IsBlock read piece origin ∧
      block = origin.shift offset := by
  obtain ⟨front, blank, piece, origin, rfl, -, -, horigin, hshift⟩ := hnode.split_block hblock
  have hoccurs := Occurs.between front blank piece []
  rw [List.append_nil] at hoccurs
  exact ⟨piece, origin, _, hoccurs, horigin, hshift⟩

end Parts

/-- Every node stands in the text of the nodes that hold it, at whatever depth. -/
theorem IsNodes.held_occurs {top node : Node} (hheld : top.Holds node) {depth base : Nat}
    {next : Option Char} {text : List Char} {nodes : List Node}
    (hnodes : IsNodes (readBlock depth) next base text nodes) (htop : top ∈ nodes) :
    ∃ piece origin offset, Occurs piece offset text ∧ IsNode (readBlock depth) piece origin ∧
      node = origin.shift (base + offset) := by
  obtain ⟨rest, hreplaces⟩ := hheld.replaces [] htop
  obtain ⟨inner, hle, front, blank, piece, back, origin, rfl, -, hnode, hshift, -⟩ :=
    hnodes.replace hreplaces
  exact ⟨piece, origin, _, .between front blank piece back, hnode.mono (readBlock_mono hle), hshift⟩

/-- A node that ends where the text ends. -/
theorem endsNode_nil : EndsNode [] none := by
  intro offset rest hrest
  cases List.head?_eq_none_iff.mp hrest
  exact endsNodeAt_self rfl offset

theorem IsNode.isNodes {read : BlockReader} {text : List Char} {node : Node}
    (hnode : IsNode read text node) : IsNodes read none 0 text [node] := by
  have hnodes : IsNodes read none 0 ([] ++ (text ++ []))
      ([node].map (Node.shift (0 + ([] : List Char).length))) :=
    .last (isBlank_nil true) (.node hnode) endsNode_nil
  rwa [List.nil_append, List.append_nil, List.length_nil, map_shift_zero] at hnodes

/-- The text of a node is a document of its own. -/
theorem IsNode.readDocument {text : List Char} {node : Node}
    (hnode : IsNode (readBlock maxDepth) text node) :
    readDocument text = .ok ⟨[node], ⟨0, text.length⟩⟩ :=
  readDocument_eq_ok.mpr ⟨hnode.isNodes, rfl⟩

/-- An entry behind a name and a space makes a node. -/
theorem IsEntry.isNode {read : BlockReader} {text : List Char} {entry : Entry}
    (hentry : IsEntry text entry) :
    IsNode read ('n' :: ' ' :: text)
      ⟨"n", ⟨0, 1⟩, ⟨0, ('n' :: ' ' :: text).length⟩, [entry.shift 2], none⟩ := by
  have hword : IsWord ['n'] ['n'] (interpret ['n']) :=
    .token ⟨List.cons_ne_nil _ _, List.forall_mem_singleton.mpr rfl⟩
  have htail : IsTail read 1 ([' '] ++ (text ++ [])) [entry.shift (1 + 1)] none :=
    .entry (isBlank_space false) (List.cons_ne_nil _ _) hentry .nil
  rw [List.append_nil] at htail
  exact .mk isType_nil hword htail

/-- The slice at the span of a node is read as that node, moved to the beginning of the text, and
the slice at the span of an entry is read as that entry. -/
theorem readDocument_slice {text : List Char} {document : Document} {node : Node}
    (hread : readDocument text = .ok document) (hheld : document.Holds node) :
    (∃ moved, readDocument (node.span.slice text) = .ok ⟨[moved], ⟨0, node.span.length⟩⟩ ∧
      moved.shift node.span.offset = node) ∧
    ∀ entry ∈ node.entries, ∃ alone single span,
      readDocument ('n' :: ' ' :: entry.span.slice text) = .ok ⟨[alone], span⟩ ∧
      alone.entries = [single] ∧ single.datum = entry.datum := by
  obtain ⟨isnodes, -⟩ := readDocument_eq_ok.mp hread
  obtain ⟨top, htop, hheld⟩ := hheld
  obtain ⟨piece, origin, offset, hoccurs, isnode, rfl⟩ := isnodes.held_occurs hheld htop
  rw [Nat.zero_add]
  constructor
  · have hspan : (origin.shift offset).span = ⟨offset, piece.length⟩ := by
      rw [Node.shift_span, isnode.span_eq, Span.shift, Nat.zero_add]
    rw [hspan, hoccurs.slice]
    exact ⟨origin, isnode.readDocument, rfl⟩
  · intro entry hentry
    rw [Node.shift_entries] at hentry
    obtain ⟨found, hfound, rfl⟩ := List.mem_map.mp hentry
    obtain ⟨part, single, inner, hinner, issingle, rfl⟩ := isnode.entry_occurs hfound
    have hspan : ((single.shift inner).shift offset).span = ⟨offset + inner, part.length⟩ := by
      rw [Entry.shift_shift, Entry.shift, issingle.span_eq]
      simp only [Span.shift, Nat.zero_add, Nat.add_comm inner offset]
    rw [hspan, (hoccurs.trans hinner).slice]
    refine ⟨_, _, _, issingle.isNode.readDocument, rfl, ?_⟩
    rw [datum_shift, datum_shift, datum_shift]

/-- A node in the block of another one that has a type annotation, a property and an entry that is
thrown away. -/
theorem readDocument_slice_nested :
    let text := "a (t)k=\"v\" /-x \x7b\n  b 1 /**/; \x7d".toList
    let entry : Entry := ⟨none, .integer 1, ⟨21, 1⟩⟩
    let inner : Node := ⟨"b", ⟨19, 1⟩, ⟨19, 3⟩, [entry], none⟩
    let outer : Node :=
      ⟨"a", ⟨0, 1⟩, ⟨0, 30⟩, [⟨some "k", .string "v", ⟨2, 8⟩⟩], some ⟨[inner], ⟨15, 15⟩⟩⟩
    let document : Document := ⟨[outer], ⟨0, 30⟩⟩
    readDocument text = .ok document ∧ document.Holds inner ∧
      (∃ moved, readDocument (inner.span.slice text) = .ok ⟨[moved], ⟨0, 3⟩⟩ ∧
        moved.shift 19 = inner) ∧
      ∃ alone single span, readDocument ('n' :: ' ' :: entry.span.slice text) =
        .ok ⟨[alone], span⟩ ∧
        alone.entries = [single] ∧ single.datum = entry.datum := by
  intro text entry inner outer document
  have hread : readDocument text = .ok document := by
    unfold text
    rfl
  have hheld : document.Holds inner :=
    ⟨outer, List.mem_cons_self, .inBlock rfl List.mem_cons_self .self⟩
  obtain ⟨halone, hentries⟩ := readDocument_slice hread hheld
  exact ⟨hread, hheld, halone, hentries entry List.mem_cons_self⟩

end ReverseProxy.Kdl
