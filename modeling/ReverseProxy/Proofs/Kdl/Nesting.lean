import ReverseProxy.Kdl.Printer
import ReverseProxy.Proofs.Kdl.Joining
import ReverseProxy.Proofs.Kdl.OpenBlocks
import ReverseProxy.Proofs.Kdl.Slices
import ReverseProxy.Proofs.Kdl.Surroundings

/-!
# Documents inside blocks

A document in the block of a node, in the block of another node, and so on, is read as it is read
alone, further on and with fewer blocks left to open. If a reader accepts the outer text, it has
read the inner one to its end with the limit that was left (`IsNodes.of_enclosed`), so that the
outer text needs as many open blocks as there are levels around the inner one, and those that the
inner one needs (`readDocument_wrap`).
-/

namespace ReverseProxy.Kdl

theorem listDepth_le {items : List Shape} {most : Nat}
    (hall : ∀ shape ∈ items, shape.depth ≤ most) :
    listDepth items ≤ most := by
  induction items with
  | nil => exact Nat.zero_le most
  | cons shape items ih =>
      obtain ⟨hshape, hothers⟩ := List.forall_mem_cons.mp hall
      exact max_le hshape (ih hothers)

section Tree

variable {read : BlockReader} {most : Nat}
  (hblocks : ∀ text block, IsBlock read text block → listDepth block.shapes + 1 ≤ most)

include hblocks

theorem IsTail.childDepth_le {base : Nat} {text : List Char} {entries : List Entry}
    {children : Option (Block Node)} (htail : IsTail read base text entries children) :
    childDepth (children.map Block.shapes) ≤ most := by
  induction htail with
  | nil => exact Nat.zero_le most
  | block _ hblock =>
      rw [Option.map_some, Block.shapes_shift]
      exact hblocks _ _ hblock
  | entry _ _ _ _ ih => exact ih
  | skipped _ _ _ _ ih => exact ih

theorem IsItem.depth_le {text : List Char} {nodes : List Node} (hitem : IsItem read text nodes) :
    ∀ node ∈ nodes, node.shape.depth ≤ most := by
  cases hitem with
  | node hnode =>
      cases hnode with
      | mk _ _ htail =>
          rw [List.forall_mem_singleton, Node.shape_eq]
          exact htail.childDepth_le hblocks
  | skipped => exact List.forall_mem_nil _

/-- No node is nested deeper than the blocks that its reader may open. -/
theorem IsNodes.depth_le {next : Option Char} {base : Nat} {text : List Char} {nodes : List Node}
    (hnodes : IsNodes read next base text nodes) : ∀ node ∈ nodes, node.shape.depth ≤ most := by
  have hmoved {distance : Nat} {text : List Char} {nodes : List Node}
      (hitem : IsItem read text nodes) :
      ∀ node ∈ nodes.map (Node.shift distance), node.shape.depth ≤ most := by
    rw [List.forall_mem_map]
    intro node hmem
    rw [shape_shift]
    exact hitem.depth_le hblocks node hmem
  induction hnodes with
  | nil => exact List.forall_mem_nil _
  | last _ hitem => exact hmoved hitem
  | item _ hitem _ _ _ ih =>
      exact List.forall_mem_append.mpr ⟨hmoved hitem, ih⟩

end Tree

/-- What is read has no more blocks inside each other than may be open. -/
theorem IsNodes.listDepth_le {depth base : Nat} {next : Option Char} {text : List Char}
    {nodes : List Node} (hnodes : IsNodes (readBlock depth) next base text nodes) :
    listDepth (shapes nodes) ≤ depth := by
  induction depth generalizing base next text nodes with
  | zero =>
      rw [shapes_eq_map]
      refine Kdl.listDepth_le (List.forall_mem_map.mpr (hnodes.depth_le fun _ _ hblock => ?_))
      obtain ⟨_, _, ⟨⟩, -⟩ := hblock.inside
  | succ depth ih =>
      rw [shapes_eq_map]
      refine Kdl.listDepth_le (List.forall_mem_map.mpr (hnodes.depth_le fun _ _ hblock => ?_))
      obtain ⟨_, _, ⟨⟩, -, hinside⟩ := hblock.inside
      exact Nat.succ_le_succ (ih hinside)

/-! ### Readers that open fewer blocks

A reader that may open fewer blocks fails or finds the same. So if it reads a text at all, the nodes
that a wider reader sees there are nodes for it as well.
-/

/-- A text is that of one node only. -/
theorem IsNode.unique {read : BlockReader} {text : List Char} {node other : Node}
    (hnode : IsNode read text node) (hother : IsNode read text other) (hread : read.Advances) :
    other = node := by
  have hends : EndsNodeAt ⟨0 + text.length, []⟩ ⟨0 + text.length, []⟩ := endsNodeAt_self rfl _
  have hsame := (hother.readNode hread hends).symm.trans (hnode.readNode hread hends)
  simpa using hsame

section Narrow

variable {read wider : BlockReader} {nested : Bool} {offset start : Nat}
  {blank text rest : List Char} {stop : Cursor} {found : List Node × Cursor}
  (hread : read.Advances) (hwider : wider.Advances) (hlocal : read.IsLocal)
  (hwithin : read.Within wider)

include hread hwider hlocal hwithin

/-- The span of a node tells how much of the text was read, which is the same for both readers. -/
theorem IsNode.narrow {node other : Node} {after : Cursor} (hnode : IsNode wider text node)
    (hends : EndsNodeAt ⟨offset + text.length, rest⟩ stop)
    (hfound : Kdl.readNode read ⟨offset, text ++ rest⟩ = .ok (other, after)) :
    IsNode read text node ∧ after = skipSemicolon stop := by
  obtain ⟨own, origin, ⟨middleOffset, middleRest⟩, behind, ⟨htext, hoffset⟩, isnode, hbehind, rfl,
    rfl⟩ := readNode_takes hread hlocal hfound
  dsimp only at htext hoffset
  subst hoffset
  have hboth := (isnode.mono hwithin).readNode hwider hbehind
  rw [← htext, hnode.readNode hwider hends] at hboth
  obtain ⟨hsame, hafter⟩ := Prod.mk.inj (Except.ok.inj hboth)
  have hspan : Span.mk offset text.length = ⟨offset, own.length⟩ := by
    rw [← hnode.span_shift offset, ← isnode.span_shift offset, hsame]
  obtain ⟨rfl, -⟩ := List.append_inj htext (Span.mk.inj hspan).2
  have horigin := hnode.unique (isnode.mono hwithin) hwider
  exact ⟨horigin ▸ isnode, hafter.symm⟩

theorem IsItem.narrow {nodes : List Node} (hitem : IsItem wider text nodes)
    (hblank : IsBlank true blank)
    (hends : EndsNodeAt ⟨start + blank.length + text.length, rest⟩ stop)
    (hfound : Kdl.nodesFrom read nested ⟨start, blank ++ (text ++ rest)⟩ = .ok found) :
    IsItem read text nodes ∧
      ∃ others, Kdl.nodesFrom read nested (skipSemicolon stop) = .ok others := by
  cases hitem with
  | node hnode =>
      rw [nodesFrom_kept hnode.head hread hblank] at hfound
      obtain ⟨⟨other, after⟩, hother, hfound⟩ := bind_eq_ok.mp hfound
      obtain ⟨more, hmore, -⟩ := bind_eq_ok.mp hfound
      obtain ⟨isnode, rfl⟩ := hnode.narrow hread hwider hlocal hwithin hends hother
      exact ⟨.node isnode, more, hmore⟩
  | @skipped gap text node hgap hnode =>
      rw [length_skipped] at hends
      rw [nodesFrom_skipped hnode.head hread hblank hgap] at hfound
      obtain ⟨⟨other, after⟩, hother, hmore⟩ := bind_eq_ok.mp hfound
      obtain ⟨isnode, rfl⟩ := hnode.narrow hread hwider hlocal hwithin hends hother
      exact ⟨.skipped hgap isnode, found, hmore⟩

/-- Where a text is read in front of two line feeds, it is read alone. -/
theorem IsNodes.narrow {base : Nat} {nodes : List Node}
    (hnodes : IsNodes wider none base text nodes)
    (hfound : Kdl.nodesFrom read nested ⟨start, text ++ '\n' :: '\n' :: rest⟩ = .ok found) :
    IsNodes read none base text nodes := by
  induction hnodes generalizing start found with
  | nil hblank => exact .nil hblank
  | @last base blank text close nodes hblank hitem hclose =>
      have hends : ∃ stop, EndsNodeAt ⟨start + blank.length + text.length,
          close ++ '\n' :: '\n' :: rest⟩ stop := by
        rcases hclose.beforeFeed with hfeed | hfeed
        · exact ⟨_, hfeed _ ('\n' :: '\n' :: rest) rfl⟩
        · have hends := hfeed (start + blank.length + text.length) ('\n' :: rest) rfl
          rw [List.append_assoc] at hends
          exact ⟨_, hends⟩
      obtain ⟨stop, hends⟩ := hends
      rw [List.append_assoc, List.append_assoc] at hfound
      exact .last hblank (hitem.narrow hread hwider hlocal hwithin hblank hends hfound).1 hclose
  | @item base blank text close tail c nodes more hblank hitem hclose hseparator _ ih =>
      have hends := hclose (start + blank.length + text.length)
        (c :: (tail ++ '\n' :: '\n' :: rest)) rfl
      have htext : blank ++ (text ++ (close ++ c :: tail)) ++ '\n' :: '\n' :: rest =
          blank ++ (text ++ (close ++ c :: (tail ++ '\n' :: '\n' :: rest))) := by
        simp only [List.append_assoc, List.cons_append]
      rw [htext] at hfound
      obtain ⟨isitem, others, hothers⟩ :=
        hitem.narrow hread hwider hlocal hwithin hblank hends hfound
      rw [nodesFrom_separator hread hseparator] at hothers
      exact .item hblank isitem hclose hseparator (ih hothers)

end Narrow

def opening : List Char := ['a', ' ', '\x7b', '\n']

/-- What closes it, whatever is open at the end of the text in it. -/
def closing : List Char := ['\n', '\n', '\x7d']

def enclose (text : List Char) : List Char := opening ++ (text ++ closing)

def enclosing (length : Nat) (nodes : List Node) : Node :=
  ⟨"a", ⟨0, 1⟩, ⟨0, length + 7⟩, [], some ⟨nodes.map (Node.shift 4), ⟨2, length + 5⟩⟩⟩

section Enclosed

variable {depth : Nat} {text : List Char} {nodes : List Node}

theorem isWord_letter : IsWord ['a'] ['a'] (interpret ['a']) :=
  .token ⟨List.cons_ne_nil _ _, List.forall_mem_singleton.mpr rfl⟩

theorem endsNodes_close : EndsNodes [] (some '\x7d') := by
  intro offset rest hhead
  obtain ⟨rest, rfl⟩ := List.head?_eq_some_iff.mp hhead
  rfl

/-- Around a block, one more block may be opened. -/
theorem IsNodes.enclosed (hnodes : IsNodes (readBlock depth) none 0 text nodes) :
    IsNodes (readBlock (depth + 1)) none 0 (enclose text) [enclosing text.length nodes] := by
  have hinside : IsNodes (readBlock depth) (some '\x7d') 1 (['\n'] ++ (text ++ ['\n', '\n']))
      (nodes.map (Node.shift 2)) := by
    have hjoined := (hnodes.shift 2).join (.nil endsNodes_close)
    rw [List.append_nil] at hjoined
    exact hjoined.behind isGap_feed
  have hnode := (IsNode.mk isType_nil isWord_letter
    (.block (isBlank_space false) hinside.isBlock)).isNodes
  simpa [enclose, opening, closing, enclosing, Block.shift, shiftNodes_eq_map, Span.shift,
    Function.comp_def, Nat.add_assoc] using hnode

theorem readNode_enclose (read : BlockReader) :
    readNode read (Cursor.ofText (enclose text)) = (do
      let (tail, stop) ← readLastBlock read ⟨2, '\x7b' :: '\n' :: (text ++ closing)⟩
      return (⟨"a", ⟨0, 1⟩, ⟨0, tail.finish⟩, tail.entries, tail.children⟩,
        skipSemicolon stop)) := by
  have htail : tailFrom read ⟨1, ' ' :: '\x7b' :: '\n' :: (text ++ closing)⟩ 1 =
      readLastBlock read ⟨2, '\x7b' :: '\n' :: (text ++ closing)⟩ := tailFrom_block rfl rfl
  rw [← htail]
  rfl

/-- What is accepted in a block is accepted alone, with one block less to open. -/
theorem IsNodes.of_enclosed {limit : Nat} {found : List Node}
    (hnodes : IsNodes (readBlock depth) none 0 text nodes)
    (hfound : IsNodes (readBlock limit) none 0 (enclose text) found) :
    ∃ fewer, limit = fewer + 1 ∧ IsNodes (readBlock fewer) none 0 text nodes := by
  obtain ⟨stop, hread⟩ := nodesFrom_ofText.mpr hfound
  have hnext : (Cursor.ofText (enclose text)).nodeBlank = .ok (Cursor.ofText (enclose text)) := rfl
  rw [nodesFrom_node (readBlock_advances limit) hnext rfl (by decide) (by decide),
    readNode_enclose] at hread
  obtain ⟨_, hnode, -⟩ := bind_eq_ok.mp hread
  obtain ⟨⟨tail, last⟩, htail, -⟩ := bind_eq_ok.mp hnode
  obtain ⟨block, after, hblock, -⟩ := readLastBlock_eq_ok.mp htail
  cases limit with
  | zero => cases hblock
  | succ fewer =>
      obtain ⟨inside, hinside, -⟩ := bind_eq_ok.mp hblock
      have hfeed :
          Kdl.nodesFrom (readBlock fewer) true ⟨3, '\n' :: (text ++ closing)⟩ = .ok inside :=
        hinside
      rw [nodesFrom_blank (readBlock_advances fewer) (.inr rfl)] at hfeed
      exact ⟨fewer, rfl, IsNodes.narrow (readBlock_advances fewer)
        (readBlock_advances (max depth fewer)) (readBlock_isLocal fewer)
        (readBlock_mono (le_max_right _ _)) (hnodes.mono (readBlock_mono (le_max_left _ _))) hfeed⟩

end Enclosed

def wrap (levels : Nat) (text : List Char) : List Char :=
  (List.replicate levels opening).flatten ++ (text ++ (List.replicate levels closing).flatten)

theorem wrap_zero (text : List Char) : wrap 0 text = text := List.append_nil text

theorem wrap_succ (levels : Nat) (text : List Char) :
    wrap (levels + 1) text = enclose (wrap levels text) := by
  rw [wrap, List.replicate_succ, List.replicate_succ', List.flatten_cons, List.flatten_concat]
  simp only [enclose, wrap, List.append_assoc]

theorem length_wrap (levels : Nat) (text : List Char) :
    (wrap levels text).length = text.length + 7 * levels := by
  induction levels with
  | zero => rw [wrap_zero, Nat.mul_zero, Nat.add_zero]
  | succ levels ih =>
      rw [wrap_succ]
      simp only [enclose, opening, closing, List.length_append, List.length_cons, List.length_nil,
        ih]
      omega

/-- So many nodes in each other, from the offset on, around the nodes of a text of that length. -/
def nestedNodes (length : Nat) (inner : List Node) : (levels offset : Nat) → List Node
  | 0, _ => inner
  | levels + 1, offset =>
      [⟨"a", ⟨offset, 1⟩, ⟨offset, length + 7 * (levels + 1)⟩, [],
        some ⟨nestedNodes length inner levels (offset + 4), ⟨offset + 2, length + 7 * levels + 5⟩⟩⟩]

theorem nestedNodes_shift (length : Nat) (inner : List Node) (levels offset distance : Nat) :
    (nestedNodes length inner levels offset).map (Node.shift distance) =
      nestedNodes length (inner.map (Node.shift distance)) levels (offset + distance) := by
  induction levels generalizing offset with
  | zero => rfl
  | succ levels ih =>
      have hbelow := ih (offset + 4)
      rw [Nat.add_right_comm] at hbelow
      simp only [nestedNodes, List.map_singleton, Node.shift, shiftChildren, shiftNodes_eq_map,
        hbelow,
        Span.shift, List.map_nil, Nat.add_right_comm]

section Wrapped

variable {depth : Nat} {text : List Char} {nodes : List Node}

/-- Wrapped nodes are read under a limit that is as much higher. -/
theorem IsNodes.wrap (hnodes : IsNodes (readBlock depth) none 0 text nodes) (levels : Nat) :
    IsNodes (readBlock (depth + levels)) none 0 (wrap levels text)
      (nestedNodes text.length (nodes.map (Node.shift (4 * levels))) levels 0) := by
  induction levels with
  | zero => rwa [wrap_zero, Nat.mul_zero, nestedNodes, map_shift_zero]
  | succ levels ih =>
      have houter := ih.enclosed
      rw [enclosing, nestedNodes_shift, length_wrap] at houter
      rw [wrap_succ, Nat.mul_succ]
      simpa only [nestedNodes, List.map_map, Function.comp_def, Node.shift_shift, Nat.zero_add,
        Nat.mul_succ, Nat.add_assoc] using houter

/-- If wrapped nodes are read, the limit is enough for the blocks around them and leaves enough for
those inside. -/
theorem IsNodes.of_wrap {limit levels : Nat} {found : List Node}
    (hnodes : IsNodes (readBlock depth) none 0 text nodes)
    (hfound : IsNodes (readBlock limit) none 0 (Kdl.wrap levels text) found) :
    ∃ fewer others, limit = fewer + levels ∧ IsNodes (readBlock fewer) none 0 text others := by
  -- From the outermost block inward, each of which takes one from the limit.
  induction levels generalizing limit found with
  | zero => exact ⟨limit, found, rfl, wrap_zero text ▸ hfound⟩
  | succ levels ih =>
      rw [wrap_succ] at hfound
      obtain ⟨less, rfl, hless⟩ := (hnodes.wrap levels).of_enclosed hfound
      obtain ⟨fewer, others, rfl, hothers⟩ := ih hless
      exact ⟨fewer, others, rfl, hothers⟩

end Wrapped

/-- A text that is read with another limit can only be too deep. -/
theorem readDocument_tooDeep {depth : Nat} {text : List Char} {nodes : List Node}
    (hnodes : IsNodes (readBlock depth) none 0 text nodes)
    (hdeep : ∀ found, ¬IsNodes (readBlock maxDepth) none 0 text found) :
    ∃ span, readDocument text = refuse .tooDeep span := by
  obtain ⟨stop, hread⟩ := nodesFrom_ofText.mpr hnodes
  obtain ⟨height, -, hneeds⟩ :=
    (countNodes_counts (countBlock_counts depth) false (text.length + 1) (Cursor.ofText text)).ok _
      hread
  rcases Nat.lt_or_ge maxDepth height with hlt | hle
  · obtain ⟨span, hrefused⟩ := hneeds.tooFew maxDepth hlt
    refine ⟨span, ?_⟩
    rw [readDocument, hrefused]
    rfl
  · exact absurd (nodesFrom_ofText.mp ⟨stop, hneeds.enough maxDepth hle⟩) (hdeep nodes)

/-- The counter tells which limits accept a text. -/
theorem countDocument_isNodes {text : List Char} {document : Document}
    (hread : readDocument text = .ok document) :
    ∃ peak, countDocument text = .ok (document, peak) ∧ ∀ depth nodes,
      IsNodes (readBlock depth) none 0 text nodes ↔ nodes = document.nodes ∧ peak ≤ depth := by
  obtain ⟨peak, stop, hcount, hneeds⟩ := countDocument_eq_ok hread
  refine ⟨peak, hcount, fun depth nodes => ?_⟩
  have hlimit : IsNodes (readBlock depth) none 0 text nodes ↔ ∃ stop,
      readNodes (readBlock depth) false (text.length + 1) (Cursor.ofText text) =
        .ok (nodes, stop) :=
    nodesFrom_ofText.symm
  simp [hlimit, hneeds.eq_ok_iff]

/-- **Nesting is transparent up to the limit.** An accepted text needs so many open blocks, which
are no fewer than its tree has inside each other. In as many blocks as are left, it is a document of
nodes in each other, and the innermost block holds its nodes, further on; in more blocks it is too
deep. -/
theorem readDocument_wrap {text : List Char} {document : Document}
    (hread : readDocument text = .ok document) :
    ∃ peak, countDocument text = .ok (document, peak) ∧ peak ≤ maxDepth ∧
      listDepth document.shapes ≤ peak ∧ ∀ levels,
        (levels + peak ≤ maxDepth → readDocument (wrap levels text) =
          .ok ⟨nestedNodes text.length (document.nodes.map (Node.shift (4 * levels))) levels 0,
            ⟨0, (wrap levels text).length⟩⟩) ∧
        (maxDepth < levels + peak → ∃ problem span,
          readDocument (wrap levels text) = refuse problem span ∧
            problem.message = "Children blocks nested too deeply") := by
  obtain ⟨hnodes, -⟩ := readDocument_eq_ok.mp hread
  obtain ⟨peak, hcount, hpeak⟩ := countDocument_isNodes hread
  have hlowest : IsNodes (readBlock peak) none 0 text document.nodes :=
    (hpeak peak _).mpr ⟨rfl, le_rfl⟩
  have hle : peak ≤ maxDepth := ((hpeak maxDepth _).mp hnodes).2
  refine ⟨peak, hcount, hle, hlowest.listDepth_le, fun levels => ⟨fun hfits => ?_, fun hdeep => ?_⟩⟩
  · refine readDocument_eq_ok.mpr ⟨?_, rfl⟩
    exact (hlowest.wrap levels).mono (readBlock_mono (by omega))
  · have houter (found : List Node) :
        ¬IsNodes (readBlock maxDepth) none 0 (wrap levels text) found := by
      intro hfound
      obtain ⟨fewer, others, hlimit, hothers⟩ := hlowest.of_wrap hfound
      have hneeds := ((hpeak fewer others).mp hothers).2
      omega
    obtain ⟨span, hrefused⟩ := readDocument_tooDeep (hlowest.wrap levels) houter
    exact ⟨.tooDeep, span, hrefused, rfl⟩

/-- Two blocks in each other are thrown away, and the text ends in a comment. -/
theorem readDocument_wrap_discarded :
    let text := "/-a \x7b b \x7b \x7d; \x7d\nc //".toList
    let document : Document := ⟨[⟨"c", ⟨15, 1⟩, ⟨15, 1⟩, [], none⟩], ⟨0, 19⟩⟩
    readDocument text = .ok document ∧ countDocument text = .ok (document, 2) ∧
      listDepth document.shapes = 0 ∧ ∀ levels,
        (levels + 2 ≤ maxDepth → readDocument (wrap levels text) =
          .ok ⟨nestedNodes text.length (document.nodes.map (Node.shift (4 * levels))) levels 0,
            ⟨0, (wrap levels text).length⟩⟩) ∧
        (maxDepth < levels + 2 → ∃ problem span,
          readDocument (wrap levels text) = refuse problem span ∧
            problem.message = "Children blocks nested too deeply") := by
  intro text document
  have hread : readDocument text = .ok document := by
    unfold text
    rfl
  have hcount : countDocument text = .ok (document, 2) := by
    unfold text
    rfl
  obtain ⟨peak, hpeak, -, -, hlevels⟩ := readDocument_wrap hread
  cases hcount.symm.trans hpeak
  exact ⟨hread, hcount, rfl, hlevels⟩

end ReverseProxy.Kdl
