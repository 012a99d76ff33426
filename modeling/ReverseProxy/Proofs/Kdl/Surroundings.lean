import ReverseProxy.Proofs.Kdl.BlockText
import ReverseProxy.Proofs.Kdl.Feeds

/-!
# A node and the text around it

What a text says of its other nodes does not depend on how one of them is written, wherever that
node stands: if the node gives way to others in the tree, the text that says so is the old one with
the piece of the node exchanged (`IsNodes.replace`). The same holds of an entry or a block among the
parts of a node. So it is enough to know what an insertion makes of the piece of one node
(`readDocument_insertAt`).
-/

namespace ReverseProxy.Kdl

section Saying

def TailSays (read : BlockReader) (text : List Char) (data : List Datum)
    (below : Option (List Shape)) : Prop :=
  ∀ base, ∃ entries children, IsTail read base text entries children ∧
    entries.map Entry.datum = data ∧ children.map Block.shapes = below

def ItemSays (read : BlockReader) (text : List Char) (items : List Shape) : Prop :=
  ∃ nodes, IsItem read text nodes ∧ shapes nodes = items

def NodesSay (read : BlockReader) (next : Option Char) (text : List Char)
    (items : List Shape) : Prop :=
  ∀ base, ∃ nodes, IsNodes read next base text nodes ∧ shapes nodes = items

theorem shapes_append (nodes others : List Node) :
    shapes (nodes ++ others) = shapes nodes ++ shapes others := by
  simp only [shapes_eq_map, List.map_append]

theorem shapes_shift (distance : Nat) (nodes : List Node) :
    shapes (nodes.map (Node.shift distance)) = shapes nodes := by
  simp only [shapes_eq_map, List.map_map, Function.comp_def, shape_shift]

theorem Node.shift_name (distance : Nat) (node : Node) :
    (node.shift distance).name = node.name := by
  cases node
  rfl

theorem map_datum_shift (distance : Nat) (node : Node) :
    (node.shift distance).entries.map Entry.datum = node.entries.map Entry.datum := by
  rw [Node.shift_entries, List.map_map]
  rfl

theorem Block.shapes_shift (distance : Nat) (block : Block Node) :
    (block.shift distance).shapes = block.shapes := by
  rw [Block.shapes, Block.shift_nodes, Kdl.shapes_shift, Block.shapes]

variable {read : BlockReader} {next : Option Char} {blank gap text rest close : List Char}
  {data : List Datum} {below : Option (List Shape)} {items more : List Shape} {c : Char}

theorem TailSays.nil : TailSays read [] [] none := fun _ => ⟨[], none, .nil, rfl, rfl⟩

theorem TailSays.block {block : Block Node} (hblank : IsBlank false blank)
    (hblock : IsBlock read text block) : TailSays read (blank ++ text) [] (some block.shapes) :=
  fun _ => ⟨[], _, .block hblank hblock, rfl, congrArg some (block.shapes_shift _)⟩

theorem TailSays.entry {entry : Entry} (hblank : IsBlank false blank) (hne : blank ≠ [])
    (hentry : IsEntry text entry) (hrest : TailSays read rest data below) :
    TailSays read (blank ++ (text ++ rest)) (entry.datum :: data) below := by
  intro base
  obtain ⟨entries, children, htail, rfl, rfl⟩ := hrest (base + blank.length + text.length)
  exact ⟨_, children, .entry hblank hne hentry htail, rfl, rfl⟩

theorem TailSays.skipped (hblank : IsBlank false blank) (hgap : IsBlank false gap)
    (helement : IsElement read text) (hrest : TailSays read rest data below) :
    TailSays read (blank ++ '/' :: '-' :: (gap ++ (text ++ rest))) data below := by
  intro base
  obtain ⟨entries, children, htail, rfl, rfl⟩ :=
    hrest (base + blank.length + 2 + gap.length + text.length)
  exact ⟨entries, children, .skipped hblank hgap helement htail, rfl, rfl⟩

/-- Parts of a node say what they are read as. -/
theorem IsTail.says {base : Nat} {entries : List Entry} {children : Option (Block Node)}
    (htail : IsTail read base text entries children) :
    TailSays read text (entries.map Entry.datum) (children.map Block.shapes) := by
  induction htail with
  | nil => exact .nil
  | block hblank hblock =>
      rw [Option.map_some, Block.shapes_shift]
      exact .block hblank hblock
  | entry hblank hne hentry _ ih =>
      rw [List.map_cons, datum_shift]
      exact .entry hblank hne hentry ih
  | skipped hblank hgap helement _ ih => exact .skipped hblank hgap helement ih

theorem IsNode.says {node : Node} (hnode : IsNode read text node) :
    ItemSays read text [node.shape] :=
  ⟨[node], .node hnode, rfl⟩

theorem TailSays.item {type word content tail : List Char} {value : Cursor → Reading Scalar}
    (htype : IsType type) (hword : IsWord word content value)
    (htail : TailSays read tail data below) :
    ItemSays read (type ++ (word ++ tail)) [.mk (String.ofList content) data below] := by
  obtain ⟨entries, children, istail, rfl, rfl⟩ := htail (type.length + word.length)
  refine ⟨_, .node (.mk htype hword istail), ?_⟩
  rw [shapes, Node.shape_eq]
  rfl

theorem NodesSay.nil (hblank : EndsNodes blank next) : NodesSay read next blank [] :=
  fun _ => ⟨[], .nil hblank, rfl⟩

theorem NodesSay.last (hblank : IsBlank true blank) (hitem : ItemSays read text items)
    (hclose : EndsNode close next) : NodesSay read next (blank ++ (text ++ close)) items := by
  intro base
  obtain ⟨nodes, isitem, rfl⟩ := hitem
  exact ⟨_, .last hblank isitem hclose, shapes_shift _ nodes⟩

theorem NodesSay.item (hblank : IsBlank true blank) (hitem : ItemSays read text items)
    (hclose : EndsNode close (some c)) (hseparator : isSeparator c = true)
    (hrest : NodesSay read next rest more) :
    NodesSay read next (blank ++ (text ++ (close ++ c :: rest))) (items ++ more) := by
  intro base
  obtain ⟨nodes, isitem, rfl⟩ := hitem
  obtain ⟨others, hothers, rfl⟩ :=
    hrest (base + blank.length + text.length + close.length + 1)
  refine ⟨_, .item hblank isitem hclose hseparator hothers, ?_⟩
  rw [shapes_append, shapes_shift]

/-- Nodes say what they are read as. -/
theorem IsNodes.say {base : Nat} {nodes : List Node}
    (hnodes : IsNodes read next base text nodes) : NodesSay read next text (shapes nodes) := by
  induction hnodes with
  | nil hblank => exact .nil hblank
  | last hblank hitem hclose =>
      rw [shapes_shift]
      exact .last hblank ⟨_, hitem, rfl⟩ hclose
  | item hblank hitem hclose hseparator _ ih =>
      rw [shapes_append, shapes_shift]
      exact .item hblank ⟨_, hitem, rfl⟩ hclose hseparator ih

theorem NodesSay.isBlock {depth : Nat}
    (hnodes : NodesSay (readBlock depth) (some '\x7d') text items) :
    ∃ block, IsBlock (readBlock (depth + 1)) ('\x7b' :: (text ++ ['\x7d'])) block ∧
      block.shapes = items := by
  obtain ⟨nodes, isnodes, rfl⟩ := hnodes 1
  exact ⟨_, isnodes.isBlock, rfl⟩

/-- A text of nodes is accepted as a document, and says the same. -/
theorem NodesSay.readDocument (hnodes : NodesSay (readBlock maxDepth) none text items) :
    ∃ document, readDocument text = .ok document ∧ document.shapes = items := by
  obtain ⟨nodes, isnodes, rfl⟩ := hnodes 0
  exact ⟨⟨nodes, ⟨0, text.length⟩⟩, readDocument_eq_ok.mpr ⟨isnodes, rfl⟩, rfl⟩

end Saying

def TailFront (read : BlockReader) (front : List Char) (data : List Datum) : Prop :=
  ∀ rest more below, TailSays read rest more below →
    TailSays read (front ++ rest) (data ++ more) below

section Parts

variable {read : BlockReader} {base : Nat} {blank gap text front : List Char} {data : List Datum}
  {entries : List Entry} {children : Option (Block Node)}

theorem TailFront.nil : TailFront read [] [] := fun _ _ _ hsays => hsays

theorem TailFront.entry {entry : Entry} (hblank : IsBlank false blank) (hne : blank ≠ [])
    (hentry : IsEntry text entry) (hfront : TailFront read front data) :
    TailFront read (blank ++ (text ++ front)) (entry.datum :: data) := by
  intro rest more below hsays
  rw [List.append_assoc, List.append_assoc]
  exact .entry hblank hne hentry (hfront rest more below hsays)

theorem TailFront.skipped (hblank : IsBlank false blank) (hgap : IsBlank false gap)
    (helement : IsElement read text) (hfront : TailFront read front data) :
    TailFront read (blank ++ '/' :: '-' :: (gap ++ (text ++ front))) data := by
  intro rest more below hsays
  simp only [List.append_assoc, List.cons_append]
  exact .skipped hblank hgap helement (hfront rest more below hsays)

inductive IsTail.Kept (read : BlockReader) (base : Nat) :
    List Char → List Entry → Option (Block Node) → Prop
  | nil : Kept read base [] [] none
  | block {blank text : List Char} {block : Block Node} (hblank : IsBlank false blank)
      (hblock : IsBlock read text block) :
      Kept read base (blank ++ text) [] (some (block.shift (base + blank.length)))
  | entry {blank text rest : List Char} {entry : Entry} {entries : List Entry}
      {children : Option (Block Node)} (hblank : IsBlank false blank) (hne : blank ≠ [])
      (hentry : IsEntry text entry)
      (hrest : IsTail read (base + blank.length + text.length) rest entries children) :
      Kept read base (blank ++ (text ++ rest)) (entry.shift (base + blank.length) :: entries)
        children

/-- Behind some of the entries, and the elements thrown away there, the other parts stand. -/
theorem IsTail.split {first last : List Entry} (htail : IsTail read base text entries children)
    (hentries : entries = first ++ last) :
    ∃ front rest, text = front ++ rest ∧ TailFront read front (first.map Entry.datum) ∧
      IsTail.Kept read (base + front.length) rest last children := by
  induction htail generalizing first with
  | nil =>
      obtain ⟨rfl, rfl⟩ := List.append_eq_nil_iff.mp hentries.symm
      exact ⟨[], [], rfl, .nil, .nil⟩
  | block hblank hblock =>
      obtain ⟨rfl, rfl⟩ := List.append_eq_nil_iff.mp hentries.symm
      exact ⟨[], _, rfl, .nil, .block hblank hblock⟩
  | @entry base blank text rest origin entries children hblank hne hentry hrest ih =>
      rcases first with _ | ⟨head, first⟩
      · cases hentries
        exact ⟨[], _, rfl, .nil, .entry hblank hne hentry hrest⟩
      · obtain ⟨rfl, hmore⟩ := List.cons.inj hentries
        obtain ⟨front, back, rfl, hfront, hback⟩ := ih hmore
        have hlength : base + blank.length + text.length + front.length =
            base + (blank ++ (text ++ front)).length := by
          simp only [List.length_append, Nat.add_assoc]
        rw [hlength] at hback
        refine ⟨_, back, ?_, ?_, hback⟩
        · simp only [List.append_assoc]
        · rw [List.map_cons, datum_shift]
          exact hfront.entry hblank hne hentry
  | @skipped base blank gap text rest entries children hblank hgap helement _ ih =>
      obtain ⟨front, back, rfl, hfront, hback⟩ := ih hentries
      have hlength : base + blank.length + 2 + gap.length + text.length + front.length =
          base + (blank ++ '/' :: '-' :: (gap ++ (text ++ front))).length := by
        simp only [List.length_append, List.length_cons]
        omega
      rw [hlength] at hback
      refine ⟨_, back, ?_, hfront.skipped hblank hgap helement, hback⟩
      simp only [List.append_assoc, List.cons_append]

def NodeFront (read : BlockReader) (front : List Char) (name : String) (data : List Datum) : Prop :=
  ∀ rest more below, TailSays read rest more below →
    ItemSays read (front ++ rest) [.mk name (data ++ more) below]

theorem TailFront.node {type word content : List Char} {value : Cursor → Reading Scalar}
    (hfront : TailFront read front data) (htype : IsType type) (hword : IsWord word content value) :
    NodeFront read (type ++ (word ++ front)) (String.ofList content) data := by
  intro rest more below hsays
  rw [List.append_assoc, List.append_assoc]
  exact (hfront rest more below hsays).item htype hword

/-- A node is cut in front of one of its entries. -/
theorem IsNode.split_entry {node : Node} {first last : List Entry} {entry : Entry}
    (hnode : IsNode read text node) (hentries : node.entries = first ++ entry :: last) :
    ∃ front blank piece rest origin, text = front ++ (blank ++ (piece ++ rest)) ∧
      NodeFront read front node.name (first.map Entry.datum) ∧ IsBlank false blank ∧ blank ≠ [] ∧
      IsEntry piece origin ∧ entry = origin.shift (front ++ blank).length ∧
      TailSays read rest (last.map Entry.datum) (node.children.map Block.shapes) := by
  cases hnode with
  | @mk type word content tail value entries children htype hword htail =>
    obtain ⟨front, back, rfl, hfront, hback⟩ := htail.split hentries
    cases hback with
    | @entry blank piece rest origin _ _ hblank hne horigin hrest =>
      refine ⟨_, blank, piece, rest, origin, ?_, hfront.node htype hword, hblank, hne, horigin, ?_,
        hrest.says⟩
      · simp only [List.append_assoc]
      · simp only [List.length_append, Nat.add_assoc]

/-- A node is cut in front of its block. -/
theorem IsNode.split_block {node : Node} {block : Block Node} (hnode : IsNode read text node)
    (hblock : node.children = some block) :
    ∃ front blank piece origin, text = front ++ (blank ++ piece) ∧
      NodeFront read front node.name (node.entries.map Entry.datum) ∧ IsBlank false blank ∧
      IsBlock read piece origin ∧ block = origin.shift (front ++ blank).length := by
  cases hnode with
  | @mk type word content tail value entries children htype hword htail =>
    cases hblock
    obtain ⟨front, back, rfl, hfront, hback⟩ := htail.split (List.append_nil entries).symm
    cases hback with
    | @block blank piece origin hblank horigin =>
      refine ⟨_, blank, piece, origin, ?_, hfront.node htype hword, hblank, horigin, ?_⟩
      · simp only [List.append_assoc]
      · simp only [List.length_append, Nat.add_assoc]

end Parts

/-- The node stands in the text, and with a text of the items in place of its piece the text says
`whole`. -/
def Exchanges (outer inner : BlockReader) (next : Option Char) (base : Nat) (text : List Char)
    (node : Node) (items whole : List Shape) : Prop :=
  ∃ front blank piece back origin, text = front ++ (blank ++ (piece ++ back)) ∧
    IsBlank true blank ∧ IsNode inner piece origin ∧
    node = origin.shift (base + (front ++ blank).length) ∧
    ∀ space item, IsBlank true space → ItemSays inner item items →
      NodesSay outer next (front ++ (space ++ (item ++ back))) whole

section Nodes

variable {read inner : BlockReader} {next : Option Char} {base : Nat}
  {blank text close rest : List Char} {c : Char} {nodes before after : List Node} {node : Node}
  {items whole : List Shape}

theorem Exchanges.behind (hblank : IsBlank true blank) (hitem : IsItem read text nodes)
    (hclose : EndsNode close (some c)) (hseparator : isSeparator c = true)
    (hrest : Exchanges read inner next
      (base + blank.length + text.length + close.length + 1) rest node items whole) :
    Exchanges read inner next base (blank ++ (text ++ (close ++ c :: rest))) node items
      (shapes nodes ++ whole) := by
  obtain ⟨front, gap, piece, back, origin, rfl, hgap, horigin, rfl, haround⟩ := hrest
  refine ⟨blank ++ (text ++ (close ++ c :: front)), gap, piece, back, origin, ?_, hgap, horigin,
    ?_, ?_⟩
  · simp only [List.append_assoc, List.cons_append]
  · simp only [List.length_append, List.length_cons]
    congr 1
    omega
  · intro space item hspace hsays
    simp only [List.append_assoc, List.cons_append]
    exact .item hblank ⟨nodes, hitem, rfl⟩ hclose hseparator (haround space item hspace hsays)

/-- Nodes that are read one after the other leave room for others in the place of each. -/
theorem IsNodes.exchanges (hnodes : IsNodes read next base text nodes)
    (hsplit : nodes = before ++ node :: after) (items : List Shape) :
    Exchanges read read next base text node items
      (shapes before ++ (items ++ shapes after)) := by
  induction hnodes generalizing before with
  | nil => simp at hsplit
  | @last base blank text close nodes hblank hitem hclose =>
      cases hitem with
      | skipped => simp at hsplit
      | @node _ origin hnode =>
        rcases before with _ | ⟨head, before⟩
        · obtain ⟨rfl, rfl⟩ := List.cons.inj hsplit
          refine ⟨[], blank, text, close, origin, rfl, hblank, hnode, rfl, ?_⟩
          intro space item hspace hsays
          rw [List.map_nil, shapes, List.nil_append, List.append_nil]
          exact .last hspace hsays hclose
        · simp at hsplit
  | @item base blank text close rest c nodes more hblank hitem hclose hseparator hrest ih =>
      cases hitem with
      | skipped hgap hnode =>
        have hbehind := (ih hsplit).behind hblank (.skipped hgap hnode) hclose hseparator
        exact hbehind
      | @node _ origin hnode =>
        rcases before with _ | ⟨head, before⟩
        · obtain ⟨rfl, rfl⟩ := List.cons.inj hsplit
          refine ⟨[], blank, text, close ++ c :: rest, origin, rfl, hblank, hnode, rfl, ?_⟩
          intro space item hspace hsays
          rw [List.map_nil, List.nil_append, shapes, List.nil_append]
          exact .item hspace hsays hclose hseparator hrest.say
        · obtain ⟨rfl, hmore⟩ := List.cons.inj hsplit
          rw [shapes, shape_shift]
          exact (ih hmore).behind hblank (.node hnode) hclose hseparator

end Nodes

/-! ### Other nodes in place of one

A node deep in a tree is exchanged by exchanging it in the list it belongs to, and that list in the
text of the block around it, and so on up to the document. `Replaces` follows the tree upward, and
`IsNodes.replace` the text.
-/

/-- In a list of nodes, or in the block of one of them, the node gives way to others. -/
inductive Replaces (node : Node) (others : List Node) : List Node → List Node → Prop
  | here (before after : List Node) :
      Replaces node others (before ++ node :: after) (before ++ (others ++ after))
  | inBlock {parent : Node} {block : Block Node} {nodes : List Node} (before after : List Node)
      (hblock : parent.children = some block) (hbelow : Replaces node others block.nodes nodes) :
      Replaces node others (before ++ parent :: after)
        (before ++ { parent with children := some { block with nodes } } :: after)

/-- If a node gives way to others, then its piece of the text gives way to a text of those. -/
theorem IsNodes.replace {node : Node} {others nodes rest : List Node}
    (hreplaces : Replaces node others nodes rest) {depth base : Nat} {next : Option Char}
    {text : List Char} (hnodes : IsNodes (readBlock depth) next base text nodes) :
    ∃ inner ≤ depth, Exchanges (readBlock depth) (readBlock inner) next base text node
      (shapes others) (shapes rest) := by
  -- By the blocks around the node: the text around a block is known from exchanging its node.
  induction hreplaces generalizing depth base next text with
  | here before after =>
      rw [shapes_append, shapes_append]
      exact ⟨depth, Nat.le_refl depth, hnodes.exchanges rfl _⟩
  | @inBlock parent block nodes before after hblock _ ih =>
      obtain ⟨front, blank, piece, back, origin, rfl, hblank, hnode, rfl, haround⟩ :=
        hnodes.exchanges rfl
          [.mk parent.name (parent.entries.map Entry.datum) (some (shapes nodes))]
      rw [Node.shift_name, map_datum_shift] at haround
      rw [Node.shift_children] at hblock
      obtain ⟨own, hown, rfl⟩ := Option.map_eq_some_iff.mp hblock
      obtain ⟨opening, gap, braced, found, rfl, hopening, hgap, hfound, rfl⟩ :=
        hnode.split_block hown
      obtain ⟨fewer, inside, rfl, rfl, hinside⟩ := hfound.inside
      have hmoved := hinside.shift ((opening ++ gap).length + (base + (front ++ blank).length))
      rw [← Block.shift_nodes, ← Block.shift_shift] at hmoved
      obtain ⟨inner, hle, ahead, space, piece, behind, held, rfl, hspace, hheld, rfl, hwithin⟩ :=
        ih hmoved
      refine ⟨inner, Nat.le_succ_of_le hle,
        front ++ (blank ++ (opening ++ (gap ++ '\x7b' :: ahead))),
        space, piece, behind ++ ('\x7d' :: back), held, ?_, hspace, hheld, ?_, ?_⟩
      · simp only [List.append_assoc, List.cons_append, List.nil_append]
      · simp only [List.length_append, List.length_cons]
        congr 1
        omega
      · intro other item hother hsays
        obtain ⟨new, hnew, hshapes⟩ := (hwithin other item hother hsays).isBlock
        have hparent := hopening _ _ _ (.block hgap hnew)
        rw [List.append_nil, hshapes] at hparent
        have hwhole := haround blank _ hblank hparent
        rw [shapes_append, shapes, Node.shape_eq, Node.shift_name, map_datum_shift, Option.map_some,
          Block.shapes]
        simpa only [List.append_assoc, List.cons_append, List.nil_append] using hwhole

/-- Every node that is held can be replaced. -/
theorem Node.Holds.replaces {top node : Node} (hheld : top.Holds node) (others : List Node)
    {nodes : List Node} (htop : top ∈ nodes) : ∃ rest, Replaces node others nodes rest := by
  induction hheld generalizing nodes with
  | self =>
      obtain ⟨before, after, rfl⟩ := List.append_of_mem htop
      exact ⟨_, .here before after⟩
  | inBlock hblock hchild _ ih =>
      obtain ⟨before, after, rfl⟩ := List.append_of_mem htop
      obtain ⟨inner, hinner⟩ := ih hchild
      exact ⟨_, .inBlock before after hblock hinner⟩

/-- A node that says the same changes nothing in what all of them say. -/
theorem Replaces.shapes_eq {node : Node} {others nodes rest : List Node}
    (hreplaces : Replaces node others nodes rest) (hothers : shapes others = [node.shape]) :
    shapes rest = shapes nodes := by
  induction hreplaces with
  | here before after =>
      rw [shapes_append, shapes_append, hothers, shapes_append, shapes]
      rfl
  | @inBlock parent block nodes before after hblock _ ih =>
      rw [shapes_append, shapes_append, shapes, shapes, Node.shape_eq, Node.shape_eq, hblock,
        Option.map_some, Option.map_some, Block.shapes, ih, Block.shapes]

def insertAt (offset : Nat) (inserted text : List Char) : List Char :=
  text.take offset ++ (inserted ++ text.drop offset)

theorem insertAt_length {front : List Char} {offset : Nat} (hoffset : offset = front.length)
    (inserted back : List Char) :
    insertAt offset inserted (front ++ back) = front ++ (inserted ++ back) := by
  rw [hoffset, insertAt, List.take_left, List.drop_left]

/-- Something put into the piece of a node makes it a text of the items, possibly with blank text in
front. -/
def InsertionSays (read : BlockReader) (offset : Nat) (inserted piece : List Char)
    (items : List Shape) : Prop :=
  ∃ front back lead item, piece = front ++ back ∧ offset = front.length ∧
    front ++ (inserted ++ back) = lead ++ item ∧ IsBlank true lead ∧ ItemSays read item items

theorem ItemSays.insertion {read : BlockReader} {front inserted back : List Char}
    {items : List Shape} (hitem : ItemSays read (front ++ (inserted ++ back)) items) :
    InsertionSays read front.length inserted (front ++ back) items :=
  ⟨front, back, [], _, rfl, rfl, rfl, isBlank_nil true, hitem⟩

/-- What is put into the piece of a node in a document exchanges the node for those of which the
piece becomes a text. -/
theorem readDocument_insertAt {text inserted : List Char} {document : Document} {node : Node}
    {others rest : List Node} {offset : Nat} (hread : readDocument text = .ok document)
    (hreplaces : Replaces node others document.nodes rest)
    (hinsertion : ∀ read piece origin distance, IsNode read piece origin →
      node = origin.shift distance →
        ∃ start, offset = distance + start ∧
          InsertionSays read start inserted piece (shapes others)) :
    ∃ edited, readDocument (insertAt offset inserted text) = .ok edited ∧
      edited.shapes = shapes rest := by
  obtain ⟨hnodes, -⟩ := readDocument_eq_ok.mp hread
  obtain ⟨inner, -, front, blank, piece, back, origin, rfl, hblank, hnode, hshift, haround⟩ :=
    hnodes.replace hreplaces
  obtain ⟨start, rfl, ahead, behind, lead, item, rfl, rfl, hpiece, hlead, hitem⟩ :=
    hinsertion _ _ _ _ hnode hshift
  have htext : insertAt (0 + (front ++ blank).length + ahead.length) inserted
      (front ++ (blank ++ (ahead ++ behind ++ back))) =
        front ++ ((blank ++ lead) ++ (item ++ back)) := by
    have hsplit : front ++ (blank ++ (ahead ++ behind ++ back)) =
        (front ++ (blank ++ ahead)) ++ (behind ++ back) := by
      simp only [List.append_assoc]
    rw [hsplit, insertAt_length (by simp [Nat.add_assoc])]
    calc front ++ (blank ++ ahead) ++ (inserted ++ (behind ++ back))
      _ = front ++ (blank ++ ((ahead ++ (inserted ++ behind)) ++ back)) := by
          simp only [List.append_assoc]
      _ = front ++ ((blank ++ lead) ++ (item ++ back)) := by
          rw [hpiece]
          simp only [List.append_assoc]
  rw [htext]
  exact (haround _ item (hblank.append hlead) hitem).readDocument

end ReverseProxy.Kdl
