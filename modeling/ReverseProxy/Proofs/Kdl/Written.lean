import ReverseProxy.Proofs.Kdl.Blanks
import ReverseProxy.Proofs.Kdl.Values

/-!
# Nodes as they are written

The form of written nodes: a name, entries with a space before each, possibly a block whose closing
brace ends the node, and a line feed. Lines of comment may stand between nodes. Such a text is read
as the nodes it was written for, whatever follows it, and also where the text ends in front of its
last line feed. A fault in it stops the reader whatever follows as well.
-/

namespace ReverseProxy.Kdl

/-- The text of nodes with at most `depth` blocks inside each other, and what the nodes say. -/
inductive SpellsNodes : Nat → List Char → List Shape → Prop
  | nil {depth : Nat} : SpellsNodes depth [] []
  | blank {depth : Nat} {c : Char} {text : List Char} {shapes : List Shape}
      (hblank : c = ' ' ∨ c = '\n') (hnodes : SpellsNodes depth text shapes) :
      SpellsNodes depth (c :: text) shapes
  | comment {depth : Nat} {comment text : List Char} {shapes : List Shape}
      (hcomment : ∀ c ∈ comment, isNewline c = false ∧ c ≠ '\t')
      (hnodes : SpellsNodes depth text shapes) :
      SpellsNodes depth ('/' :: '/' :: (comment ++ '\n' :: text)) shapes
  | leaf {depth : Nat} {name entries rest : List Char} {title : String} {data : List Datum}
      {shapes : List Shape} (hname : SpellsName name title) (hdata : SpellsData entries data)
      (hrest : SpellsNodes depth rest shapes) :
      SpellsNodes depth (name ++ (entries ++ '\n' :: rest)) (.mk title data none :: shapes)
  | block {depth : Nat} {name entries inside rest : List Char} {title : String} {data : List Datum}
      {below shapes : List Shape} (hname : SpellsName name title)
      (hdata : SpellsData entries data) (hinside : SpellsNodes depth inside below)
      (hrest : SpellsNodes (depth + 1) rest shapes) :
      SpellsNodes (depth + 1)
        (name ++ (entries ++ ' ' :: '\x7b' :: (inside ++ '\x7d' :: '\n' :: rest)))
        (.mk title data (some below) :: shapes)

/-- Nodes behind nodes. -/
theorem SpellsNodes.append {depth : Nat} {text more : List Char} {shapes others : List Shape}
    (hnodes : SpellsNodes depth text shapes) (hmore : SpellsNodes depth more others) :
    SpellsNodes depth (text ++ more) (shapes ++ others) := by
  induction hnodes with
  | nil => exact hmore
  | blank hblank _ ih => exact .blank hblank (ih hmore)
  | comment hcomment _ ih =>
      rw [List.cons_append, List.cons_append, List.append_assoc, List.cons_append]
      exact .comment hcomment (ih hmore)
  | leaf hname hdata _ ih =>
      rw [List.append_assoc, List.append_assoc, List.cons_append, List.cons_append]
      exact .leaf hname hdata (ih hmore)
  | block hname hdata hinside _ _ ih =>
      rw [List.append_assoc, List.append_assoc, List.cons_append, List.cons_append,
        List.append_assoc, List.cons_append, List.cons_append, List.cons_append]
      exact .block hname hdata hinside (ih hmore)

def StopsLine (rest : List Char) : Prop := ∀ c ∈ rest.head?, c = '\n'

theorem stopsLine_nil : StopsLine [] := nofun

theorem stopsLine_feed (rest : List Char) : StopsLine ('\n' :: rest) := by
  rintro c ⟨⟩
  rfl

section StopsLine

variable {rest : List Char} (hstop : StopsLine rest)

include hstop

theorem StopsLine.cases : rest = [] ∨ ∃ more, rest = '\n' :: more := by
  cases rest with
  | nil => exact .inl rfl
  | cons c more => exact .inr ⟨more, by rw [hstop c rfl]⟩

theorem StopsLine.stopsEntry : StopsEntry rest := fun c hc => .inr (hstop c hc)

theorem StopsLine.inlineBlank {offset : Nat} :
    Cursor.inlineBlank ⟨offset, rest⟩ = .ok ⟨offset, rest⟩ := by
  rcases hstop.cases with rfl | ⟨more, rfl⟩ <;> rfl

theorem StopsLine.endsNode : endsNode rest = true := by
  rcases hstop.cases with rfl | ⟨more, rfl⟩ <;> rfl

theorem StopsLine.skipSemicolon {offset : Nat} :
    skipSemicolon ⟨offset, rest⟩ = ⟨offset, rest⟩ := by
  rcases hstop.cases with rfl | ⟨more, rfl⟩ <;> rfl

end StopsLine

section Node

variable {read : BlockReader} (hblock : read.Advances)

include hblock

/-- The name and the entries of a written node are read, and then what follows them. -/
theorem readNode_spelled {name entries rest : List Char} {title : String} {data : List Datum}
    (hname : SpellsName name title) (hdata : SpellsData entries data) (hstop : StopsEntry rest)
    (offset : Nat) :
    ∃ nameSpan found last, found.map Entry.datum = data ∧
      readNode read ⟨offset, name ++ (entries ++ rest)⟩ = (do
        let (tail, stop) ← tailFrom read ⟨offset + name.length + entries.length, rest⟩ last
        return ({ name := title, nameSpan, span := ⟨offset, tail.finish - offset⟩
                  entries := found ++ tail.entries, children := tail.children },
          skipSemicolon stop)) := by
  have hword : StopsWord (entries ++ rest) := (hdata.stopsEntry hstop).stopsWord
  obtain ⟨found, last, hfound, htail⟩ :=
    tailFrom_spelled hblock hdata hstop (offset + name.length) (offset + name.length)
  refine ⟨Cursor.spanTo ⟨offset, name ++ (entries ++ rest)⟩ ⟨offset + name.length, entries ++ rest⟩,
    found, last, hfound, ?_⟩
  rw [readNode, skipType_content hname.head_content, ok_bind, readName_spelled hname hword, ok_bind]
  change (tailFrom read ⟨offset + name.length, entries ++ rest⟩ (offset + name.length) >>= _) = _
  rw [htail]
  simp only [bind_assoc, pure_eq_ok, ok_bind]

/-- A node without a block is read from its name and its entries. -/
theorem readNode_leaf {name entries rest : List Char} {title : String} {data : List Datum}
    (hname : SpellsName name title) (hdata : SpellsData entries data) (hstop : StopsLine rest)
    (offset : Nat) :
    ∃ node, readNode read ⟨offset, name ++ (entries ++ rest)⟩ =
        .ok (node, ⟨offset + name.length + entries.length, rest⟩) ∧
      node.shape = .mk title data none := by
  obtain ⟨nameSpan, found, last, hfound, hread⟩ :=
    readNode_spelled hblock hname hdata hstop.stopsEntry offset
  rw [hread, tailFrom_end hstop.inlineBlank hstop.endsNode, ok_bind]
  dsimp only
  rw [hstop.skipSemicolon]
  exact ⟨_, rfl, by rw [Node.shape_eq, List.append_nil, hfound]; rfl⟩

/-- A node with a block is read if the block is, which then ends its line. -/
theorem readNode_block {name entries rest more : List Char} {title : String} {data : List Datum}
    {offset finish : Nat} {block : Block Node} (hname : SpellsName name title)
    (hdata : SpellsData entries data) (hstop : StopsLine more)
    (hread : read ⟨offset + name.length + entries.length + 1, '\x7b' :: rest⟩ =
      .ok (block, ⟨finish, more⟩)) :
    ∃ node, readNode read ⟨offset, name ++ (entries ++ ' ' :: '\x7b' :: rest)⟩ =
        .ok (node, ⟨finish, more⟩) ∧
      node.shape = .mk title data (some block.shapes) := by
  obtain ⟨nameSpan, found, last, hfound, hnode⟩ :=
    readNode_spelled hblock hname hdata (stopsEntry_cons ('\x7b' :: rest) (.inl rfl)) offset
  have hlast : readLastBlock read ⟨offset + name.length + entries.length + 1, '\x7b' :: rest⟩ =
      .ok (⟨[], some block, finish⟩, ⟨finish, more⟩) := by
    rw [readLastBlock, hread]
    rcases hstop.cases with rfl | ⟨after, rfl⟩ <;> rfl
  rw [hnode, tailFrom_block rfl rfl, hlast, ok_bind]
  dsimp only
  rw [hstop.skipSemicolon]
  exact ⟨_, rfl, by rw [Node.shape_eq, List.append_nil, hfound]; rfl⟩

theorem nodesFrom_of_readNode {nested : Bool} {offset : Nat} {text : List Char} {node : Node}
    {after : Cursor} (hhead : ∃ c rest, text = c :: rest ∧ isContent c = true)
    (hnode : readNode read ⟨offset, text⟩ = .ok (node, after)) :
    nodesFrom read nested ⟨offset, text⟩ = (do
      let (nodes, stop) ← nodesFrom read nested after
      return (node :: nodes, stop)) := by
  obtain ⟨c, rest, rfl, hcontent⟩ := hhead
  have hnext : Cursor.nodeBlank ⟨offset, c :: rest⟩ = .ok ⟨offset, c :: rest⟩ :=
    skipBlank_content hcontent
  rw [nodesFrom_node hblock hnext rfl (ne_of_isContent hcontent (by decide))
    (ne_of_isContent hcontent (by decide)), hnode]
  rfl

end Node

/-- What stands between the braces of a block is read to the closing one. -/
theorem readBlock_inside {depth offset finish : Nat} {text rest : List Char} {nodes : List Node}
    (hinside : nodesFrom (readBlock depth) true ⟨offset + 1, text⟩ =
      .ok (nodes, ⟨finish, '\x7d' :: rest⟩)) :
    ∃ span, readBlock (depth + 1) ⟨offset, '\x7b' :: text⟩ =
      .ok (⟨nodes, span⟩, ⟨finish + 1, rest⟩) := by
  refine ⟨Cursor.spanTo ⟨offset, '\x7b' :: text⟩ ⟨finish + 1, rest⟩, ?_⟩
  rw [readBlock]
  change (nodesFrom (readBlock depth) true ⟨offset + 1, text⟩ >>= _) = _
  rw [hinside]
  rfl

section First

variable {depth : Nat} {name entries inside rest : List Char} {title : String} {data : List Datum}
  {below : List Shape}

theorem nodesFrom_leaf (depth : Nat) (hname : SpellsName name title)
    (hdata : SpellsData entries data) (hstop : StopsLine rest) (nested : Bool) (offset : Nat) :
    ∃ node : Node, node.shape = .mk title data none ∧
      nodesFrom (readBlock depth) nested ⟨offset, name ++ (entries ++ rest)⟩ = (do
        let (others, stop) ←
          nodesFrom (readBlock depth) nested ⟨offset + name.length + entries.length, rest⟩
        return (node :: others, stop)) := by
  obtain ⟨node, hnode, hshape⟩ :=
    readNode_leaf (readBlock_advances depth) hname hdata hstop offset
  exact ⟨node, hshape,
    nodesFrom_of_readNode (readBlock_advances depth) hname.head_append hnode⟩

/-- A node with a block whose inside is read in front of whatever follows it. -/
theorem nodesFrom_block (hname : SpellsName name title) (hdata : SpellsData entries data)
    (hinside : ∀ nested offset rest, ∃ found, found.map Node.shape = below ∧
      nodesFrom (readBlock depth) nested ⟨offset, inside ++ rest⟩ = (do
        let (others, stop) ← nodesFrom (readBlock depth) nested ⟨offset + inside.length, rest⟩
        return (found ++ others, stop)))
    (hstop : StopsLine rest) (nested : Bool) (offset : Nat) :
    ∃ node : Node, node.shape = .mk title data (some below) ∧
      nodesFrom (readBlock (depth + 1)) nested
          ⟨offset, name ++ (entries ++ ' ' :: '\x7b' :: (inside ++ '\x7d' :: rest))⟩ = (do
        let (others, stop) ← nodesFrom (readBlock (depth + 1)) nested
          ⟨offset + name.length + entries.length + 1 + 1 + inside.length + 1, rest⟩
        return (node :: others, stop)) := by
  obtain ⟨children, hchildren, hwithin⟩ :=
    hinside true (offset + name.length + entries.length + 1 + 1) ('\x7d' :: rest)
  simp only [nodesFrom_close, ok_bind, List.append_nil, pure_eq_ok] at hwithin
  obtain ⟨span, hblock⟩ := readBlock_inside hwithin
  obtain ⟨node, hnode, hshape⟩ :=
    readNode_block (readBlock_advances (depth + 1)) hname hdata hstop hblock
  have hbelow : Block.shapes ⟨children, span⟩ = below := (shapes_eq_map children).trans hchildren
  exact ⟨node, by rw [hshape, hbelow],
    nodesFrom_of_readNode (readBlock_advances (depth + 1)) hname.head_append hnode⟩

end First

theorem skipBlank_lineComment_append {comment : List Char}
    (hcomment : ∀ c ∈ comment, isNewline c = false) (offset : Nat) (rest : List Char) :
    skipBlank true .lineComment offset (comment ++ rest) =
      skipBlank true .lineComment (offset + comment.length) rest := by
  induction comment generalizing offset with
  | nil => rfl
  | cons c comment ih =>
      obtain ⟨hc, hothers⟩ := List.forall_mem_cons.mp hcomment
      rw [List.cons_append, skipBlank_lineComment, hc, if_neg Bool.false_ne_true, ih hothers,
        add_length_cons]

section Comment

variable {read : BlockReader} {nested : Bool} {offset : Nat} {comment : List Char}
  (hblock : read.Advances) (hcomment : ∀ c ∈ comment, isNewline c = false)

include hblock hcomment

/-- A line of comment between nodes makes no difference to them. -/
theorem nodesFrom_lineComment (rest : List Char) :
    nodesFrom read nested ⟨offset, '/' :: '/' :: (comment ++ '\n' :: rest)⟩ =
      nodesFrom read nested ⟨offset + 2 + comment.length + 1, rest⟩ := by
  refine nodesFrom_congr hblock ?_
  change skipBlank true .lineComment (offset + 2) (comment ++ '\n' :: rest) = _
  rw [skipBlank_lineComment_append hcomment]
  rfl

theorem nodesFrom_lastComment :
    nodesFrom read nested ⟨offset, '/' :: '/' :: comment⟩ =
      .ok ([], ⟨offset + 2 + comment.length, []⟩) := by
  have hskip : Cursor.nodeBlank ⟨offset, '/' :: '/' :: comment⟩ =
      Cursor.nodeBlank ⟨offset + 2 + comment.length, []⟩ := by
    have hall := skipBlank_lineComment_append hcomment (offset + 2) []
    rw [List.append_nil] at hall
    exact hall
  rw [nodesFrom_congr hblock hskip, nodesFrom_nil]

end Comment

/-- Written nodes are read in front of what follows them. -/
theorem nodesFrom_spelled {depth : Nat} {text : List Char} {shapes : List Shape}
    (hnodes : SpellsNodes depth text shapes) (nested : Bool) (offset : Nat) (rest : List Char) :
    ∃ found, found.map Node.shape = shapes ∧
      nodesFrom (readBlock depth) nested ⟨offset, text ++ rest⟩ = (do
        let (others, stop) ← nodesFrom (readBlock depth) nested ⟨offset + text.length, rest⟩
        return (found ++ others, stop)) := by
  -- What follows stays general: the nodes inside a block stand in front of its closing brace.
  induction hnodes generalizing nested offset rest with
  | nil => exact ⟨[], rfl, (bind_pure _).symm⟩
  | @blank depth c text shapes hblank hnodes ih =>
      obtain ⟨found, hfound, hread⟩ := ih nested (offset + 1) rest
      refine ⟨found, hfound, ?_⟩
      rw [List.cons_append, nodesFrom_blank (readBlock_advances depth) hblank, hread,
        add_length_cons]
  | @comment depth comment text shapes hcomment hnodes ih =>
      obtain ⟨found, hfound, hread⟩ := ih nested (offset + 2 + comment.length + 1) rest
      refine ⟨found, hfound, ?_⟩
      have hlength : offset + ('/' :: '/' :: (comment ++ '\n' :: text)).length =
          offset + 2 + comment.length + 1 + text.length := by
        simp only [List.length_append, List.length_cons]
        omega
      rw [List.cons_append, List.cons_append, List.append_assoc, List.cons_append,
        nodesFrom_lineComment (readBlock_advances depth) fun c hc => (hcomment c hc).1, hread,
        hlength]
  | @leaf depth name entries more title data shapes hname hdata hmore ih =>
      obtain ⟨node, hshape, hnode⟩ := nodesFrom_leaf depth hname hdata
        (stopsLine_feed (more ++ rest)) nested offset
      obtain ⟨found, hfound, hread⟩ := ih nested (offset + name.length + entries.length + 1) rest
      refine ⟨node :: found, by rw [List.map_cons, hshape, hfound], ?_⟩
      have hlength : offset + (name ++ (entries ++ '\n' :: more)).length =
          offset + name.length + entries.length + 1 + more.length := by
        simp only [List.length_append, List.length_cons]
        omega
      rw [List.append_assoc, List.append_assoc, List.cons_append, hnode,
        nodesFrom_blank (readBlock_advances depth) (.inr rfl), hread, hlength]
      simp only [bind_assoc, pure_eq_ok, ok_bind, List.cons_append]
  | @block depth name entries inside more title data below shapes hname hdata hinside hmore
      ihinside ihmore =>
      obtain ⟨node, hshape, hnode⟩ :=
        nodesFrom_block hname hdata ihinside (stopsLine_feed (more ++ rest)) nested offset
      obtain ⟨found, hfound, hread⟩ := ihmore nested
        (offset + name.length + entries.length + 1 + 1 + inside.length + 1 + 1) rest
      refine ⟨node :: found, by rw [List.map_cons, hshape, hfound], ?_⟩
      have hlength : offset +
          (name ++ (entries ++ ' ' :: '\x7b' :: (inside ++ '\x7d' :: '\n' :: more))).length =
            offset + name.length + entries.length + 1 + 1 + inside.length + 1 + 1 +
              more.length := by
        simp only [List.length_append, List.length_cons]
        omega
      rw [List.append_assoc, List.append_assoc, List.cons_append, List.cons_append,
        List.append_assoc, List.cons_append, List.cons_append, hnode,
        nodesFrom_blank (readBlock_advances (depth + 1)) (.inr rfl), hread, hlength]
      simp only [bind_assoc, pure_eq_ok, ok_bind, List.cons_append]

/-- A text of written nodes is a document, which says what the nodes were written for. -/
theorem readDocument_spelled {text : List Char} {shapes : List Shape}
    (hnodes : SpellsNodes maxDepth text shapes) :
    ∃ document, readDocument text = .ok document ∧ document.shapes = shapes := by
  obtain ⟨found, hfound, hread⟩ := nodesFrom_spelled hnodes false 0 []
  simp only [nodesFrom_nil, ok_bind, List.append_nil, pure_eq_ok] at hread
  refine ⟨⟨found, ⟨0, text.length⟩⟩, ?_, (shapes_eq_map found).trans hfound⟩
  change (nodesFrom (readBlock maxDepth) false ⟨0, text⟩ >>= _) = _
  rw [hread]
  rfl

/-! ### Faults

Not all that is written can be read. A fault in one place is a fault of the whole text, since what
stands in front of it is read first and nothing behind it is looked at.
-/

/-- A text that stops the reader of nodes, wherever it stands and whatever follows it. -/
def SpoilsNodes (depth : Nat) (text : List Char) : Prop :=
  ∀ nested offset rest, ∃ failure,
    nodesFrom (readBlock depth) nested ⟨offset, text ++ rest⟩ = .error failure

theorem SpoilsNodes.append {depth : Nat} {text : List Char} (hspoils : SpoilsNodes depth text)
    (more : List Char) : SpoilsNodes depth (text ++ more) := by
  intro nested offset rest
  rw [List.append_assoc]
  exact hspoils nested offset (more ++ rest)

/-- A fault behind nodes is a fault of the whole text. -/
theorem SpellsNodes.append_spoils {depth : Nat} {text more : List Char} {shapes : List Shape}
    (hnodes : SpellsNodes depth text shapes) (hspoils : SpoilsNodes depth more) :
    SpoilsNodes depth (text ++ more) := by
  intro nested offset rest
  obtain ⟨found, -, hread⟩ := nodesFrom_spelled hnodes nested offset (more ++ rest)
  obtain ⟨failure, hfailure⟩ := hspoils nested (offset + text.length) rest
  refine ⟨failure, ?_⟩
  rw [List.append_assoc, hread, hfailure]
  rfl

theorem nodesFrom_of_failure {read : BlockReader} {nested : Bool} {offset : Nat} {c : Char}
    {rest : List Char} {failure : Failure ReadProblem} (hblock : read.Advances)
    (hhead : isContent c = true ∨ c = '\x7b')
    (hnode : readNode read ⟨offset, c :: rest⟩ = .error failure) :
    nodesFrom read nested ⟨offset, c :: rest⟩ = .error failure := by
  have hnext : Cursor.nodeBlank ⟨offset, c :: rest⟩ = .ok ⟨offset, c :: rest⟩ := by
    rcases hhead with hcontent | rfl
    · exact skipBlank_content hcontent
    · rfl
  have hne {d : Char} (hmark : isContent d = false) (hopen : d ≠ '\x7b') : c ≠ d := by
    rintro rfl
    rcases hhead with hcontent | rfl
    · rw [hcontent] at hmark
      cases hmark
    · exact hopen rfl
  rw [nodesFrom_node hblock hnext rfl (hne (by decide) (by decide)) (hne (by decide) (by decide)),
    hnode]
  rfl

/-- No name starts with an equals sign or an opening brace. -/
theorem spoilsNodes_mark {depth : Nat} {c : Char} (hmark : c = '=' ∨ c = '\x7b')
    (text : List Char) : SpoilsNodes depth (c :: text) := by
  intro nested offset rest
  rcases hmark with rfl | rfl
  · exact ⟨_, nodesFrom_of_failure (readBlock_advances depth) (.inl rfl) rfl⟩
  · exact ⟨_, nodesFrom_of_failure (readBlock_advances depth) (.inr rfl) rfl⟩

/-- An equals sign right behind the name of a node has no key. -/
theorem spoilsNodes_unspaced {depth : Nat} {name : List Char} {title : String}
    (hname : SpellsName name title) (text : List Char) :
    SpoilsNodes depth (name ++ '=' :: text) := by
  intro nested offset rest
  have hstop : StopsWord ('=' :: (text ++ rest)) := stopsWord_cons _ (.inr (.inr rfl))
  have hnode : readNode (readBlock depth) ⟨offset, name ++ '=' :: (text ++ rest)⟩ =
      refuse .noSpaceBeforeEntry ⟨offset + name.length, 1⟩ := by
    rw [readNode, skipType_content hname.head_content, ok_bind, readName_spelled hname hstop,
      ok_bind]
    change tailFrom (readBlock depth) ⟨offset + name.length, '=' :: (text ++ rest)⟩
      (offset + name.length) >>= _ = _
    rw [tailFrom_unspaced (readBlock_advances depth) rfl]
    rfl
  obtain ⟨c, first, rfl, hcontent⟩ := hname.head_content
  rw [List.append_assoc, List.cons_append]
  exact ⟨_, nodesFrom_of_failure (readBlock_advances depth) (.inl hcontent) hnode⟩

/-- A fault inside a block is a fault of the text around it. -/
theorem SpoilsNodes.block {depth : Nat} {name entries inside : List Char} {title : String}
    {data : List Datum} (hname : SpellsName name title) (hdata : SpellsData entries data)
    (hspoils : SpoilsNodes depth inside) :
    SpoilsNodes (depth + 1) (name ++ (entries ++ ' ' :: '\x7b' :: inside)) := by
  intro nested offset rest
  obtain ⟨failure, hfailure⟩ :=
    hspoils true (offset + name.length + entries.length + 1 + 1) rest
  have hblock : readBlock (depth + 1)
      ⟨offset + name.length + entries.length + 1, '\x7b' :: (inside ++ rest)⟩ =
        .error failure := by
    rw [readBlock]
    change nodesFrom (readBlock depth) true
      ⟨offset + name.length + entries.length + 1 + 1, inside ++ rest⟩ >>= _ = _
    rw [hfailure]
    rfl
  obtain ⟨nameSpan, found, last, -, hnode⟩ := readNode_spelled (readBlock_advances (depth + 1))
    hname hdata (stopsEntry_cons ('\x7b' :: (inside ++ rest)) (.inl rfl)) offset
  have hlast : readLastBlock (readBlock (depth + 1))
      ⟨offset + name.length + entries.length + 1, '\x7b' :: (inside ++ rest)⟩ =
        .error failure := by
    rw [readLastBlock, hblock]
    rfl
  rw [tailFrom_block rfl rfl, hlast] at hnode
  obtain ⟨c, first, rfl, hcontent⟩ := hname.head_content
  rw [List.append_assoc, List.append_assoc, List.cons_append, List.cons_append]
  exact ⟨failure, nodesFrom_of_failure (readBlock_advances (depth + 1)) (.inl hcontent) hnode⟩

end ReverseProxy.Kdl
