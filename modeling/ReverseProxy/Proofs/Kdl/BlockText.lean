import ReverseProxy.Proofs.Kdl.NodeText

/-!
# Texts of blocks and of documents

What stands between the braces of a block, and the text of a document, is a sequence of nodes, some
of them thrown away, with blank text in front of each, and a newline or a semicolon behind each but
the last. A text is accepted exactly if it is such a sequence (`readDocument_eq_ok`).
-/

namespace ReverseProxy.Kdl

def IsClosing (nested : Bool) (next : Option Char) : Prop :=
  next = none ∨ nested = true ∧ next = some '\x7d'

def isSeparator (c : Char) : Bool := isNewline c || c = ';'

def EndsNodes (blank : List Char) (next : Option Char) : Prop :=
  ∀ offset rest, rest.head? = next →
    skipBlank true .plain offset (blank ++ rest) = .ok ⟨offset + blank.length, rest⟩

/-- A node that is kept, or one that is thrown away. -/
inductive IsItem (read : BlockReader) : List Char → List Node → Prop
  | node {text : List Char} {node : Node} (hnode : IsNode read text node) : IsItem read text [node]
  | skipped {gap text : List Char} {node : Node} (hgap : IsBlank true gap)
      (hnode : IsNode read text node) : IsItem read ('/' :: '-' :: (gap ++ text)) []

/-- Nodes that begin that many characters after the place their spans are said from, up to the
character `next`. -/
inductive IsNodes (read : BlockReader) (next : Option Char) :
    Nat → List Char → List Node → Prop
  | nil {base : Nat} {blank : List Char} (hblank : EndsNodes blank next) :
      IsNodes read next base blank []
  | last {base : Nat} {blank text close : List Char} {nodes : List Node}
      (hblank : IsBlank true blank) (hitem : IsItem read text nodes)
        (hclose : EndsNode close next) :
      IsNodes read next base (blank ++ (text ++ close))
        (nodes.map (Node.shift (base + blank.length)))
  | item {base : Nat} {blank text close rest : List Char} {c : Char} {nodes more : List Node}
      (hblank : IsBlank true blank) (hitem : IsItem read text nodes)
      (hclose : EndsNode close (some c)) (hseparator : isSeparator c = true)
      (hrest : IsNodes read next (base + blank.length + text.length + close.length + 1) rest more) :
      IsNodes read next base (blank ++ (text ++ (close ++ c :: rest)))
        (nodes.map (Node.shift (base + blank.length)) ++ more)

section Reading

variable {read : BlockReader} {nested : Bool}

theorem length_skipped (start : Nat) (gap text : List Char) :
    start + ('/' :: '-' :: (gap ++ text)).length = start + 2 + gap.length + text.length := by
  simp only [List.length_cons, List.length_append]
  omega

section Behind

variable {start : Nat} {blank gap text rest : List Char}
  (hstarts : ∃ c more, text = c :: more ∧ startsElement c = true)

include hstarts

theorem nodesFrom_kept (hread : read.Advances) (hblank : IsBlank true blank) :
    nodesFrom read nested ⟨start, blank ++ (text ++ rest)⟩ = (do
      let (node, after) ← readNode read ⟨start + blank.length, text ++ rest⟩
      let (nodes, stop) ← nodesFrom read nested after
      return (node :: nodes, stop)) := by
  obtain ⟨c, more, rfl, hstarts⟩ := hstarts
  exact nodesFrom_node hread (hblank.skip_element (.inl hstarts) start) rfl
    (ne_of_startsElement hstarts (by decide)) (ne_of_startsElement hstarts (by decide))

/-- A node behind a slashdash is read like any other and then left out. -/
theorem nodesFrom_skipped (hread : read.Advances) (hblank : IsBlank true blank)
    (hgap : IsBlank true gap) :
    nodesFrom read nested ⟨start, blank ++ ('/' :: '-' :: (gap ++ text) ++ rest)⟩ = (do
      let (_, after) ← readNode read ⟨start + blank.length + 2 + gap.length, text ++ rest⟩
      nodesFrom read nested after) := by
  obtain ⟨c, more, rfl, hstarts⟩ := hstarts
  have hnext : Cursor.nodeBlank ⟨start, blank ++ ('/' :: '-' :: (gap ++ c :: more) ++ rest)⟩ =
      .ok ⟨start + blank.length, '/' :: '-' :: (gap ++ (c :: more ++ rest))⟩ := by
    rw [← hblank.skip_slashdash start]
    simp [Cursor.nodeBlank]
  have hstart : Cursor.nodeBlank ⟨start + blank.length + 2, gap ++ (c :: more ++ rest)⟩ =
      .ok ⟨start + blank.length + 2 + gap.length, c :: more ++ rest⟩ :=
    hgap.skip_element (.inl hstarts) _
  rw [nodesFrom_slashdash hread hnext rfl, hstart, ok_bind]

end Behind

/-- An item is read with the nodes behind it, to which it contributes its own. -/
theorem IsItem.nodesFrom {start : Nat} {blank text rest : List Char} {nodes : List Node}
    {stop : Cursor} (hitem : IsItem read text nodes) (hread : read.Advances)
    (hblank : IsBlank true blank)
    (hends : EndsNodeAt ⟨start + blank.length + text.length, rest⟩ stop) :
    nodesFrom read nested ⟨start, blank ++ (text ++ rest)⟩ = (do
      let (more, last) ← nodesFrom read nested (skipSemicolon stop)
      return (nodes.map (Node.shift (start + blank.length)) ++ more, last)) := by
  cases hitem with
  | node hnode =>
      rw [nodesFrom_kept hnode.head hread hblank, hnode.readNode hread hends]
      rfl
  | @skipped gap text node hgap hnode =>
      rw [length_skipped] at hends
      rw [nodesFrom_skipped hnode.head hread hblank hgap, hnode.readNode hread hends, ok_bind]
      simp only [List.map_nil, List.nil_append]
      cases Kdl.nodesFrom read nested (skipSemicolon stop) <;> rfl

theorem IsClosing.cases {rest : List Char} (hclosing : IsClosing nested rest.head?) :
    rest = [] ∨ nested = true ∧ ∃ more, rest = '\x7d' :: more := by
  rcases hclosing with hnil | ⟨hnested, hclose⟩
  · exact .inl (List.head?_eq_none_iff.mp hnil)
  · exact .inr ⟨hnested, List.head?_eq_some_iff.mp hclose⟩

theorem nodesFrom_closing {offset : Nat} {rest : List Char}
    (hclosing : IsClosing nested rest.head?) :
    nodesFrom read nested ⟨offset, rest⟩ = .ok ([], ⟨offset, rest⟩) := by
  obtain rfl | ⟨rfl, more, rfl⟩ := hclosing.cases
  · rfl
  · rfl

theorem skipSemicolon_of_head {cursor : Cursor} (hhead : cursor.rest.head? ≠ some ';') :
    skipSemicolon cursor = cursor := by
  unfold skipSemicolon
  split
  · next hrest => simp [hrest] at hhead
  · rfl

/-- The semicolon that ends a node and the newline that does so are both nothing to the nodes behind
it. -/
theorem nodesFrom_separator {offset : Nat} {c : Char} {rest : List Char} (hread : read.Advances)
    (hseparator : isSeparator c = true) :
    nodesFrom read nested (skipSemicolon ⟨offset, c :: rest⟩) =
      nodesFrom read nested ⟨offset + 1, rest⟩ := by
  by_cases hsemicolon : c = ';'
  · subst hsemicolon
    rfl
  · rw [skipSemicolon_of_head (by simpa using hsemicolon)]
    refine nodesFrom_congr hread (skipBlank_blank ?_)
    rw [Bool.true_and]
    exact Bool.or_eq_true_iff.mpr (.inr hseparator)

/-- Nodes are read as they are, shifted to where their text begins. -/
theorem IsNodes.nodesFrom {next : Option Char} {base offset start : Nat} {text rest : List Char}
    {nodes : List Node} (hnodes : IsNodes read next base text nodes) (hread : read.Advances)
    (hclosing : IsClosing nested next) (hstart : start = base + offset)
    (hrest : rest.head? = next) :
    nodesFrom read nested ⟨start, text ++ rest⟩ =
      .ok (nodes.map (Node.shift offset), ⟨start + text.length, rest⟩) := by
  have hend : IsClosing nested rest.head? := hrest ▸ hclosing
  -- Nodes do not end at a semicolon, so that none is skipped behind the last one.
  have hclosed : ∀ offset, skipSemicolon ⟨offset, rest⟩ = ⟨offset, rest⟩ := by
    intro offset
    obtain rfl | ⟨-, more, rfl⟩ := hend.cases <;> rfl
  have hmoved {base start : Nat} {blank : List Char} {nodes : List Node}
      (hstart : start = base + offset) :
      (nodes.map (Node.shift (base + blank.length))).map (Node.shift offset) =
        nodes.map (Node.shift (start + blank.length)) := by
    have hshift : base + blank.length + offset = start + blank.length := by omega
    simp only [List.map_map, Function.comp_def, Node.shift_shift, hshift]
  induction hnodes generalizing start with
  | @nil base blank hblank =>
      have hskip : Cursor.nodeBlank ⟨start, blank ++ rest⟩ =
          Cursor.nodeBlank ⟨start + blank.length, rest⟩ := by
        rw [Cursor.nodeBlank, hblank start rest hrest]
        obtain rfl | ⟨-, more, rfl⟩ := hend.cases <;> rfl
      rw [nodesFrom_congr hread hskip, nodesFrom_closing hend, List.map_nil]
  | @last base blank text close nodes hblank hitem hclose =>
      have hends := hclose (start + blank.length + text.length) rest hrest
      have hlength : start + blank.length + text.length + close.length =
          start + (blank ++ (text ++ close)).length := by
        simp only [List.length_append]
        omega
      rw [List.append_assoc, List.append_assoc, hitem.nodesFrom hread hblank hends, hclosed,
        nodesFrom_closing hend, ok_bind, hmoved hstart]
      simp only [List.append_nil, pure_eq_ok, hlength]
  | @item base blank text close tail c nodes more hblank hitem hclose hseparator hmore ih =>
      have hends := hclose (start + blank.length + text.length) (c :: (tail ++ rest)) rfl
      have hafter := @ih (start + blank.length + text.length + close.length + 1) (by omega)
      have htext : blank ++ (text ++ (close ++ c :: tail)) ++ rest =
          blank ++ (text ++ (close ++ c :: (tail ++ rest))) := by
        simp only [List.append_assoc, List.cons_append]
      have hlength : start + blank.length + text.length + close.length + 1 + tail.length =
          start + (blank ++ (text ++ (close ++ c :: tail))).length := by
        simp only [List.length_append, List.length_cons]
        omega
      rw [htext, hitem.nodesFrom hread hblank hends, nodesFrom_separator hread hseparator, hafter,
        ok_bind, List.map_append, hmoved hstart, hlength]
      rfl

/-- After a node either the nodes end, or the next ones come behind a separator. -/
theorem nodesFrom_behind {behind stop : Cursor} {nodes : List Node} (hread : read.Advances)
    (hends : endsNode behind.rest = true)
    (hnodes : nodesFrom read nested (skipSemicolon behind) = .ok (nodes, stop)) :
    (nodes = [] ∧ stop = behind ∧ IsClosing nested behind.rest.head?) ∨
      ∃ c rest, behind.rest = c :: rest ∧ isSeparator c = true ∧
        nodesFrom read nested ⟨behind.offset + 1, rest⟩ = .ok (nodes, stop) := by
  obtain ⟨offset, _ | ⟨c, rest⟩⟩ := behind
  · cases hnodes
    exact .inl ⟨rfl, rfl, .inl rfl⟩
  · by_cases hseparator : isSeparator c = true
    · rw [nodesFrom_separator hread hseparator] at hnodes
      exact .inr ⟨c, rest, rfl, hseparator, hnodes⟩
    · have hclose : c = '\x7d' := by
        simp only [endsNode, Bool.or_eq_true, decide_eq_true_eq] at hends
        rcases hends with hends | hclose
        · exact absurd (by simpa [isSeparator] using hends) hseparator
        · exact hclose
      subst hclose
      cases nested with
      | false => cases hnodes
      | true =>
          cases hnodes
          exact .inl ⟨rfl, rfl, .inr ⟨rfl, rfl⟩⟩

theorem endsNodes_takes {start next : Cursor} (hnext : start.nodeBlank = .ok next)
    (hclosing : IsClosing nested next.rest.head?) :
    ∃ blank, start.Takes blank next ∧ EndsNodes blank next.rest.head? := by
  obtain ⟨blank, hblank, -, hpass⟩ := skipBlank_passes hnext
  refine ⟨blank, hblank, fun offset rest hhead => ?_⟩
  have hstops : StopsBlank true rest := by
    rw [← hhead] at hclosing
    obtain rfl | ⟨-, more, rfl⟩ := hclosing.cases
    · exact stopsBlank_nil true
    · exact stopsBlank_mark more (.inr (.inr rfl))
  refine (hpass 0 offset rest (fun hnil => ?_) fun hfeed => hhead ▸ hfeed).trans (hstops _)
  rw [hnil] at hhead
  exact List.head?_eq_none_iff.mp hhead

/-- Between the cursors stand these nodes, with their spans as the whole text counts them. -/
def TakesNodes (read : BlockReader) (nested : Bool) (base offset : Nat) (start stop : Cursor)
    (nodes : List Node) : Prop :=
  ∃ text origins, start.Takes text stop ∧ IsNodes read stop.rest.head? base text origins ∧
    nodes = origins.map (Node.shift offset) ∧ IsClosing nested stop.rest.head?

namespace TakesNodes

variable {base offset : Nat} {start next middle behind stop : Cursor} {blank text : List Char}
  {items more : List Node}

theorem last (hstart : start.offset = base + offset) (hblank : start.Takes blank next)
    (isblank : IsBlank true blank) (htext : next.Takes text middle) (hitem : IsItem read text items)
    (hends : EndsNodeAt middle behind) (hclosing : IsClosing nested behind.rest.head?) :
    TakesNodes read nested base offset start behind (items.map (Node.shift next.offset)) := by
  obtain ⟨close, hclose, isclose⟩ := hends.takes
  have hshift := hblank.offset_from hstart
  refine ⟨_, _, hblank.trans (htext.trans hclose), .last isblank hitem isclose, ?_, hclosing⟩
  simp only [List.map_map, Function.comp_def, Node.shift_shift, hshift]

theorem item {c : Char} {rest : List Char} (hstart : start.offset = base + offset)
    (hblank : start.Takes blank next) (isblank : IsBlank true blank)
    (htext : next.Takes text middle) (hitem : IsItem read text items)
    (hends : EndsNodeAt middle behind) (hrest : behind.rest = c :: rest)
    (hseparator : isSeparator c = true)
    (hmore : ∀ base, behind.offset + 1 = base + offset →
      TakesNodes read nested base offset ⟨behind.offset + 1, rest⟩ stop more) :
    TakesNodes read nested base offset start stop (items.map (Node.shift next.offset) ++ more) := by
  obtain ⟨close, hclose, isclose⟩ := hends.takes
  have hall := hblank.trans (htext.trans hclose)
  have hshift := hblank.offset_from hstart
  have hafter : behind.offset + 1 =
      base + blank.length + text.length + close.length + 1 + offset := by
    rw [hall.2, hstart]
    simp only [List.length_append]
    omega
  obtain ⟨others, origins, hothers, isnodes, rfl, hclosing⟩ := hmore _ hafter
  rw [hrest] at isclose
  have hmark : behind.Takes [c] ⟨behind.offset + 1, rest⟩ := ⟨hrest, rfl⟩
  refine ⟨_, _, ?_, .item isblank hitem isclose hseparator isnodes, ?_, hclosing⟩
  · have hwhole := (hall.trans hmark).trans hothers
    simpa only [List.append_assoc, List.cons_append, List.nil_append] using hwhole
  · simp only [List.map_append, List.map_map, Function.comp_def, Node.shift_shift, hshift]

end TakesNodes

/-- What is read as the nodes of a block or of a document are such nodes. -/
theorem nodesFrom_takes (hread : read.Advances) (hlocal : read.IsLocal) {base offset : Nat}
    {start stop : Cursor} {nodes : List Node} (hstart : start.offset = base + offset)
    (hnodes : nodesFrom read nested start = .ok (nodes, stop)) :
    TakesNodes read nested base offset start stop nodes := by
  -- Every node is shorter than what is left of the text.
  induction hlength : start.rest.length using Nat.strong_induction_on
    generalizing start base nodes with
  | _ length ih =>
    subst hlength
    rw [nodesFrom, readNodes] at hnodes
    obtain ⟨next, hnext, hnodes⟩ := bind_eq_ok.mp hnodes
    -- What comes behind an item, whether it is kept or thrown away.
    have hitems {blank text : List Char} {items more : List Node} {middle behind : Cursor}
        (hblank : start.Takes blank next) (isblank : IsBlank true blank)
        (htext : next.Takes text middle) (hitem : IsItem read text items)
        (hends : EndsNodeAt middle behind) (hne : text ≠ [])
        (hmore : readNodes read nested start.rest.length (skipSemicolon behind) =
          .ok (more, stop)) :
        TakesNodes read nested base offset start stop
          (items.map (Node.shift next.offset) ++ more) := by
      obtain ⟨close, hclose, -⟩ := hends.takes
      have hpass : start.Passes behind :=
        (hblank.trans (htext.trans hclose)).passes (by simp [hne])
      have hbehind := hpass.of_reaches (skipSemicolon_reaches behind)
      rw [readNodes_eq hread hbehind.length_lt] at hmore
      obtain ⟨rfl, rfl, hclosing⟩ | ⟨c, rest, hrest, hseparator, hmore⟩ :=
        nodesFrom_behind hread hends.endsNode hmore
      · rw [List.append_nil]
        exact .last hstart hblank isblank htext hitem hends hclosing
      · have hmark : behind.Takes [c] ⟨behind.offset + 1, rest⟩ := ⟨hrest, rfl⟩
        have hlt := (hpass.of_reaches hmark.reaches).length_lt
        exact .item hstart hblank isblank htext hitem hends hrest hseparator
          fun _ hbase => ih _ hlt hbase hmore rfl
    have hend (hclosing : IsClosing nested next.rest.head?) :
        TakesNodes read nested base offset start next [] := by
      obtain ⟨blank, hblank, isblank⟩ := endsNodes_takes hnext hclosing
      exact ⟨blank, [], hblank, .nil isblank, rfl, hclosing⟩
    split at hnodes
    · next hrest =>
      cases hnodes
      exact hend (.inl (by rw [hrest]; rfl))
    · next rest hrest =>
      split at hnodes
      · next hnested =>
        cases hnodes
        exact hend (.inr ⟨hnested, by rw [hrest]; rfl⟩)
      · cases hnodes
    · next rest hrest =>
      obtain ⟨element, helement, hnodes⟩ := bind_eq_ok.mp hnodes
      obtain ⟨⟨node, after⟩, hnode, hnodes⟩ := bind_eq_ok.mp hnodes
      obtain ⟨text, origin, middle, behind, htext, isnode, hends, rfl, rfl⟩ :=
        readNode_takes hread hlocal hnode
      obtain ⟨c, others, rfl, -⟩ := isnode.head
      obtain ⟨blank, hblank, isblank⟩ := isBlank_of_skipBlank hnext (by simp [hrest])
      obtain ⟨gap, hgap, isgap⟩ := isBlank_of_skipBlank helement (by simp [htext.1])
      have hmark : next.Takes ['/', '-'] ⟨next.offset + 2, rest⟩ := ⟨hrest, rfl⟩
      have hskipped : next.Takes ('/' :: '-' :: (gap ++ c :: others)) middle :=
        hmark.trans (hgap.trans htext)
      exact hitems hblank isblank hskipped (.skipped isgap isnode) hends (by simp) hnodes
    · obtain ⟨⟨node, after⟩, hnode, hnodes⟩ := bind_eq_ok.mp hnodes
      obtain ⟨⟨more, last⟩, hmore, hfound⟩ := bind_eq_ok.mp hnodes
      cases hfound
      obtain ⟨text, origin, middle, behind, htext, isnode, hends, rfl, rfl⟩ :=
        readNode_takes hread hlocal hnode
      obtain ⟨c, others, rfl, -⟩ := isnode.head
      obtain ⟨blank, hblank, isblank⟩ := isBlank_of_skipBlank hnext (by simp [htext.1])
      exact hitems hblank isblank htext (.node isnode) hends (by simp) hmore

end Reading

theorem IsItem.mono {read wider : BlockReader} {text : List Char} {nodes : List Node}
    (hitem : IsItem read text nodes) (hwider : read.Within wider) : IsItem wider text nodes := by
  cases hitem with
  | node hnode => exact .node (hnode.mono hwider)
  | skipped hgap hnode => exact .skipped hgap (hnode.mono hwider)

/-- A reader that opens more blocks finds the same nodes. -/
theorem IsNodes.mono {read wider : BlockReader} {next : Option Char} {base : Nat}
    {text : List Char} {nodes : List Node} (hnodes : IsNodes read next base text nodes)
    (hwider : read.Within wider) : IsNodes wider next base text nodes := by
  induction hnodes with
  | nil hblank => exact .nil hblank
  | last hblank hitem hclose => exact .last hblank (hitem.mono hwider) hclose
  | item hblank hitem hclose hseparator _ ih =>
      exact .item hblank (hitem.mono hwider) hclose hseparator ih

/-- The spans of nodes count from wherever one likes. -/
theorem IsNodes.shift {read : BlockReader} {next : Option Char} {base : Nat} {text : List Char}
    {nodes : List Node} (hnodes : IsNodes read next base text nodes) (distance : Nat) :
    IsNodes read next (base + distance) text (nodes.map (Node.shift distance)) := by
  have hmoved (base : Nat) (blank : List Char) (nodes : List Node) :
      (nodes.map (Node.shift (base + blank.length))).map (Node.shift distance) =
        nodes.map (Node.shift (base + distance + blank.length)) := by
    have hshift : base + blank.length + distance = base + distance + blank.length := by omega
    simp only [List.map_map, Function.comp_def, Node.shift_shift, hshift]
  induction hnodes with
  | nil hblank => exact .nil hblank
  | last hblank hitem hclose =>
      rw [hmoved]
      exact .last hblank hitem hclose
  | @item base blank text close _ _ _ _ hblank hitem hclose hseparator _ ih =>
      have hbase : base + blank.length + text.length + close.length + 1 + distance =
          base + distance + blank.length + text.length + close.length + 1 := by omega
      rw [hbase] at ih
      rw [List.map_append, hmoved]
      exact .item hblank hitem hclose hseparator ih

/-- Nodes in braces are a block of one level more. -/
theorem IsNodes.isBlock {depth : Nat} {inside : List Char} {nodes : List Node}
    (hnodes : IsNodes (readBlock depth) (some '\x7d') 1 inside nodes) :
    IsBlock (readBlock (depth + 1)) ('\x7b' :: (inside ++ ['\x7d']))
      ⟨nodes, ⟨0, ('\x7b' :: (inside ++ ['\x7d'])).length⟩⟩ where
  head := ⟨_, rfl⟩
  span_eq := rfl
  reads offset rest := by
    have hinside : Kdl.nodesFrom (readBlock depth) true ⟨offset + 1, inside ++ '\x7d' :: rest⟩ =
        .ok (nodes.map (Node.shift offset), ⟨offset + 1 + inside.length, '\x7d' :: rest⟩) :=
      hnodes.nodesFrom (readBlock_advances depth) (.inr ⟨rfl, rfl⟩) (Nat.add_comm offset 1) rfl
    have htext : '\x7b' :: (inside ++ ['\x7d']) ++ rest = '\x7b' :: (inside ++ '\x7d' :: rest) := by
      simp only [List.cons_append, List.append_assoc, List.nil_append]
    have hlength : offset + ('\x7b' :: (inside ++ ['\x7d'])).length =
        offset + 1 + inside.length + 1 := by
      simp only [List.length_cons, List.length_append, List.length_nil]
      omega
    rw [htext, readBlock, hlength]
    change Kdl.nodesFrom (readBlock depth) true ⟨offset + 1, inside ++ '\x7d' :: rest⟩ >>= _ = _
    rw [hinside]
    simp only [ok_bind, pure_eq_ok, Block.shift, shiftNodes_eq_map, Cursor.spanTo, Span.shift,
      Nat.zero_add, ← hlength, Nat.add_sub_cancel_left]

/-- A block that is read is nodes in braces. -/
theorem readBlock_takes {depth : Nat} {start stop : Cursor} {block : Block Node}
    (hlocal : BlockReader.IsLocal (readBlock depth)) (hopen : start.rest.head? = some '\x7b')
    (hread : readBlock (depth + 1) start = .ok (block, stop)) :
    ∃ inside nodes, start.Takes ('\x7b' :: (inside ++ ['\x7d'])) stop ∧
      IsNodes (readBlock depth) (some '\x7d') 1 inside nodes ∧
      block = Block.shift start.offset ⟨nodes, ⟨0, ('\x7b' :: (inside ++ ['\x7d'])).length⟩⟩ := by
  obtain ⟨offset, chars⟩ := start
  obtain ⟨chars, rfl⟩ := List.head?_eq_some_iff.mp hopen
  obtain ⟨⟨found, last⟩, hnodes, hread⟩ := bind_eq_ok.mp hread
  obtain ⟨inside, nodes, htakes, isnodes, rfl, -⟩ :=
    nodesFrom_takes (readBlock_advances depth) hlocal
      (show (⟨offset + 1, chars⟩ : Cursor).offset = 1 + offset from Nat.add_comm offset 1) hnodes
  dsimp only at hread
  split at hread
  · next rest hrest =>
    cases hread
    have hclose : last.Takes ['\x7d'] ⟨last.offset + 1, rest⟩ := ⟨hrest, rfl⟩
    have hall := (htakes.trans hclose).cons '\x7b'
    rw [hrest] at isnodes
    refine ⟨inside, nodes, hall, isnodes, ?_⟩
    rw [hall.spanTo_eq, Block.shift, shiftNodes_eq_map]
  · cases hread

/-- The reader of blocks reads no further than the block, wherever it stands. -/
theorem readBlock_isLocal (depth : Nat) : BlockReader.IsLocal (readBlock depth) := by
  induction depth with
  | zero =>
      intro start block stop _ hread
      cases hread
  | succ depth ih =>
      intro start block stop hopen hread
      obtain ⟨inside, nodes, htakes, hnodes, hblock⟩ := readBlock_takes ih hopen hread
      exact ⟨_, _, htakes, hnodes.isBlock, hblock⟩

/-- A higher limit on the levels of blocks accepts no block in another way. -/
theorem readBlock_within (depth : Nat) :
    BlockReader.Within (readBlock depth) (readBlock (depth + 1)) := by
  induction depth with
  | zero =>
      intro start found hread
      cases hread
  | succ depth ih =>
      intro start ⟨block, stop⟩ hread
      obtain ⟨⟨nodes, last⟩, hnodes, hread⟩ := bind_eq_ok.mp hread
      obtain ⟨text, origins, htakes, isnodes, rfl, hclosing⟩ :=
        nodesFrom_takes (readBlock_advances depth) (readBlock_isLocal depth)
          (Nat.zero_add (start.skip 1).offset).symm hnodes
      have hwider := (isnodes.mono ih).nodesFrom (readBlock_advances (depth + 1)) hclosing
        (Nat.zero_add (start.skip 1).offset).symm rfl
      rw [← htakes.1, ← htakes.2] at hwider
      rw [readBlock]
      change nodesFrom (readBlock (depth + 1)) true (start.skip 1) >>= _ = _
      rw [hwider]
      exact hread

/-- A higher limit on the depth changes nothing about what is read below the lower one. -/
theorem readBlock_mono {depth more : Nat} (hle : depth ≤ more) :
    BlockReader.Within (readBlock depth) (readBlock more) := by
  induction hle with
  | refl => exact fun _ _ hread => hread
  | step _ ih =>
    exact fun start found hread => readBlock_within _ start found (ih start found hread)

/-- The nodes of a block that one of these readers reads. -/
theorem IsBlock.inside {depth : Nat} {text : List Char} {block : Block Node}
    (hblock : IsBlock (readBlock depth) text block) :
    ∃ fewer inside, depth = fewer + 1 ∧ text = '\x7b' :: (inside ++ ['\x7d']) ∧
      IsNodes (readBlock fewer) (some '\x7d') 1 inside block.nodes := by
  have hread := hblock.reads 0 []
  obtain ⟨rest, htext⟩ := hblock.head
  cases depth with
  | zero => cases hread
  | succ depth =>
      obtain ⟨inside, nodes, htakes, isnodes, hsame⟩ :=
        readBlock_takes (readBlock_isLocal depth) (by simp [htext]) hread
      rw [Block.shift_zero, Block.shift_zero] at hsame
      have hwhole : text = '\x7b' :: (inside ++ ['\x7d']) := by
        simpa using htakes.1
      subst hsame
      exact ⟨depth, inside, rfl, hwhole, isnodes⟩

/-- A whole text of which this many blocks may stand inside each other is read if it is nodes in a
row. -/
theorem nodesFrom_ofText {depth : Nat} {text : List Char} {nodes : List Node} :
    (∃ stop, nodesFrom (readBlock depth) false (Cursor.ofText text) = .ok (nodes, stop)) ↔
      IsNodes (readBlock depth) none 0 text nodes := by
  constructor
  · rintro ⟨stop, hnodes⟩
    obtain ⟨inside, origins, htakes, isnodes, rfl, hclosing⟩ :=
      nodesFrom_takes (readBlock_advances depth) (readBlock_isLocal depth)
        (show (Cursor.ofText text).offset = 0 + 0 from rfl) hnodes
    have hnil : stop.rest = [] := by
      obtain hnil | ⟨hnested, -⟩ := hclosing.cases
      · exact hnil
      · cases hnested
    have hwhole : text = inside := by
      simpa [Cursor.ofText, hnil] using htakes.1
    subst hwhole
    rw [hnil] at isnodes
    rwa [map_shift_zero]
  · intro hnodes
    have hread : nodesFrom (readBlock depth) false ⟨0, text ++ []⟩ =
        .ok (nodes.map (Node.shift 0), ⟨0 + text.length, []⟩) :=
      hnodes.nodesFrom (readBlock_advances depth) (.inl rfl) rfl rfl
    rw [List.append_nil, map_shift_zero] at hread
    exact ⟨_, hread⟩

/-- The texts of documents are nodes in a row. -/
theorem readDocument_eq_ok {text : List Char} {document : Document} :
    readDocument text = .ok document ↔
      IsNodes (readBlock maxDepth) none 0 text document.nodes ∧
        document.span = ⟨0, text.length⟩ := by
  rw [← nodesFrom_ofText]
  constructor
  · intro hread
    obtain ⟨⟨nodes, stop⟩, hnodes, hfound⟩ := bind_eq_ok.mp hread
    cases hfound
    exact ⟨⟨stop, hnodes⟩, rfl⟩
  · rintro ⟨⟨stop, hnodes⟩, hspan⟩
    rw [readDocument]
    change nodesFrom (readBlock maxDepth) false (Cursor.ofText text) >>= _ = _
    rw [hnodes, ← hspan]
    rfl

end ReverseProxy.Kdl
