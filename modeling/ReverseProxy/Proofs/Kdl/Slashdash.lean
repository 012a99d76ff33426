import ReverseProxy.Proofs.Kdl.Surroundings

/-!
# One element less

A slash and a dash in front of an element take that element out of the document and leave the rest
of it as it is: a node at any depth, an entry of it, or its block (`readDocument_slashdash`).
-/

namespace ReverseProxy.Kdl

/-- What is left in place of the node if one element of it is thrown away, which begins at that
offset. -/
inductive Node.Leaves (node : Node) : List Node → Nat → Prop
  | whole : node.Leaves [] node.span.offset
  | entry {first last : List Entry} {entry : Entry}
      (hentries : node.entries = first ++ entry :: last) :
      node.Leaves [{ node with entries := first ++ last }] entry.span.offset
  | block {block : Block Node} (hblock : node.children = some block) :
      node.Leaves [{ node with children := none }] block.span.offset

section Reading

variable {read : BlockReader} {text : List Char} {node : Node} {remains : List Node} {offset : Nat}

/-- What a shifted node leaves is what the node leaves, shifted. -/
theorem Node.Leaves.of_shift {distance : Nat}
    (hleaves : (node.shift distance).Leaves remains offset) :
    ∃ own start, node.Leaves own start ∧ offset = distance + start ∧
      remains = own.map (Node.shift distance) := by
  rcases node with ⟨name, nameSpan, span, entries, children⟩
  cases hleaves with
  | whole => exact ⟨[], _, .whole, Nat.add_comm _ _, rfl⟩
  | entry hentries =>
      rw [Node.shift_entries] at hentries
      obtain ⟨ahead, behind, hown, rfl, hbehind⟩ := List.map_eq_append_iff.mp hentries
      obtain ⟨found, later, rfl, rfl, rfl⟩ := List.map_eq_cons_iff.mp hbehind
      refine ⟨_, _, .entry hown, Nat.add_comm _ _, ?_⟩
      rw [← List.map_append]
      rfl
  | block hblock =>
      rw [Node.shift_children] at hblock
      obtain ⟨own, hown, rfl⟩ := Option.map_eq_some_iff.mp hblock
      exact ⟨_, _, .block hown, Nat.add_comm _ _, rfl⟩

/-- A slash and a dash inside of a node, or in front of it, leave the text of what remains. -/
theorem IsNode.slashdash (hnode : IsNode read text node) (hleaves : node.Leaves remains offset) :
    InsertionSays read offset ['/', '-'] text (shapes remains) := by
  cases hleaves with
  | whole =>
      have hitem : ItemSays read ([] ++ (['/', '-'] ++ text)) [] :=
        ⟨[], .skipped (isBlank_nil true) hnode, rfl⟩
      rw [hnode.span_eq]
      exact hitem.insertion
  | entry hentries =>
      obtain ⟨front, blank, piece, rest, origin, rfl, hfront, hblank, -, horigin, rfl, hrest⟩ :=
        hnode.split_entry hentries
      have hitem := hfront _ _ _ (.skipped hblank (isBlank_nil false) (.entry horigin) hrest)
      rw [horigin.span_shift, shapes, Node.shape_eq, List.map_append, ← List.append_assoc]
      rw [← List.append_assoc] at hitem
      exact hitem.insertion
  | block hblock =>
      obtain ⟨front, blank, piece, origin, rfl, hfront, hblank, horigin, rfl⟩ :=
        hnode.split_block hblock
      have hitem := hfront _ _ _ (.skipped hblank (isBlank_nil false) (.block horigin) .nil)
      rw [horigin.span_shift, shapes, Node.shape_eq, ← List.append_assoc]
      rw [List.append_nil, List.append_nil, ← List.append_assoc] at hitem
      exact hitem.insertion

end Reading

/-- **A slash and a dash throw away one element.** In front of a node at any depth, of an entry or
of a block they leave a text that is accepted, and that says the same except for that element. -/
theorem readDocument_slashdash {text : List Char} {document : Document} {node : Node}
    {remains : List Node} {offset : Nat} (hread : readDocument text = .ok document)
    (hheld : document.Holds node) (hleaves : node.Leaves remains offset) :
    (∃ rest, Replaces node remains document.nodes rest) ∧
      ∀ rest, Replaces node remains document.nodes rest →
        ∃ shorter, readDocument (insertAt offset ['/', '-'] text) = .ok shorter ∧
          shorter.shapes = shapes rest := by
  obtain ⟨top, htop, hheld⟩ := hheld
  refine ⟨hheld.replaces remains htop, fun rest hreplaces => ?_⟩
  refine readDocument_insertAt hread hreplaces ?_
  rintro read piece origin distance hnode rfl
  obtain ⟨own, start, hown, rfl, rfl⟩ := hleaves.of_shift
  rw [shapes_shift]
  exact ⟨start, rfl, hnode.slashdash hown⟩

/-- The first node of a block, the property in front of the block, and the block. -/
theorem readDocument_slashdash_each :
    let text := "a (t)k=1 \x7bb 2;c\x7d".toList
    let inner : Node := ⟨"b", ⟨10, 1⟩, ⟨10, 3⟩, [⟨none, .integer 2, ⟨12, 1⟩⟩], none⟩
    let last : Node := ⟨"c", ⟨14, 1⟩, ⟨14, 1⟩, [], none⟩
    let outer : Node :=
      ⟨"a", ⟨0, 1⟩, ⟨0, 16⟩, [⟨some "k", .integer 1, ⟨2, 6⟩⟩], some ⟨[inner, last], ⟨9, 7⟩⟩⟩
    let document : Document := ⟨[outer], ⟨0, 16⟩⟩
    readDocument text = .ok document ∧ document.Holds inner ∧
      (∃ shorter, readDocument "a (t)k=1 \x7b/-b 2;c\x7d".toList = .ok shorter ∧
        shorter.shapes = [.mk "a" [⟨some "k", .integer 1⟩] (some [last.shape])]) ∧
      (∃ shorter, readDocument "a /-(t)k=1 \x7bb 2;c\x7d".toList = .ok shorter ∧
        shorter.shapes = [.mk "a" [] (some [inner.shape, last.shape])]) ∧
      ∃ shorter, readDocument "a (t)k=1 /-\x7bb 2;c\x7d".toList = .ok shorter ∧
        shorter.shapes = [.mk "a" [⟨some "k", .integer 1⟩] none] := by
  intro text inner last outer document
  have hread : readDocument text = .ok document := by
    unfold text
    rfl
  have houter : document.Holds outer := ⟨outer, List.mem_cons_self, .self⟩
  have hinner : document.Holds inner :=
    ⟨outer, List.mem_cons_self, .inBlock rfl List.mem_cons_self .self⟩
  have hwhole := (readDocument_slashdash hread hinner .whole).2 _
    (.inBlock [] [] rfl (.here [] [last]))
  have hkey : outer.entries = [] ++ ⟨some "k", .integer 1, ⟨2, 6⟩⟩ :: [] := rfl
  have hentry := (readDocument_slashdash hread houter (.entry hkey)).2 _ (.here [] [])
  have hblock := (readDocument_slashdash hread houter (.block rfl)).2 _ (.here [] [])
  exact ⟨hread, hinner, hwhole, hentry, hblock⟩

end ReverseProxy.Kdl
