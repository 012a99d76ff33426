import ReverseProxy.Proofs.Kdl.Progress

/-!
# Steps of the reader

What the two loops of the reader do at the character they come to after blank text, without a bound
on their steps.
-/

namespace ReverseProxy.Kdl

/-- A character that is not blank and neither ends a node nor opens a block, a comment or an element
to be thrown away. -/
def isContent (c : Char) : Bool := isTokenChar c || c = '"' || c = '='

/-- What may stand in a token, as the marks and blanks that may not. -/
theorem isTokenChar_iff {c : Char} :
    isTokenChar c = true ↔
      c ∉ ['\\', '/', '(', ')', '\x7b', '\x7d', '<', '>', ';', '[', ']', '=', ',', '"'] ∧
        isNewline c = false ∧ isInlineSpace c = false := by
  simp only [isTokenChar, Bool.not_eq_true', Bool.or_eq_false_iff, List.contains_eq_mem,
    decide_eq_false_iff_not, and_assoc]

theorem isContent_of_isTokenChar {c : Char} (htoken : isTokenChar c = true) :
    isContent c = true := by
  simp [isContent, htoken]

theorem not_blank_of_isContent {c : Char} (hcontent : isContent c = true) :
    isNewline c = false ∧ isInlineSpace c = false := by
  simp only [isContent, Bool.or_eq_true, decide_eq_true_eq] at hcontent
  rcases hcontent with (htoken | rfl) | rfl
  · exact (isTokenChar_iff.mp htoken).2
  · decide
  · decide

theorem ne_of_isContent {c d : Char} (hcontent : isContent c = true)
    (hmark : isContent d = false) : c ≠ d := by
  rintro rfl
  rw [hcontent] at hmark
  cases hmark

def startsElement (c : Char) : Bool := isContent c || c = '('

theorem startsElement_of_isContent {c : Char} (hcontent : isContent c = true) :
    startsElement c = true := by
  simp [startsElement, hcontent]

theorem ne_of_startsElement {c d : Char} (hstarts : startsElement c = true)
    (hmark : startsElement d = false) : c ≠ d := by
  rintro rfl
  rw [hstarts] at hmark
  cases hmark

theorem skipBlank_content {betweenNodes : Bool} {offset : Nat} {c : Char} {rest : List Char}
    (hcontent : isContent c = true) :
    skipBlank betweenNodes .plain offset (c :: rest) = .ok ⟨offset, c :: rest⟩ := by
  have hslash : c ≠ '/' := ne_of_isContent hcontent (by decide)
  have hescape : c ≠ '\\' := ne_of_isContent hcontent (by decide)
  have hsemicolon : c ≠ ';' := ne_of_isContent hcontent (by decide)
  rw [skipBlank]
  · simp [hescape, hsemicolon, not_blank_of_isContent hcontent]
  · exact fun _ hc => absurd hc hslash
  · exact fun _ hc => absurd hc hslash

theorem skipBlank_startsElement {betweenNodes : Bool} {offset : Nat} {c : Char}
    {rest : List Char} (hstarts : startsElement c = true) :
    skipBlank betweenNodes .plain offset (c :: rest) = .ok ⟨offset, c :: rest⟩ := by
  simp only [startsElement, Bool.or_eq_true, decide_eq_true_eq] at hstarts
  rcases hstarts with hcontent | rfl
  · exact skipBlank_content hcontent
  · cases betweenNodes <;> rfl

theorem endsNode_startsElement {c : Char} {rest : List Char} (hstarts : startsElement c = true) :
    endsNode (c :: rest) = false := by
  simp only [startsElement, Bool.or_eq_true, decide_eq_true_eq] at hstarts
  rcases hstarts with hcontent | rfl
  · have hsemicolon : c ≠ ';' := ne_of_isContent hcontent (by decide)
    have hclose : c ≠ '\x7d' := ne_of_isContent hcontent (by decide)
    simp [endsNode, not_blank_of_isContent hcontent, hsemicolon, hclose]
  · simp [endsNode, show isNewline '(' = false by decide]

section Tail

variable {read : BlockReader} {cursor next : Cursor} {finish : Nat}

theorem tailFrom_end (hnext : cursor.inlineBlank = .ok next) (hend : endsNode next.rest = true) :
    tailFrom read cursor finish = .ok (⟨[], none, finish⟩, next) := by
  rw [tailFrom, readTail, hnext, ok_bind]
  split
  · next hrest => simp [hrest, endsNode, isNewline] at hend
  · next hrest => simp [hrest, endsNode, isNewline] at hend
  · next hrest => simp [hrest, endsNode, isNewline] at hend
  · rw [if_pos hend]
    rfl

theorem tailFrom_block {rest : List Char} (hnext : cursor.inlineBlank = .ok next)
    (hopen : next.rest = '\x7b' :: rest) :
    tailFrom read cursor finish = readLastBlock read next := by
  rw [tailFrom, readTail, hnext, ok_bind]
  split
  · next hrest => simp [hrest] at hopen
  · next hrest => simp [hrest] at hopen
  · rfl
  · next hother => exact absurd hopen (hother rest)

theorem tailFrom_comment {rest : List Char} (hnext : cursor.inlineBlank = .ok next)
    (hcomment : next.rest = '/' :: '/' :: rest) :
    tailFrom read cursor finish = .ok (⟨[], none, finish⟩, next.lineEnd) := by
  rw [tailFrom, readTail, hnext, ok_bind]
  split
  · rfl
  · next hrest => simp [hrest] at hcomment
  · next hrest => simp [hrest] at hcomment
  · next hother _ _ => exact absurd hcomment (hother rest)

/-- An element behind a slashdash is skipped before the parts behind it. -/
theorem tailFrom_slashdash {rest : List Char} (hblock : read.Advances)
    (hnext : cursor.inlineBlank = .ok next) (hmark : next.rest = '/' :: '-' :: rest) :
    tailFrom read cursor finish = (do
      let element ← Cursor.inlineBlank ⟨next.offset + 2, rest⟩
      let after ← skipElement read element
      tailFrom read after after.offset) := by
  rw [tailFrom, readTail, hnext, ok_bind]
  split
  · next hrest => simp [hrest] at hmark
  · next more hrest =>
    cases hmark.symm.trans hrest
    refine bind_congr_ok fun element helement => bind_congr_ok fun after hafter => ?_
    have hskipped : next.Reaches ⟨next.offset + 2, rest⟩ := ⟨['/', '-'], hmark, rfl⟩
    have hpass : cursor.Passes after :=
      ((inlineBlank_reaches hnext).trans
        (hskipped.trans (inlineBlank_reaches helement))).of_passes
          (skipElement_passes hblock hafter)
    exact readTail_eq hblock hpass.length_lt
  · next hrest => simp [hrest] at hmark
  · next hother _ => exact absurd hmark (hother rest)

/-- An element needs a space in front of it. -/
theorem tailFrom_element {c : Char} {rest : List Char} (hblock : read.Advances)
    (hstarts : startsElement c = true) (hnext : cursor.inlineBlank = .ok next)
    (hrest : next.rest = c :: rest) :
    tailFrom read cursor finish =
      if next.offset = cursor.offset then refuse .noSpaceBeforeEntry next.here
      else (do
        let (entry, after) ← readEntry next
        let (tail, stop) ← tailFrom read after after.offset
        return ({ tail with entries := entry :: tail.entries }, stop)) := by
  have hslash : c ≠ '/' := ne_of_startsElement hstarts (by decide)
  have hopen : c ≠ '\x7b' := ne_of_startsElement hstarts (by decide)
  have hcontinues : ¬endsNode next.rest = true := by simp [hrest, endsNode_startsElement hstarts]
  rw [tailFrom, readTail, hnext, ok_bind]
  split
  · next hmark => exact absurd (List.cons.inj (hrest.symm.trans hmark)).1 hslash
  · next hmark => exact absurd (List.cons.inj (hrest.symm.trans hmark)).1 hslash
  · next hmark => exact absurd (List.cons.inj (hrest.symm.trans hmark)).1 hopen
  · rw [if_neg hcontinues]
    refine if_congr Iff.rfl rfl (bind_congr_ok fun ⟨entry, after⟩ hentry => ?_)
    have hpass := (inlineBlank_reaches hnext).of_passes (readEntry_passes hentry)
    dsimp only
    rw [readTail_eq hblock hpass.length_lt]

/-- An element right behind the one before it is no element. -/
theorem tailFrom_unspaced {c : Char} {rest : List Char} {offset : Nat} (hblock : read.Advances)
    (hstarts : startsElement c = true) :
    tailFrom read ⟨offset, c :: rest⟩ finish = refuse .noSpaceBeforeEntry ⟨offset, 1⟩ := by
  have hnext : Cursor.inlineBlank ⟨offset, c :: rest⟩ = .ok ⟨offset, c :: rest⟩ :=
    skipBlank_startsElement hstarts
  rw [tailFrom_element hblock hstarts hnext rfl, if_pos rfl]
  rfl

theorem tailFrom_entry {c : Char} {rest : List Char} {offset : Nat} {entry : Entry} {after : Cursor}
    (hblock : read.Advances) (hcontent : isContent c = true)
    (hentry : readEntry ⟨offset + 1, c :: rest⟩ = .ok (entry, after)) :
    tailFrom read ⟨offset, ' ' :: c :: rest⟩ finish = (do
      let (tail, stop) ← tailFrom read after after.offset
      return ({ tail with entries := entry :: tail.entries }, stop)) := by
  have hnext : Cursor.inlineBlank ⟨offset, ' ' :: c :: rest⟩ = .ok ⟨offset + 1, c :: rest⟩ :=
    skipBlank_content hcontent
  rw [tailFrom_element hblock (startsElement_of_isContent hcontent) hnext rfl, if_neg (by simp),
    hentry]
  rfl

end Tail

section Nodes

variable {read : BlockReader} {nested : Bool} {cursor : Cursor}

theorem nodesFrom_nil {offset : Nat} :
    nodesFrom read nested ⟨offset, []⟩ = .ok ([], ⟨offset, []⟩) := rfl

theorem nodesFrom_close {offset : Nat} {rest : List Char} :
    nodesFrom read true ⟨offset, '\x7d' :: rest⟩ = .ok ([], ⟨offset, '\x7d' :: rest⟩) := rfl

/-- Where a cursor stands in blank text makes no difference to the nodes behind it. -/
theorem nodesFrom_congr {other : Cursor} (hblock : read.Advances)
    (hskip : cursor.nodeBlank = other.nodeBlank) :
    nodesFrom read nested cursor = nodesFrom read nested other := by
  have hbound : cursor.rest.length < cursor.rest.length + other.rest.length + 1 := by omega
  have hbound' : other.rest.length < cursor.rest.length + other.rest.length + 1 := by omega
  rw [← readNodes_eq hblock hbound, ← readNodes_eq hblock hbound']
  simp only [readNodes, hskip]

/-- A space or a line feed in front of nodes is nothing. -/
theorem nodesFrom_blank {offset : Nat} {c : Char} {rest : List Char} (hblock : read.Advances)
    (hblank : c = ' ' ∨ c = '\n') :
    nodesFrom read nested ⟨offset, c :: rest⟩ = nodesFrom read nested ⟨offset + 1, rest⟩ := by
  refine nodesFrom_congr hblock ?_
  rcases hblank with rfl | rfl <;> rfl

theorem nodesFrom_slashdash {next : Cursor} {rest : List Char} (hblock : read.Advances)
    (hnext : cursor.nodeBlank = .ok next) (hmark : next.rest = '/' :: '-' :: rest) :
    nodesFrom read nested cursor = (do
      let start ← Cursor.nodeBlank ⟨next.offset + 2, rest⟩
      let (_, after) ← readNode read start
      nodesFrom read nested after) := by
  rw [nodesFrom, readNodes, hnext, ok_bind]
  split
  · next hrest => simp [hrest] at hmark
  · next hrest => simp [hrest] at hmark
  · next more hrest =>
    cases hmark.symm.trans hrest
    refine bind_congr_ok fun start hstart => bind_congr_ok fun ⟨node, after⟩ hnode => ?_
    have hskipped : next.Reaches ⟨next.offset + 2, rest⟩ := ⟨['/', '-'], hmark, rfl⟩
    have hpass : cursor.Passes after :=
      ((nodeBlank_reaches hnext).trans
        (hskipped.trans (nodeBlank_reaches hstart))).of_passes (readNode_passes hblock hnode)
    exact readNodes_eq hblock hpass.length_lt
  · next hother => exact absurd hmark (hother rest)

/-- Apart from the marks that blank text leaves, a node is read. -/
theorem nodesFrom_node {next : Cursor} {c : Char} {rest : List Char} (hblock : read.Advances)
    (hnext : cursor.nodeBlank = .ok next) (hrest : next.rest = c :: rest) (hslash : c ≠ '/')
    (hclose : c ≠ '\x7d') :
    nodesFrom read nested cursor = (do
      let (node, after) ← readNode read next
      let (nodes, stop) ← nodesFrom read nested after
      return (node :: nodes, stop)) := by
  rw [nodesFrom, readNodes, hnext, ok_bind]
  split
  · next hnil => simp [hnil] at hrest
  · next hmark => exact absurd (List.cons.inj (hrest.symm.trans hmark)).1 hclose
  · next hmark => exact absurd (List.cons.inj (hrest.symm.trans hmark)).1 hslash
  · refine bind_congr_ok fun ⟨node, after⟩ hnode => ?_
    have hpass := (nodeBlank_reaches hnext).of_passes (readNode_passes hblock hnode)
    dsimp only
    rw [readNodes_eq hblock hpass.length_lt]

end Nodes

end ReverseProxy.Kdl
