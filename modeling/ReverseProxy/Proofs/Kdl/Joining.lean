import ReverseProxy.Proofs.Kdl.BlockText
import ReverseProxy.Proofs.Kdl.Feeds

/-!
# Documents joined by an empty line

A document may end inside a line comment, behind a line continuation or behind a carriage return.
The first of two line feeds ends what was open there, and the second one separates the last node
from what comes next. So two documents with two line feeds between them are one document
(`readDocument_join`).
-/

namespace ReverseProxy.Kdl

def IsGap (gap : List Char) : Prop :=
  ∀ offset rest, skipBlank true .plain offset (gap ++ rest) =
    skipBlank true .plain (offset + gap.length) rest

theorem isGap_feed : IsGap ['\n'] := fun _ _ => rfl

theorem IsGap.append {gap more : List Char} (hgap : IsGap gap) (hmore : IsGap more) :
    IsGap (gap ++ more) := by
  intro offset rest
  rw [List.append_assoc, hgap, hmore, List.length_append, Nat.add_assoc]

/-- A line feed behind the last node of a text ends whatever blank text there is. -/
theorem EndsNodes.isGap {blank : List Char} (hblank : EndsNodes blank none) :
    IsGap (blank ++ ['\n']) := by
  intro offset rest
  have hread := hblank 0 [] rfl
  rw [List.append_nil] at hread
  rw [List.append_assoc, List.singleton_append, (skipBlank_endsAtFeed hread).skip,
    List.length_append]
  rfl

section Nodes

variable {read : BlockReader} {next : Option Char} {base : Nat} {gap text : List Char}
  {nodes : List Node}

/-- Nodes behind a gap are the same nodes, further on. -/
theorem IsNodes.behind (hgap : IsGap gap)
    (hnodes : IsNodes read next (base + gap.length) text nodes) :
    IsNodes read next base (gap ++ text) nodes := by
  have hlonger {blank : List Char} (hblank : IsBlank true blank) : IsBlank true (gap ++ blank) := by
    intro offset rest hne hfeed
    rw [List.append_assoc, hgap, hblank _ rest hne hfeed, List.length_append, Nat.add_assoc]
  have hlength (blank : List Char) : base + gap.length + blank.length =
      base + (gap ++ blank).length := by
    rw [List.length_append, Nat.add_assoc]
  generalize hbase : base + gap.length = start at hnodes
  cases hnodes with
  | nil hblank =>
      refine .nil fun offset rest hrest => ?_
      rw [List.append_assoc, hgap, hblank _ rest hrest, List.length_append, Nat.add_assoc]
  | last hblank hitem hclose =>
      subst hbase
      rw [hlength, ← List.append_assoc]
      exact .last (hlonger hblank) hitem hclose
  | item hblank hitem hclose hseparator hrest =>
      subst hbase
      rw [hlength] at hrest ⊢
      rw [← List.append_assoc]
      exact .item (hlonger hblank) hitem hclose hseparator hrest

end Nodes

/-! ### The last node of a text

A node that ends with its text also ends if a line feed follows, except that a continuation at its
end takes the line feed as its own. Then the node ends in front of whatever follows that.
-/

theorem endsNodeAt_feed {start : Cursor} {offset : Nat} {rest : List Char}
    (hstart : start.inlineBlank = skipBlank false .plain offset ('\n' :: rest)) :
    EndsNodeAt start ⟨offset, '\n' :: rest⟩ :=
  ⟨⟨offset, '\n' :: rest⟩, hstart, rfl, rfl⟩

/-- Where the end of the text ends a node, a line feed does; or a second one, if the first belongs
to a continuation. -/
theorem EndsNode.beforeFeed {close : List Char} (hclose : EndsNode close none) :
    EndsNode close (some '\n') ∨ EndsNode (close ++ ['\n']) (some '\n') := by
  obtain ⟨next, hnext, hstop, -⟩ := hclose 0 [] rfl
  rw [List.append_nil] at hnext
  unfold skipLineComment at hstop
  split at hstop
  · next more hmore =>
    -- The line comment goes on to the end of the text.
    obtain ⟨blank, hblank, isblank⟩ := isBlank_of_skipBlank hnext (by simp [hmore])
    obtain ⟨hline, hchars, -⟩ := next.takes_takeWhile fun c => !isNewline c
    rw [show (next.takeWhile fun c => !isNewline c).2 = _ from hstop] at hline
    have hrest : next.rest = (next.takeWhile fun c => !isNewline c).1 := by simpa using hline.1
    rw [← hrest, hmore] at hchars
    have hwhole : close = blank ++ '/' :: '/' :: more := hmore ▸ hblank.1
    refine .inl fun offset rest hhead => ?_
    obtain ⟨others, rfl⟩ := List.head?_eq_some_iff.mp hhead
    have hend := congrArg Prod.snd (Cursor.takeWhile_append (offset + blank.length) hchars
      (show ∀ c ∈ ('\n' :: others).head?, (!isNewline c) = false by rintro c ⟨⟩; rfl))
    rw [hwhole, List.append_assoc, List.length_append, ← Nat.add_assoc]
    exact ⟨_, isblank.skip (List.cons_ne_nil _ _) (by simp) (fun _ => rfl) offset, hend, rfl⟩
  · subst hstop
    obtain ⟨passed, hpassed, hpass⟩ := skipBlank_endsAtFeed hnext
    obtain rfl | rfl : passed = 0 ∨ passed = 1 := by omega
    · refine .inl fun offset rest hhead => ?_
      obtain ⟨others, rfl⟩ := List.head?_eq_some_iff.mp hhead
      exact endsNodeAt_feed (hpass 0 offset others)
    · refine .inr fun offset rest hhead => ?_
      obtain ⟨others, rfl⟩ := List.head?_eq_some_iff.mp hhead
      rw [List.append_assoc, List.length_append, ← Nat.add_assoc]
      exact endsNodeAt_feed (hpass 0 offset ('\n' :: others))

/-- Two line feeds stand between the nodes of a whole text and what follows. -/
theorem IsNodes.join {read : BlockReader} {next : Option Char} {base : Nat} {text more : List Char}
    {nodes others : List Node} (hnodes : IsNodes read none base text nodes)
    (hmore : IsNodes read next (base + text.length + 2) more others) :
    IsNodes read next base (text ++ '\n' :: '\n' :: more) (nodes ++ others) := by
  induction hnodes with
  | @nil base blank hblank =>
      have hgap := hblank.isGap.append isGap_feed
      have hlength : base + blank.length + 2 = base + (blank ++ ['\n'] ++ ['\n']).length := by
        simp only [List.length_append, List.length_singleton, Nat.add_assoc]
      rw [hlength] at hmore
      simpa using hmore.behind hgap
  | @last base blank text close nodes hblank hitem hclose =>
      simp only [List.length_append, ← Nat.add_assoc] at hmore
      rw [List.append_assoc, List.append_assoc]
      rcases hclose.beforeFeed with hfeed | hfeed
      · exact .item hblank hitem hfeed rfl (hmore.behind isGap_feed)
      · rw [List.append_cons close]
        refine .item hblank hitem hfeed rfl ?_
        rwa [List.length_append, ← Nat.add_assoc]
  | @item base blank text close rest c nodes others hblank hitem hclose hseparator _ ih =>
      have hlength : base + (blank ++ (text ++ (close ++ c :: rest))).length =
          base + blank.length + text.length + close.length + 1 + rest.length := by
        simp only [List.length_append, List.length_cons]
        omega
      rw [hlength] at hmore
      simp only [List.append_assoc, List.cons_append]
      exact .item hblank hitem hclose hseparator (ih hmore)

/-- **Documents concatenate.** Two documents with two line feeds between them are a document: its
nodes are those of the first one as they are and then those of the second one, moved behind the
first. -/
theorem readDocument_join {first second : List Char} {document other : Document}
    (hfirst : readDocument first = .ok document) (hsecond : readDocument second = .ok other) :
    readDocument (first ++ '\n' :: '\n' :: second) =
      .ok ⟨document.nodes ++ other.nodes.map (Node.shift (first.length + 2)),
        ⟨0, first.length + 2 + second.length⟩⟩ := by
  obtain ⟨hnodes, -⟩ := readDocument_eq_ok.mp hfirst
  obtain ⟨hothers, -⟩ := readDocument_eq_ok.mp hsecond
  refine readDocument_eq_ok.mpr ⟨hnodes.join ?_, ?_⟩
  · rw [Nat.zero_add]
    simpa using hothers.shift (first.length + 2)
  · simp only [List.length_append, List.length_cons]
    congr 1
    omega

/-- The first document ends in a continuation that the end of the text cuts off. -/
theorem readDocument_join_continued :
    let first := "a 1; /-b \\ //".toList
    let second := "\u2028c".toList
    let node : Node := ⟨"a", ⟨0, 1⟩, ⟨0, 3⟩, [⟨none, .integer 1, ⟨2, 1⟩⟩], none⟩
    let other : Node := ⟨"c", ⟨1, 1⟩, ⟨1, 1⟩, [], none⟩
    readDocument first = .ok ⟨[node], ⟨0, 13⟩⟩ ∧ readDocument second = .ok ⟨[other], ⟨0, 2⟩⟩ ∧
      readDocument (first ++ '\n' :: '\n' :: second) =
        .ok ⟨[node, other.shift 15], ⟨0, 17⟩⟩ := by
  intro first second node other
  have hfirst : readDocument first = .ok ⟨[node], ⟨0, 13⟩⟩ := by
    unfold first
    rfl
  have hsecond : readDocument second = .ok ⟨[other], ⟨0, 2⟩⟩ := by
    unfold second
    rfl
  exact ⟨hfirst, hsecond, readDocument_join hfirst hsecond⟩

end ReverseProxy.Kdl
