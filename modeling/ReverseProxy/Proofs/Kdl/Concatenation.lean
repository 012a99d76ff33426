import ReverseProxy.Proofs.Kdl.Lines

/-!
# Documents behind each other

Written nodes with other written nodes behind them, and comments in between, are written nodes
again. The text of a document may lack its last line feed, since the end of the text ends a line as
well. Nothing that is written has a tab in it: between quotation marks a tab is escaped, and
elsewhere spaces separate.
-/

namespace ReverseProxy.Kdl

section Tabs

variable {text : List Char}

theorem tab_not_mem_quoteChars (content : List Char) : '\t' ∉ quoteChars content := by
  have hchar (c : Char) : '\t' ∉ quoteChar c := by
    unfold quoteChar
    split
    case h_6 hother => simpa using fun htab => hother htab.symm
    all_goals decide
  simp [quoteChars, hchar]

theorem IsToken.tab_not_mem (htoken : IsToken text) : '\t' ∉ text := by
  intro htab
  cases htoken.2 '\t' htab

theorem SpellsName.tab_not_mem {name : String} (hname : SpellsName text name) : '\t' ∉ text := by
  cases hname with
  | quoted => exact tab_not_mem_quoteChars _
  | bare htoken => exact htoken.tab_not_mem

theorem SpellsScalar.tab_not_mem {value : Scalar} (hvalue : SpellsScalar text value) :
    '\t' ∉ text := by
  cases hvalue with
  | quoted => exact tab_not_mem_quoteChars _
  | bare htoken => exact htoken.tab_not_mem

theorem SpellsDatum.tab_not_mem {datum : Datum} (hdatum : SpellsDatum text datum) :
    '\t' ∉ text := by
  cases hdatum with
  | positional hvalue => exact hvalue.tab_not_mem
  | property hname hvalue => simp [hname.tab_not_mem, hvalue.tab_not_mem]

theorem SpellsData.tab_not_mem {data : List Datum} (hdata : SpellsData text data) :
    '\t' ∉ text := by
  induction hdata with
  | nil => exact List.not_mem_nil
  | cons hdatum _ ih => simp [hdatum.tab_not_mem, ih]

/-- Nothing that is written has a tab in it, since a tab in a string is escaped. -/
theorem SpellsNodes.tab_not_mem {depth : Nat} {shapes : List Shape}
    (hnodes : SpellsNodes depth text shapes) : '\t' ∉ text := by
  induction hnodes with
  | nil => exact List.not_mem_nil
  | blank hblank _ ih => rcases hblank with rfl | rfl <;> simp [ih]
  | comment hcomment _ ih =>
      have htab : '\t' ∉ _ := fun hmem => (hcomment '\t' hmem).2 rfl
      simp [htab, ih]
  | leaf hname hdata _ ih => simp [hname.tab_not_mem, hdata.tab_not_mem, ih]
  | block hname hdata _ _ ihinside ih =>
      simp [hname.tab_not_mem, hdata.tab_not_mem, ihinside, ih]

end Tabs

theorem SpellsNodes.flatMap {α β : Type} {depth : Nat} {text : α → List Char}
    {shapes : β → List Shape} {values : List α} {others : List β}
    (hnodes : List.Forall₂ (fun value other => SpellsNodes depth (text value) (shapes other))
      values others) :
    SpellsNodes depth (values.flatMap text) (others.flatMap shapes) := by
  induction hnodes with
  | nil => exact .nil
  | cons hfirst _ ih =>
      rw [List.flatMap_cons, List.flatMap_cons]
      exact hfirst.append ih

/-- A line feed in front of the last one leaves the last one behind it. -/
theorem append_feed_eq {front before rest : List Char}
    (htext : front ++ ['\n'] = before ++ '\n' :: rest) :
    rest = [] ∧ front = before ∨
      ∃ more, rest = more ++ ['\n'] ∧ front = before ++ '\n' :: more := by
  rcases List.eq_nil_or_concat' rest with rfl | ⟨more, c, rfl⟩
  · exact .inl ⟨rfl, (List.append_inj' htext rfl).1⟩
  · rw [← List.cons_append, ← List.append_assoc] at htext
    obtain ⟨hfront, hlast⟩ := List.append_inj' htext rfl
    exact .inr ⟨more, by rw [hlast], hfront⟩

theorem SpellsNodes.eq_nil {depth : Nat} {shapes : List Shape}
    (hnodes : SpellsNodes depth [] shapes) : shapes = [] := by
  generalize htext : ([] : List Char) = text at hnodes
  cases hnodes with
  | nil => rfl
  | blank => cases htext
  | comment => cases htext
  | leaf => simp at htext
  | block => simp at htext

/-- Written nodes are read to the end of a text that lacks their last line feed. -/
theorem nodesFrom_unended {depth : Nat} {front : List Char} {shapes : List Shape}
    (hnodes : SpellsNodes depth (front ++ ['\n']) shapes) (nested : Bool) (offset : Nat) :
    ∃ found stop, found.map Node.shape = shapes ∧
      nodesFrom (readBlock depth) nested ⟨offset, front⟩ = .ok (found, ⟨stop, []⟩) := by
  generalize htext : front ++ ['\n'] = text at hnodes
  -- In each case the line feed of the node is the last one, or the last one stands further on.
  induction hnodes generalizing nested offset front with
  | nil => simp at htext
  | @blank depth c text shapes hblank hnodes ih =>
      cases front with
      | nil =>
          obtain ⟨-, rfl⟩ := List.cons.inj htext
          exact ⟨[], offset, hnodes.eq_nil.symm, nodesFrom_nil⟩
      | cons d front =>
          obtain ⟨rfl, rfl⟩ := List.cons.inj htext
          obtain ⟨found, stop, hfound, hread⟩ := ih nested (offset + 1) rfl
          exact ⟨found, stop, hfound,
            (nodesFrom_blank (readBlock_advances depth) hblank).trans hread⟩
  | @comment depth comment text shapes hcomment hnodes ih =>
      have hline : ∀ c ∈ comment, isNewline c = false := fun c hc => (hcomment c hc).1
      rw [← List.cons_append, ← List.cons_append] at htext
      rcases append_feed_eq htext with ⟨rfl, rfl⟩ | ⟨more, rfl, rfl⟩
      · exact ⟨[], _, hnodes.eq_nil.symm, nodesFrom_lastComment (readBlock_advances depth) hline⟩
      · obtain ⟨found, stop, hfound, hread⟩ := ih nested (offset + 2 + comment.length + 1) rfl
        exact ⟨found, stop, hfound,
          (nodesFrom_lineComment (readBlock_advances depth) hline more).trans hread⟩
  | @leaf depth name entries rest title data shapes hname hdata hrest ih =>
      rw [← List.append_assoc] at htext
      rcases append_feed_eq htext with ⟨rfl, rfl⟩ | ⟨more, rfl, rfl⟩
      · obtain ⟨node, hshape, hnode⟩ :=
          nodesFrom_leaf depth hname hdata stopsLine_nil nested offset
        rw [List.append_nil] at hnode
        exact ⟨[node], _, by rw [hrest.eq_nil, ← hshape]; rfl, hnode⟩
      · obtain ⟨node, hshape, hnode⟩ :=
          nodesFrom_leaf depth hname hdata (stopsLine_feed more) nested offset
        obtain ⟨found, stop, hfound, hread⟩ :=
          ih nested (offset + name.length + entries.length + 1) rfl
        refine ⟨node :: found, stop, by rw [List.map_cons, hshape, hfound], ?_⟩
        rw [List.append_assoc, hnode, nodesFrom_blank (readBlock_advances depth) (.inr rfl), hread]
        rfl
  | @block depth name entries inside rest title data below shapes hname hdata hinside hrest
      ihinside ih =>
      have hline (rest : List Char) :
          name ++ (entries ++ ' ' :: '\x7b' :: (inside ++ '\x7d' :: '\n' :: rest)) =
            (name ++ (entries ++ ' ' :: '\x7b' :: (inside ++ ['\x7d']))) ++ '\n' :: rest := by
        simp only [List.append_assoc, List.cons_append, List.nil_append]
      rw [hline] at htext
      rcases append_feed_eq htext with ⟨rfl, rfl⟩ | ⟨more, rfl, rfl⟩
      · obtain ⟨node, hshape, hnode⟩ :=
          nodesFrom_block hname hdata (nodesFrom_spelled hinside) stopsLine_nil nested offset
        exact ⟨[node], _, by rw [hrest.eq_nil, ← hshape]; rfl, hnode⟩
      · obtain ⟨node, hshape, hnode⟩ := nodesFrom_block hname hdata (nodesFrom_spelled hinside)
          (stopsLine_feed more) nested offset
        obtain ⟨found, stop, hfound, hread⟩ := ih nested
          (offset + name.length + entries.length + 1 + 1 + inside.length + 1 + 1) rfl
        refine ⟨node :: found, stop, by rw [List.map_cons, hshape, hfound], ?_⟩
        rw [← hline, hnode, nodesFrom_blank (readBlock_advances (depth + 1)) (.inr rfl), hread]
        rfl

/-- The end of a document may stand for its last line feed. -/
theorem readDocument_unended {front : List Char} {shapes : List Shape}
    (hnodes : SpellsNodes maxDepth (front ++ ['\n']) shapes) :
    ∃ document, readDocument front = .ok document ∧ document.shapes = shapes := by
  obtain ⟨found, stop, hfound, hread⟩ := nodesFrom_unended hnodes false 0
  refine ⟨⟨found, ⟨0, front.length⟩⟩, ?_, (shapes_eq_map found).trans hfound⟩
  change (nodesFrom (readBlock maxDepth) false ⟨0, front⟩ >>= _) = _
  rw [hread]
  rfl

end ReverseProxy.Kdl
