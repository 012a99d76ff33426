import ReverseProxy.Proofs.Kdl.Written

/-!
# Reading undoes canonical printing

The canonical text of a list of nodes is a document, and what the document says are the nodes that
were printed: their order and that of their entries, names, keys, kinds and values, and blocks, an
empty one kept apart from none.
-/

namespace ReverseProxy.Kdl

theorem spellsDatum_print {datum : Datum} (hvalue : datum.value.isPrintable = true) :
    ∃ text, datum.print = ' ' :: text ∧ SpellsDatum text datum := by
  rcases datum with ⟨key, value⟩
  have hspelled := spellsScalar_print hvalue
  cases key with
  | none => exact ⟨value.print, rfl, .positional hspelled⟩
  | some key => exact ⟨_, rfl, .property (.quoted key) hspelled⟩

theorem spellsData_print {data : List Datum}
    (hdata : data.all (fun datum => datum.value.isPrintable) = true) :
    SpellsData (data.flatMap Datum.print) data := by
  induction data with
  | nil => exact .nil
  | cons datum data ih =>
      rw [List.all_cons, Bool.and_eq_true] at hdata
      obtain ⟨text, htext, hdatum⟩ := spellsDatum_print hdata.1
      rw [List.flatMap_cons, htext]
      exact .cons hdatum (ih hdata.2)

mutual

/-- What is printed for a shape is a text of nodes that says it. -/
theorem spellsNodes_print (shape : Shape) (depth : Nat) (hprintable : shape.isPrintable = true)
    (hdepth : shape.depth ≤ depth) : SpellsNodes depth shape.print [shape] := by
  rcases shape with ⟨name, data, _ | below⟩
  · rw [Shape.isPrintable, Bool.and_eq_true] at hprintable
    have hleaf : SpellsNodes depth _ [.mk name data none] :=
      .leaf (.quoted name) (spellsData_print hprintable.1) .nil
    simpa only [Shape.print, printChildren, List.append_nil, List.append_assoc] using hleaf
  · rw [Shape.isPrintable, childPrintable, Bool.and_eq_true] at hprintable
    rw [Shape.depth, childDepth] at hdepth
    obtain ⟨depth, rfl⟩ : ∃ fewer, depth = fewer + 1 := ⟨depth - 1, by omega⟩
    have hinside := spellsNodes_printShapes below depth hprintable.2 (by omega)
    have hblock := SpellsNodes.block (.quoted name) (spellsData_print hprintable.1)
      (.blank (.inr rfl) hinside) .nil
    simpa only [Shape.print, printChildren, List.append_assoc, List.cons_append, List.nil_append]
      using hblock

theorem spellsNodes_printShapes (shapes : List Shape) (depth : Nat)
    (hprintable : allPrintable shapes = true) (hdepth : listDepth shapes ≤ depth) :
    SpellsNodes depth (printShapes shapes) shapes := by
  rcases shapes with _ | ⟨shape, shapes⟩
  · exact .nil
  · rw [allPrintable, Bool.and_eq_true] at hprintable
    rw [listDepth] at hdepth
    have hfirst := spellsNodes_print shape depth hprintable.1 (by omega)
    have hothers := spellsNodes_printShapes shapes depth hprintable.2 (by omega)
    exact hfirst.append hothers

end

/-- **Reading undoes canonical printing.** Nodes with any names, keys and strings, with integers
within the limit on digits and with no more blocks inside each other than a reader opens, are what
their canonical text says. -/
theorem readDocument_printShapes (nodes : List Shape) (hprintable : allPrintable nodes = true)
    (hdepth : listDepth nodes ≤ maxDepth) :
    ∃ document, readDocument (printShapes nodes) = .ok document ∧ document.shapes = nodes :=
  readDocument_spelled (spellsNodes_printShapes nodes maxDepth hprintable hdepth)

/-- A quotation mark and a line feed in names, a negative integer, an empty key, and an empty block
inside another one. -/
theorem readDocument_printShapes_nested :
    let tree : Shape := .mk "a \"b\"\n"
      [⟨none, .integer (-7)⟩, ⟨some "", .string "\\"⟩, ⟨none, .null⟩]
      (some [.mk "" [⟨some "on", .boolean true⟩] (some []), .mk "c" [] none])
    allPrintable [tree] = true ∧ listDepth [tree] ≤ maxDepth ∧
      ∃ document, readDocument (printShapes [tree]) = .ok document ∧ document.shapes = [tree] := by
  have hprintable : allPrintable [.mk "a \"b\"\n"
      [⟨none, .integer (-7)⟩, ⟨some "", .string "\\"⟩, ⟨none, .null⟩]
      (some [.mk "" [⟨some "on", .boolean true⟩] (some []), .mk "c" [] none])] = true := by decide
  exact ⟨hprintable, by decide, readDocument_printShapes _ hprintable (by decide)⟩

end ReverseProxy.Kdl
