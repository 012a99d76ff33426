import ReverseProxy.Diagnostic
import ReverseProxy.Proofs.Decimal.Digits
import ReverseProxy.Proofs.Text.Split

/-!
# Where a diagnostic points

The line and the column of a diagnostic are those of its span's start, and the rows below its
message show that line and underline what the span covers of it (`pointer_locates_span`).
-/

namespace ReverseProxy

open Text

/-- The line and the column of a place in a text, counted from one, and what the line holds. -/
structure IsPlace (text : List Char) (offset line column : Nat) (shown : List Char) : Prop where
  line_pos : 0 < line
  line_le : line ≤ (splitAll '\n' text).length
  column_pos : 0 < column
  shown_eq : (splitAll '\n' text)[line - 1]? = some shown
  column_le : column - 1 ≤ shown.length
  offset_eq : (((splitAll '\n' text).take (line - 1)).map fun earlier => earlier.length + 1).sum +
    (column - 1) = offset

def underlined (label shown : List Char) (column carets : Nat) : List (List Char) :=
  let margin := List.replicate label.length ' '
  [margin ++ ['|'], label ++ '|' :: ' ' :: shown,
    margin ++ '|' :: ' ' :: (List.replicate (column - 1) ' ' ++ List.replicate carets '^')]

/-- The bars stand below each other. -/
theorem idxOf?_bar {label shown row : List Char} {column carets : Nat} (hlabel : '|' ∉ label)
    (hrow : row ∈ underlined label shown column carets) : row.idxOf? '|' = some label.length := by
  have hbar {front : List Char} (hfront : '|' ∉ front) (rest : List Char) :
      (front ++ '|' :: rest).idxOf? '|' = some front.length := by
    refine List.idxOf?_eq_some_iff.mpr ⟨by simp, by simp, fun index hindex => ?_⟩
    rw [List.getElem_append_left hindex]
    exact fun hsame => hfront (hsame ▸ List.getElem_mem hindex)
  have hmargin : '|' ∉ List.replicate label.length ' ' := fun hmem =>
    absurd (List.eq_of_mem_replicate hmem) (by decide)
  simp only [underlined, List.mem_cons, List.not_mem_nil, or_false] at hrow
  obtain rfl | rfl | rfl := hrow
  · rw [hbar hmargin, List.length_replicate]
  · exact hbar hlabel _
  · rw [hbar hmargin, List.length_replicate]

namespace Diagnostic

variable {diagnostic : Diagnostic}

theorem before_append_after (diagnostic : Diagnostic) :
    diagnostic.before ++ diagnostic.after = diagnostic.source.text.toList :=
  List.take_append_drop ..

theorem length_before (hoffset : diagnostic.span.offset ≤ diagnostic.source.text.length) :
    diagnostic.before.length = diagnostic.span.offset := by
  rw [before, List.length_take, String.length_toList]
  exact Nat.min_eq_left hoffset

/-- The lines in front of the place, the line of the place and the lines behind it. -/
theorem exists_lines (diagnostic : Diagnostic) :
    ∃ earlier others, diagnostic.before = earlier.flatMap (· ++ ['\n']) ++ diagnostic.lineHead ∧
      diagnostic.line = earlier.length + 1 ∧
      splitAll '\n' diagnostic.source.text.toList =
        earlier ++ (diagnostic.lineHead ++ diagnostic.lineTail) :: others := by
  obtain ⟨earlier, last, hbefore, hearlier, hlast⟩ := exists_ended '\n' diagnostic.before
  have hhead : diagnostic.lineHead = last := by
    rw [lineHead, hbefore, takeWhile_reverse_ended hlast]
  have hline : diagnostic.line = earlier.length + 1 := by
    rw [line, hbefore, count_ended hearlier hlast]
  obtain ⟨first, others, hafter, hextended⟩ := splitAll_extend hlast diagnostic.after
  obtain ⟨_, htail⟩ := exists_splitAll_eq_cons '\n' diagnostic.after
  have hfirst : first = diagnostic.lineTail := (List.cons.inj (hafter.symm.trans htail)).1
  refine ⟨earlier, others, by rw [hhead, hbefore], hline, ?_⟩
  rw [← before_append_after, hbefore, List.append_assoc, splitAll_ended hearlier, hextended, hfirst,
    hhead]

/-- The column counts the characters in front of the place on its line. -/
theorem column_eq (hoffset : diagnostic.span.offset ≤ diagnostic.source.text.length) :
    diagnostic.column = diagnostic.lineHead.length + 1 := by
  obtain ⟨earlier, others, hbefore, -, -⟩ := exists_lines diagnostic
  have hlength := congrArg List.length hbefore
  rw [length_before hoffset, List.length_append] at hlength
  rw [column, lineStart, length_before hoffset]
  omega

theorem isPlace (hoffset : diagnostic.span.offset ≤ diagnostic.source.text.length) :
    IsPlace diagnostic.source.text.toList diagnostic.span.offset diagnostic.line diagnostic.column
      (diagnostic.lineHead ++ diagnostic.lineTail) := by
  obtain ⟨earlier, others, hbefore, hline, hlines⟩ := exists_lines diagnostic
  have hlength := congrArg List.length hbefore
  rw [length_before hoffset, List.length_append, List.length_flatMap] at hlength
  refine ⟨by omega, ?_, by rw [column_eq hoffset]; omega, ?_, ?_, ?_⟩
  · simp [hlines, hline]
  · simp [hlines, hline]
  · simp [column_eq hoffset]
  · simp [hlines, hline, column_eq hoffset, hlength]

/-- What the span covers of the line where it starts. -/
theorem covered_eq (hoffset : diagnostic.span.offset ≤ diagnostic.source.text.length) :
    ((diagnostic.lineHead ++ diagnostic.lineTail).drop (diagnostic.column - 1)).take
      diagnostic.span.length = diagnostic.lineTail.take diagnostic.span.length := by
  rw [column_eq hoffset, Nat.add_sub_cancel, List.drop_left]

def lineLabel (diagnostic : Diagnostic) : List Char :=
  ' ' :: (Nat.toDigits 10 diagnostic.line ++ [' '])

theorem bar_not_mem_lineLabel (diagnostic : Diagnostic) : '|' ∉ diagnostic.lineLabel := by
  have hdigits : '|' ∉ Nat.toDigits 10 diagnostic.line := fun hmem =>
    absurd (Decimal.isDigit_of_mem_decimal hmem) (by decide)
  simp [lineLabel, hdigits]

/-- The snippet is the line with carets below it. -/
theorem map_toList_snippet (diagnostic : Diagnostic) :
    diagnostic.snippet.map String.toList =
      underlined diagnostic.lineLabel (diagnostic.lineHead ++ diagnostic.lineTail)
        diagnostic.column diagnostic.caretCount := by
  have hrows : diagnostic.snippet =
      [" " ++ spaces (Nat.repr diagnostic.line).length ++ " |",
        " " ++ Nat.repr diagnostic.line ++ " | " ++
          String.ofList (diagnostic.lineHead ++ diagnostic.lineTail),
        " " ++ spaces (Nat.repr diagnostic.line).length ++ " | " ++
          spaces (diagnostic.column - 1) ++
            String.ofList (List.replicate diagnostic.caretCount '^')] := rfl
  have hmargin : List.replicate diagnostic.lineLabel.length ' ' =
      ' ' :: (List.replicate (Nat.repr diagnostic.line).length ' ' ++ [' ']) := by
    rw [lineLabel, List.length_cons, List.length_append, List.replicate_succ,
      ← List.replicate_append_replicate, ← String.length_toList, Nat.toList_repr]
    rfl
  rw [hrows, underlined, hmargin, lineLabel]
  simp [spaces]

/-- **Where the pointer is.** The line and the column of a diagnostic are those of its span's start,
which is in the text or at its end. The help is the message, the location and three rows with their
bars below each other: behind the second bar stands that line and behind the third there are carets
from that column on, as many as the span has characters on the line and one at least. -/
theorem pointer_locates_span (diagnostic : Diagnostic) (htext : diagnostic.source.text ≠ "")
    (hoffset : diagnostic.span.offset ≤ diagnostic.source.text.length) :
    ∃ (shown : List Char) (rows : List String),
      IsPlace diagnostic.source.text.toList diagnostic.span.offset diagnostic.line
        diagnostic.column shown ∧
      diagnostic.help = "\n".intercalate (diagnostic.message ::
        s!"  --> {diagnostic.source.name}:{diagnostic.line}:{diagnostic.column}" :: rows) ∧
      rows.map String.toList = underlined diagnostic.lineLabel shown diagnostic.column
        (max 1 ((shown.drop (diagnostic.column - 1)).take diagnostic.span.length).length) ∧
      ∃ bar, ∀ row ∈ rows, row.toList.idxOf? '|' = some bar := by
  refine ⟨_, diagnostic.snippet, isPlace hoffset, ?_, ?_, ?_⟩
  · have hempty : diagnostic.source.text.isEmpty = false := by simpa using htext
    rw [help, pointer, hempty]
    rfl
  · rw [map_toList_snippet, covered_eq hoffset, List.length_take, caretCount]
  · refine ⟨diagnostic.lineLabel.length, fun row hrow => ?_⟩
    have hmem := List.mem_map_of_mem (f := String.toList) hrow
    rw [map_toList_snippet] at hmem
    exact idxOf?_bar (bar_not_mem_lineLabel diagnostic) hmem

/-- A span that starts inside the second line and goes on beyond it. -/
theorem pointer_locates_span_clipped :
    let diagnostic : Diagnostic :=
      ⟨.structural, "Unexpected", ⟨5, 9⟩, ⟨"web.kdl", "ab\n|cde\n\nf"⟩⟩
    diagnostic.source.text ≠ "" ∧ diagnostic.span.offset ≤ diagnostic.source.text.length ∧
      diagnostic.line = 2 ∧ diagnostic.column = 3 ∧ diagnostic.caretCount = 2 ∧
      ∃ (shown : List Char) (rows : List String),
        IsPlace diagnostic.source.text.toList diagnostic.span.offset diagnostic.line
          diagnostic.column shown ∧
        diagnostic.help = "\n".intercalate (diagnostic.message ::
          s!"  --> {diagnostic.source.name}:{diagnostic.line}:{diagnostic.column}" :: rows) ∧
        rows.map String.toList = underlined diagnostic.lineLabel shown diagnostic.column
          (max 1 ((shown.drop (diagnostic.column - 1)).take diagnostic.span.length).length) ∧
        ∃ bar, ∀ row ∈ rows, row.toList.idxOf? '|' = some bar := by
  intro diagnostic
  have htext : diagnostic.source.text ≠ "" := by decide
  have hoffset : diagnostic.span.offset ≤ diagnostic.source.text.length := by decide
  exact ⟨htext, hoffset, by decide, by decide, by decide,
    pointer_locates_span diagnostic htext hoffset⟩

end Diagnostic

end ReverseProxy
