import Mathlib.Data.List.DropRight
import Mathlib.Data.List.TakeWhile
import ReverseProxy.Output.Console
import ReverseProxy.Proofs.Text.Columns
import ReverseProxy.Proofs.Text.Split

/-!
# What becomes of printed text

Text that is printed as it is loses the characters that are dropped and has blanks for its tabs;
without either it is shown unchanged. A line that may be broken is first put into lines that are all
of it together, and each of these is cropped.
-/

namespace ReverseProxy.Output

open Text

theorem toList_print (printed : List Printed) : (print printed).toList =
    ((printed.flatMap Printed.chars).reverse.dropWhile (· = '\n')).reverse :=
  String.toList_ofList

/-- Text without tabs loses the characters that are dropped and no others. -/
theorem chars_unwrapped {text ending : String} (htab : '\t' ∉ text.toList) :
    Printed.chars ⟨text, false, ending⟩ =
      (text.toList.filter fun c => !isDropped c) ++ ending.toList := by
  let kept := text.toList.filter fun c => !isDropped c
  have hkept : '\t' ∉ kept := fun hmem => htab (List.mem_of_mem_filter hmem)
  have hlines : (splitAll '\n' kept).map expandTabs = splitAll '\n' kept :=
    (List.map_congr_left fun part hpart =>
      expandTabs_of_not_mem fun hmem => hkept (mem_of_mem_splitAll hpart hmem).1).trans
        (List.map_id _)
  change join '\n' ((splitAll '\n' kept).map expandTabs) ++ ending.toList = _
  rw [hlines, join_splitAll]

theorem mem_fillTabs {column : Nat} {parts : List (List Char)} {c : Char}
    (hc : c ∈ fillTabs column parts) : c = ' ' ∨ ∃ part ∈ parts, c ∈ part := by
  induction parts generalizing column with
  | nil => cases hc
  | cons part parts ih =>
      cases parts with
      | nil => exact .inr ⟨part, List.mem_cons_self, hc⟩
      | cons next parts =>
          simp only [fillTabs, List.mem_append, List.mem_singleton, List.mem_replicate] at hc
          rcases hc with ((hpart | hblank) | ⟨-, hblank⟩) | hrest
          · exact .inr ⟨part, List.mem_cons_self, hpart⟩
          · exact .inl hblank
          · exact .inl hblank
          · rcases ih hrest with hblank | ⟨other, hother, hmem⟩
            · exact .inl hblank
            · exact .inr ⟨other, List.mem_cons_of_mem part hother, hmem⟩

/-- A line has nothing new in it but blanks once its tabs are expanded. -/
theorem mem_expandTabs {line : List Char} {c : Char} (hc : c ∈ expandTabs line) :
    c = ' ' ∨ c ∈ line ∧ c ≠ '\t' := by
  rcases mem_fillTabs hc with hblank | ⟨part, hpart, hmem⟩
  · exact .inl hblank
  · exact .inr (mem_of_mem_splitAll hpart hmem)

/-- What stands in front of all tabs keeps its place. -/
theorem expandTabs_append {front : List Char} (htab : '\t' ∉ front) (rest : List Char) :
    ∃ more, expandTabs (front ++ rest) = front ++ more := by
  obtain ⟨part, parts, -, hsplit⟩ := splitAll_extend htab rest
  rw [expandTabs, hsplit]
  cases parts with
  | nil => exact ⟨part, rfl⟩
  | cons next parts =>
      rw [fillTabs, List.append_assoc, List.append_assoc, List.append_assoc]
      · exact ⟨_, rfl⟩
      · exact fun h => by cases h

theorem words_of_blank {text : List Char} (hblank : text.dropWhile isBlank = []) (count : Nat) :
    words count text = [] := by
  cases count with
  | zero => rfl
  | succ count => exact if_pos hblank

theorem length_behind_word_lt {text : List Char} (hword : text.dropWhile isBlank ≠ []) :
    ((text.dropWhile isBlank).dropWhile fun c => !isBlank c).length < text.length := by
  have hhead : isBlank ((text.dropWhile isBlank).head hword) = false :=
    List.head_dropWhile_not isBlank hword
  have hlength : (text.dropWhile isBlank).length ≤ text.length :=
    List.length_dropWhile_le isBlank text
  obtain ⟨c, rest, hrest⟩ := List.exists_cons_of_ne_nil hword
  simp only [hrest, List.head_cons] at hhead
  rw [hrest] at hlength ⊢
  rw [List.dropWhile_cons_of_pos (by rw [hhead, Bool.not_false])]
  exact Nat.lt_of_le_of_lt (List.length_dropWhile_le _ rest) hlength

/-- The words of a line that has any are all of it. -/
theorem flatten_words {count : Nat} {text : List Char} (hcount : text.length ≤ count)
    (htext : text = [] ∨ text.dropWhile isBlank ≠ []) : (words count text).flatten = text := by
  induction count generalizing text with
  | zero =>
      rw [List.length_eq_zero_iff.mp (Nat.le_zero.mp hcount)]
      rfl
  | succ count ih =>
      rw [words]
      split
      · next hblank => exact (htext.resolve_right (not_not_intro hblank)).symm
      · next hword =>
        let rest := text.dropWhile isBlank
        let behind := rest.dropWhile fun c => !isBlank c
        let next := behind.dropWhile isBlank
        have hlength : next.length ≤ behind.length := List.length_dropWhile_le isBlank behind
        have hbehind : behind.length < text.length := length_behind_word_lt hword
        have hnext : (words count next).flatten = next := by
          refine ih (by omega) ?_
          rw [List.dropWhile_idempotent]
          exact em _
        calc
          _ = text.takeWhile isBlank ++ (rest.takeWhile fun c => !isBlank c) ++
              behind.takeWhile isBlank ++ (words count next).flatten := List.flatten_cons
          _ = text := by
            rw [hnext, List.append_assoc, List.append_assoc, List.takeWhile_append_dropWhile,
              List.takeWhile_append_dropWhile, List.takeWhile_append_dropWhile]

/-- Filling lines with words loses nothing. -/
theorem flatten_fill (line : List Char) (column : Nat) (found : List (List Char)) :
    (fill line column found).flatten = line ++ found.flatten := by
  induction found generalizing line column with
  | nil => simp [fill]
  | cons word rest ih =>
      have hstarted : (if line = [] then [] else [line]).flatten = line := by
        split
        · next hnil => rw [hnil, List.flatten_nil]
        · rw [List.flatten_singleton]
      have hcut : (pieces width word).dropLast.flatten ++ (pieces width word).getLast?.getD [] =
          word := by
        rcases List.eq_nil_or_concat' (pieces width word) with hnil | ⟨cut, last, hcut⟩
        · have hword := flatten_pieces width word
          rw [hnil] at hword ⊢
          exact hword
        · rw [hcut, List.dropLast_concat, List.getLast?_concat, Option.getD_some,
            ← List.flatten_concat, ← hcut, flatten_pieces]
      rw [fill]
      dsimp only
      split
      · rw [ih, List.flatten_cons, List.append_assoc]
      · split
        · rw [List.flatten_append, hstarted, ih, List.flatten_cons]
        · rw [List.flatten_append, List.flatten_append, hstarted, ih, List.flatten_cons,
            List.append_assoc, ← List.append_assoc _ _ rest.flatten, hcut]

/-- A line is broken into lines that are all of it together, and these are cropped. -/
theorem wrapLine_eq_map (line : List Char) :
    ∃ lines : List (List Char), lines.flatten = line ∧ wrapLine line = lines.map cropEnd := by
  rw [wrapLine]
  split
  · exact ⟨[line], List.flatten_singleton, rfl⟩
  · next hwords =>
    refine ⟨fill [] 0 (words line.length line), ?_, rfl⟩
    rw [flatten_fill, List.nil_append]
    exact flatten_words le_rfl (.inr fun hblank => hwords (words_of_blank hblank _))

/-- Cropping a line adds nothing but blanks. -/
theorem mem_cropEnd {line : List Char} {c : Char} (hc : c ∈ cropEnd line) : c = ' ' ∨ c ∈ line :=
  (mem_takeColumns hc).imp_right List.mem_of_mem_take

theorem cropEnd_slashes (rest : List Char) :
    ∃ more, cropEnd ('/' :: '/' :: rest) = '/' :: '/' :: more := by
  let line := '/' :: '/' :: rest
  let blanks := line.length - (trimEnd line).length
  obtain ⟨count, hcount⟩ :
      ∃ count, line.length - min blanks (line.length - width) = count + 2 := by
    have hlength : line.length = rest.length + 2 := rfl
    refine ⟨line.length - min blanks (line.length - width) - 2, ?_⟩
    rw [width]
    omega
  obtain ⟨more, hmore⟩ := takeColumns_slashes (by decide : 2 ≤ width) (rest.take count)
  refine ⟨more, ?_⟩
  rw [cropEnd]
  change takeColumns width (line.take (line.length - min blanks (line.length - width))) = _
  rw [hcount]
  exact hmore

theorem chars_line {text : String} (hfeed : '\n' ∉ text.toList)
    (hone : (line text).chars.count '\n' = 1) :
    (line text).chars =
      cropEnd (expandTabs (text.toList.filter fun c => !isDropped c)) ++ ['\n'] := by
  have hkept : '\n' ∉ text.toList.filter fun c => !isDropped c :=
    fun hmem => hfeed (List.mem_of_mem_filter hmem)
  obtain ⟨lines, hlines, hwrap⟩ :=
    wrapLine_eq_map (expandTabs (text.toList.filter fun c => !isDropped c))
  have hchars : (line text).chars = join '\n' (lines.map cropEnd) ++ ['\n'] := by
    simp only [line, Printed.chars, splitAll_of_not_mem hkept, List.map_singleton,
      List.flatMap_singleton, hwrap, if_true]
    rfl
  have hcount := length_le_count_join '\n' (lines.map cropEnd)
  rw [hchars, List.count_append, List.count_singleton_self] at hone
  rw [List.length_map] at hcount
  rw [hchars]
  rcases lines with _ | ⟨only, _ | ⟨next, others⟩⟩
  · rw [← hlines]
    rfl
  · rw [← hlines, List.flatten_singleton]
    rfl
  · simp only [List.length_cons] at hcount
    omega

end ReverseProxy.Output
