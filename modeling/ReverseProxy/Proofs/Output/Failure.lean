import ReverseProxy.Output.Report
import ReverseProxy.Proofs.Diagnostic.Pointer
import ReverseProxy.Proofs.Output.Console

/-!
# What is shown of a failure

The long form of a failure that a diagnostic explains is a line with its message, and below it the
help of the diagnostic without its first line. A help text begins with the message, so that this is
the pointer alone if the message is one line; of a longer message all but its first line is shown
again (`failure_shown_once_iff`).
-/

namespace ReverseProxy

open Output Text

namespace Output

/-- Text without the characters that are dropped and with blanks for its tabs. -/
def unwrapped (text : List Char) : List Char :=
  join '\n' ((splitAll '\n' (text.filter fun c => !isDropped c)).map expandTabs)

theorem chars_verbatim (text : String) :
    (verbatim text).chars = unwrapped text.toList ++ ['\n'] := by
  simp [verbatim, Printed.chars, unwrapped]

/-- Lines are printed one by one. -/
theorem unwrapped_append (front rest : List Char) :
    unwrapped (front ++ '\n' :: rest) = unwrapped front ++ '\n' :: unwrapped rest := by
  have hkept : (front ++ '\n' :: rest).filter (fun c => !isDropped c) =
      front.filter (fun c => !isDropped c) ++ '\n' :: rest.filter fun c => !isDropped c := by
    rw [List.filter_append, List.filter_cons_of_pos (by decide)]
  have hlines (text : List Char) : (splitAll '\n' text).map expandTabs ≠ [] := by
    simpa using splitAll_ne_nil '\n' text
  rw [unwrapped, hkept, splitAll_append_separator, List.map_append,
    join_append (hlines _) (hlines _)]
  rfl

theorem unwrapped_join {rows : List (List Char)} (hne : rows ≠ []) :
    unwrapped (join '\n' rows) = join '\n' (rows.map unwrapped) := by
  induction rows with
  | nil => exact absurd rfl hne
  | cons row rows ih =>
      cases rows with
      | nil => rfl
      | cons next rows =>
          change unwrapped (row ++ '\n' :: join '\n' (next :: rows)) =
            unwrapped row ++ '\n' :: join '\n' ((next :: rows).map unwrapped)
          rw [unwrapped_append, ih (List.cons_ne_nil next rows)]

/-- As many lines are shown as the text has. -/
theorem count_unwrapped (text : List Char) : (unwrapped text).count '\n' = text.count '\n' := by
  have hlines : ∀ line ∈ (splitAll '\n' (text.filter fun c => !isDropped c)).map expandTabs,
      '\n' ∉ line := by
    rw [List.forall_mem_map]
    intro line hline hfeed
    rcases mem_expandTabs hfeed with hblank | ⟨hmem, -⟩
    · cases hblank
    · exact (mem_of_mem_splitAll hline hmem).2 rfl
  have hne : (splitAll '\n' (text.filter fun c => !isDropped c)).map expandTabs ≠ [] := by
    simpa using splitAll_ne_nil '\n' _
  have hsplit := congrArg List.length (splitAll_join hne hlines)
  rw [List.length_map, length_splitAll, length_splitAll, List.count_filter (by decide)] at hsplit
  exact Nat.succ.inj hsplit

theorem unwrapped_eq_self {text : List Char} (htab : '\t' ∉ text)
    (hkept : ∀ c ∈ text, isDropped c = false) : unwrapped text = text := by
  have hfilter : text.filter (fun c => !isDropped c) = text :=
    List.filter_eq_self.mpr fun c hc => by rw [hkept c hc, Bool.not_false]
  have hchars : Printed.chars ⟨String.ofList text, false, ""⟩ = _ :=
    chars_unwrapped (by simpa using htab)
  simpa [Printed.chars, unwrapped, hfilter] using hchars

end Output

namespace Diagnostic

variable {diagnostic : Diagnostic}

def rows (diagnostic : Diagnostic) : List (List Char) :=
  (diagnostic.location :: diagnostic.snippet).map String.toList

theorem rows_ne_nil (diagnostic : Diagnostic) : diagnostic.rows ≠ [] := List.cons_ne_nil _ _

/-- A help text is the message and the rows below it. -/
theorem toList_help (htext : diagnostic.source.text ≠ "") :
    diagnostic.help.toList = diagnostic.message.toList ++ '\n' :: join '\n' diagnostic.rows := by
  have hempty : diagnostic.source.text.isEmpty = false := by simpa using htext
  rw [help, pointer, hempty, if_neg Bool.false_ne_true, String.toList_intercalate, rows]
  change ['\n'].intercalate _ = _
  rw [intercalate_eq_join]
  rfl

def messageRest (message : List Char) : List Char :=
  match splitFirst? '\n' message with
  | some (_, rest) => rest ++ ['\n']
  | none => []

/-- A message of a single line has no rest. -/
theorem messageRest_eq_nil_iff {message : List Char} :
    messageRest message = [] ↔ '\n' ∉ message := by
  rw [← splitFirst?_eq_none_iff, messageRest]
  split <;> simp [*]

theorem messageRest_eq_nil_of_one_line {message : List Char} (hfeed : '\n' ∉ messageRest message) :
    messageRest message = [] := by
  unfold messageRest at hfeed ⊢
  split at hfeed
  · simp at hfeed
  · rfl

theorem pointerOf_help (htext : diagnostic.source.text ≠ "") :
    Result.pointerOf diagnostic.help =
      [verbatim (String.ofList
        (messageRest diagnostic.message.toList ++ join '\n' diagnostic.rows))] := by
  rw [Result.pointerOf, toList_help htext, messageRest]
  cases hsplit : splitFirst? '\n' diagnostic.message.toList with
  | none =>
      rw [splitFirst?_append (splitFirst?_eq_none_iff.mp hsplit)]
      rfl
  | some parts =>
      obtain ⟨first, rest⟩ := parts
      rw [splitFirst?_extend hsplit]
      simp

theorem exists_unwrapped_append (message text : List Char) :
    ∃ front, unwrapped (messageRest message ++ text) = front ++ unwrapped text := by
  unfold messageRest
  split
  · next rest _ =>
    rw [List.append_assoc, List.singleton_append, unwrapped_append]
    exact ⟨unwrapped rest ++ ['\n'], by simp⟩
  · exact ⟨[], rfl⟩

/-- The last row is shown as it is and ends in a caret. -/
theorem exists_rows_caret (diagnostic : Diagnostic) :
    ∃ front, unwrapped (join '\n' diagnostic.rows) = front ++ ['^'] := by
  let margin := List.replicate diagnostic.lineLabel.length ' ' ++
    '|' :: ' ' :: List.replicate (diagnostic.column - 1) ' '
  obtain ⟨carets, hcarets⟩ : ∃ carets, diagnostic.caretCount = carets + 1 :=
    Nat.exists_eq_add_of_le' (Nat.le_max_left _ _)
  have hrows : diagnostic.rows = [diagnostic.location.toList,
      List.replicate diagnostic.lineLabel.length ' ' ++ ['|'],
      diagnostic.lineLabel ++ '|' :: ' ' :: (diagnostic.lineHead ++ diagnostic.lineTail)] ++
        [margin ++ List.replicate carets '^' ++ ['^']] := by
    rw [rows, List.map_cons, map_toList_snippet, underlined, hcarets, List.replicate_succ']
    simp [margin]
  have hlast : unwrapped (margin ++ List.replicate carets '^' ++ ['^']) =
      margin ++ List.replicate carets '^' ++ ['^'] := by
    have hchars :
        ∀ c ∈ margin ++ List.replicate carets '^' ++ ['^'], c = ' ' ∨ c = '|' ∨ c = '^' := by
      simp only [margin, List.mem_append, List.mem_cons, List.mem_replicate, List.not_mem_nil]
      tauto
    refine unwrapped_eq_self (fun htab => ?_) fun c hc => ?_
    · exact absurd (hchars _ htab) (by decide)
    · rcases hchars c hc with rfl | rfl | rfl <;> decide
  rw [hrows, unwrapped_join (by simp), List.map_append, List.map_singleton, join_concat, hlast]
  exact ⟨_, (List.append_assoc _ _ _).symm⟩

/-- The line above the pointer. -/
def headline (operation : String) (diagnostic : Diagnostic) : Printed :=
  Output.line s!"ERROR  {operation} [{diagnostic.kind.code}] — {diagnostic.message}"

theorem render_failure (operation : String) (diagnostic : Diagnostic) :
    (Result.failure operation diagnostic.error).render .plain =
      .ok (print (headline operation diagnostic :: Result.pointerOf diagnostic.help)) := by
  have hreport : (Result.failure operation diagnostic.error).errorReport false =
      headline operation diagnostic :: Result.pointerOf diagnostic.help ++ [] := rfl
  rw [List.append_nil] at hreport
  rw [← hreport]
  rfl

/-- What is printed of a failure. -/
theorem toList_print_failure (operation : String) (htext : diagnostic.source.text ≠ "") :
    (print (headline operation diagnostic :: Result.pointerOf diagnostic.help)).toList =
      (headline operation diagnostic).chars ++
        unwrapped (messageRest diagnostic.message.toList ++ join '\n' diagnostic.rows) := by
  obtain ⟨rest, hrest⟩ :=
    exists_unwrapped_append diagnostic.message.toList (join '\n' diagnostic.rows)
  obtain ⟨front, hfront⟩ := exists_rows_caret diagnostic
  rw [toList_print, pointerOf_help htext, List.flatMap_cons, List.flatMap_singleton, chars_verbatim,
    String.toList_ofList, hrest, hfront]
  simp

/-- The lines that are shown tell whether any of them come from the message. -/
theorem unwrapped_messageRest_iff (message text : List Char) :
    unwrapped (messageRest message ++ text) = unwrapped text ↔ '\n' ∉ message := by
  rw [← messageRest_eq_nil_iff]
  constructor
  · intro hsame
    have hcount := congrArg (List.count '\n') hsame
    rw [count_unwrapped, count_unwrapped, List.count_append, Nat.add_eq_right, List.count_eq_zero]
      at hcount
    exact messageRest_eq_nil_of_one_line hcount
  · intro hnil
    rw [hnil, List.nil_append]

/-- **A failure shows its pointer once and whole exactly if its message is one line.** Below the
line with the operation, the code and the message stands what the message has behind its first line,
and then the place and three rows of the snippet, apart from the characters that are dropped and
with blanks for tabs. -/
theorem failure_shown_once_iff (operation : String) (diagnostic : Diagnostic)
    (htext : diagnostic.source.text ≠ "") :
    ∃ output, (Result.failure operation diagnostic.error).render .plain = .ok output ∧
      output.toList = (headline operation diagnostic).chars ++
        unwrapped (messageRest diagnostic.message.toList ++ join '\n' diagnostic.rows) ∧
      (output.toList = (headline operation diagnostic).chars ++
        join '\n' (diagnostic.rows.map unwrapped) ↔ '\n' ∉ diagnostic.message.toList) := by
  have houtput := toList_print_failure operation htext
  refine ⟨_, render_failure operation diagnostic, houtput, ?_⟩
  rw [houtput, List.append_cancel_left_eq, ← unwrapped_join diagnostic.rows_ne_nil,
    unwrapped_messageRest_iff]

/-- A message of one line, and tabs in the line that is shown. -/
theorem failure_shown_once_tabs :
    let diagnostic : Diagnostic :=
      ⟨.unknownDirective, "Unknown directive: 'b'", ⟨2, 1⟩, ⟨"a.kdl", "\t\tb\n"⟩⟩
    diagnostic.source.text ≠ "" ∧ '\n' ∉ diagnostic.message.toList ∧
      ∃ output, (Result.failure "check" diagnostic.error).render .plain = .ok output ∧
        output.toList = (headline "check" diagnostic).chars ++
          join '\n' (diagnostic.rows.map unwrapped) := by
  intro diagnostic
  have htext : diagnostic.source.text ≠ "" := by decide
  have hfeed : '\n' ∉ diagnostic.message.toList := by decide
  obtain ⟨output, houtput, -, honce⟩ := failure_shown_once_iff "check" diagnostic htext
  exact ⟨htext, hfeed, output, houtput, honce.mpr hfeed⟩

/-- The name of a node has a line feed, and what is behind it is shown again above the pointer. -/
theorem failure_shown_again :
    let diagnostic : Diagnostic :=
      ⟨.unknownDirective, "Unknown directive: 'a\nb'", ⟨0, 6⟩, ⟨"a.kdl", "\"a\\nb\""⟩⟩
    ∃ output, (Result.failure "check" diagnostic.error).render .plain = .ok output ∧
      output.toList = (headline "check" diagnostic).chars ++
        "b'\n  --> a.kdl:1:1\n   |\n 1 | \"a\\nb\"\n   | ^^^^^^".toList ∧
      output.toList ≠ (headline "check" diagnostic).chars ++
        join '\n' (diagnostic.rows.map unwrapped) := by
  intro diagnostic
  have htext : diagnostic.source.text ≠ "" := by decide
  have houtput := toList_print_failure "check" htext
  refine ⟨_, render_failure "check" diagnostic, ?_, ?_⟩
  · have hshown : messageRest diagnostic.message.toList ++ join '\n' diagnostic.rows =
        "b'\n  --> a.kdl:1:1\n   |\n 1 | \"a\\nb\"\n   | ^^^^^^".toList := by
      unfold diagnostic
      rfl
    rw [houtput, hshown, unwrapped_eq_self (by decide) (by simp [isDropped])]
  · rw [houtput, Ne, List.append_cancel_left_eq, ← unwrapped_join diagnostic.rows_ne_nil,
      unwrapped_messageRest_iff]
    decide

end Diagnostic

end ReverseProxy
