import ReverseProxy.Proofs.Names.Canonical

/-!
# Which texts are qualified names

A name is a list of labels with a dot between them, and one more dot may follow. A label may have a
line feed behind it, which is not looked at and stays in the name; but for that, labels are of
letters, digits and hyphens only.
-/

namespace ReverseProxy.Fqdn

/-- Up to 63 letters, digits and hyphens, with no hyphen at either end. -/
structure IsLabel (label : List Char) : Prop where
  ne_nil : label ≠ []
  length_le : label.length ≤ maxLabelLength
  chars : ∀ c ∈ label, c.isAlphanum = true ∨ c = '-'
  first : label.head? ≠ some '-'
  last : label.getLast? ≠ some '-'

/-- A label, or one that is shorter by a character and has a line feed behind it. -/
def IsLooseLabel (label : List Char) : Prop :=
  IsLabel label ∨
    ∃ front, label = front ++ ['\n'] ∧ IsLabel front ∧ front.length < maxLabelLength

/-- Up to 253 characters that are parts with a dot between them. -/
structure IsDotted (IsPart : List Char → Prop) (name : List Char) : Prop where
  ne_nil : name ≠ []
  length_le : name.length ≤ maxLength
  parts : ∃ labels, labels ≠ [] ∧ name = Text.join '.' labels ∧ ∀ label ∈ labels, IsPart label

/-- Hyphens are inside of a label if there is one on neither end. -/
theorem hyphensInside_iff {label : List Char} :
    hyphensInside label = true ↔
      label ≠ [] ∧ label.head? ≠ some '-' ∧ label.getLast? ≠ some '-' := by
  rw [hyphensInside, Bool.and_eq_true]
  cases label with
  | nil => simp
  | cons c rest => simp [List.getLast?_cons]

theorem isLabel_iff {label : List Char} :
    IsLabel label ↔ label.all isLabelChar = true ∧ label.length ≤ maxLabelLength ∧
      hyphensInside label = true := by
  have hchars : label.all isLabelChar = true ↔ ∀ c ∈ label, c.isAlphanum = true ∨ c = '-' := by
    simp [isLabelChar]
  rw [hyphensInside_iff, hchars]
  constructor
  · rintro ⟨hne, hlength, hall, hfirst, hlast⟩
    exact ⟨hall, hlength, hne, hfirst, hlast⟩
  · rintro ⟨hall, hlength, hne, hfirst, hlast⟩
    exact ⟨hne, hlength, hall, hfirst, hlast⟩

theorem IsLabel.not_mem {label : List Char} (hlabel : IsLabel label) {c : Char}
    (hother : isLabelChar c = false) : c ∉ label := by
  intro hc
  have hmember := List.all_eq_true.mp (isLabel_iff.mp hlabel).1 c hc
  rw [hother] at hmember
  cases hmember

theorem checkLabel_iff {label : List Char} :
    checkLabel label = .ok () ↔ label ≠ [] ∧ (dropLineFeed label).all isLabelChar = true ∧
      label.length ≤ maxLabelLength ∧ hyphensInside (dropLineFeed label) = true := by
  unfold checkLabel
  generalize (dropLineFeed label).all isLabelChar = known
  generalize hyphensInside (dropLineFeed label) = inside
  by_cases hnil : label = []
  · simp [hnil]
  by_cases hlong : maxLabelLength < label.length
  · cases known <;> simp [hnil, hlong, Nat.not_le.mpr hlong]
  · cases known <;> cases inside <;> simp [hnil, hlong, Nat.le_of_not_lt hlong]

/-- The line feed does not count as a character of the label, but it counts for the length. -/
theorem checkLabel_eq_ok {label : List Char} :
    checkLabel label = .ok () ↔ IsLooseLabel label := by
  rw [checkLabel_iff, IsLooseLabel]
  by_cases hfeed : label.getLast? = some '\n'
  · obtain ⟨front, rfl⟩ := List.getLast?_eq_some_iff.mp hfeed
    have hdrop : dropLineFeed (front ++ ['\n']) = front := by
      rw [dropLineFeed, if_pos hfeed, List.dropLast_concat]
    have hnot : ¬IsLabel (front ++ ['\n']) := fun hlabel =>
      hlabel.not_mem (c := '\n') rfl (List.mem_append_right front List.mem_cons_self)
    rw [hdrop, List.length_append, List.length_singleton]
    constructor
    · rintro ⟨-, hall, hlength, hinside⟩
      exact .inr ⟨front, rfl, isLabel_iff.mpr ⟨hall, by omega, hinside⟩, by omega⟩
    · rintro (hlabel | ⟨other, hsame, hlabel, hlength⟩)
      · exact absurd hlabel hnot
      · obtain rfl := List.append_cancel_right hsame
        obtain ⟨hall, -, hinside⟩ := isLabel_iff.mp hlabel
        exact ⟨by simp, hall, by omega, hinside⟩
  · have hdrop : dropLineFeed label = label := if_neg hfeed
    have hnot : ¬∃ front, label = front ++ ['\n'] ∧ IsLabel front ∧
        front.length < maxLabelLength := by
      rintro ⟨front, rfl, -⟩
      exact hfeed List.getLast?_concat
    rw [hdrop, or_iff_left hnot, isLabel_iff]
    exact and_iff_right_of_imp fun hlabel => (hyphensInside_iff.mp hlabel.2.2).1

theorem IsLooseLabel.dot_not_mem {label : List Char} (hlabel : IsLooseLabel label) :
    '.' ∉ label := by
  rcases hlabel with hlabel | ⟨front, rfl, hlabel, -⟩
  · exact hlabel.not_mem rfl
  · have hfront : '.' ∉ front := hlabel.not_mem rfl
    simpa using hfront

/-- A loose label is one without its line feed. -/
theorem isLabel_iff_isLooseLabel {label : List Char} :
    IsLabel label ↔ IsLooseLabel label ∧ '\n' ∉ label := by
  constructor
  · intro hlabel
    exact ⟨.inl hlabel, hlabel.not_mem rfl⟩
  · rintro ⟨hlabel | ⟨front, rfl, -⟩, hfeed⟩
    · exact hlabel
    · exact absurd (List.mem_append_right front List.mem_cons_self) hfeed

/-- A name is made of its parts between dots, none of which has a dot in it. -/
theorem isDotted_iff {IsPart : List Char → Prop} (hdot : ∀ part, IsPart part → '.' ∉ part)
    {name : List Char} :
    IsDotted IsPart name ↔ name ≠ [] ∧ name.length ≤ maxLength ∧
      ∀ label ∈ Text.splitAll '.' name, IsPart label := by
  rw [Text.forall_mem_splitAll hdot]
  constructor
  · rintro ⟨hne, hlength, hparts⟩
    exact ⟨hne, hlength, hparts⟩
  · rintro ⟨hne, hlength, hparts⟩
    exact ⟨hne, hlength, hparts⟩

/-- What is accepted as a name, with or without a final dot. -/
theorem exists_parse_iff {text : String} :
    (∃ name, parse text = .ok name) ↔ IsDotted IsLooseLabel (dropFinalDot text.toList) := by
  rw [isDotted_iff fun _ => IsLooseLabel.dot_not_mem]
  simp only [parse_eq_ok, checkLabel_eq_ok, exists_and_left, exists_eq, and_true]

/-- Of what is accepted, the names without a line feed are those made of labels. -/
theorem isDotted_isLabel_iff {name : List Char} :
    IsDotted IsLabel name ↔ IsDotted IsLooseLabel name ∧ '\n' ∉ name := by
  have hfeed : '\n' ∉ name ↔ ∀ label ∈ Text.splitAll '.' name, '\n' ∉ label := by
    constructor
    · intro habsent label hlabel hmem
      exact habsent (Text.mem_of_mem_splitAll hlabel hmem).1
    · intro habsent hmem
      rcases Text.mem_splitAll '.' hmem with hdot | ⟨label, hlabel, hmem⟩
      · cases hdot
      · exact habsent label hlabel hmem
  rw [isDotted_iff fun _ hlabel => hlabel.not_mem rfl,
    isDotted_iff fun _ => IsLooseLabel.dot_not_mem, hfeed, and_assoc, and_assoc]
  simp only [isLabel_iff_isLooseLabel, forall_and]

theorem feed_mem_dropFinalDot {text : List Char} : '\n' ∈ dropFinalDot text ↔ '\n' ∈ text := by
  unfold dropFinalDot
  split
  · next hdot =>
    obtain ⟨front, rfl⟩ := List.getLast?_eq_some_iff.mp hdot.2
    simp
  · rfl

theorem intercalate_labels (name : Fqdn) : ".".intercalate name.labels = name.text := by
  have hparts : name.labels.map String.toList = Text.splitAll '.' name.text.toList := by
    simp [labels, Function.comp_def]
  apply String.toList_injective
  calc (".".intercalate name.labels).toList
      = ['.'].intercalate (name.labels.map String.toList) := String.toList_intercalate
    _ = Text.join '.' (Text.splitAll '.' name.text.toList) := by
        rw [Text.intercalate_eq_join, hparts]
    _ = name.text.toList := Text.join_splitAll '.' _

/-- **Which texts are qualified names.** Those that, without a dot at their end, are labels with a
dot between them, where a label may have a line feed behind it; they are all strict labels exactly
if there is no line feed in the text. The name has that text, its labels make it up, and it is read
as itself again. -/
theorem qualified_names_iff (text : String) :
    ((∃ name, parse text = .ok name) ↔ IsDotted IsLooseLabel (dropFinalDot text.toList)) ∧
      (IsDotted IsLabel (dropFinalDot text.toList) ↔
        (∃ name, parse text = .ok name) ∧ '\n' ∉ text.toList) ∧
      ∀ name, parse text = .ok name →
        name.text.toList = dropFinalDot text.toList ∧ ".".intercalate name.labels = name.text ∧
          parse name.text = .ok name := by
  refine ⟨exists_parse_iff, ?_, fun name hparse => ⟨?_, intercalate_labels name, parse_text hparse⟩⟩
  · rw [isDotted_isLabel_iff, exists_parse_iff, feed_mem_dropFinalDot]
  · rw [(parse_eq_ok.mp hparse).2, String.toList_ofList]

/-- A label with a line feed behind it makes a name, which is no list of strict labels. -/
theorem qualified_names_keep_feed :
    parse "a\n" = .ok ⟨"a\n"⟩ ∧ ¬IsDotted IsLabel (dropFinalDot "a\n".toList) := by
  refine ⟨by decide, fun hdotted => ?_⟩
  exact (isDotted_isLabel_iff.mp hdotted).2 (by decide)

end ReverseProxy.Fqdn
