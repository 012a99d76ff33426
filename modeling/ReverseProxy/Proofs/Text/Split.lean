import ReverseProxy.Text.Split

/-!
# Splitting what was joined

Parts without the separator are found again in the text that joins them.
-/

namespace ReverseProxy.Text

variable {separator : Char}

theorem splitAll_append {part : List Char} (hpart : separator ∉ part) (rest : List Char) :
    splitAll separator (part ++ separator :: rest) = part :: splitAll separator rest := by
  induction part with
  | nil => rw [List.nil_append, splitAll, if_pos rfl]
  | cons c part ih =>
      have hother : c ≠ separator := fun hsame => hpart (hsame ▸ List.mem_cons_self)
      rw [List.cons_append, splitAll, if_neg hother,
        ih fun hmem => hpart (List.mem_cons_of_mem c hmem)]

/-- Text without the separator lengthens the part that it stands in front of. -/
theorem splitAll_extend {front : List Char} (hfront : separator ∉ front) (rest : List Char) :
    ∃ part parts, splitAll separator rest = part :: parts ∧
      splitAll separator (front ++ rest) = (front ++ part) :: parts := by
  obtain ⟨part, parts, hsplit⟩ := List.exists_cons_of_ne_nil (splitAll_ne_nil separator rest)
  refine ⟨part, parts, hsplit, ?_⟩
  induction front with
  | nil => exact hsplit
  | cons c front ih =>
      have hother : c ≠ separator := fun hsame => hfront (hsame ▸ List.mem_cons_self)
      rw [List.cons_append, splitAll, if_neg hother,
        ih fun hmem => hfront (List.mem_cons_of_mem c hmem)]
      rfl

/-- The first part goes up to the separator. -/
theorem exists_splitAll_eq_cons (separator : Char) (text : List Char) :
    ∃ parts, splitAll separator text = text.takeWhile (· ≠ separator) :: parts := by
  induction text with
  | nil => exact ⟨[], rfl⟩
  | cons c rest ih =>
      obtain ⟨parts, hparts⟩ := ih
      by_cases hsame : c = separator
      · exact ⟨_, by rw [splitAll, if_pos hsame, List.takeWhile_cons_of_neg (by simpa using hsame)]⟩
      · refine ⟨parts, ?_⟩
        rw [splitAll, if_neg hsame, hparts, List.takeWhile_cons_of_pos (by simpa using hsame)]

/-- A text is parts that the separator ends, and a last one that has not ended. -/
theorem exists_ended (separator : Char) (text : List Char) :
    ∃ (ended : List (List Char)) (last : List Char),
      text = ended.flatMap (· ++ [separator]) ++ last ∧ (∀ part ∈ ended, separator ∉ part) ∧
        separator ∉ last := by
  induction text with
  | nil => exact ⟨[], [], rfl, nofun, List.not_mem_nil⟩
  | cons c rest ih =>
      obtain ⟨ended, last, hrest, hended, hlast⟩ := ih
      by_cases hsame : c = separator
      · refine ⟨[] :: ended, last, ?_, List.forall_mem_cons.mpr ⟨List.not_mem_nil, hended⟩, hlast⟩
        rw [hsame, hrest]
        rfl
      · have hfront (part : List Char) (hpart : separator ∉ part) : separator ∉ c :: part :=
          fun hmem => (List.mem_cons.mp hmem).elim (fun h => hsame h.symm) hpart
        cases ended with
        | nil =>
            refine ⟨[], c :: last, ?_, nofun, hfront last hlast⟩
            rw [hrest]
            rfl
        | cons part ended =>
            obtain ⟨hpart, hended⟩ := List.forall_mem_cons.mp hended
            refine ⟨(c :: part) :: ended, last, ?_,
              List.forall_mem_cons.mpr ⟨hfront part hpart, hended⟩, hlast⟩
            rw [hrest]
            rfl

section Ended

variable {ended : List (List Char)} {last : List Char}

theorem splitAll_ended (hended : ∀ part ∈ ended, separator ∉ part) (rest : List Char) :
    splitAll separator (ended.flatMap (· ++ [separator]) ++ rest) =
      ended ++ splitAll separator rest := by
  induction ended with
  | nil => rfl
  | cons part ended ih =>
      obtain ⟨hpart, hended⟩ := List.forall_mem_cons.mp hended
      rw [List.flatMap_cons, List.append_assoc, List.append_assoc, List.singleton_append,
        splitAll_append hpart, ih hended, List.cons_append]

theorem count_ended (hended : ∀ part ∈ ended, separator ∉ part) (hlast : separator ∉ last) :
    (ended.flatMap (· ++ [separator]) ++ last).count separator = ended.length := by
  induction ended with
  | nil => exact List.count_eq_zero.mpr hlast
  | cons part ended ih =>
      obtain ⟨hpart, hended⟩ := List.forall_mem_cons.mp hended
      have hothers := ih hended
      rw [List.count_append] at hothers
      simp only [List.flatMap_cons, List.count_append, List.count_eq_zero.mpr hpart,
        List.count_singleton_self, List.length_cons]
      omega

/-- What has not ended is what stands behind the last separator. -/
theorem takeWhile_reverse_ended (hlast : separator ∉ last) :
    ((ended.flatMap (· ++ [separator]) ++ last).reverse.takeWhile (· ≠ separator)).reverse =
      last := by
  have hall : ∀ c ∈ last.reverse, decide (c ≠ separator) = true := fun c hc =>
    decide_eq_true fun hsame => hlast (hsame ▸ List.mem_reverse.mp hc)
  rw [List.reverse_append, List.takeWhile_append_of_pos hall, List.reverse_append,
    List.reverse_reverse]
  obtain rfl | ⟨front, part, rfl⟩ := List.eq_nil_or_concat ended
  · rfl
  · simp

theorem join_concat (ended : List (List Char)) (last : List Char) :
    join separator (ended ++ [last]) = ended.flatMap (· ++ [separator]) ++ last := by
  induction ended with
  | nil => rfl
  | cons part ended ih =>
      have hne : ended ++ [last] ≠ [] :=
        List.append_ne_nil_of_right_ne_nil ended (List.cons_ne_nil last [])
      obtain ⟨next, others, hothers⟩ := List.exists_cons_of_ne_nil hne
      rw [hothers] at ih
      rw [List.cons_append, hothers, join, ih, List.flatMap_cons]
      · simp
      · exact List.cons_ne_nil next others

end Ended

section Joined

variable {parts : List (List Char)}

/-- Parts without the separator are those of their text. -/
theorem splitAll_join (hne : parts ≠ []) (hparts : ∀ part ∈ parts, separator ∉ part) :
    splitAll separator (join separator parts) = parts := by
  obtain ⟨ended, last, rfl⟩ := (List.eq_nil_or_concat parts).resolve_left hne
  rw [List.concat_eq_append] at hparts ⊢
  obtain ⟨hended, hlast⟩ := List.forall_mem_append.mp hparts
  rw [join_concat, splitAll_ended hended, splitAll_of_not_mem (hlast last List.mem_cons_self)]

theorem splitAll_join_append (hne : parts ≠ []) (hparts : ∀ part ∈ parts, separator ∉ part)
    (rest : List Char) :
    splitAll separator (join separator parts ++ separator :: rest) =
      parts ++ splitAll separator rest := by
  obtain ⟨ended, last, rfl⟩ := (List.eq_nil_or_concat parts).resolve_left hne
  rw [List.concat_eq_append] at hparts ⊢
  rw [join_concat, ← splitAll_ended hparts]
  simp

end Joined

/-- The parts are all of a kind exactly if the text joins parts of that kind. -/
theorem forall_mem_splitAll {IsPart : List Char → Prop} {text : List Char}
    (hseparator : ∀ part, IsPart part → separator ∉ part) :
    (∀ part ∈ splitAll separator text, IsPart part) ↔
      ∃ parts, parts ≠ [] ∧ text = join separator parts ∧ ∀ part ∈ parts, IsPart part := by
  constructor
  · intro hall
    exact ⟨splitAll separator text, splitAll_ne_nil separator text,
      (join_splitAll separator text).symm, hall⟩
  · rintro ⟨parts, hne, rfl, hall⟩
    rwa [splitAll_join hne fun part hpart => hseparator part (hall part hpart)]

theorem intercalate_eq_join (parts : List (List Char)) :
    [separator].intercalate parts = join separator parts := by
  induction parts with
  | nil => rfl
  | cons part parts ih =>
      cases parts with
      | nil => simp [join]
      | cons next parts =>
          rw [List.intercalate_cons_cons, ih, List.append_assoc]
          rfl

/-- A character is the separator or stands in a part. -/
theorem mem_splitAll (separator : Char) {text : List Char} {c : Char} (hc : c ∈ text) :
    c = separator ∨ ∃ part ∈ splitAll separator text, c ∈ part := by
  induction text with
  | nil => cases hc
  | cons d rest ih =>
      by_cases hsame : d = separator
      · rw [splitAll, if_pos hsame]
        rcases List.mem_cons.mp hc with rfl | hrest
        · exact .inl hsame
        · rcases ih hrest with hc | ⟨part, hpart, hc⟩
          · exact .inl hc
          · exact .inr ⟨part, List.mem_cons_of_mem _ hpart, hc⟩
      · obtain ⟨first, others, hsplit⟩ :=
          List.exists_cons_of_ne_nil (splitAll_ne_nil separator rest)
        rw [splitAll, if_neg hsame, hsplit]
        rcases List.mem_cons.mp hc with rfl | hrest
        · exact .inr ⟨c :: first, List.mem_cons_self, List.mem_cons_self⟩
        · rcases ih hrest with hc | ⟨part, hpart, hc⟩
          · exact .inl hc
          · rw [hsplit] at hpart
            rcases List.mem_cons.mp hpart with rfl | hothers
            · exact .inr ⟨d :: part, List.mem_cons_self, List.mem_cons_of_mem d hc⟩
            · exact .inr ⟨part, List.mem_cons_of_mem _ hothers, hc⟩

/-- What stands in a part stands in the text and is not the separator. -/
theorem mem_of_mem_splitAll {text part : List Char} {c : Char}
    (hpart : part ∈ splitAll separator text) (hc : c ∈ part) : c ∈ text ∧ c ≠ separator := by
  induction text generalizing part with
  | nil =>
      rw [splitAll, List.mem_singleton] at hpart
      rw [hpart] at hc
      cases hc
  | cons d rest ih =>
      by_cases hsame : d = separator
      · rw [splitAll, if_pos hsame] at hpart
        rcases List.mem_cons.mp hpart with rfl | hpart
        · cases hc
        · exact (ih hpart hc).imp_left (List.mem_cons_of_mem d)
      · obtain ⟨first, others, hsplit⟩ :=
          List.exists_cons_of_ne_nil (splitAll_ne_nil separator rest)
        rw [splitAll, if_neg hsame, hsplit] at hpart
        have hrest {other : List Char} (hother : other ∈ first :: others) (hmem : c ∈ other) :
            c ∈ d :: rest ∧ c ≠ separator :=
          (ih (hsplit ▸ hother) hmem).imp_left (List.mem_cons_of_mem d)
        rcases List.mem_cons.mp hpart with rfl | hothers
        · rcases List.mem_cons.mp hc with rfl | hfirst
          · exact ⟨List.mem_cons_self, hsame⟩
          · exact hrest List.mem_cons_self hfirst
        · exact hrest (List.mem_cons_of_mem first hothers) hc

theorem length_le_count_join (separator : Char) (parts : List (List Char)) :
    parts.length ≤ (join separator parts).count separator + 1 := by
  induction parts with
  | nil => exact Nat.zero_le _
  | cons part parts ih =>
      cases parts with
      | nil => exact Nat.le_add_left 1 _
      | cons next parts =>
          have hjoin : join separator (part :: next :: parts) =
              part ++ separator :: join separator (next :: parts) := rfl
          rw [hjoin, List.count_append, List.count_cons_self, List.length_cons]
          omega

/-- After a separator at the end comes an empty part. -/
theorem nil_mem_tail_splitAll (front : List Char) :
    [] ∈ (splitAll separator (front ++ [separator])).tail := by
  induction front with
  | nil => simp [splitAll]
  | cons c front ih =>
      rw [List.cons_append, splitAll]
      split
      · exact List.mem_of_mem_tail ih
      · obtain ⟨first, others, hsplit⟩ :=
          List.exists_cons_of_ne_nil (splitAll_ne_nil separator (front ++ [separator]))
        rw [hsplit] at ih ⊢
        exact ih

/-- A text is split at the last separator, behind which there is none. -/
theorem splitLast?_append {after : List Char} (hafter : separator ∉ after) (before : List Char) :
    splitLast? separator (before ++ separator :: after) = some (before, after) := by
  induction before with
  | nil =>
      have hnone : splitLast? separator after = none := by
        cases hsplit : splitLast? separator after with
        | none => rfl
        | some found =>
            exact absurd (by simp [(splitLast?_eq_some hsplit).1]) hafter
      rw [List.nil_append, splitLast?, hnone]
      simp
  | cons c before ih => rw [List.cons_append, splitLast?, ih]

theorem splitFirst?_append {before : List Char} (hbefore : separator ∉ before)
    (after : List Char) :
    splitFirst? separator (before ++ separator :: after) = some (before, after) := by
  induction before with
  | nil => rw [List.nil_append, splitFirst?, if_pos rfl]
  | cons c before ih =>
      have hother : c ≠ separator := fun hsame => hbefore (hsame ▸ List.mem_cons_self)
      rw [List.cons_append, splitFirst?, if_neg hother,
        ih fun hmem => hbefore (List.mem_cons_of_mem c hmem)]
      rfl

theorem splitFirst?_eq_some {text before after : List Char}
    (hsplit : splitFirst? separator text = some (before, after)) :
    text = before ++ separator :: after := by
  induction text generalizing before with
  | nil => cases hsplit
  | cons c rest ih =>
      rw [splitFirst?] at hsplit
      split at hsplit
      · next hsame =>
        cases hsplit
        rw [hsame]
        rfl
      · obtain ⟨⟨front, back⟩, hfound, heq⟩ := Option.map_eq_some_iff.mp hsplit
        cases heq
        rw [ih hfound]
        rfl

theorem splitFirst?_eq_none {text : List Char} (htext : separator ∉ text) :
    splitFirst? separator text = none := by
  induction text with
  | nil => rfl
  | cons c rest ih =>
      have hother : c ≠ separator := fun hsame => htext (hsame ▸ List.mem_cons_self)
      rw [splitFirst?, if_neg hother, ih fun hmem => htext (List.mem_cons_of_mem c hmem)]
      rfl

theorem splitFirst?_eq_none_iff {text : List Char} :
    splitFirst? separator text = none ↔ separator ∉ text := by
  refine ⟨fun hnone hmem => ?_, splitFirst?_eq_none⟩
  induction text with
  | nil => cases hmem
  | cons c rest ih =>
      rw [splitFirst?] at hnone
      split at hnone
      · cases hnone
      · next hother =>
        have hrest := (List.mem_cons.mp hmem).resolve_left fun hsame => hother hsame.symm
        exact ih (Option.map_eq_none_iff.mp hnone) hrest

theorem splitFirst?_extend {text before after : List Char}
    (hsplit : splitFirst? separator text = some (before, after)) (more : List Char) :
    splitFirst? separator (text ++ more) = some (before, after ++ more) := by
  induction text generalizing before with
  | nil => cases hsplit
  | cons c rest ih =>
      rw [List.cons_append, splitFirst?]
      rw [splitFirst?] at hsplit
      split at hsplit
      · next hsame =>
        cases hsplit
        rw [if_pos hsame]
      · next hother =>
        obtain ⟨⟨front, back⟩, hfound, heq⟩ := Option.map_eq_some_iff.mp hsplit
        cases heq
        rw [if_neg hother, ih hfound]
        rfl

theorem splitAll_append_separator (front rest : List Char) :
    splitAll separator (front ++ separator :: rest) =
      splitAll separator front ++ splitAll separator rest := by
  obtain ⟨ended, last, rfl, hended, hlast⟩ := exists_ended separator front
  rw [List.append_assoc, splitAll_ended hended, splitAll_ended hended, splitAll_append hlast,
    splitAll_of_not_mem hlast, List.append_assoc]
  rfl

/-- There is one part more than there are separators. -/
theorem length_splitAll (text : List Char) :
    (splitAll separator text).length = text.count separator + 1 := by
  obtain ⟨ended, last, rfl, hended, hlast⟩ := exists_ended separator text
  rw [splitAll_ended hended, splitAll_of_not_mem hlast, count_ended hended hlast,
    List.length_append, List.length_singleton]

theorem join_append {parts others : List (List Char)} (hparts : parts ≠ [])
    (hothers : others ≠ []) :
    join separator (parts ++ others) =
      join separator parts ++ separator :: join separator others := by
  induction parts with
  | nil => exact absurd rfl hparts
  | cons part parts ih =>
      obtain ⟨first, more, rfl⟩ := List.exists_cons_of_ne_nil hothers
      cases parts with
      | nil => rfl
      | cons next parts =>
          change part ++ separator :: join separator (next :: parts ++ first :: more) =
            (part ++ separator :: join separator (next :: parts)) ++ _
          rw [ih (List.cons_ne_nil next parts), List.append_assoc, List.cons_append]

end ReverseProxy.Text
