import ReverseProxy.Proofs.Kdl.Words

/-!
# Spellings of strings

Between quotation marks a character stands for itself, or it is written by a letter or by its code
point; a raw string may have any number of hash signs. So a string has many spellings. The reader
takes each of them for its string wherever it stands, and nothing else for a string
(`string_read_iff_spelled`).
-/

namespace ReverseProxy.Kdl

open Cursor (Takes)
open Decimal Text

def shortEscapes : List (Char × Char) :=
  [('n', '\n'), ('r', '\r'), ('t', '\t'), ('\\', '\\'), ('"', '"'), ('/', '/'), ('b', '\x08'),
    ('f', '\x0c'), ('s', ' ')]

/-- The ways to write a character between quotation marks. -/
inductive SpellsChar : List Char → Char → Prop
  | itself {c : Char} (hquote : c ≠ '"') (hescape : c ≠ '\\') : SpellsChar [c] c
  | short {letter c : Char} (hletter : (letter, c) ∈ shortEscapes) : SpellsChar ['\\', letter] c
  | codePoint {digits : List Char} {values : List Nat} {c : Char} (hne : digits ≠ [])
      (hlength : digits.length ≤ 6) (hvalues : digits.mapM hexValue? = some values)
      (hcode : positional 16 values = c.toNat) :
      SpellsChar ('\\' :: 'u' :: '\x7b' :: (digits ++ ['\x7d'])) c

inductive SpellsQuoted : List Char → List Char → Prop
  | close : SpellsQuoted ['"'] []
  | cons {spelling rest text : List Char} {c : Char} (hchar : SpellsChar spelling c)
      (hrest : SpellsQuoted rest text) : SpellsQuoted (spelling ++ rest) (c :: text)

def closingMark (hashes : Nat) : List Char := '"' :: List.replicate hashes '#'

/-- The ways to write a string. -/
inductive SpellsString : StringStart → List Char → List Char → Prop
  | quoted {spelling text : List Char} (hrest : SpellsQuoted spelling text) :
      SpellsString .quoted ('"' :: spelling) text
  | raw {letter : Bool} {hashes : Nat} {text : List Char} (hopens : letter = true ∨ 0 < hashes)
      (habsent : ¬closingMark hashes <:+: text) :
      SpellsString (.raw letter hashes)
        ((StringStart.raw letter hashes).mark ++ (text ++ closingMark hashes)) text

theorem escaped?_eq_some {letter c : Char} :
    escaped? letter = some c ↔ (letter, c) ∈ shortEscapes := by
  unfold escaped? shortEscapes
  split <;> simp_all [eq_comm]

/-- A code point is that of a character or of none. -/
theorem charOfCode?_eq_some {code : Nat} {c : Char} :
    charOfCode? code = some c ↔ code = c.toNat := by
  unfold charOfCode?
  constructor
  · intro hchar
    obtain ⟨hvalid, hsame⟩ := Option.ite_none_right_eq_some.mp hchar
    cases hsame
    rw [Char.ofNat, dif_pos hvalid]
    rfl
  · rintro rfl
    have hvalid : c.toNat.isValidChar := c.valid
    rw [if_pos hvalid, Char.ofNat_toNat]

section Quoted

variable {start opened count value offset : Nat} {digits chars : List Char} {values : List Nat}

theorem readQuoted_digits (hvalues : digits.mapM hexValue? = some values)
    (hcount : count + digits.length ≤ 6) (rest : List Char) :
    readQuoted start (.code opened count value) offset (digits ++ rest) =
      readQuoted start (.code opened (count + digits.length)
        (values.foldl (fun number digit => number * 16 + digit) value))
        (offset + digits.length) rest := by
  induction digits generalizing count value offset values with
  | nil =>
      cases hvalues
      rfl
  | cons c digits ih =>
      obtain ⟨digit, others, hdigit, hothers, rfl⟩ :=
        List.forall₂_cons_left_iff.mp (mapM_eq_some.mp hvalues)
      rw [List.length_cons] at hcount
      rw [List.cons_append, readQuoted_digit hdigit (by omega),
        ih (mapM_eq_some.mpr hothers) (by omega), add_length_cons, add_length_cons]
      rfl

/-- A brace ends a code point, and what follows is again outside an escape. -/
theorem readQuoted_codePoint {c : Char} (hne : digits ≠ []) (hlength : digits.length ≤ 6)
    (hvalues : digits.mapM hexValue? = some values) (hcode : positional 16 values = c.toNat)
    (rest : List Char) :
    readQuoted start (.code opened 0 0) offset (digits ++ '\x7d' :: rest) =
      (readQuoted start .plain (offset + digits.length + 1) rest).map (prepend c) := by
  have hmeant : (if '\x7d' = '\x7d' ∧ 0 < 0 + digits.length then
      charOfCode? (positional 16 values) else none) = some c := by
    rw [if_pos ⟨rfl, by simpa [List.length_pos_iff] using hne⟩]
    exact charOfCode?_eq_some.mpr hcode
  rw [readQuoted_digits hvalues (by omega)]
  exact readQuoted_code (by decide) hmeant

/-- A character is read back from any of its spellings. -/
theorem SpellsChar.readQuoted {spelling : List Char} {c : Char} (hchar : SpellsChar spelling c)
    (start offset : Nat) (rest : List Char) :
    readQuoted start .plain offset (spelling ++ rest) =
      (readQuoted start .plain (offset + spelling.length) rest).map (prepend c) := by
  cases hchar with
  | itself hquote hescape => exact readQuoted_char hquote hescape
  | @short letter _ hletter =>
      have hescape : Kdl.readQuoted start .plain offset ('\\' :: letter :: rest) =
          Kdl.readQuoted start (.escape offset) (offset + 1) (letter :: rest) := rfl
      exact hescape.trans (readQuoted_escaped (escaped?_eq_some.mpr hletter))
  | @codePoint digits values _ hne hlength hvalues hcode =>
      have hescape : Kdl.readQuoted start .plain offset
            ('\\' :: 'u' :: '\x7b' :: (digits ++ '\x7d' :: rest)) =
          Kdl.readQuoted start (.code offset 0 0) (offset + 3) (digits ++ '\x7d' :: rest) := rfl
      have hoffset : offset + ('\\' :: 'u' :: '\x7b' :: (digits ++ ['\x7d'])).length =
          offset + 3 + digits.length + 1 := by
        simp only [List.length_cons, List.length_append, List.length_nil]
        omega
      rw [hoffset]
      simp only [List.cons_append, List.append_assoc, List.nil_append]
      exact hescape.trans (readQuoted_codePoint hne hlength hvalues hcode rest)

/-- A string is read back from any of its spellings, up to the mark that closes it. -/
theorem SpellsQuoted.readQuoted {spelling text : List Char} (hspells : SpellsQuoted spelling text)
    (start offset : Nat) (rest : List Char) :
    readQuoted start .plain offset (spelling ++ rest) =
      .ok (text, ⟨offset + spelling.length, rest⟩) := by
  induction hspells generalizing offset with
  | close => rfl
  | cons hchar _ ih =>
      rw [List.append_assoc, hchar.readQuoted, ih, List.length_append, Nat.add_assoc]
      rfl

end Quoted

inductive Passed : QuotedState → List Char → Prop
  | plain : Passed .plain []
  | escape {opened : Nat} : Passed (.escape opened) ['\\']
  | code {opened : Nat} {digits : List Char} {values : List Nat} (hlength : digits.length ≤ 6)
      (hvalues : digits.mapM hexValue? = some values) :
      Passed (.code opened digits.length (positional 16 values))
        ('\\' :: 'u' :: '\x7b' :: digits)

theorem Passed.digit {opened count value : Nat} {passed : List Char} {c : Char} {digit : Nat}
    (hpassed : Passed (.code opened count value) passed) (hcount : count < 6)
    (hdigit : hexValue? c = some digit) :
    Passed (.code opened (count + 1) (value * 16 + digit)) (passed ++ [c]) := by
  cases hpassed with
  | @code _ digits values _ hvalues =>
      have hmore : (digits ++ [c]).mapM hexValue? = some (values ++ [digit]) := by
        rw [List.mapM_append, hvalues]
        simp [hdigit]
      have hlength : (digits ++ [c]).length = digits.length + 1 := List.length_append
      have hstep : Passed (.code opened _ _) _ := .code (by omega) hmore
      rwa [hlength, positional_concat] at hstep

/-- Whatever is read as a quoted string spells it. -/
theorem readQuoted_spells {start offset : Nat} {state : QuotedState}
    {passed chars content : List Char} {stop : Cursor} (hpassed : Passed state passed)
    (hread : readQuoted start state offset chars = .ok (content, stop)) :
    ∃ text, Takes ⟨offset, chars⟩ text stop ∧ SpellsQuoted (passed ++ text) content := by
  -- `passed` is what was read of an escape, which the characters behind it complete.
  fun_induction readQuoted start state offset chars generalizing passed content with
  | case1 | case5 | case8 | case9 | case11 | case13 => cases hread
  | case2 offset rest =>
      cases hpassed
      cases hread
      exact ⟨['"'], (Takes.refl _).cons _, .close⟩
  | case3 offset rest hquote ih =>
      cases hpassed
      obtain ⟨text, htakes, hspells⟩ := ih .escape hread
      exact ⟨_, htakes.cons _, hspells⟩
  | case4 offset c chars hquote hescape ih =>
      cases hpassed
      obtain ⟨⟨tail, after⟩, htail, ⟨⟩⟩ := except_map_eq_ok.mp hread
      obtain ⟨text, htakes, hspells⟩ := ih .plain htail
      have hall := SpellsQuoted.cons (.itself hquote hescape) hspells
      exact ⟨_, htakes.cons c, hall⟩
  | case6 opened offset chars ih =>
      cases hpassed
      have hnone : [].mapM hexValue? = some [] := rfl
      have hopened : Passed (.code opened 0 0) ['\\', 'u', '\x7b'] := .code (by decide) hnone
      obtain ⟨text, htakes, hspells⟩ := ih hopened hread
      exact ⟨_, (htakes.cons _).cons _, hspells⟩
  | case7 opened offset c chars hcode meant hmeant ih =>
      cases hpassed
      obtain ⟨⟨tail, after⟩, htail, ⟨⟩⟩ := except_map_eq_ok.mp hread
      obtain ⟨text, htakes, hspells⟩ := ih .plain htail
      have hall := SpellsQuoted.cons (.short (escaped?_eq_some.mp hmeant)) hspells
      exact ⟨_, htakes.cons c, hall⟩
  | case10 opened count value offset c chars digit hdigit hcount ih =>
      obtain ⟨text, htakes, hspells⟩ := ih (hpassed.digit hcount hdigit) hread
      rw [List.append_assoc] at hspells
      exact ⟨_, htakes.cons c, hspells⟩
  | case12 opened count value offset c chars hdigit meant hmeant ih =>
      obtain ⟨⟨hbrace, hcount⟩, hchar⟩ := Option.ite_none_right_eq_some.mp hmeant
      obtain ⟨⟨tail, after⟩, htail, ⟨⟩⟩ := except_map_eq_ok.mp hread
      obtain ⟨text, htakes, hspells⟩ := ih .plain htail
      refine ⟨_, htakes.cons c, ?_⟩
      cases hpassed with
      | @code _ digits values hlength hvalues =>
          have hspelling := SpellsChar.codePoint (List.ne_nil_of_length_pos hcount) hlength hvalues
            (charOfCode?_eq_some.mp hchar)
          have hall := SpellsQuoted.cons hspelling hspells
          rw [hbrace]
          simpa using hall

theorem readUntil?_mark {mark : List Char} (hmark : mark ≠ []) (offset : Nat) (rest : List Char) :
    readUntil? mark offset (mark ++ rest) = some ([], ⟨offset + mark.length, rest⟩) := by
  have hfound : mark.isPrefixOf (mark ++ rest) = true :=
    List.isPrefixOf_iff_prefix.mpr (List.prefix_append _ _)
  obtain ⟨c, others, rfl⟩ := List.exists_cons_of_ne_nil hmark
  rw [List.cons_append] at hfound ⊢
  rw [readUntil?, if_pos hfound, ← List.cons_append, List.drop_left]

/-- A closing mark does not begin within text that has none. -/
theorem not_closingMark_prefix {c : Char} {text : List Char} {hashes : Nat}
    (habsent : ¬closingMark hashes <:+: c :: text) (rest : List Char) :
    ¬closingMark hashes <+: c :: (text ++ (closingMark hashes ++ rest)) := by
  intro hmark
  have htext : c :: text <+: c :: (text ++ (closingMark hashes ++ rest)) :=
    List.prefix_append (c :: text) _
  rcases List.prefix_or_prefix_of_prefix hmark htext with hwithin | hbeyond
  · exact habsent hwithin.isInfix
  · -- The mark goes beyond the text, so one of its hash signs stands at the next quotation mark.
    obtain ⟨more, hmore⟩ := hbeyond
    have hhashes : text ++ more = List.replicate hashes '#' := (List.cons.inj hmore).2
    have hnext : more <+: closingMark hashes ++ rest := by
      have hboth : c :: text ++ more <+: c :: text ++ (closingMark hashes ++ rest) :=
        hmore.symm ▸ hmark
      exact (List.prefix_append_right_inj (c :: text)).mp hboth
    cases more with
    | nil =>
        rw [List.append_nil] at hmore
        exact habsent (hmore ▸ List.infix_rfl)
    | cons d more =>
        have hquote : d = '"' := (List.cons_prefix_cons.mp hnext).1
        have hhash : d = '#' :=
          List.eq_of_mem_replicate (hhashes ▸ List.mem_append_right text List.mem_cons_self)
        rw [hquote] at hhash
        cases hhash

/-- A raw string ends at the first closing mark, which is the one behind a content without any. -/
theorem readUntil?_closingMark {text : List Char} {hashes : Nat}
    (habsent : ¬closingMark hashes <:+: text) (offset : Nat) (rest : List Char) :
    readUntil? (closingMark hashes) offset (text ++ (closingMark hashes ++ rest)) =
      some (text, ⟨offset + (text ++ closingMark hashes).length, rest⟩) := by
  induction text generalizing offset with
  | nil => exact readUntil?_mark (List.cons_ne_nil _ _) offset rest
  | cons c text ih =>
      have hother : ¬(closingMark hashes).isPrefixOf
          (c :: (text ++ (closingMark hashes ++ rest))) = true := fun hfound =>
        not_closingMark_prefix habsent rest (List.isPrefixOf_iff_prefix.mp hfound)
      have hothers := ih fun hinfix => habsent (List.infix_cons hinfix)
      rw [List.cons_append, readUntil?, if_neg hother, hothers, List.cons_append, add_length_cons]
      rfl

theorem readUntil?_eq_some {mark chars content : List Char} {offset : Nat} {stop : Cursor}
    (hmark : mark ≠ []) (hread : readUntil? mark offset chars = some (content, stop)) :
    Takes ⟨offset, chars⟩ (content ++ mark) stop ∧ ¬mark <:+: content := by
  fun_induction readUntil? mark offset chars generalizing content with
  | case1 => cases hread
  | case2 offset c chars hfound =>
      cases hread
      obtain ⟨after, hafter⟩ := List.isPrefixOf_iff_prefix.mp hfound
      refine ⟨⟨?_, rfl⟩, fun hinfix => hmark (List.infix_nil.mp hinfix)⟩
      rw [List.nil_append, ← hafter, List.drop_left]
  | case3 offset c chars hother ih =>
      obtain ⟨⟨tail, after⟩, htail, ⟨⟩⟩ := Option.map_eq_some_iff.mp hread
      obtain ⟨htakes, habsent⟩ := ih htail
      refine ⟨htakes.cons c, fun hinfix => ?_⟩
      rcases List.infix_cons_iff.mp hinfix with hprefix | hinfix
      · have hchars : c :: chars = c :: tail ++ (mark ++ stop.rest) := by
          rw [List.cons_append, ← List.append_assoc]
          exact congrArg (c :: ·) htakes.1
        refine hother (List.isPrefixOf_iff_prefix.mpr ?_)
        rw [hchars]
        exact hprefix.trans (List.prefix_append _ _)
      · exact habsent hinfix

theorem stringStart?_raw {letter : Bool} {hashes : Nat} (hopens : letter = true ∨ 0 < hashes)
    (more : List Char) : stringStart? ((StringStart.raw letter hashes).mark ++ more) =
      some (.raw letter hashes) := by
  have hraw : rawStart? letter (List.replicate hashes '#' ++ '"' :: more) =
      some (.raw letter hashes) := rawStart?_eq_some.mpr ⟨hashes, more, rfl, rfl⟩
  cases letter with
  | true => simpa [StringStart.mark, stringStart?] using hraw
  | false =>
      obtain ⟨count, rfl⟩ := Nat.exists_eq_add_of_lt (hopens.resolve_left Bool.false_ne_true)
      simpa [StringStart.mark, List.replicate_succ, stringStart?] using hraw

theorem opens_of_stringStart? {chars : List Char} {letter : Bool} {hashes : Nat}
    (hopening : stringStart? chars = some (.raw letter hashes)) : letter = true ∨ 0 < hashes := by
  unfold stringStart? at hopening
  split at hopening
  · cases hopening
  · obtain ⟨_, _, -, ⟨⟩⟩ := rawStart?_eq_some.mp hopening
    exact .inl rfl
  · obtain ⟨_, more, htext, ⟨⟩⟩ := rawStart?_eq_some.mp hopening
    cases hashes with
    | zero => cases htext
    | succ hashes => exact .inr (Nat.succ_pos hashes)
  · cases hopening

theorem skip_mark (opening : StringStart) (offset : Nat) (more : List Char) :
    Cursor.skip ⟨offset, opening.mark ++ more⟩ opening.length =
      ⟨offset + opening.mark.length, more⟩ := by
  rw [Cursor.skip, ← opening.length_mark, List.drop_left]

theorem SpellsString.isString {opening : StringStart} {spelling text : List Char}
    (hspells : SpellsString opening spelling text) : IsString opening spelling text := by
  intro offset rest
  cases hspells with
  | @quoted spelling _ hrest =>
      refine ⟨rfl, ?_⟩
      have hinside := hrest.readQuoted offset (offset + 1) rest
      rw [add_length_cons]
      exact hinside
  | @raw letter hashes _ hopens habsent =>
      rw [List.append_assoc, List.append_assoc]
      refine ⟨stringStart?_raw hopens _, ?_⟩
      rw [readString, skip_mark]
      have hfound := readUntil?_closingMark habsent
        (offset + (StringStart.raw letter hashes).mark.length) rest
      rw [closingMark] at hfound
      simp only [closingMark, hfound, List.length_append, Nat.add_assoc]

/-- Whatever is read as a string is a spelling of it. -/
theorem readString_spells {opening : StringStart} {start stop : Cursor} {content : List Char}
    (hopening : stringStart? start.rest = some opening)
    (hread : readString opening start = .ok (content, stop)) :
    ∃ spelling, start.Takes spelling stop ∧ SpellsString opening spelling content := by
  obtain ⟨⟨more, hmore⟩, -⟩ := stringStart?_append hopening
  have hmark : start.Takes opening.mark ⟨start.offset + opening.mark.length, more⟩ := ⟨hmore, rfl⟩
  have hskip : start.skip opening.length = ⟨start.offset + opening.mark.length, more⟩ := by
    rw [← skip_mark, ← hmore]
  cases opening with
  | quoted =>
      simp only [readString, hskip] at hread
      obtain ⟨text, htakes, hspells⟩ := readQuoted_spells .plain hread
      exact ⟨_, hmark.trans htakes, .quoted hspells⟩
  | raw letter hashes =>
      simp only [readString, hskip] at hread
      split at hread
      · next hfound =>
        cases hread
        obtain ⟨htakes, habsent⟩ := readUntil?_eq_some (List.cons_ne_nil _ _) hfound
        exact ⟨_, hmark.trans htakes, .raw (opens_of_stringStart? hopening) habsent⟩
      · cases hread

theorem spellsChar_quoteChar (c : Char) : SpellsChar (quoteChar c) c := by
  unfold quoteChar
  split
  · exact .short (by decide)
  · exact .short (by decide)
  · exact .short (by decide)
  · exact .short (by decide)
  · exact .short (by decide)
  · next hescape hquote _ _ _ => exact .itself hquote hescape

theorem spellsQuoted_flatMap (text : List Char) :
    SpellsQuoted (text.flatMap quoteChar ++ ['"']) text := by
  induction text with
  | nil => exact .close
  | cons c text ih =>
      rw [List.flatMap_cons, List.append_assoc]
      exact .cons (spellsChar_quoteChar c) ih

/-- **What is read as a string.** Wherever they stand and whatever follows, characters are taken for
a string that opens in some way, and for no more and no less than that string, if and only if they
are one of its spellings. What is written for a string is one of them. -/
theorem string_read_iff_spelled (text : String) :
    (∀ (opening : StringStart) (spelling : List Char),
      (∀ offset rest, stringStart? (spelling ++ rest) = some opening ∧
        readString opening ⟨offset, spelling ++ rest⟩ =
          .ok (text.toList, ⟨offset + spelling.length, rest⟩)) ↔
        SpellsString opening spelling text.toList) ∧
    SpellsString .quoted (quote text).toList text.toList := by
  refine ⟨fun opening spelling => ⟨fun hstring => ?_, SpellsString.isString⟩, ?_⟩
  · obtain ⟨hopening, hread⟩ := hstring 0 []
    obtain ⟨found, htakes, hspells⟩ := readString_spells hopening hread
    have hsame : spelling = found := by simpa using htakes.1
    exact hsame ▸ hspells
  · rw [quote, String.toList_ofList]
    exact .quoted (spellsQuoted_flatMap text.toList)

end ReverseProxy.Kdl
