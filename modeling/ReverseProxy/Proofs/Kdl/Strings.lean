import ReverseProxy.Proofs.Kdl.Steps

/-!
# Tokens and quoted strings

A bare token is read up to the character that stops it, and a quoted string up to its closing mark,
whatever follows.
-/

namespace ReverseProxy.Kdl

def StopsWord (rest : List Char) : Prop := ∀ c ∈ rest.head?, c = ' ' ∨ c = '\n' ∨ c = '='

def IsToken (token : List Char) : Prop := token ≠ [] ∧ ∀ c ∈ token, isTokenChar c = true

instance (token : List Char) : Decidable (IsToken token) :=
  decidable_of_iff (token ≠ [] ∧ token.all isTokenChar = true) (and_congr_right' List.all_eq_true)

theorem stopsWord_cons {c : Char} (rest : List Char) (hstop : c = ' ' ∨ c = '\n' ∨ c = '=') :
    StopsWord (c :: rest) := by
  intro d hd
  cases hd
  exact hstop

def StopsEntry (rest : List Char) : Prop := ∀ c ∈ rest.head?, c = ' ' ∨ c = '\n'

theorem stopsEntry_cons {c : Char} (rest : List Char) (hstop : c = ' ' ∨ c = '\n') :
    StopsEntry (c :: rest) := by
  intro d hd
  cases hd
  exact hstop

theorem StopsEntry.stopsWord {rest : List Char} (hstop : StopsEntry rest) : StopsWord rest := by
  intro c hc
  rcases hstop c hc with hspace | hnewline
  · exact .inl hspace
  · exact .inr (.inl hnewline)

theorem StopsEntry.head_ne {rest : List Char} (hstop : StopsEntry rest) :
    rest.head? ≠ some '=' := by
  intro hhead
  rcases hstop '=' hhead with hspace | hnewline
  · cases hspace
  · cases hnewline

/-- What a bare token is read up to: no character of a token, and no quotation mark, which makes a
raw string of some tokens. -/
def EndsWord (rest : List Char) : Prop := ∀ c ∈ rest.head?, isTokenChar c = false ∧ c ≠ '"'

theorem StopsWord.endsWord {rest : List Char} (hstop : StopsWord rest) : EndsWord rest := by
  intro c hc
  rcases hstop c hc with rfl | rfl | rfl <;> decide

theorem Cursor.takeWhile_append {accept : Char → Bool} {run rest : List Char} (offset : Nat)
    (hrun : ∀ c ∈ run, accept c = true) (hrest : ∀ c ∈ rest.head?, accept c = false) :
    Cursor.takeWhile ⟨offset, run ++ rest⟩ accept = (run, ⟨offset + run.length, rest⟩) := by
  have htaken : (run ++ rest).takeWhile accept = run := by
    rw [List.takeWhile_append_of_pos hrun]
    cases rest with
    | nil => simp
    | cons c rest => simp [hrest c rfl]
  simp only [Cursor.takeWhile, htaken, Cursor.skip, List.drop_left]

/-- A token is read up to what ends a word. -/
theorem token_append {offset : Nat} {token rest : List Char}
    (htoken : ∀ c ∈ token, isTokenChar c = true) (hstop : EndsWord rest) :
    Cursor.token ⟨offset, token ++ rest⟩ = (token, ⟨offset + token.length, rest⟩) :=
  Cursor.takeWhile_append offset htoken fun c hc => (hstop c hc).1

/-- No quotation mark comes after the hash signs at the start of a token. -/
theorem rawStart?_token {letter : Bool} {token rest : List Char}
    (htoken : ∀ c ∈ token, isTokenChar c = true) (hstop : EndsWord rest) :
    rawStart? letter (token ++ rest) = none := by
  have hhead : ((token ++ rest).drop ((token ++ rest).takeWhile (· = '#')).length).head? ≠
      some '"' := by
    induction token with
    | nil =>
        cases rest with
        | nil => simp
        | cons c rest =>
            obtain ⟨htoken, hquote⟩ := hstop c rfl
            have hhash : c ≠ '#' := by
              rintro rfl
              revert htoken
              decide
            simp [hhash, hquote]
    | cons c token ih =>
        by_cases hhash : c = '#'
        · simpa [hhash] using ih fun d hd => htoken d (List.mem_cons_of_mem c hd)
        · have hquote : c ≠ '"' := by
            rintro rfl
            exact absurd (htoken '"' List.mem_cons_self) (by decide)
          simp [hhash, hquote]
  rw [rawStart?, if_neg hhead]

/-- A token, even an empty one, opens no string. -/
theorem stringStart?_token {token rest : List Char} (htoken : ∀ c ∈ token, isTokenChar c = true)
    (hstop : EndsWord rest) : stringStart? (token ++ rest) = none := by
  have hhead {c : Char} {others : List Char} (hchars : token ++ rest = c :: others) :
      c ≠ '"' ∧ (isTokenChar c = true → ∃ tail, token = c :: tail ∧ others = tail ++ rest) := by
    cases token with
    | nil =>
        obtain ⟨hother, hquote⟩ := hstop c (by rw [show rest = c :: others from hchars]; rfl)
        exact ⟨hquote, fun htoken => absurd htoken (by simp [hother])⟩
    | cons d tail =>
        obtain ⟨rfl, rfl⟩ := List.cons.inj hchars
        refine ⟨?_, fun _ => ⟨tail, rfl, rfl⟩⟩
        rintro rfl
        exact absurd (htoken '"' List.mem_cons_self) (by decide)
  unfold stringStart?
  split
  · next hquote => exact absurd rfl (hhead hquote).1
  · next hletter =>
    obtain ⟨tail, rfl, rfl⟩ := (hhead hletter).2 (by decide)
    exact rawStart?_token (fun d hd => htoken d (List.mem_cons_of_mem _ hd)) hstop
  · next hhash =>
    rw [← hhash]
    exact rawStart?_token htoken hstop
  · rfl

theorem IsToken.head_content {token : List Char} (htoken : IsToken token) :
    ∃ c rest, token = c :: rest ∧ isContent c = true := by
  obtain ⟨c, rest, rfl⟩ := List.exists_cons_of_ne_nil htoken.1
  exact ⟨c, rest, rfl, isContent_of_isTokenChar (htoken.2 c List.mem_cons_self)⟩

section Quoted

variable {start opened count value offset digit : Nat} {c meant : Char} {rest : List Char}

theorem readQuoted_char (hquote : c ≠ '"') (hescape : c ≠ '\\') :
    readQuoted start .plain offset (c :: rest) =
      (readQuoted start .plain (offset + 1) rest).map (prepend c) := by
  rw [readQuoted, if_neg hquote, if_neg hescape]

theorem readQuoted_escaped (hmeant : escaped? c = some meant) :
    readQuoted start (.escape opened) offset (c :: rest) =
      (readQuoted start .plain (offset + 1) rest).map (prepend meant) := by
  have hletter : c ≠ 'u' := by
    rintro rfl
    cases hmeant
  rw [readQuoted, hmeant]
  exact fun _ hc => absurd hc hletter

theorem readQuoted_digit (hdigit : Text.hexValue? c = some digit) (hcount : count < 6) :
    readQuoted start (.code opened count value) offset (c :: rest) =
      readQuoted start (.code opened (count + 1) (value * 16 + digit)) (offset + 1) rest := by
  rw [readQuoted, hdigit]
  exact if_pos hcount

theorem readQuoted_code (hdigit : Text.hexValue? c = none)
    (hmeant : (if c = '\x7d' ∧ 0 < count then charOfCode? value else none) = some meant) :
    readQuoted start (.code opened count value) offset (c :: rest) =
      (readQuoted start .plain (offset + 1) rest).map (prepend meant) := by
  rw [readQuoted, hdigit]
  dsimp only
  rw [hmeant]

end Quoted

/-- A character is read back from the way it is written between quotation marks. -/
theorem readQuoted_quoteChar (start offset : Nat) (c : Char) (rest : List Char) :
    readQuoted start .plain offset (quoteChar c ++ rest) =
      (readQuoted start .plain (offset + (quoteChar c).length) rest).map (prepend c) := by
  unfold quoteChar
  split
  · rfl
  · rfl
  · rfl
  · rfl
  · rfl
  · next hescape hquote _ _ _ =>
    rw [List.singleton_append, readQuoted_char hquote hescape]
    rfl

theorem readQuoted_flatMap (start offset : Nat) (text rest : List Char) :
    readQuoted start .plain offset (text.flatMap quoteChar ++ '"' :: rest) =
      .ok (text, ⟨offset + (text.flatMap quoteChar).length + 1, rest⟩) := by
  induction text generalizing offset with
  | nil => rfl
  | cons c text ih =>
      rw [List.flatMap_cons, List.append_assoc, readQuoted_quoteChar, ih]
      simp only [Except.map, prepend, List.length_append, Nat.add_assoc]

/-- A quoted text is read as what it was, whatever follows. -/
theorem readString_quoteChars (offset : Nat) (text rest : List Char) :
    readString .quoted ⟨offset, quoteChars text ++ rest⟩ =
      .ok (text, ⟨offset + (quoteChars text).length, rest⟩) := by
  have hinside := readQuoted_flatMap offset (offset + 1) text rest
  simp only [readString, quoteChars, StringStart.length, Cursor.skip, List.cons_append,
    List.drop_succ_cons, List.drop_zero, List.append_assoc, List.nil_append, hinside,
    List.length_cons, List.length_append, List.length_nil]
  congr 3
  omega

theorem stringStart?_quoteChars (text rest : List Char) :
    stringStart? (quoteChars text ++ rest) = some .quoted := rfl

/-- The ways in which a name is written: between quotation marks, or as a bare token. -/
inductive SpellsName : List Char → String → Prop
  | quoted (name : String) : SpellsName (quoteChars name.toList) name
  | bare {token : List Char} (htoken : IsToken token) : SpellsName token (String.ofList token)

theorem spellsName_of_isToken {name : String} (htoken : IsToken name.toList) :
    SpellsName name.toList name := by
  have hspelled := SpellsName.bare htoken
  rwa [String.ofList_toList] at hspelled

theorem SpellsName.head_content {text : List Char} {name : String} (hname : SpellsName text name) :
    ∃ c rest, text = c :: rest ∧ isContent c = true := by
  cases hname with
  | quoted => exact ⟨'"', _, rfl, rfl⟩
  | bare htoken => exact htoken.head_content

theorem SpellsName.head_append {text rest : List Char} {name : String}
    (hname : SpellsName text name) : ∃ c tail, text ++ rest = c :: tail ∧ isContent c = true := by
  obtain ⟨c, tail, rfl, hcontent⟩ := hname.head_content
  exact ⟨c, tail ++ rest, rfl, hcontent⟩

theorem skipType_content {offset : Nat} {text rest : List Char}
    (hhead : ∃ c rest, text = c :: rest ∧ isContent c = true) :
    skipType ⟨offset, text ++ rest⟩ = .ok ⟨offset, text ++ rest⟩ := by
  obtain ⟨c, tail, rfl, hcontent⟩ := hhead
  have hparen : c ≠ '(' := ne_of_isContent hcontent (by decide)
  unfold skipType
  split
  · next hopen => exact absurd (List.cons.inj hopen).1 hparen
  · rfl

/-- A name is read from either of its spellings. -/
theorem readName_spelled {text rest : List Char} {name : String} {offset : Nat}
    (hname : SpellsName text name) (hstop : StopsWord rest) :
    readName ⟨offset, text ++ rest⟩ = .ok (name, ⟨offset + text.length, rest⟩) := by
  cases hname with
  | quoted =>
      simp only [readName, stringStart?_quoteChars, readString_quoteChars, ok_bind,
        String.ofList_toList, pure_eq_ok]
  | @bare token htoken =>
      simp only [readName, stringStart?_token htoken.2 hstop.endsWord,
        token_append htoken.2 hstop.endsWord]
      split
      · next hnil => exact absurd (Prod.mk.inj hnil).1 htoken.1
      · next htaken =>
        cases htaken
        rfl

theorem isTokenChar_of_isBareChar {c : Char} (hbare : isBareChar c = true) :
    isTokenChar c = true := by
  have hmarks : ['\\', '/', '(', ')', '\x7b', '\x7d', '<', '>', ';', '[', ']', '=', ',',
      '"'].any isBareChar = false := by decide
  have hnewlines : ['\n', '\r', '\x0c', '\u0085', '\u2028', '\u2029'].any isBareChar = false := by
    decide
  have hspaces : [' ', '\t', '\ufeff', '\u00a0', '\u1680', '\u2000', '\u2001', '\u2002', '\u2003',
      '\u2004', '\u2005', '\u2006', '\u2007', '\u2008', '\u2009', '\u200a', '\u202f', '\u205f',
      '\u3000'].any isBareChar = false := by decide
  have hother {marks : List Char} (hmarks : marks.any isBareChar = false) : c ∉ marks := by
    intro hc
    exact List.any_eq_false.mp hmarks c hc hbare
  refine isTokenChar_iff.mpr ⟨hother hmarks, ?_, ?_⟩
  · simpa [isNewline] using hother hnewlines
  · simpa [isInlineSpace] using hother hspaces

end ReverseProxy.Kdl
