import ReverseProxy.Proofs.Kdl.Blanks
import ReverseProxy.Proofs.Kdl.Values

/-!
# Words wherever they stand

A string ends at its own closing mark and a bare token at the first character that is none of it.
What is read of them, and of the names, values and entries made of them, depends on nothing before
the first character and on nothing behind the last one but for the character that comes next.
-/

namespace ReverseProxy.Kdl

open Cursor (Takes)

def QuotedState.openedAt (opened : Nat) : QuotedState → QuotedState
  | .plain => .plain
  | .escape _ => .escape opened
  | .code _ count value => .code opened count value

def PassesQuoted (state : QuotedState) (text content : List Char) : Prop :=
  ∀ start opened offset rest, readQuoted start (state.openedAt opened) offset (text ++ rest) =
    .ok (content, ⟨offset + text.length, rest⟩)

namespace PassesQuoted

variable {state after : QuotedState} {c : Char} {text content : List Char}

theorem cons (hpass : PassesQuoted after text content)
    (hstep : ∀ start opened offset rest, ∃ reopened,
      readQuoted start (state.openedAt opened) offset (c :: rest) =
        readQuoted start (after.openedAt reopened) (offset + 1) rest) :
    PassesQuoted state (c :: text) content := by
  intro start opened offset rest
  obtain ⟨reopened, hstep⟩ := hstep start opened offset (text ++ rest)
  rw [add_length_cons]
  exact hstep.trans (hpass start reopened _ rest)

/-- A character of the text stands for one of the string. -/
theorem prepend {meant : Char} (hpass : PassesQuoted .plain text content)
    (hstep : ∀ start opened offset rest,
      readQuoted start (state.openedAt opened) offset (c :: rest) =
        (readQuoted start .plain (offset + 1) rest).map (prepend meant)) :
    PassesQuoted state (c :: text) (meant :: content) := by
  intro start opened offset rest
  have hrest : readQuoted start .plain (offset + 1) (text ++ rest) =
      .ok (content, ⟨offset + 1 + text.length, rest⟩) := hpass start opened (offset + 1) rest
  rw [add_length_cons, List.cons_append, hstep, hrest]
  rfl

end PassesQuoted

/-- Whatever is read as the rest of a string is so in front of anything. -/
theorem readQuoted_takes {start offset : Nat} {state : QuotedState} {chars content : List Char}
    {stop : Cursor} (hread : readQuoted start state offset chars = .ok (content, stop)) :
    ∃ text, Takes ⟨offset, chars⟩ text stop ∧ PassesQuoted state text content := by
  fun_induction readQuoted start state offset chars generalizing content with
  | case1 | case5 | case8 | case9 | case11 | case13 => cases hread
  | case2 offset rest =>
      cases hread
      exact ⟨['"'], (Takes.refl _).cons _, fun _ _ _ _ => rfl⟩
  | case3 offset rest hquote ih =>
      obtain ⟨text, htakes, hpass⟩ := ih hread
      exact ⟨_, htakes.cons _, hpass.cons fun _ _ offset _ => ⟨offset, rfl⟩⟩
  | case4 offset c chars hquote hescape ih =>
      obtain ⟨⟨tail, after⟩, htail, ⟨⟩⟩ := except_map_eq_ok.mp hread
      obtain ⟨text, htakes, hpass⟩ := ih htail
      exact ⟨_, htakes.cons c, hpass.prepend fun _ _ _ _ => readQuoted_char hquote hescape⟩
  | case6 opened offset chars ih =>
      obtain ⟨text, htakes, hpass⟩ := ih hread
      refine ⟨_, (htakes.cons _).cons _, fun start opened offset rest => ?_⟩
      rw [add_length_cons, add_length_cons]
      exact hpass start opened _ rest
  | case7 opened offset c chars hcode meant hmeant ih =>
      obtain ⟨⟨tail, after⟩, htail, ⟨⟩⟩ := except_map_eq_ok.mp hread
      obtain ⟨text, htakes, hpass⟩ := ih htail
      exact ⟨_, htakes.cons c, hpass.prepend fun _ _ _ _ => readQuoted_escaped hmeant⟩
  | case10 opened count value offset c chars digit hdigit hcount ih =>
      obtain ⟨text, htakes, hpass⟩ := ih hread
      exact ⟨_, htakes.cons c, hpass.cons fun _ opened _ _ =>
        ⟨opened, readQuoted_digit hdigit hcount⟩⟩
  | case12 opened count value offset c chars hdigit meant hmeant ih =>
      obtain ⟨⟨tail, after⟩, htail, ⟨⟩⟩ := except_map_eq_ok.mp hread
      obtain ⟨text, htakes, hpass⟩ := ih htail
      exact ⟨_, htakes.cons c, hpass.prepend fun _ _ _ _ => readQuoted_code hdigit hmeant⟩

theorem readUntil?_takes {mark chars content : List Char} {offset : Nat} {stop : Cursor}
    (hmark : mark ≠ []) (hread : readUntil? mark offset chars = some (content, stop)) :
    ∃ text, Takes ⟨offset, chars⟩ text stop ∧ mark.length ≤ text.length ∧
      ∀ offset rest, readUntil? mark offset (text ++ rest) =
        some (content, ⟨offset + text.length, rest⟩) := by
  fun_induction readUntil? mark offset chars generalizing content with
  | case1 => cases hread
  | case2 offset c chars hfound =>
      cases hread
      obtain ⟨after, hafter⟩ := List.isPrefixOf_iff_prefix.mp hfound
      refine ⟨mark, ⟨?_, rfl⟩, Nat.le_refl _, fun offset rest => ?_⟩
      · rw [← hafter, List.drop_left]
      · obtain ⟨d, others, rfl⟩ := List.exists_cons_of_ne_nil hmark
        have hagain : (d :: others).isPrefixOf (d :: others ++ rest) = true :=
          List.isPrefixOf_iff_prefix.mpr (List.prefix_append _ _)
        rw [List.cons_append] at hagain ⊢
        rw [readUntil?, if_pos hagain, ← List.cons_append, List.drop_left]
  | case3 offset c chars hother ih =>
      obtain ⟨⟨tail, after⟩, htail, ⟨⟩⟩ := Option.map_eq_some_iff.mp hread
      obtain ⟨text, htakes, hlength, hpass⟩ := ih htail
      have hchars : chars = text ++ stop.rest := htakes.1
      refine ⟨_, htakes.cons c, Nat.le_succ_of_le hlength, fun offset rest => ?_⟩
      -- The mark is no longer than the text behind the character, so what follows plays no part.
      have hagain : ¬mark.isPrefixOf (c :: (text ++ rest)) = true := by
        intro hfound
        refine hother (List.isPrefixOf_iff_prefix.mpr ?_)
        have hwithin : mark <+: c :: text :=
          List.prefix_of_prefix_length_le (List.isPrefixOf_iff_prefix.mp hfound)
            (List.prefix_append (c :: text) rest) (Nat.le_succ_of_le hlength)
        rw [hchars]
        exact hwithin.trans (List.prefix_append (c :: text) stop.rest)
      rw [add_length_cons, List.cons_append, readUntil?, if_neg hagain, hpass]
      rfl

def StringStart.mark : StringStart → List Char
  | .quoted => ['"']
  | .raw true hashes => 'r' :: (List.replicate hashes '#' ++ ['"'])
  | .raw false hashes => List.replicate hashes '#' ++ ['"']

theorem StringStart.length_mark (opening : StringStart) : opening.mark.length = opening.length := by
  rcases opening with _ | ⟨_ | _, hashes⟩ <;> simp [mark, length]
  omega

theorem rawStart?_eq_some {letter : Bool} {text : List Char} {opening : StringStart} :
    rawStart? letter text = some opening ↔
      ∃ hashes more, text = List.replicate hashes '#' ++ '"' :: more ∧
        opening = .raw letter hashes := by
  rw [rawStart?]
  simp only [Option.ite_none_right_eq_some, Option.some.injEq]
  constructor
  · rintro ⟨hquote, rfl⟩
    obtain ⟨more, hmore⟩ := List.head?_eq_some_iff.mp hquote
    have hhashes : text.takeWhile (· = '#') =
        List.replicate (text.takeWhile (· = '#')).length '#' :=
      List.eq_replicate_iff.mpr ⟨rfl, fun c hc => by simpa using List.mem_takeWhile_imp hc⟩
    refine ⟨_, more, ?_, rfl⟩
    have htaken : text.takeWhile (· = '#') = text.take (text.takeWhile (· = '#')).length :=
      List.prefix_iff_eq_take.mp (List.takeWhile_prefix _)
    have hsplit := List.take_append_drop (text.takeWhile (· = '#')).length text
    rw [← htaken, hmore] at hsplit
    rw [← hhashes]
    exact hsplit.symm
  · rintro ⟨hashes, more, rfl, rfl⟩
    have htaken : (List.replicate hashes '#' ++ '"' :: more).takeWhile (· = '#') =
        List.replicate hashes '#' := by
      rw [List.takeWhile_append_of_pos (by simp), List.takeWhile_cons_of_neg (by decide),
        List.append_nil]
    rw [htaken, List.length_replicate]
    exact ⟨by simp, rfl⟩

/-- How a string opens is decided by the marks in front of its content. -/
theorem stringStart?_append {chars : List Char} {opening : StringStart}
    (hopening : stringStart? chars = some opening) :
    (∃ more, chars = opening.mark ++ more) ∧
      ∀ rest, stringStart? (opening.mark ++ rest) = some opening := by
  unfold stringStart? at hopening
  split at hopening
  · cases hopening
    exact ⟨⟨_, rfl⟩, fun _ => rfl⟩
  · obtain ⟨hashes, more, rfl, rfl⟩ := rawStart?_eq_some.mp hopening
    refine ⟨⟨more, by simp [StringStart.mark]⟩, fun rest => ?_⟩
    exact rawStart?_eq_some.mpr ⟨hashes, rest, by simp, rfl⟩
  · obtain ⟨hashes, more, htext, rfl⟩ := rawStart?_eq_some.mp hopening
    cases hashes with
    | zero => cases htext
    | succ hashes =>
        refine ⟨⟨more, by rw [htext]; simp [StringStart.mark]⟩, fun rest => ?_⟩
        have hraw : rawStart? false ('#' :: (List.replicate hashes '#' ++ '"' :: rest)) =
            some (.raw false (hashes + 1)) := rawStart?_eq_some.mpr ⟨hashes + 1, rest, rfl, rfl⟩
        simpa [StringStart.mark, List.replicate_succ, stringStart?] using hraw
  · cases hopening

def IsString (opening : StringStart) (text content : List Char) : Prop :=
  ∀ offset rest, stringStart? (text ++ rest) = some opening ∧
    readString opening ⟨offset, text ++ rest⟩ = .ok (content, ⟨offset + text.length, rest⟩)

/-- Whatever is read as a string is one wherever it stands. -/
theorem readString_takes {opening : StringStart} {start stop : Cursor} {content : List Char}
    (hopening : stringStart? start.rest = some opening)
    (hread : readString opening start = .ok (content, stop)) :
    ∃ text, start.Takes text stop ∧ IsString opening text content := by
  obtain ⟨⟨more, hmore⟩, hagain⟩ := stringStart?_append hopening
  have hinside : start.skip opening.length = ⟨start.offset + opening.mark.length, more⟩ := by
    rw [Cursor.skip, hmore, ← opening.length_mark, List.drop_left]
  have hskip (offset : Nat) (text : List Char) :
      Cursor.skip ⟨offset, opening.mark ++ text⟩ opening.length =
        ⟨offset + opening.mark.length, text⟩ := by
    rw [Cursor.skip, ← opening.length_mark, List.drop_left]
  have hjoined {text : List Char}
      (htakes : Takes ⟨start.offset + opening.mark.length, more⟩ text stop) :
      start.Takes (opening.mark ++ text) stop := by
    have hmark : start.Takes opening.mark ⟨start.offset + opening.mark.length, more⟩ := ⟨hmore, rfl⟩
    exact hmark.trans htakes
  cases opening with
  | quoted =>
      simp only [readString, hinside] at hread
      obtain ⟨text, htakes, hpass⟩ := readQuoted_takes hread
      refine ⟨_, hjoined htakes, fun offset rest => ⟨?_, ?_⟩⟩
      · rw [List.append_assoc]
        exact hagain (text ++ rest)
      · rw [List.append_assoc, readString, hskip, List.length_append, ← Nat.add_assoc]
        exact hpass offset 0 _ rest
  | raw letter hashes =>
      simp only [readString, hinside] at hread
      split at hread
      · next hfound =>
        cases hread
        obtain ⟨text, htakes, -, hpass⟩ := readUntil?_takes (List.cons_ne_nil _ _) hfound
        refine ⟨_, hjoined htakes, fun offset rest => ⟨?_, ?_⟩⟩
        · rw [List.append_assoc]
          exact hagain (text ++ rest)
        · rw [List.append_assoc, readString, hskip, List.length_append, ← Nat.add_assoc]
          simp only [hpass]
      · cases hread

theorem head_content_of_stringStart? {chars : List Char} {opening : StringStart}
    (hopening : stringStart? chars = some opening) :
    ∃ c rest, chars = c :: rest ∧ isContent c = true := by
  unfold stringStart? at hopening
  split at hopening
  · exact ⟨_, _, rfl, by decide⟩
  · exact ⟨_, _, rfl, by decide⟩
  · exact ⟨_, _, rfl, by decide⟩
  · cases hopening

theorem IsString.head_content {opening : StringStart} {text content : List Char}
    (hstring : IsString opening text content) :
    ∃ c rest, text = c :: rest ∧ isContent c = true := by
  have hopening := (hstring 0 []).1
  rw [List.append_nil] at hopening
  exact head_content_of_stringStart? hopening

/-- A string or a bare token: its text, its content, and what it stands for as a value. -/
inductive IsWord : List Char → List Char → (Cursor → Reading Scalar) → Prop
  | string {opening : StringStart} {text content : List Char}
      (hstring : IsString opening text content) :
      IsWord text content fun _ => .ok (.string (String.ofList content))
  | token {token : List Char} (htoken : IsToken token) : IsWord token token (interpret token)

theorem IsWord.head_content {text content : List Char} {value : Cursor → Reading Scalar}
    (hword : IsWord text content value) : ∃ c rest, text = c :: rest ∧ isContent c = true := by
  cases hword with
  | string hstring => exact hstring.head_content
  | token htoken => exact htoken.head_content

theorem IsWord.head_append {text content : List Char} {value : Cursor → Reading Scalar}
    (hword : IsWord text content value) (rest : List Char) :
    ∃ c tail, text ++ rest = c :: tail ∧ isContent c = true := by
  obtain ⟨c, tail, rfl, hcontent⟩ := hword.head_content
  exact ⟨c, tail ++ rest, rfl, hcontent⟩

/-- Where a value stands shows in its failures only. -/
theorem interpret_congr {token : List Char} {start : Cursor} {value : Scalar}
    (hvalue : interpret token start = .ok value) (other : Cursor) :
    interpret token other = .ok value := by
  unfold interpret at hvalue ⊢
  split at hvalue
  · exact hvalue
  · split at hvalue
    · split at hvalue
      · exact hvalue
      · cases hvalue
    · split at hvalue
      · exact hvalue
      · next hnumber =>
        split at hvalue
        · cases hvalue
        · next hnumeric =>
          split at hvalue
          · cases hvalue
          · next hhash => rw [← hvalue, if_neg hnumeric, if_neg hhash]

/-- Where a word stands does not change the value that it is read as. -/
theorem IsWord.value_congr {text content : List Char} {value : Cursor → Reading Scalar}
    {start : Cursor} {scalar : Scalar} (hword : IsWord text content value)
    (hvalue : value start = .ok scalar) (other : Cursor) : value other = .ok scalar := by
  cases hword with
  | string => exact hvalue
  | token => exact interpret_congr hvalue other

theorem Cursor.takes_takeWhile (start : Cursor) (accept : Char → Bool) :
    start.Takes (start.takeWhile accept).1 (start.takeWhile accept).2 ∧
      (∀ c ∈ (start.takeWhile accept).1, accept c = true) ∧
      ∀ c ∈ (start.takeWhile accept).2.rest.head?, accept c = false := by
  have hsplit : start.rest.takeWhile accept ++ start.rest.dropWhile accept = start.rest :=
    List.takeWhile_append_dropWhile
  have hdrop := congrArg (List.drop (start.rest.takeWhile accept).length) hsplit
  rw [List.drop_left] at hdrop
  simp only [takeWhile, skip, ← hdrop]
  refine ⟨⟨hsplit.symm, rfl⟩, fun c hc => List.mem_takeWhile_imp hc, fun c hc => ?_⟩
  have hhead := List.head?_dropWhile_not accept start.rest
  rwa [Option.mem_def.mp hc] at hhead

theorem takes_isToken {start after : Cursor} {token : List Char} (hne : token = [] → False)
    (htoken : start.token = (token, after)) : start.Takes token after ∧ IsToken token := by
  obtain ⟨htakes, hchars, -⟩ := start.takes_takeWhile isTokenChar
  rw [show start.takeWhile isTokenChar = _ from htoken] at htakes hchars
  exact ⟨htakes, hne, hchars⟩

structure IsType (text : List Char) : Prop where
  head : ∀ c ∈ text.head?, c = '('
  skips : ∀ offset rest, rest.head? ≠ some '(' →
    skipType ⟨offset, text ++ rest⟩ = .ok ⟨offset + text.length, rest⟩

theorem isType_nil : IsType [] where
  head := nofun
  skips offset rest hrest := by
    unfold skipType
    split
    · next hopen =>
      rw [show rest = _ from hopen] at hrest
      exact absurd rfl hrest
    · rfl

theorem endsWord_mark {c : Char} (rest : List Char) (hmark : c = '=' ∨ c = ')') :
    EndsWord (c :: rest) := by
  intro d hd
  cases hd
  rcases hmark with rfl | rfl <;> decide

theorem skipType_takes {start stop : Cursor} (hread : skipType start = .ok stop) :
    ∃ text, start.Takes text stop ∧ IsType text := by
  unfold skipType at hread
  split at hread
  · next rest hrest =>
    have hopen : start.Takes ['('] ⟨start.offset + 1, rest⟩ := ⟨hrest, rfl⟩
    have hlength (offset : Nat) (text : List Char) :
        offset + (['('] ++ (text ++ [')'])).length = offset + 1 + text.length + 1 := by
      simp only [List.length_append, List.length_cons, List.length_nil]
      omega
    have hclose {after : Cursor} {others : List Char} (hothers : after.rest = ')' :: others) :
        after.Takes [')'] ⟨after.offset + 1, others⟩ := ⟨hothers, rfl⟩
    cases hopening : stringStart? rest with
    | some opening =>
        simp only [hopening, bind_eq_ok, map_eq_ok] at hread
        obtain ⟨_, ⟨⟨content, after⟩, hfound, rfl⟩, hread⟩ := hread
        obtain ⟨text, htakes, hstring⟩ := readString_takes hopening hfound
        split at hread
        · next others hothers =>
          cases hread
          refine ⟨_, hopen.trans (htakes.trans (hclose hothers)), ?_, fun offset more _ => ?_⟩
          · rintro c ⟨⟩
            rfl
          · obtain ⟨hagain, hskip⟩ := hstring (offset + 1) (')' :: more)
            rw [hlength, List.append_assoc, List.append_assoc]
            simp only [List.singleton_append, skipType, hagain, hskip, map_ok, ok_bind,
              pure_eq_ok]
        · cases hread
    | none =>
        simp only [hopening, pure_eq_ok, ok_bind] at hread
        split at hread
        · next others hothers =>
          cases hread
          obtain ⟨htakes, htoken, -⟩ :=
            Cursor.takes_takeWhile ⟨start.offset + 1, rest⟩ isTokenChar
          refine ⟨_, hopen.trans (htakes.trans (hclose hothers)), ?_, fun offset more _ => ?_⟩
          · rintro c ⟨⟩
            rfl
          · have hends : EndsWord (')' :: more) := endsWord_mark more (.inr rfl)
            rw [hlength, List.append_assoc, List.append_assoc]
            simp only [List.singleton_append, skipType, stringStart?_token htoken hends,
              token_append htoken hends, pure_eq_ok, ok_bind]
        · cases hread
  · next hother =>
    cases hread
    exact ⟨[], .refl start, isType_nil⟩

theorem IsWord.readName {text content rest : List Char} {value : Cursor → Reading Scalar}
    (hword : IsWord text content value) (hends : EndsWord rest) (offset : Nat) :
    readName ⟨offset, text ++ rest⟩ =
      .ok (String.ofList content, ⟨offset + text.length, rest⟩) := by
  cases hword with
  | string hstring =>
      obtain ⟨hopening, hread⟩ := hstring offset rest
      simp only [Kdl.readName, hopening, hread, ok_bind, pure_eq_ok]
  | token htoken =>
      simp only [Kdl.readName, stringStart?_token htoken.2 hends, token_append htoken.2 hends]
      split
      · next hnil => exact absurd (Prod.mk.inj hnil).1 htoken.1
      · next htaken =>
        cases htaken
        rfl

/-- Whatever is read as a name is a word. -/
theorem readName_takes {start stop : Cursor} {name : String}
    (hread : readName start = .ok (name, stop)) :
    ∃ text content value, start.Takes text stop ∧ IsWord text content value ∧
      name = String.ofList content := by
  unfold Kdl.readName at hread
  split at hread
  · next opening hopening =>
    obtain ⟨⟨content, after⟩, hstring, hname⟩ := bind_eq_ok.mp hread
    cases hname
    obtain ⟨text, htakes, hword⟩ := readString_takes hopening hstring
    exact ⟨text, content, _, htakes, .string hword, rfl⟩
  · split at hread
    · cases hread
    · next token after hne htoken =>
      cases hread
      obtain ⟨htakes, hword⟩ := takes_isToken hne htoken
      exact ⟨token, token, _, htakes, .token hword, rfl⟩

/-- No type annotation is in front of a word. -/
theorem IsWord.head_ne_paren {text content : List Char} {value : Cursor → Reading Scalar}
    (hword : IsWord text content value) (rest : List Char) :
    (text ++ rest).head? ≠ some '(' := by
  obtain ⟨c, tail, htext, hcontent⟩ := hword.head_append rest
  rw [htext]
  rintro ⟨⟩
  cases hcontent

theorem IsWord.readValue {type text content rest : List Char} {value : Cursor → Reading Scalar}
    {scalar : Scalar} (htype : IsType type) (hword : IsWord text content value)
    (hvalue : ∀ cursor, value cursor = .ok scalar) (hends : EndsWord rest) (offset : Nat) :
    readValue ⟨offset, type ++ (text ++ rest)⟩ =
      .ok (scalar, ⟨offset + type.length + text.length, rest⟩) := by
  rw [Kdl.readValue, htype.skips offset _ (hword.head_ne_paren rest), ok_bind]
  cases hword with
  | string hstring =>
      obtain ⟨hopening, hread⟩ := hstring (offset + type.length) rest
      cases hvalue ⟨0, []⟩
      simp only [hopening, hread, ok_bind, pure_eq_ok]
  | token htoken =>
      simp only [stringStart?_token htoken.2 hends, token_append htoken.2 hends]
      split
      · next hnil => exact absurd (Prod.mk.inj hnil).1 htoken.1
      · next htaken =>
        cases htaken
        rw [hvalue]
        rfl

/-- Whatever is read as a value is a word with a type in front of it, if there is one. -/
theorem readValue_takes {start stop : Cursor} {scalar : Scalar}
    (hread : readValue start = .ok (scalar, stop)) :
    ∃ type text content value, start.Takes (type ++ text) stop ∧ IsType type ∧
      IsWord text content value ∧ ∀ cursor, value cursor = .ok scalar := by
  obtain ⟨middle, hmiddle, hread⟩ := bind_eq_ok.mp hread
  obtain ⟨type, htype, histype⟩ := skipType_takes hmiddle
  split at hread
  · next opening hopening =>
    obtain ⟨⟨content, after⟩, hstring, hvalue⟩ := bind_eq_ok.mp hread
    cases hvalue
    obtain ⟨text, htakes, hword⟩ := readString_takes hopening hstring
    exact ⟨type, text, content, _, htype.trans htakes, histype, .string hword, fun _ => rfl⟩
  · split at hread
    · cases hread
    · next token after hne htoken =>
      obtain ⟨value, hvalue, hfound⟩ := bind_eq_ok.mp hread
      cases hfound
      obtain ⟨htakes, hword⟩ := takes_isToken hne htoken
      exact ⟨type, token, token, _, htype.trans htakes, histype, .token hword,
        interpret_congr hvalue⟩

/-- What an entry is read up to: the end of a word that makes no property of it. -/
def EndsEntry (rest : List Char) : Prop := ∀ c ∈ rest.head?, isContent c = false

theorem EndsEntry.endsWord {rest : List Char} (hends : EndsEntry rest) : EndsWord rest := by
  intro c hc
  have hother := hends c hc
  simp only [isContent, Bool.or_eq_false_iff, decide_eq_false_iff_not] at hother
  exact hother.1

theorem EndsEntry.head_ne {rest : List Char} (hends : EndsEntry rest) :
    rest.head? ≠ some '=' := by
  intro hhead
  have hother := hends '=' hhead
  revert hother
  decide

/-- An entry, wherever it stands; its span is said from its own beginning. -/
structure IsEntry (text : List Char) (entry : Entry) : Prop where
  head : ∃ c rest, text = c :: rest ∧ startsElement c = true
  span_eq : entry.span = ⟨0, text.length⟩
  reads : ∀ offset rest, EndsEntry rest →
    readEntry ⟨offset, text ++ rest⟩ = .ok (entry.shift offset, ⟨offset + text.length, rest⟩)

theorem IsEntry.span_shift {text : List Char} {entry : Entry} (hentry : IsEntry text entry)
    (distance : Nat) : (entry.shift distance).span = ⟨distance, text.length⟩ := by
  rw [Entry.shift, hentry.span_eq, Span.shift, Nat.zero_add]

/-- The first word of an entry, after which it may turn out to be a property. -/
theorem IsWord.readEntry {type text content rest : List Char} {value : Cursor → Reading Scalar}
    (htype : IsType type) (hword : IsWord text content value) (hends : EndsWord rest)
    (offset : Nat) :
    readEntry ⟨offset, type ++ (text ++ rest)⟩ =
      finishEntry ⟨offset, type ++ (text ++ rest)⟩ content
        ⟨offset + type.length + text.length, rest⟩
        (value ⟨offset + type.length, text ++ rest⟩) := by
  rw [Kdl.readEntry, htype.skips offset _ (hword.head_ne_paren rest), ok_bind]
  cases hword with
  | string hstring =>
      obtain ⟨hopening, hread⟩ := hstring (offset + type.length) rest
      simp only [hopening, hread, ok_bind]
  | token htoken =>
      simp only [stringStart?_token htoken.2 hends, token_append htoken.2 hends]
      split
      · next hnil => exact absurd (Prod.mk.inj hnil).1 htoken.1
      · next htaken =>
        cases htaken
        rfl

theorem readEntry_word {start stop : Cursor} {entry : Entry}
    (hread : readEntry start = .ok (entry, stop)) :
    ∃ type text content value cursor after, start.Takes (type ++ text) after ∧ IsType type ∧
      IsWord text content value ∧
      finishEntry start content after (value cursor) = .ok (entry, stop) := by
  obtain ⟨middle, hmiddle, hread⟩ := bind_eq_ok.mp hread
  obtain ⟨type, htype, histype⟩ := skipType_takes hmiddle
  split at hread
  · next opening hopening =>
    obtain ⟨⟨content, after⟩, hstring, hread⟩ := bind_eq_ok.mp hread
    obtain ⟨text, htakes, hword⟩ := readString_takes hopening hstring
    exact ⟨type, text, content, _, middle, after, htype.trans htakes, histype, .string hword,
      hread⟩
  · split at hread
    · cases hread
    · next token after hne htoken =>
      obtain ⟨htakes, hword⟩ := takes_isToken hne htoken
      exact ⟨type, token, token, _, middle, after, htype.trans htakes, histype, .token hword,
        hread⟩

/-- A type annotation and a word start like a word or like an annotation. -/
theorem head_type_word {type text content : List Char} {value : Cursor → Reading Scalar}
    (htype : IsType type) (hword : IsWord text content value) (rest : List Char) :
    ∃ c tail, type ++ (text ++ rest) = c :: tail ∧ startsElement c = true := by
  cases type with
  | nil =>
      obtain ⟨c, tail, htext, hcontent⟩ := hword.head_append rest
      exact ⟨c, tail, htext, startsElement_of_isContent hcontent⟩
  | cons c tail =>
      cases htype.head c rfl
      exact ⟨'(', _, rfl, rfl⟩

theorem IsEntry.positional {type text content : List Char} {value : Cursor → Reading Scalar}
    {scalar : Scalar} (htype : IsType type) (hword : IsWord text content value)
    (hvalue : ∀ cursor, value cursor = .ok scalar) :
    IsEntry (type ++ text) ⟨none, scalar, ⟨0, (type ++ text).length⟩⟩ where
  head := by
    have hhead := head_type_word htype hword []
    rwa [List.append_nil] at hhead
  span_eq := rfl
  reads offset rest hends := by
    rw [List.append_assoc, hword.readEntry htype hends.endsWord, hvalue,
      finishEntry_positional hends.head_ne]
    simp only [Entry.shift, Span.shift, Cursor.spanTo, List.length_append, Nat.zero_add,
      Nat.add_assoc, Nat.add_sub_cancel_left]

theorem IsEntry.property {type text content type' text' content' : List Char}
    {value value' : Cursor → Reading Scalar} {scalar : Scalar} (htype : IsType type)
    (hword : IsWord text content value) (htype' : IsType type')
    (hword' : IsWord text' content' value') (hvalue' : ∀ cursor, value' cursor = .ok scalar) :
    IsEntry (type ++ text ++ (['='] ++ (type' ++ text')))
      ⟨some (String.ofList content), scalar,
        ⟨0, (type ++ text ++ (['='] ++ (type' ++ text'))).length⟩⟩ where
  head := by
    rw [List.append_assoc]
    exact head_type_word htype hword _
  span_eq := rfl
  reads offset rest hends := by
    have hequals : EndsWord ('=' :: (type' ++ (text' ++ rest))) := endsWord_mark _ (.inl rfl)
    have hread := hword.readEntry htype hequals offset
    have hlength : (type ++ text ++ (['='] ++ (type' ++ text'))).length =
        type.length + text.length + 1 + type'.length + text'.length := by
      simp only [List.length_append, List.length_singleton]
      omega
    have htext : type ++ text ++ (['='] ++ (type' ++ text')) ++ rest =
        type ++ (text ++ '=' :: (type' ++ (text' ++ rest))) := by
      simp only [List.append_assoc, List.cons_append, List.nil_append]
    rw [hlength, htext, hread]
    simp only [finishEntry, hword'.readValue htype' hvalue' hends.endsWord, ok_bind, pure_eq_ok,
      Entry.shift, Span.shift, Cursor.spanTo, Nat.zero_add, Nat.add_assoc, Nat.add_sub_cancel_left]

/-- Whatever is read as an entry is one wherever it stands. -/
theorem readEntry_takes {start stop : Cursor} {entry : Entry}
    (hread : readEntry start = .ok (entry, stop)) :
    ∃ text origin, start.Takes text stop ∧ IsEntry text origin ∧
      entry = origin.shift start.offset := by
  obtain ⟨type, text, content, value, cursor, after, htakes, htype, hword, hfinish⟩ :=
    readEntry_word hread
  unfold finishEntry at hfinish
  split at hfinish
  · next rest hrest =>
    obtain ⟨⟨scalar, last⟩, hscalar, hfound⟩ := bind_eq_ok.mp hfinish
    cases hfound
    obtain ⟨type', text', content', value', htakes', htype', hword', hvalue'⟩ :=
      readValue_takes hscalar
    have hequals : after.Takes ['='] ⟨after.offset + 1, rest⟩ := ⟨hrest, rfl⟩
    have hall := htakes.trans (hequals.trans htakes')
    refine ⟨_, _, hall, .property htype hword htype' hword' hvalue', ?_⟩
    rw [hall.spanTo_eq]
    rfl
  · obtain ⟨scalar, hscalar, hfound⟩ := bind_eq_ok.mp hfinish
    cases hfound
    refine ⟨_, _, htakes, .positional htype hword (hword.value_congr hscalar), ?_⟩
    rw [htakes.spanTo_eq]
    rfl

end ReverseProxy.Kdl
