import ReverseProxy.Kdl.Reader
import ReverseProxy.Proofs.Outcome

/-!
# Readers only move forward

Whatever a reader makes of a text, it stops at a cursor of the same text, no earlier than where it
started, and past at least one character if it yields a name, an entry, a node or a block. The
number of steps that bounds the two loops of the reader is therefore never what ends them.
-/

namespace ReverseProxy.Kdl

def Cursor.Reaches (start stop : Cursor) : Prop :=
  ∃ passed, start.rest = passed ++ stop.rest ∧ stop.offset = start.offset + passed.length

def Cursor.Passes (start stop : Cursor) : Prop :=
  start.Reaches stop ∧ start.offset < stop.offset

namespace Cursor

variable {start middle stop : Cursor}

theorem Reaches.refl (start : Cursor) : start.Reaches start := ⟨[], rfl, rfl⟩

theorem Reaches.trans (hfirst : start.Reaches middle) (hsecond : middle.Reaches stop) :
    start.Reaches stop := by
  obtain ⟨before, hbefore, hmiddle⟩ := hfirst
  obtain ⟨after, hafter, hstop⟩ := hsecond
  refine ⟨before ++ after, ?_, ?_⟩
  · rw [hbefore, hafter, List.append_assoc]
  · rw [hstop, hmiddle, List.length_append, Nat.add_assoc]

theorem Reaches.offset_le (hreach : start.Reaches stop) : start.offset ≤ stop.offset := by
  obtain ⟨passed, -, hstop⟩ := hreach
  omega

/-- Characters before the cursor and characters after it add up to the same number. -/
theorem Reaches.total (hreach : start.Reaches stop) :
    stop.offset + stop.rest.length = start.offset + start.rest.length := by
  obtain ⟨passed, hrest, hstop⟩ := hreach
  rw [hrest, hstop, List.length_append]
  omega

/-- Behind a cursor that was passed there is less to read. -/
theorem Passes.length_lt (hpass : start.Passes stop) : stop.rest.length < start.rest.length := by
  have htotal := hpass.1.total
  have hlater := hpass.2
  omega

theorem Passes.of_reaches (hpass : start.Passes middle) (hreach : middle.Reaches stop) :
    start.Passes stop :=
  ⟨hpass.1.trans hreach, Nat.lt_of_lt_of_le hpass.2 hreach.offset_le⟩

theorem Reaches.of_passes (hreach : start.Reaches middle) (hpass : middle.Passes stop) :
    start.Passes stop :=
  ⟨hreach.trans hpass.1, Nat.lt_of_le_of_lt hreach.offset_le hpass.2⟩

theorem passes_cons (offset : Nat) (c : Char) (rest : List Char) :
    Passes ⟨offset, c :: rest⟩ ⟨offset + 1, rest⟩ :=
  ⟨⟨[c], rfl, rfl⟩, Nat.lt_succ_self offset⟩

theorem passes_cons_cons (offset : Nat) (c d : Char) (rest : List Char) :
    Passes ⟨offset, c :: d :: rest⟩ ⟨offset + 2, rest⟩ :=
  ⟨⟨[c, d], rfl, rfl⟩, by simp⟩

theorem reaches_skip {cursor : Cursor} {count : Nat} (hcount : count ≤ cursor.rest.length) :
    cursor.Reaches (cursor.skip count) :=
  ⟨cursor.rest.take count, (List.take_append_drop count cursor.rest).symm, by simp [hcount]⟩

theorem reaches_takeWhile (cursor : Cursor) (accept : Char → Bool) :
    cursor.Reaches (cursor.takeWhile accept).2 :=
  reaches_skip (List.takeWhile_prefix accept).length_le

theorem reaches_lineEnd (cursor : Cursor) : cursor.Reaches cursor.lineEnd :=
  reaches_takeWhile cursor _

theorem passes_token {cursor : Cursor} (hsome : cursor.token.1 ≠ []) :
    cursor.Passes cursor.token.2 := by
  refine ⟨reaches_takeWhile cursor isTokenChar, ?_⟩
  have hpos := List.length_pos_of_ne_nil hsome
  simp only [token, takeWhile, skip_offset] at hpos ⊢
  omega

end Cursor

open Cursor

theorem skipBlank_reaches {betweenNodes : Bool} {state : BlankState} {offset : Nat}
    {rest : List Char} {stop : Cursor}
    (hread : skipBlank betweenNodes state offset rest = .ok stop) :
    Reaches ⟨offset, rest⟩ stop := by
  have hone (offset : Nat) (c : Char) (rest : List Char) :
      Reaches ⟨offset, c :: rest⟩ ⟨offset + 1, rest⟩ := (passes_cons offset c rest).1
  have htwo (offset : Nat) (c d : Char) (rest : List Char) :
      Reaches ⟨offset, c :: d :: rest⟩ ⟨offset + 2, rest⟩ := (passes_cons_cons offset c d rest).1
  -- Each step ends the blank text, fails, or passes one or two characters.
  fun_induction skipBlank betweenNodes state offset rest <;>
    first
    | (cases hread; exact Reaches.refl _)
    | cases hread
    | exact (hone _ _ _).trans (by solve_by_elim)
    | exact (htwo _ _ _ _).trans (by solve_by_elim)

theorem inlineBlank_reaches {start stop : Cursor} (hread : start.inlineBlank = .ok stop) :
    start.Reaches stop :=
  skipBlank_reaches hread

theorem nodeBlank_reaches {start stop : Cursor} (hread : start.nodeBlank = .ok stop) :
    start.Reaches stop :=
  skipBlank_reaches hread

@[simp]
theorem prepend_snd (c : Char) (found : List Char × Cursor) : (prepend c found).2 = found.2 := rfl

theorem readQuoted_passes {start : Nat} {state : QuotedState} {offset : Nat} {rest : List Char}
    {found : List Char × Cursor} (hread : readQuoted start state offset rest = .ok found) :
    Passes ⟨offset, rest⟩ found.2 := by
  have hmapped {meant : Char} {inner : Reading (List Char × Cursor)} {cursor : Cursor}
      {found : List Char × Cursor} (hinner : ∀ found, inner = .ok found → cursor.Passes found.2)
      (hmap : inner.map (prepend meant) = .ok found) : cursor.Passes found.2 := by
    obtain ⟨tail, htail, rfl⟩ := except_map_eq_ok.mp hmap
    exact hinner tail htail
  fun_induction readQuoted start state offset rest generalizing found with
  | case1 | case5 | case8 | case9 | case11 | case13 => cases hread
  | case2 =>
      cases hread
      exact passes_cons _ _ _
  | case3 | case10 => exact (passes_cons _ _ _).1.of_passes (by solve_by_elim)
  | case6 => exact (passes_cons_cons _ _ _ _).1.of_passes (by solve_by_elim)
  | case4 | case7 | case12 =>
      exact (passes_cons _ _ _).1.of_passes (hmapped (fun _ _ => by solve_by_elim) hread)

theorem readUntil?_reaches {mark : List Char} {offset : Nat} {rest : List Char}
    {found : List Char × Cursor} (hread : readUntil? mark offset rest = some found) :
    Reaches ⟨offset, rest⟩ found.2 := by
  fun_induction readUntil? mark offset rest generalizing found with
  | case1 => cases hread
  | case2 offset c rest hmark =>
      cases hread
      exact @reaches_skip ⟨offset, c :: rest⟩ _ (List.isPrefixOf_iff_prefix.mp hmark).length_le
  | case3 offset c rest _ ih =>
      obtain ⟨tail, htail, hfound⟩ := Option.map_eq_some_iff.mp hread
      rw [← hfound, prepend_snd]
      exact (passes_cons _ _ _).1.trans (ih htail)

theorem StringStart.length_pos (opening : StringStart) : 0 < opening.length := by
  cases opening <;> simp [StringStart.length]

theorem rawStart?_length_le {letter : Bool} {text : List Char} {opening : StringStart}
    (hstart : rawStart? letter text = some opening) :
    opening.length ≤ letter.toNat + text.length := by
  simp only [rawStart?, Option.ite_none_right_eq_some, Option.some.injEq] at hstart
  obtain ⟨hmark, rfl⟩ := hstart
  have hlt : (text.takeWhile (· = '#')).length < text.length := by
    by_contra hge
    rw [List.drop_eq_nil_of_le (Nat.le_of_not_lt hge)] at hmark
    cases hmark
  simp only [StringStart.length]
  omega

theorem stringStart?_length_le {text : List Char} {opening : StringStart}
    (hstart : stringStart? text = some opening) : opening.length ≤ text.length := by
  unfold stringStart? at hstart
  split at hstart
  · cases hstart
    simp [StringStart.length]
  · simpa [Nat.add_comm] using rawStart?_length_le hstart
  · simpa using rawStart?_length_le hstart
  · cases hstart

theorem readString_passes {opening : StringStart} {cursor : Cursor} {found : List Char × Cursor}
    (hstart : stringStart? cursor.rest = some opening)
    (hread : readString opening cursor = .ok found) : cursor.Passes found.2 := by
  have hinside : cursor.Passes (cursor.skip opening.length) :=
    ⟨reaches_skip (stringStart?_length_le hstart), by simp [opening.length_pos]⟩
  refine hinside.of_reaches ?_
  cases opening with
  | quoted => exact (readQuoted_passes hread).1
  | raw letter hashes =>
      simp only [readString] at hread
      split at hread
      · next hfound =>
        cases hread
        exact readUntil?_reaches hfound
      · cases hread

theorem reaches_of_rest {start stop : Cursor} {c : Char} {rest : List Char}
    (hrest : start.rest = c :: rest) (hreach : Reaches ⟨start.offset + 1, rest⟩ stop) :
    start.Passes stop := by
  have hstep : start.Passes ⟨start.offset + 1, rest⟩ := ⟨⟨[c], hrest, rfl⟩, Nat.lt_succ_self _⟩
  exact hstep.of_reaches hreach

theorem skipType_reaches {start stop : Cursor} (hread : skipType start = .ok stop) :
    start.Reaches stop := by
  unfold skipType at hread
  split at hread
  · next rest hrest =>
    have hclosed {after : Cursor} {others : List Char} (hothers : after.rest = ')' :: others)
        (hafter : Reaches ⟨start.offset + 1, rest⟩ after) :
        start.Reaches ⟨after.offset + 1, others⟩ :=
      (reaches_of_rest hrest (hafter.trans (reaches_of_rest hothers (Reaches.refl _)).1)).1
    cases hopening : stringStart? rest with
    | some opening =>
        simp only [hopening, bind_eq_ok, map_eq_ok] at hread
        obtain ⟨_, ⟨found, hfound, rfl⟩, hclose⟩ := hread
        split at hclose
        · next others hothers =>
          cases hclose
          exact hclosed hothers (readString_passes hopening hfound).1
        · cases hclose
    | none =>
        simp only [hopening, pure_eq_ok, ok_bind] at hread
        split at hread
        · next others hothers =>
          cases hread
          exact hclosed hothers (reaches_takeWhile _ _)
        · cases hread
  · cases hread
    exact Reaches.refl start

/-- A bare token that is not empty. -/
theorem token_passes {start after : Cursor} {token : List Char} (hne : token = [] → False)
    (htoken : start.token = (token, after)) : start.Passes after := by
  have hsome : start.token.1 ≠ [] := by rwa [htoken]
  simpa [htoken] using passes_token hsome

theorem readName_passes {start : Cursor} {found : String × Cursor}
    (hread : readName start = .ok found) : start.Passes found.2 := by
  unfold readName at hread
  split at hread
  · next opening hopening =>
    obtain ⟨text, htext, hname⟩ := bind_eq_ok.mp hread
    cases hname
    exact readString_passes hopening htext
  · split at hread
    · cases hread
    · next token after hne htoken =>
      cases hread
      exact token_passes hne htoken

theorem readValue_passes {start : Cursor} {found : Scalar × Cursor}
    (hread : readValue start = .ok found) : start.Passes found.2 := by
  obtain ⟨cursor, hcursor, hvalue⟩ := bind_eq_ok.mp hread
  refine (skipType_reaches hcursor).of_passes ?_
  split at hvalue
  · next opening hopening =>
    obtain ⟨text, htext, hfound⟩ := bind_eq_ok.mp hvalue
    cases hfound
    exact readString_passes hopening htext
  · split at hvalue
    · cases hvalue
    · next token after hne htoken =>
      obtain ⟨value, -, hfound⟩ := bind_eq_ok.mp hvalue
      cases hfound
      exact token_passes hne htoken

theorem finishEntry_reaches {start after : Cursor} {text : List Char} {value : Reading Scalar}
    {found : Entry × Cursor} (hread : finishEntry start text after value = .ok found) :
    after.Reaches found.2 := by
  unfold finishEntry at hread
  split at hread
  · next rest hrest =>
    obtain ⟨given, hgiven, hfound⟩ := bind_eq_ok.mp hread
    cases hfound
    exact (reaches_of_rest hrest (readValue_passes hgiven).1).1
  · obtain ⟨_, -, hfound⟩ := bind_eq_ok.mp hread
    cases hfound
    exact Reaches.refl after

theorem readEntry_passes {start : Cursor} {found : Entry × Cursor}
    (hread : readEntry start = .ok found) : start.Passes found.2 := by
  obtain ⟨cursor, hcursor, hentry⟩ := bind_eq_ok.mp hread
  refine (skipType_reaches hcursor).of_passes ?_
  split at hentry
  · next opening hopening =>
    obtain ⟨text, htext, hfound⟩ := bind_eq_ok.mp hentry
    exact (readString_passes hopening htext).of_reaches (finishEntry_reaches hfound)
  · split at hentry
    · cases hentry
    · next token after hne htoken =>
      exact (token_passes hne htoken).of_reaches (finishEntry_reaches hentry)

theorem skipLineComment_reaches (cursor : Cursor) : cursor.Reaches (skipLineComment cursor) := by
  unfold skipLineComment
  split
  · exact reaches_lineEnd cursor
  · exact Reaches.refl cursor

theorem skipSemicolon_reaches (cursor : Cursor) : cursor.Reaches (skipSemicolon cursor) := by
  unfold skipSemicolon
  split
  · next hrest => exact (reaches_of_rest hrest (Reaches.refl _)).1
  · exact Reaches.refl cursor

def BlockReader.Advances (read : BlockReader) : Prop :=
  ∀ start found, read start = .ok found → start.Passes found.2

section Loops

variable {read : BlockReader} (hblock : read.Advances)

include hblock

theorem skipElement_passes {start stop : Cursor} (hread : skipElement read start = .ok stop) :
    start.Passes stop := by
  unfold skipElement at hread
  split at hread
  · obtain ⟨found, hfound, rfl⟩ := map_eq_ok.mp hread
    exact hblock start found hfound
  · obtain ⟨found, hfound, rfl⟩ := map_eq_ok.mp hread
    exact readEntry_passes hfound

theorem readLastBlock_passes {start : Cursor} {found : NodeTail × Cursor}
    (hread : readLastBlock read start = .ok found) : start.Passes found.2 := by
  obtain ⟨⟨block, after⟩, hfound, hread⟩ := bind_eq_ok.mp hread
  obtain ⟨next, hnext, hread⟩ := bind_eq_ok.mp hread
  refine (hblock start _ hfound).of_reaches ((inlineBlank_reaches hnext).trans ?_)
  dsimp only at hread
  split at hread
  · cases hread
    exact skipLineComment_reaches next
  · cases hread

/-- The parts of a node end no earlier than they began. -/
theorem readTail_reaches {count : Nat} {cursor : Cursor} {finish : Nat} {found : NodeTail × Cursor}
    (hread : readTail read count cursor finish = .ok found) : cursor.Reaches found.2 := by
  induction count generalizing cursor finish found with
  | zero =>
      cases hread
      exact Reaches.refl cursor
  | succ count ih =>
      obtain ⟨next, hnext, hread⟩ := bind_eq_ok.mp hread
      refine (inlineBlank_reaches hnext).trans ?_
      split at hread
      · cases hread
        exact reaches_lineEnd next
      · next rest hrest =>
        obtain ⟨element, helement, hread⟩ := bind_eq_ok.mp hread
        obtain ⟨after, hafter, hread⟩ := bind_eq_ok.mp hread
        have hmark : next.Reaches ⟨next.offset + 2, rest⟩ := ⟨['/', '-'], hrest, rfl⟩
        exact hmark.trans ((inlineBlank_reaches helement).trans
          ((skipElement_passes hblock hafter).1.trans (ih hread)))
      · exact (readLastBlock_passes hblock hread).1
      · split at hread
        · cases hread
          exact Reaches.refl next
        · split at hread
          · cases hread
          · obtain ⟨⟨entry, after⟩, hentry, hread⟩ := bind_eq_ok.mp hread
            obtain ⟨tail, htail, hfound⟩ := bind_eq_ok.mp hread
            cases hfound
            have hafter : after.Reaches tail.2 := ih htail
            exact (readEntry_passes hentry).1.trans hafter

theorem readNode_passes {start : Cursor} {found : Node × Cursor}
    (hread : readNode read start = .ok found) : start.Passes found.2 := by
  obtain ⟨named, hnamed, hread⟩ := bind_eq_ok.mp hread
  obtain ⟨⟨name, after⟩, hname, hread⟩ := bind_eq_ok.mp hread
  obtain ⟨⟨tail, stop⟩, htail, hfound⟩ := bind_eq_ok.mp hread
  cases hfound
  exact ((skipType_reaches hnamed).of_passes (readName_passes hname)).of_reaches
    ((readTail_reaches hblock htail).trans (skipSemicolon_reaches stop))

theorem readNodes_reaches {nested : Bool} {count : Nat} {cursor : Cursor}
    {found : List Node × Cursor} (hread : readNodes read nested count cursor = .ok found) :
    cursor.Reaches found.2 := by
  induction count generalizing cursor found with
  | zero =>
      cases hread
      exact Reaches.refl cursor
  | succ count ih =>
      obtain ⟨next, hnext, hread⟩ := bind_eq_ok.mp hread
      refine (nodeBlank_reaches hnext).trans ?_
      split at hread
      · cases hread
        exact Reaches.refl next
      · split at hread
        · cases hread
          exact Reaches.refl next
        · cases hread
      · next rest hrest =>
        obtain ⟨start, hstart, hread⟩ := bind_eq_ok.mp hread
        obtain ⟨⟨node, after⟩, hnode, hread⟩ := bind_eq_ok.mp hread
        have hmark : next.Reaches ⟨next.offset + 2, rest⟩ := ⟨['/', '-'], hrest, rfl⟩
        exact hmark.trans ((nodeBlank_reaches hstart).trans
          ((readNode_passes hblock hnode).1.trans (ih hread)))
      · obtain ⟨⟨node, after⟩, hnode, hread⟩ := bind_eq_ok.mp hread
        obtain ⟨⟨nodes, stop⟩, hnodes, hfound⟩ := bind_eq_ok.mp hread
        cases hfound
        have hafter : after.Reaches stop := ih hnodes
        exact (readNode_passes hblock hnode).1.trans hafter

end Loops

/-- A block takes at least its brace. -/
theorem readBlock_advances (depth : Nat) : BlockReader.Advances (readBlock depth) := by
  induction depth with
  | zero =>
      intro start found hread
      cases hread
  | succ depth ih =>
      intro start found hread
      obtain ⟨⟨nodes, stop⟩, hnodes, hread⟩ := bind_eq_ok.mp hread
      have hinside : (start.skip 1).Reaches stop := readNodes_reaches ih hnodes
      dsimp only at hread
      split at hread
      · next rest hrest =>
        cases hread
        have hclose : stop.Passes ⟨stop.offset + 1, rest⟩ := reaches_of_rest hrest (Reaches.refl _)
        have hopen : 1 ≤ start.rest.length := by
          have htotal := hinside.total
          have hle := hinside.offset_le
          simp only [skip_rest, skip_offset, List.length_drop, hrest, List.length_cons]
            at htotal hle
          omega
        exact ((reaches_skip hopen).trans hinside).of_passes hclose
      · cases hread

/-! ### Without a bound on the number of steps

The readers of parts and of nodes take a number of steps, which is only there to make them total.
Each step passes a character, so that any number above the length of the text does the same.
-/

/-- What follows the name of a node, in as many steps as it takes. -/
def tailFrom (read : BlockReader) (cursor : Cursor) (finish : Nat) : Reading (NodeTail × Cursor) :=
  readTail read (cursor.rest.length + 1) cursor finish

def nodesFrom (read : BlockReader) (nested : Bool) (cursor : Cursor) :
    Reading (List Node × Cursor) :=
  readNodes read nested (cursor.rest.length + 1) cursor

section Unbounded

variable {read : BlockReader} (hblock : read.Advances)

include hblock

theorem readTail_bound {count other : Nat} {cursor : Cursor} {finish : Nat}
    (hcount : cursor.rest.length < count) (hother : cursor.rest.length < other) :
    readTail read count cursor finish = readTail read other cursor finish := by
  induction count generalizing other cursor finish with
  | zero => omega
  | succ count ih =>
      obtain ⟨other, rfl⟩ : ∃ fewer, other = fewer + 1 := ⟨other - 1, by omega⟩
      have hstep {after : Cursor} (hpass : cursor.Passes after) (finish : Nat) :
          readTail read count after finish = readTail read other after finish :=
        have hshorter := hpass.length_lt
        ih (by omega) (by omega)
      refine bind_congr_ok fun next hnext => ?_
      have hreach := inlineBlank_reaches hnext
      split
      · rfl
      · next rest hrest =>
        refine bind_congr_ok fun element helement => bind_congr_ok fun after hafter => ?_
        have hmark : next.Reaches ⟨next.offset + 2, rest⟩ := ⟨['/', '-'], hrest, rfl⟩
        exact hstep ((hreach.trans (hmark.trans (inlineBlank_reaches helement))).of_passes
          (skipElement_passes hblock hafter)) _
      · rfl
      · refine if_congr Iff.rfl rfl (if_congr Iff.rfl rfl ?_)
        refine bind_congr_ok fun ⟨entry, after⟩ hentry => ?_
        dsimp only
        rw [hstep (hreach.of_passes (readEntry_passes hentry))]

/-- With enough steps the number of steps makes no difference. -/
theorem readTail_eq {count : Nat} {cursor : Cursor} {finish : Nat}
    (hcount : cursor.rest.length < count) :
    readTail read count cursor finish = tailFrom read cursor finish :=
  readTail_bound hblock hcount (Nat.lt_succ_self _)

theorem readNodes_bound {nested : Bool} {count other : Nat} {cursor : Cursor}
    (hcount : cursor.rest.length < count) (hother : cursor.rest.length < other) :
    readNodes read nested count cursor = readNodes read nested other cursor := by
  induction count generalizing other cursor with
  | zero => omega
  | succ count ih =>
      obtain ⟨other, rfl⟩ : ∃ fewer, other = fewer + 1 := ⟨other - 1, by omega⟩
      have hstep {after : Cursor} (hpass : cursor.Passes after) :
          readNodes read nested count after = readNodes read nested other after :=
        have hshorter := hpass.length_lt
        ih (by omega) (by omega)
      refine bind_congr_ok fun next hnext => ?_
      have hreach := nodeBlank_reaches hnext
      split
      · rfl
      · rfl
      · next rest hrest =>
        refine bind_congr_ok fun start hstart => bind_congr_ok fun found hfound => ?_
        have hmark : next.Reaches ⟨next.offset + 2, rest⟩ := ⟨['/', '-'], hrest, rfl⟩
        exact hstep ((hreach.trans (hmark.trans (nodeBlank_reaches hstart))).of_passes
          (readNode_passes hblock hfound))
      · refine bind_congr_ok fun ⟨node, after⟩ hnode => ?_
        dsimp only
        rw [hstep (hreach.of_passes (readNode_passes hblock hnode))]

theorem readNodes_eq {nested : Bool} {count : Nat} {cursor : Cursor}
    (hcount : cursor.rest.length < count) :
    readNodes read nested count cursor = nodesFrom read nested cursor :=
  readNodes_bound hblock hcount (Nat.lt_succ_self _)

end Unbounded

end ReverseProxy.Kdl
