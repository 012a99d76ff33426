import ReverseProxy.Proofs.Kdl.Progress

/-!
# Why reading fails

A text that is not a document has a problem at a place of it, the end included, or it holds an
integer in decimal, without a fraction or an exponent, that has too many digits.
-/

namespace ReverseProxy.Kdl

open Cursor Decimal

/-- A token of the text is a decimal integer with too many digits. -/
def HasLongInteger (text : List Char) (limit : DigitLimit) : Prop :=
  ∃ token decimal, token <:+: text ∧ decimalToken? token = some decimal ∧
    decimal.fraction = none ∧ decimal.exponent = none ∧ maxDigits < decimal.whole.length ∧
    limit = .reading decimal.whole.length

/-- A failure to read that the text accounts for. -/
def IsFaultIn (text : List Char) : Failure ReadProblem → Prop
  | .located _ span => span.offset ≤ text.length
  | .digits limit => HasLongInteger text limit

def Cursor.IsIn (cursor : Cursor) (text : List Char) : Prop := (ofText text).Reaches cursor

section Text

variable {α : Type} {text : List Char} {cursor : Cursor}

/-- A cursor that is reached from a text stays in it. -/
theorem Cursor.IsIn.trans {stop : Cursor} (hin : cursor.IsIn text) (hreach : cursor.Reaches stop) :
    stop.IsIn text :=
  Reaches.trans hin hreach

theorem Cursor.IsIn.offset_le (hin : cursor.IsIn text) : cursor.offset ≤ text.length := by
  have htotal : cursor.offset + cursor.rest.length = 0 + text.length := Reaches.total hin
  omega

theorem Cursor.IsIn.behind {offset : Nat} {c : Char} {rest : List Char}
    (hin : Cursor.IsIn ⟨offset, c :: rest⟩ text) : Cursor.IsIn ⟨offset + 1, rest⟩ text :=
  hin.trans (passes_cons offset c rest).1

theorem Cursor.IsIn.behindTwo {offset : Nat} {c d : Char} {rest : List Char}
    (hin : Cursor.IsIn ⟨offset, c :: d :: rest⟩ text) : Cursor.IsIn ⟨offset + 2, rest⟩ text :=
  hin.trans (passes_cons_cons offset c d rest).1

theorem Cursor.IsIn.suffix (hin : cursor.IsIn text) : cursor.rest <:+ text := by
  obtain ⟨passed, hpassed, -⟩ := hin
  exact ⟨passed, hpassed.symm⟩

theorem refuse_failsBy {problem : ReadProblem} {span : Span} (hspan : span.offset ≤ text.length) :
    FailsBy (IsFaultIn text) (refuse problem span : Reading α) := .error hspan

theorem refuse_here_failsBy {problem : ReadProblem} (hin : cursor.IsIn text) :
    FailsBy (IsFaultIn text) (refuse problem cursor.here : Reading α) :=
  refuse_failsBy hin.offset_le

def BlankState.opened? : BlankState → Option Nat
  | .comment opened _ => some opened
  | .continuation opened => some opened
  | _ => none

/-- Blank text fails where its comment or its continuation was opened, which is in the text. -/
theorem skipBlank_failsBy {betweenNodes : Bool} {state : BlankState} {offset : Nat}
    {rest : List Char} (hin : Cursor.IsIn ⟨offset, rest⟩ text)
    (hopened : ∀ opened ∈ state.opened?, opened ≤ text.length) :
    FailsBy (IsFaultIn text) (skipBlank betweenNodes state offset rest) := by
  have hhere {offset : Nat} {rest : List Char} (hin : Cursor.IsIn ⟨offset, rest⟩ text) :
      ∀ opened ∈ some offset, opened ≤ text.length := by
    rintro _ ⟨⟩
    exact hin.offset_le
  have hnone : ∀ opened ∈ (none : Option Nat), opened ≤ text.length :=
    fun _ hmem => absurd hmem (Option.not_mem_none _)
  fun_induction skipBlank betweenNodes state offset rest with
  | case1 | case4 | case7 | case13 | case19 | case23 => exact .ok
  | case8 | case18 => exact refuse_failsBy (hopened _ rfl)
  | case2 _ _ ih => exact ih hin.behindTwo (hhere hin)
  | case5 _ _ _ _ ih => exact ih hin.behind (hhere hin)
  | case3 _ _ _ ih | case10 _ _ _ ih | case14 _ _ _ ih | case15 _ _ _ ih | case20 _ _ ih =>
      exact ih hin.behindTwo hnone
  | case9 _ _ _ _ ih | case11 _ _ _ _ ih => exact ih hin.behindTwo hopened
  | case12 _ _ _ _ _ _ _ ih | case16 _ _ _ _ _ _ _ ih => exact ih hin.behind hopened
  | case6 _ _ _ _ _ _ _ ih | case17 _ _ _ _ _ _ _ _ ih | case21 _ _ _ _ _ ih
  | case22 _ _ _ _ _ ih | case24 _ _ _ _ ih | case25 _ _ _ _ ih => exact ih hin.behind hnone

theorem inlineBlank_failsBy (hin : cursor.IsIn text) :
    FailsBy (IsFaultIn text) cursor.inlineBlank :=
  skipBlank_failsBy hin nofun

theorem nodeBlank_failsBy (hin : cursor.IsIn text) :
    FailsBy (IsFaultIn text) cursor.nodeBlank :=
  skipBlank_failsBy hin nofun

def QuotedState.opened? : QuotedState → Option Nat
  | .plain => none
  | .escape opened => some opened
  | .code opened _ _ => some opened

/-- A string fails at its opening mark, at an escape or at the end of the text. -/
theorem readQuoted_failsBy {start : Nat} {state : QuotedState} {offset : Nat} {rest : List Char}
    (hstart : start ≤ text.length) (hin : Cursor.IsIn ⟨offset, rest⟩ text)
    (hopened : ∀ opened ∈ state.opened?, opened ≤ text.length) :
    FailsBy (IsFaultIn text) (readQuoted start state offset rest) := by
  have hnone : ∀ opened ∈ (none : Option Nat), opened ≤ text.length :=
    fun _ hmem => absurd hmem (Option.not_mem_none _)
  fun_induction readQuoted start state offset rest with
  | case1 => exact refuse_failsBy hstart
  | case2 => exact .ok
  | case3 offset rest _ ih =>
      refine ih hin.behind ?_
      rintro _ ⟨⟩
      exact hin.offset_le
  | case4 _ _ _ _ _ ih => exact .map (ih hin.behind hnone)
  | case5 | case8 | case9 | case11 | case13 => exact refuse_failsBy (hopened _ rfl)
  | case6 _ _ _ ih => exact ih hin.behindTwo hopened
  | case7 _ _ _ _ _ _ _ ih => exact .map (ih hin.behind hnone)
  | case10 _ _ _ _ _ _ _ _ _ ih => exact ih hin.behind hopened
  | case12 _ _ _ _ _ _ _ _ _ ih => exact .map (ih hin.behind hnone)

theorem readString_failsBy {opening : StringStart} (hin : cursor.IsIn text)
    (hopening : stringStart? cursor.rest = some opening) :
    FailsBy (IsFaultIn text) (readString opening cursor) := by
  have hinside : (cursor.skip opening.length).IsIn text :=
    hin.trans (reaches_skip (stringStart?_length_le hopening))
  unfold readString
  dsimp only
  split
  · exact readQuoted_failsBy hin.offset_le hinside nofun
  · split
    · exact .ok
    · exact refuse_here_failsBy hin

/-- A token is refused as a whole, or has too many digits. -/
theorem interpret_failsBy {token : List Char} (hin : cursor.IsIn text) (htoken : token <:+: text) :
    FailsBy (IsFaultIn text) (interpret token cursor) := by
  unfold interpret
  split
  · exact .ok
  · split
    · split
      · exact .ok
      · exact refuse_failsBy hin.offset_le
    · split
      · next decimal hdecimal =>
        constructor
        intro failure hfailure
        obtain ⟨cause, hcause, rfl⟩ := mapError_eq_error.mp hfailure
        unfold DecimalToken.value at hcause
        split at hcause
        · next hfraction hexponent =>
          unfold readDigits at hcause
          split at hcause
          · cases hcause
          · next hlong =>
            cases hcause
            exact ⟨token, decimal, htoken, hdecimal, hfraction, hexponent,
              Nat.lt_of_not_le hlong, rfl⟩
        · cases hcause
      · split
        · exact refuse_failsBy hin.offset_le
        · split
          · exact refuse_failsBy hin.offset_le
          · exact .ok

/-- A token at the cursor is part of the text. -/
theorem token_isInfix {after : Cursor} {token : List Char} (hin : cursor.IsIn text)
    (htoken : cursor.token = (token, after)) : token <:+: text := by
  have hprefix : token <+: cursor.rest := by
    rw [← show cursor.token.1 = token from congrArg Prod.fst htoken]
    exact List.takeWhile_prefix isTokenChar
  exact hprefix.isInfix.trans hin.suffix.isInfix

theorem skipType_failsBy (hin : cursor.IsIn text) :
    FailsBy (IsFaultIn text) (skipType cursor) := by
  unfold skipType
  split
  · next rest hrest =>
    have hinside : Cursor.IsIn ⟨cursor.offset + 1, rest⟩ text :=
      hin.trans (reaches_of_rest hrest (Reaches.refl _)).1
    dsimp only
    split
    · next opening hopening =>
      apply (readString_failsBy hinside hopening).map.bind
      intro after _
      split
      · exact .ok
      · exact refuse_here_failsBy hin
    · rw [pure_eq_ok, ok_bind]
      split
      · exact .ok
      · exact refuse_here_failsBy hin
  · exact .ok

theorem readName_failsBy (hin : cursor.IsIn text) :
    FailsBy (IsFaultIn text) (readName cursor) := by
  unfold readName
  split
  · next opening hopening =>
    apply (readString_failsBy hin hopening).bind
    intro found _
    exact .ok
  · split
    · exact refuse_here_failsBy hin
    · exact .ok

theorem readValue_failsBy (hin : cursor.IsIn text) :
    FailsBy (IsFaultIn text) (readValue cursor) := by
  apply (skipType_failsBy hin).bind
  intro start hstart
  have hin := hin.trans (skipType_reaches hstart)
  split
  · next opening hopening =>
    apply (readString_failsBy hin hopening).bind
    intro found _
    exact .ok
  · split
    · exact refuse_here_failsBy hin
    · next token after _ htoken =>
      apply (interpret_failsBy hin (token_isInfix hin htoken)).bind
      intro value _
      exact .ok

theorem finishEntry_failsBy {start after : Cursor} {content : List Char} {value : Reading Scalar}
    (hin : after.IsIn text) (hvalue : FailsBy (IsFaultIn text) value) :
    FailsBy (IsFaultIn text) (finishEntry start content after value) := by
  unfold finishEntry
  split
  · next rest hrest =>
    apply (readValue_failsBy (hin.trans (reaches_of_rest hrest (Reaches.refl _)).1)).bind
    intro found _
    exact .ok
  · apply hvalue.bind
    intro value _
    exact .ok

theorem readEntry_failsBy (hin : cursor.IsIn text) :
    FailsBy (IsFaultIn text) (readEntry cursor) := by
  apply (skipType_failsBy hin).bind
  intro start hstart
  have hin := hin.trans (skipType_reaches hstart)
  split
  · next opening hopening =>
    apply (readString_failsBy hin hopening).bind
    intro found hfound
    exact finishEntry_failsBy (hin.trans (readString_passes hopening hfound).1) .ok
  · split
    · exact refuse_here_failsBy hin
    · next token after hne htoken =>
      exact finishEntry_failsBy (hin.trans (token_passes hne htoken).1)
        (interpret_failsBy hin (token_isInfix hin htoken))

end Text

def BlockReader.FailsIn (read : BlockReader) (text : List Char) : Prop :=
  ∀ start : Cursor, start.IsIn text → start.rest.head? = some '\x7b' →
    FailsBy (IsFaultIn text) (read start)

section Loops

variable {read : BlockReader} {text : List Char} {cursor : Cursor} (hblock : read.Advances)
  (hfails : read.FailsIn text)

include hfails

theorem skipElement_failsBy (hin : cursor.IsIn text) :
    FailsBy (IsFaultIn text) (skipElement read cursor) := by
  unfold skipElement
  split
  · next hrest => exact (hfails cursor hin (by rw [hrest]; rfl)).map
  · exact (readEntry_failsBy hin).map

include hblock

theorem readLastBlock_failsBy (hin : cursor.IsIn text) (hopen : cursor.rest.head? = some '\x7b') :
    FailsBy (IsFaultIn text) (readLastBlock read cursor) := by
  apply (hfails cursor hin hopen).bind
  intro found hfound
  have hin := hin.trans (hblock cursor found hfound).1
  apply (inlineBlank_failsBy hin).bind
  intro next hnext
  dsimp only
  split
  · exact .ok
  · exact refuse_here_failsBy
      (hin.trans ((inlineBlank_reaches hnext).trans (skipLineComment_reaches next)))

theorem readTail_failsBy {count finish : Nat} (hin : cursor.IsIn text) :
    FailsBy (IsFaultIn text) (readTail read count cursor finish) := by
  induction count generalizing cursor finish with
  | zero => exact .ok
  | succ count ih =>
      apply (inlineBlank_failsBy hin).bind
      intro next hnext
      have hin := hin.trans (inlineBlank_reaches hnext)
      split
      · exact .ok
      · next rest hrest =>
        have hmark : next.Reaches ⟨next.offset + 2, rest⟩ := ⟨['/', '-'], hrest, rfl⟩
        have hin := hin.trans hmark
        apply (inlineBlank_failsBy hin).bind
        intro element helement
        have hin := hin.trans (inlineBlank_reaches helement)
        apply (skipElement_failsBy hfails hin).bind
        intro after hafter
        exact ih (hin.trans (skipElement_passes hblock hafter).1)
      · next rest hrest => exact readLastBlock_failsBy hblock hfails hin (by rw [hrest]; rfl)
      · split
        · exact .ok
        · split
          · exact refuse_here_failsBy hin
          · apply (readEntry_failsBy hin).bind
            intro found hfound
            apply (ih (hin.trans (readEntry_passes hfound).1)).bind
            intro tail _
            exact .ok

theorem readNode_failsBy (hin : cursor.IsIn text) :
    FailsBy (IsFaultIn text) (readNode read cursor) := by
  apply (skipType_failsBy hin).bind
  intro named hnamed
  have hin := hin.trans (skipType_reaches hnamed)
  apply (readName_failsBy hin).bind
  intro found hfound
  apply (readTail_failsBy hblock hfails (hin.trans (readName_passes hfound).1)).bind
  intro tail _
  exact .ok

theorem readNodes_failsBy {nested : Bool} {count : Nat} (hin : cursor.IsIn text) :
    FailsBy (IsFaultIn text) (readNodes read nested count cursor) := by
  induction count generalizing cursor with
  | zero => exact .ok
  | succ count ih =>
      apply (nodeBlank_failsBy hin).bind
      intro next hnext
      have hin := hin.trans (nodeBlank_reaches hnext)
      split
      · exact .ok
      · split
        · exact .ok
        · exact refuse_here_failsBy hin
      · next rest hrest =>
        have hmark : next.Reaches ⟨next.offset + 2, rest⟩ := ⟨['/', '-'], hrest, rfl⟩
        have hin := hin.trans hmark
        apply (nodeBlank_failsBy hin).bind
        intro start hstart
        have hin := hin.trans (nodeBlank_reaches hstart)
        apply (readNode_failsBy hblock hfails hin).bind
        intro found hfound
        exact ih (hin.trans (readNode_passes hblock hfound).1)
      · apply (readNode_failsBy hblock hfails hin).bind
        intro found hfound
        apply (ih (hin.trans (readNode_passes hblock hfound).1)).bind
        intro nodes _
        exact .ok

end Loops

/-- Blocks fail inside the text, at any depth. -/
theorem readBlock_failsIn (depth : Nat) (text : List Char) :
    BlockReader.FailsIn (readBlock depth) text := by
  induction depth with
  | zero =>
      intro start hin _
      exact refuse_here_failsBy hin
  | succ depth ih =>
      intro start hin hopen
      obtain ⟨rest, hrest⟩ := List.head?_eq_some_iff.mp hopen
      have hinside : (start.skip 1).IsIn text := hin.trans (reaches_skip (by simp [hrest]))
      apply (readNodes_failsBy (readBlock_advances depth) ih hinside).bind
      intro found _
      dsimp only
      split
      · exact .ok
      · exact refuse_here_failsBy hin

/-- A text that is no document has a problem at one of its places or a long integer in it. -/
theorem readDocument_failsBy (text : List Char) :
    FailsBy (IsFaultIn text) (readDocument text) := by
  unfold readDocument
  apply (readNodes_failsBy (readBlock_advances maxDepth) (readBlock_failsIn maxDepth text)
    (Reaches.refl (ofText text))).bind
  intro found _
  exact .ok

end ReverseProxy.Kdl
