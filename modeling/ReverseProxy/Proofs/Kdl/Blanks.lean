import ReverseProxy.Proofs.Kdl.Steps

/-!
# Blank text wherever it stands

Blank text is passed in the same way wherever it stands and whatever comes next. There are two
exceptions: a line continuation may be ended by the end of the text, and the line feed behind its
carriage return belongs to it.
-/

namespace ReverseProxy.Kdl

def Cursor.Takes (start : Cursor) (text : List Char) (stop : Cursor) : Prop :=
  start.rest = text ++ stop.rest ∧ stop.offset = start.offset + text.length

namespace Cursor.Takes

variable {start middle stop : Cursor} {text more : List Char}

theorem refl (start : Cursor) : start.Takes [] start := ⟨rfl, rfl⟩

theorem trans (hfirst : start.Takes text middle) (hsecond : middle.Takes more stop) :
    start.Takes (text ++ more) stop := by
  obtain ⟨hrest, hoffset⟩ := hfirst
  obtain ⟨hrest', hoffset'⟩ := hsecond
  refine ⟨by rw [hrest, hrest', List.append_assoc], ?_⟩
  rw [hoffset', hoffset, List.length_append, Nat.add_assoc]

theorem cons {offset : Nat} {chars : List Char} (c : Char)
    (htakes : Cursor.Takes ⟨offset + 1, chars⟩ text stop) :
    Cursor.Takes ⟨offset, c :: chars⟩ (c :: text) stop := by
  obtain ⟨hrest, hoffset⟩ := htakes
  refine ⟨congrArg (c :: ·) hrest, ?_⟩
  simp only [List.length_cons] at hoffset ⊢
  omega

theorem reaches (htakes : start.Takes text stop) : start.Reaches stop := ⟨text, htakes⟩

theorem passes (htakes : start.Takes text stop) (hne : text ≠ []) : start.Passes stop := by
  have hpos := List.length_pos_of_ne_nil hne
  have hoffset := htakes.2
  exact ⟨htakes.reaches, by omega⟩

theorem spanTo_eq (htakes : start.Takes text stop) :
    start.spanTo stop = Span.shift ⟨0, text.length⟩ start.offset := by
  simp [Cursor.spanTo, Span.shift, htakes.2]

/-- Offsets counted from another place than the beginning of the text. -/
theorem offset_from {base offset : Nat} (htakes : start.Takes text stop)
    (hstart : start.offset = base + offset) : base + text.length + offset = stop.offset := by
  rw [htakes.2, hstart, Nat.add_right_comm]

end Cursor.Takes

/-- The offset behind a character and a text. -/
theorem add_length_cons (offset : Nat) (c : Char) (text : List Char) :
    offset + (c :: text).length = offset + 1 + text.length := by
  rw [List.length_cons]
  omega

section Steps

variable {betweenNodes : Bool} {opened depth offset : Nat} {c : Char} {rest : List Char}

theorem ne_of_isInlineSpace {d : Char} (hspace : isInlineSpace c = true)
    (hother : isInlineSpace d = false) : c ≠ d := by
  rintro rfl
  rw [hspace] at hother
  cases hother

theorem ne_of_isNewline {d : Char} (hnewline : isNewline c = true)
    (hother : isNewline d = false) : c ≠ d := by
  rintro rfl
  rw [hnewline] at hother
  cases hother

theorem not_space_of_isNewline (hnewline : isNewline c = true) : isInlineSpace c = false := by
  simp only [isNewline, List.contains_eq_mem, decide_eq_true_eq, List.mem_cons, List.not_mem_nil,
    or_false] at hnewline
  rcases hnewline with rfl | rfl | rfl | rfl | rfl | rfl <;> decide

theorem skipBlank_blank
    (hblank : (isInlineSpace c || (betweenNodes && (isNewline c || c = ';'))) = true) :
    skipBlank betweenNodes .plain offset (c :: rest) =
      skipBlank betweenNodes .plain (offset + 1) rest := by
  have hother {d : Char} (hspace : isInlineSpace d = false) (hnewline : isNewline d = false)
      (hsemicolon : d ≠ ';') : c ≠ d := by
    rintro rfl
    simp [hspace, hnewline, hsemicolon] at hblank
  have hslash : c ≠ '/' := hother (by decide) (by decide) (by decide)
  have hescape : c ≠ '\\' := hother (by decide) (by decide) (by decide)
  rw [skipBlank, if_neg hescape, if_pos hblank]
  · exact fun _ hc => absurd hc hslash
  · exact fun _ hc => absurd hc hslash

/-- A comment goes on with every character that is not half of a mark. -/
theorem skipBlank_comment (hopen : c = '/' → rest.head? ≠ some '*')
    (hclose : c = '*' → rest.head? ≠ some '/') :
    skipBlank betweenNodes (.comment opened depth) offset (c :: rest) =
      skipBlank betweenNodes (.comment opened depth) (offset + 1) rest := by
  rw [skipBlank]
  · exact fun _ hc hrest => hopen hc (congrArg List.head? hrest)
  · exact fun _ hc hrest => hclose hc (congrArg List.head? hrest)

theorem skipBlank_continuation_space (hspace : isInlineSpace c = true) :
    skipBlank betweenNodes (.continuation opened) offset (c :: rest) =
      skipBlank betweenNodes (.continuation opened) (offset + 1) rest := by
  rw [skipBlank, if_pos hspace]
  · exact fun _ hc => absurd hc (ne_of_isInlineSpace hspace (by decide))
  · exact fun _ hc => absurd hc (ne_of_isInlineSpace hspace (by decide))

/-- A continuation ends with its line, and two characters can make up the newline. -/
theorem skipBlank_continuation_newline (hspace : isInlineSpace c = false)
    (hnewline : isNewline c = true) (hfeed : c = '\r' → rest.head? ≠ some '\n') :
    skipBlank betweenNodes (.continuation opened) offset (c :: rest) =
      skipBlank betweenNodes .plain (offset + 1) rest := by
  rw [skipBlank, if_neg (by simp [hspace]), if_pos hnewline]
  · exact fun _ hc => absurd hc (ne_of_isNewline hnewline (by decide))
  · exact fun _ hc hrest => hfeed hc (congrArg List.head? hrest)

theorem skipBlank_continuedComment_newline (hnewline : isNewline c = true)
    (hfeed : c = '\r' → rest.head? ≠ some '\n') :
    skipBlank betweenNodes .continuedComment offset (c :: rest) =
      skipBlank betweenNodes .plain (offset + 1) rest := by
  rw [skipBlank, if_pos hnewline]
  exact fun _ hc hrest => hfeed hc (congrArg List.head? hrest)

theorem skipBlank_continuedComment (hnewline : isNewline c = false) :
    skipBlank betweenNodes .continuedComment offset (c :: rest) =
      skipBlank betweenNodes .continuedComment (offset + 1) rest := by
  rw [skipBlank, if_neg (by simp [hnewline])]
  rintro _ rfl
  cases hnewline

theorem skipBlank_lineComment :
    skipBlank betweenNodes .lineComment offset (c :: rest) =
      if isNewline c then skipBlank betweenNodes .plain (offset + 1) rest
      else skipBlank betweenNodes .lineComment (offset + 1) rest := rfl

end Steps

/-- The state with another offset of its opening mark, which only failures tell. -/
def BlankState.openedAt (opened : Nat) : BlankState → BlankState
  | .comment _ depth => .comment opened depth
  | .continuation _ => .continuation opened
  | state => state

/-- From the state on the text is passed as a whole if what comes next, where it was `next`, is
still nothing if that was nothing, and does not newly begin with a line feed. -/
def PassesBlank (betweenNodes : Bool) (state : BlankState) (text next : List Char) : Prop :=
  ∀ opened offset rest, (next = [] → rest = []) →
    (rest.head? = some '\n' → next.head? = some '\n') →
      skipBlank betweenNodes (state.openedAt opened) offset (text ++ rest) =
        skipBlank betweenNodes .plain (offset + text.length) rest

/-- A carriage return that stands alone does so whatever comes next, a line feed apart. -/
theorem stays_alone {c : Char} {chars text next rest : List Char}
    (halone : ∀ others, c = '\r' → chars = '\n' :: others → False) (hchars : chars = text ++ next)
    (hfeed : rest.head? = some '\n' → next.head? = some '\n') (hc : c = '\r') :
    (text ++ rest).head? ≠ some '\n' := by
  intro hhead
  have hnext : chars.head? = some '\n' := by
    rw [hchars]
    cases text with
    | nil => exact hfeed hhead
    | cons d text => exact hhead
  obtain ⟨others, hothers⟩ := List.head?_eq_some_iff.mp hnext
  exact halone others hc hothers

namespace PassesBlank

variable {betweenNodes : Bool} {state after : BlankState} {text next : List Char}

theorem nil : PassesBlank betweenNodes .plain [] next := fun _ _ _ _ _ => rfl

theorem cons {c : Char} (hpass : PassesBlank betweenNodes after text next)
    (hstep : ∀ opened offset rest, (rest.head? = some '\n' → next.head? = some '\n') →
      ∃ reopened, skipBlank betweenNodes (state.openedAt opened) offset (c :: (text ++ rest)) =
        skipBlank betweenNodes (after.openedAt reopened) (offset + 1) (text ++ rest)) :
    PassesBlank betweenNodes state (c :: text) next := by
  intro opened offset rest hend hfeed
  obtain ⟨reopened, hstep⟩ := hstep opened offset rest hfeed
  rw [add_length_cons]
  exact hstep.trans (hpass reopened _ rest hend hfeed)

/-- A mark of two characters leads from one state to another. -/
theorem mark {c d : Char} (hpass : PassesBlank betweenNodes after text next)
    (hstep : ∀ opened offset rest, ∃ reopened,
      skipBlank betweenNodes (state.openedAt opened) offset (c :: d :: rest) =
        skipBlank betweenNodes (after.openedAt reopened) (offset + 2) rest) :
    PassesBlank betweenNodes state (c :: d :: text) next := by
  intro opened offset rest hend hfeed
  obtain ⟨reopened, hstep⟩ := hstep opened offset (text ++ rest)
  rw [add_length_cons, add_length_cons]
  exact hstep.trans (hpass reopened _ rest hend hfeed)

end PassesBlank

/-- Whatever is skipped in one text is skipped in front of any other as well, as far as the next
character agrees. -/
theorem skipBlank_passes {betweenNodes : Bool} {state : BlankState} {offset : Nat}
    {chars : List Char} {stop : Cursor}
    (hread : skipBlank betweenNodes state offset chars = .ok stop) :
    ∃ text, Cursor.Takes ⟨offset, chars⟩ text stop ∧
      (∀ opened depth, state = .comment opened depth → text ≠ []) ∧
      PassesBlank betweenNodes state text stop.rest := by
  -- A comment is closed by a mark of its own, so that its text is not empty: a character of it that
  -- might begin a mark has the next one in the text as well.
  have hsome (c : Char) (text : List Char) {state : BlankState} (opened depth : Nat)
      (_ : state = .comment opened depth) : c :: text ≠ [] := List.cons_ne_nil c text
  fun_induction skipBlank betweenNodes state offset chars with
  | case1 | case4 | case7 =>
      cases hread
      exact ⟨[], .refl _, fun _ _ hstate => BlankState.noConfusion hstate, .nil⟩
  | case13 | case19 | case23 =>
      cases hread
      refine ⟨[], .refl _, fun _ _ hstate => BlankState.noConfusion hstate, fun _ _ _ hend _ => ?_⟩
      rw [hend rfl]
      rfl
  | case8 | case18 => cases hread
  | case2 offset rest ih =>
      obtain ⟨text, htakes, -, hpass⟩ := ih hread
      exact ⟨_, (htakes.cons _).cons _, hsome _ _, hpass.mark fun _ offset _ => ⟨offset, rfl⟩⟩
  | case3 offset rest hbetween ih =>
      obtain ⟨text, htakes, -, hpass⟩ := ih hread
      refine ⟨_, (htakes.cons _).cons _, hsome _ _, hpass.mark fun opened _ _ => ⟨opened, ?_⟩⟩
      rw [hbetween]
      rfl
  | case9 _ _ _ _ ih | case10 _ _ _ ih | case11 _ _ _ _ ih | case14 _ _ _ ih | case15 _ _ _ ih
  | case20 _ _ ih =>
      obtain ⟨text, htakes, -, hpass⟩ := ih hread
      exact ⟨_, (htakes.cons _).cons _, hsome _ _, hpass.mark fun opened _ _ => ⟨opened, rfl⟩⟩
  | case5 offset rest _ _ ih =>
      obtain ⟨text, htakes, -, hpass⟩ := ih hread
      exact ⟨_, htakes.cons _, hsome _ _, hpass.cons fun _ offset _ _ => ⟨offset, rfl⟩⟩
  | case6 offset c rest _ _ _ hblank ih =>
      obtain ⟨text, htakes, -, hpass⟩ := ih hread
      exact ⟨_, htakes.cons c, hsome _ _, hpass.cons fun opened _ _ _ =>
        ⟨opened, skipBlank_blank hblank⟩⟩
  | case12 opened depth offset c chars hopen hclose ih =>
      obtain ⟨text, htakes, hne, hpass⟩ := ih hread
      obtain ⟨d, text, rfl⟩ := List.exists_cons_of_ne_nil (hne opened depth rfl)
      have hchars : chars = d :: (text ++ stop.rest) := htakes.1
      refine ⟨_, htakes.cons c, hsome _ _, hpass.cons fun opened _ _ _ =>
        ⟨opened, skipBlank_comment ?_ ?_⟩⟩
      · rintro hc ⟨⟩
        exact hopen _ hc hchars
      · rintro hc ⟨⟩
        exact hclose _ hc hchars
  | case16 opened offset c rest _ _ hspace ih =>
      obtain ⟨text, htakes, -, hpass⟩ := ih hread
      exact ⟨_, htakes.cons c, hsome _ _,
        hpass.cons fun opened _ _ _ => ⟨opened, skipBlank_continuation_space hspace⟩⟩
  | case17 opened offset c chars _ hcrlf hspace hnewline ih =>
      obtain ⟨text, htakes, -, hpass⟩ := ih hread
      exact ⟨_, htakes.cons c, hsome _ _, hpass.cons fun opened _ _ hfeed =>
        ⟨opened, skipBlank_continuation_newline (Bool.eq_false_iff.mpr hspace) hnewline
          (stays_alone hcrlf htakes.1 hfeed)⟩⟩
  | case21 offset c chars hcrlf hnewline ih =>
      obtain ⟨text, htakes, -, hpass⟩ := ih hread
      exact ⟨_, htakes.cons c, hsome _ _, hpass.cons fun opened _ _ hfeed =>
        ⟨opened, skipBlank_continuedComment_newline hnewline
          (stays_alone hcrlf htakes.1 hfeed)⟩⟩
  | case22 offset c chars _ hnewline ih =>
      obtain ⟨text, htakes, -, hpass⟩ := ih hread
      exact ⟨_, htakes.cons c, hsome _ _, hpass.cons fun opened _ _ _ =>
        ⟨opened, skipBlank_continuedComment (Bool.eq_false_iff.mpr hnewline)⟩⟩
  | case24 offset c chars hnewline ih =>
      obtain ⟨text, htakes, -, hpass⟩ := ih hread
      exact ⟨_, htakes.cons c, hsome _ _,
        hpass.cons fun opened _ _ _ => ⟨opened, skipBlank_lineComment.trans (if_pos hnewline)⟩⟩
  | case25 offset c chars hnewline ih =>
      obtain ⟨text, htakes, -, hpass⟩ := ih hread
      exact ⟨_, htakes.cons c, hsome _ _,
        hpass.cons fun opened _ _ _ => ⟨opened, skipBlank_lineComment.trans (if_neg hnewline)⟩⟩

/-! ### Blank text and what ends it

What is skipped depends on the text behind it in one respect only: a carriage return takes a line
feed that follows it along. So blank text is spoken of in front of any text that does not begin with
a line feed, and ends at any that `StopsBlank`.
-/

/-- Blank text that is passed in front of any further text, a line feed apart. -/
def IsBlank (betweenNodes : Bool) (text : List Char) : Prop :=
  ∀ offset rest, rest ≠ [] → rest.head? ≠ some '\n' →
    skipBlank betweenNodes .plain offset (text ++ rest) =
      skipBlank betweenNodes .plain (offset + text.length) rest

def StopsBlank (betweenNodes : Bool) (rest : List Char) : Prop :=
  ∀ offset, skipBlank betweenNodes .plain offset rest = .ok ⟨offset, rest⟩

theorem stopsBlank_nil (betweenNodes : Bool) : StopsBlank betweenNodes [] := fun _ => rfl

theorem stopsBlank_content {betweenNodes : Bool} {c : Char} (rest : List Char)
    (hcontent : isContent c = true) : StopsBlank betweenNodes (c :: rest) :=
  fun _ => skipBlank_content hcontent

/-- The marks that stand in front of elements and behind them. -/
theorem stopsBlank_mark {betweenNodes : Bool} {c : Char} (rest : List Char)
    (hmark : c = '(' ∨ c = '\x7b' ∨ c = '\x7d') : StopsBlank betweenNodes (c :: rest) := by
  intro offset
  rcases hmark with rfl | rfl | rfl <;> cases betweenNodes <;> rfl

theorem stopsBlank_slashdash (betweenNodes : Bool) (rest : List Char) :
    StopsBlank betweenNodes ('/' :: '-' :: rest) := by
  intro offset
  cases betweenNodes <;> rfl

/-- The text that was skipped in front of something is blank. -/
theorem isBlank_of_skipBlank {betweenNodes : Bool} {offset : Nat} {chars : List Char}
    {stop : Cursor} (hread : skipBlank betweenNodes .plain offset chars = .ok stop)
    (hne : stop.rest ≠ []) :
    ∃ text, Cursor.Takes ⟨offset, chars⟩ text stop ∧ IsBlank betweenNodes text := by
  obtain ⟨text, htakes, -, hpass⟩ := skipBlank_passes hread
  refine ⟨text, htakes, fun offset rest _ hfeed => ?_⟩
  exact hpass 0 offset rest (fun hnil => absurd hnil hne) fun hhead => absurd hhead hfeed

/-- Blank text is skipped up to what stops it, wherever it stands. -/
theorem IsBlank.skip {betweenNodes : Bool} {text rest : List Char}
    (hblank : IsBlank betweenNodes text) (hne : rest ≠ []) (hfeed : rest.head? ≠ some '\n')
    (hstops : StopsBlank betweenNodes rest) (offset : Nat) :
    skipBlank betweenNodes .plain offset (text ++ rest) = .ok ⟨offset + text.length, rest⟩ :=
  (hblank offset rest hne hfeed).trans (hstops _)

theorem isBlank_nil (betweenNodes : Bool) : IsBlank betweenNodes [] := fun _ _ _ _ => rfl

theorem isBlank_space (betweenNodes : Bool) : IsBlank betweenNodes [' '] := by
  intro offset rest _ _
  cases betweenNodes <;> rfl

/-- Blank text starts with a character that is blank or opens a comment or a continuation. -/
theorem IsBlank.head_not_content {betweenNodes : Bool} {c : Char} {text : List Char}
    (hblank : IsBlank betweenNodes (c :: text)) : isContent c = false := by
  by_contra hcontent
  have hcontent : isContent c = true := by simpa using hcontent
  have hpass : skipBlank betweenNodes .plain 0 (c :: text ++ ['a']) =
      .ok ⟨0 + (c :: text).length, ['a']⟩ :=
    hblank.skip (by simp) (by decide) (stopsBlank_content [] (by decide)) 0
  rw [List.cons_append, skipBlank_content hcontent] at hpass
  have hlength := congrArg (Except.map fun cursor : Cursor => cursor.offset) hpass
  simp [Except.map] at hlength

end ReverseProxy.Kdl
