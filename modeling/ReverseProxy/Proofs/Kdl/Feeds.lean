import ReverseProxy.Proofs.Kdl.Blanks

/-!
# Line feeds behind blank text

Where blank text reaches the end of a text, a line feed written there is either the next character,
or it ends what was open: a line comment, a line continuation, or the newline of a continuation that
has a carriage return already. So blank text may follow blank text.
-/

namespace ReverseProxy.Kdl

/-- From the state on, the text is passed in front of a line feed, and that many more characters are
passed with it. -/
def PassesFeed (betweenNodes : Bool) (passed : Nat) (state : BlankState) (text : List Char) :
    Prop :=
  ∀ opened offset rest,
    skipBlank betweenNodes (state.openedAt opened) offset (text ++ '\n' :: rest) =
    skipBlank betweenNodes .plain (offset + text.length + passed) (('\n' :: rest).drop passed)

def EndsAtFeed (betweenNodes : Bool) (state : BlankState) (text : List Char) : Prop :=
  ∃ passed ≤ 1, PassesFeed betweenNodes passed state text

namespace EndsAtFeed

variable {betweenNodes : Bool} {state after : BlankState} {text : List Char} {c d : Char}

theorem cons (hends : EndsAtFeed betweenNodes after text)
    (hstep : ∀ opened offset rest, ∃ reopened,
      skipBlank betweenNodes (state.openedAt opened) offset (c :: (text ++ '\n' :: rest)) =
        skipBlank betweenNodes (after.openedAt reopened) (offset + 1) (text ++ '\n' :: rest)) :
    EndsAtFeed betweenNodes state (c :: text) := by
  obtain ⟨passed, hpassed, hpass⟩ := hends
  refine ⟨passed, hpassed, fun opened offset rest => ?_⟩
  obtain ⟨reopened, hstep⟩ := hstep opened offset rest
  rw [add_length_cons]
  exact hstep.trans (hpass reopened _ rest)

/-- A mark of two characters leads from one state to another. -/
theorem mark (hends : EndsAtFeed betweenNodes after text)
    (hstep : ∀ opened offset rest, ∃ reopened,
      skipBlank betweenNodes (state.openedAt opened) offset (c :: d :: rest) =
        skipBlank betweenNodes (after.openedAt reopened) (offset + 2) rest) :
    EndsAtFeed betweenNodes state (c :: d :: text) := by
  obtain ⟨passed, hpassed, hpass⟩ := hends
  refine ⟨passed, hpassed, fun opened offset rest => ?_⟩
  obtain ⟨reopened, hstep⟩ := hstep opened offset (text ++ '\n' :: rest)
  rw [add_length_cons, add_length_cons]
  exact hstep.trans (hpass reopened _ rest)

theorem head_ne (hd : d ≠ '\n') (hother : ∀ others, text = d :: others → False)
    (rest : List Char) : (text ++ '\n' :: rest).head? ≠ some d := by
  cases text with
  | nil => simpa using hd.symm
  | cons e text =>
      rintro ⟨⟩
      exact hother text rfl

/-- A newline that ends a continuation: a carriage return at the end of the text takes the line feed
behind it. -/
theorem newline (hends : EndsAtFeed betweenNodes .plain text)
    (halone : ∀ others, c = '\r' → text = '\n' :: others → False)
    (hpair : ∀ opened offset rest,
      skipBlank betweenNodes (state.openedAt opened) offset ('\r' :: '\n' :: rest) =
        skipBlank betweenNodes .plain (offset + 2) rest)
    (hstep : ∀ opened offset rest, (c = '\r' → rest.head? ≠ some '\n') →
      skipBlank betweenNodes (state.openedAt opened) offset (c :: rest) =
        skipBlank betweenNodes .plain (offset + 1) rest) :
    EndsAtFeed betweenNodes state (c :: text) := by
  by_cases hpaired : c = '\r' ∧ text = []
  · obtain ⟨rfl, rfl⟩ := hpaired
    exact ⟨1, Nat.le_refl 1, hpair⟩
  · refine hends.cons fun opened offset rest => ⟨opened, hstep opened offset _ fun hc => ?_⟩
    obtain ⟨d, others, rfl⟩ := List.exists_cons_of_ne_nil fun hnil => hpaired ⟨hc, hnil⟩
    rintro ⟨⟩
    exact halone others hc rfl

end EndsAtFeed

/-- Blank text up to the end of a text would end at a line feed in its place. -/
theorem skipBlank_endsAtFeed {betweenNodes : Bool} {state : BlankState} {offset last : Nat}
    {chars : List Char} (hread : skipBlank betweenNodes state offset chars = .ok ⟨last, []⟩) :
    EndsAtFeed betweenNodes state chars := by
  -- By the cases of the scan: it goes on behind one or two characters, or the text has ended.
  fun_induction skipBlank betweenNodes state offset chars with
  | case1 => exact ⟨0, Nat.zero_le 1, fun _ _ _ => rfl⟩
  | case13 | case19 | case23 => exact ⟨1, Nat.le_refl 1, fun _ _ _ => rfl⟩
  | case4 | case7 | case8 | case18 => cases hread
  | case2 offset rest ih => exact (ih hread).mark fun _ offset _ => ⟨offset, rfl⟩
  | case3 offset rest hbetween ih =>
      refine (ih hread).mark fun opened _ _ => ⟨opened, ?_⟩
      rw [hbetween]
      rfl
  | case9 _ _ _ _ ih | case10 _ _ _ ih | case11 _ _ _ _ ih | case14 _ _ _ ih | case15 _ _ _ ih
  | case20 _ _ ih => exact (ih hread).mark fun opened _ _ => ⟨opened, rfl⟩
  | case5 offset rest _ _ ih => exact (ih hread).cons fun _ offset _ => ⟨offset, rfl⟩
  | case6 offset c rest _ _ _ hblank ih =>
      exact (ih hread).cons fun opened _ _ => ⟨opened, skipBlank_blank hblank⟩
  | case12 opened depth offset c chars hopen hclose ih =>
      refine (ih hread).cons fun opened _ rest => ⟨opened, skipBlank_comment ?_ ?_⟩
      · exact fun hc => EndsAtFeed.head_ne (by decide) (fun others => hopen others hc) rest
      · exact fun hc => EndsAtFeed.head_ne (by decide) (fun others => hclose others hc) rest
  | case16 opened offset c rest _ _ hspace ih =>
      exact (ih hread).cons fun opened _ _ => ⟨opened, skipBlank_continuation_space hspace⟩
  | case17 opened offset c chars _ hcrlf hspace hnewline ih =>
      exact (ih hread).newline hcrlf (fun _ _ _ => rfl) fun _ _ _ hfeed =>
        skipBlank_continuation_newline (Bool.eq_false_iff.mpr hspace) hnewline hfeed
  | case21 offset c chars hcrlf hnewline ih =>
      exact (ih hread).newline hcrlf (fun _ _ _ => rfl) fun _ _ _ hfeed =>
        skipBlank_continuedComment_newline hnewline hfeed
  | case22 offset c chars _ hnewline ih =>
      exact (ih hread).cons fun opened _ _ =>
        ⟨opened, skipBlank_continuedComment (Bool.eq_false_iff.mpr hnewline)⟩
  | case24 offset c chars hnewline ih =>
      exact (ih hread).cons fun opened _ _ =>
        ⟨opened, skipBlank_lineComment.trans (if_pos hnewline)⟩
  | case25 offset c chars hnewline ih =>
      exact (ih hread).cons fun opened _ _ =>
        ⟨opened, skipBlank_lineComment.trans (if_neg hnewline)⟩

/-- Between nodes a line feed is blank whatever stands in front of it. -/
theorem EndsAtFeed.skip {text : List Char} (hends : EndsAtFeed true .plain text) (offset : Nat)
    (rest : List Char) : skipBlank true .plain offset (text ++ '\n' :: rest) =
      skipBlank true .plain (offset + text.length) ('\n' :: rest) := by
  obtain ⟨passed, hpassed, hpass⟩ := hends
  have hskip := hpass 0 offset rest
  obtain rfl | rfl : passed = 0 ∨ passed = 1 := by omega
  · exact hskip
  · exact hskip

namespace IsBlank

variable {betweenNodes : Bool} {blank more : List Char}

theorem endsAtFeed (hblank : IsBlank betweenNodes blank) :
    EndsAtFeed betweenNodes .plain blank := by
  obtain ⟨text, htakes, -, hpass⟩ := skipBlank_passes
    (hblank.skip (List.cons_ne_nil 'a' []) (by decide) (stopsBlank_content [] (by decide)) 0)
  obtain rfl : blank = text := (List.append_inj' htakes.1 rfl).1
  have hend := hpass 0 0 [] (fun hnil => absurd hnil (List.cons_ne_nil _ _)) nofun
  rw [List.append_nil] at hend
  exact skipBlank_endsAtFeed hend

/-- Within a line a line feed ends blank text. -/
theorem head_ne_feed (hblank : IsBlank false blank) : blank.head? ≠ some '\n' := by
  intro hhead
  obtain ⟨rest, rfl⟩ := List.head?_eq_some_iff.mp hhead
  have hpass : skipBlank false .plain 0 ('\n' :: rest ++ ['a']) =
      .ok ⟨0 + ('\n' :: rest).length, ['a']⟩ :=
    hblank.skip (List.cons_ne_nil 'a' []) (by decide) (stopsBlank_content [] (by decide)) 0
  cases hpass

/-- Blank text behind blank text is blank, since the second part cannot begin with a line feed that
completes a newline. -/
theorem append (hblank : IsBlank betweenNodes blank) (hmore : IsBlank betweenNodes more) :
    IsBlank betweenNodes (blank ++ more) := by
  intro offset rest hne hfeed
  rw [List.append_assoc, List.length_append, ← Nat.add_assoc, ← hmore _ rest hne hfeed]
  by_cases hhead : (more ++ rest).head? = some '\n'
  · cases betweenNodes with
    | true =>
        obtain ⟨others, hothers⟩ := List.head?_eq_some_iff.mp hhead
        rw [hothers]
        exact hblank.endsAtFeed.skip offset others
    | false =>
        cases more with
        | nil => exact absurd hhead hfeed
        | cons c more => exact absurd hhead hmore.head_ne_feed
  · exact hblank offset _ (List.append_ne_nil_of_right_ne_nil more hne) hhead

end IsBlank

end ReverseProxy.Kdl
