import ReverseProxy.Kdl.Shape
import ReverseProxy.Proofs.Kdl.Words

/-!
# Nodes wherever they stand

The text of a node is a type annotation, a name, and parts with blank text in front of each:
entries, elements that are thrown away, and possibly a block at the end. What is read of it depends
on this text alone, and what follows has to end the node. The reader of blocks is a parameter here
too.
-/

namespace ReverseProxy.Kdl

/-- From the first cursor on there is only blank text and possibly a line comment, up to the second
one, where the node ends. -/
def EndsNodeAt (start stop : Cursor) : Prop :=
  ∃ next, start.inlineBlank = .ok next ∧ skipLineComment next = stop ∧ endsNode stop.rest = true

theorem EndsNodeAt.endsNode {start stop : Cursor} (hends : EndsNodeAt start stop) :
    endsNode stop.rest = true := by
  obtain ⟨_, -, -, hend⟩ := hends
  exact hend

theorem skipLineComment_of_head {cursor : Cursor} (hhead : cursor.rest.head? ≠ some '/') :
    skipLineComment cursor = cursor := by
  unfold skipLineComment
  split
  · next hrest => simp [hrest] at hhead
  · rfl

theorem EndsNodeAt.endsEntry {start stop : Cursor} (hends : EndsNodeAt start stop) :
    EndsEntry start.rest := by
  intro c hc
  by_contra hcontent
  have hcontent : isContent c = true := by simpa using hcontent
  obtain ⟨rest, hrest⟩ := List.head?_eq_some_iff.mp hc
  obtain ⟨next, hnext, hstop, hend⟩ := hends
  rw [Cursor.inlineBlank, hrest, skipBlank_content hcontent] at hnext
  cases hnext
  have hslash : c ≠ '/' := ne_of_isContent hcontent (by decide)
  rw [skipLineComment_of_head (by simpa using hslash)] at hstop
  subst hstop
  rw [endsNode_startsElement (startsElement_of_isContent hcontent)] at hend
  cases hend

theorem EndsNodeAt.tailFrom {start stop : Cursor} (hends : EndsNodeAt start stop)
    (read : BlockReader) (finish : Nat) :
    tailFrom read start finish = .ok (⟨[], none, finish⟩, stop) := by
  obtain ⟨next, hnext, hstop, hend⟩ := hends
  unfold skipLineComment at hstop
  split at hstop
  · next hrest =>
    subst hstop
    exact tailFrom_comment hnext hrest
  · subst hstop
    exact tailFrom_end hnext hend

/-- A block is the last part of its node, which has to end behind it. -/
theorem readLastBlock_eq_ok {read : BlockReader} {start stop : Cursor} {tail : NodeTail} :
    readLastBlock read start = .ok (tail, stop) ↔
      ∃ block after, read start = .ok (block, after) ∧ EndsNodeAt after stop ∧
        tail = ⟨[], some block, after.offset⟩ := by
  constructor
  · intro hread
    obtain ⟨⟨block, after⟩, hblock, hread⟩ := bind_eq_ok.mp hread
    obtain ⟨next, hnext, hread⟩ := bind_eq_ok.mp hread
    dsimp only at hread
    split at hread
    · next hend =>
      cases hread
      exact ⟨block, after, hblock, ⟨next, hnext, rfl, hend⟩, rfl⟩
    · cases hread
  · rintro ⟨block, after, hblock, ⟨next, hnext, rfl, hend⟩, rfl⟩
    simp only [readLastBlock, hblock, hnext, hend, ok_bind, if_true, pure_eq_ok]

def EndsNode (close : List Char) (next : Option Char) : Prop :=
  ∀ offset rest, rest.head? = next →
    EndsNodeAt ⟨offset, close ++ rest⟩ ⟨offset + close.length, rest⟩

theorem stopsBlank_of_endsNode {rest : List Char} (hends : endsNode rest = true) :
    StopsBlank false rest := by
  intro offset
  cases rest with
  | nil => rfl
  | cons c rest =>
      have hmark : isNewline c = true ∨ c = ';' ∨ c = '\x7d' := by
        simpa [endsNode, or_assoc] using hends
      have hspace : isInlineSpace c = false ∧ c ≠ '/' ∧ c ≠ '\\' := by
        rcases hmark with hnewline | rfl | rfl
        · exact ⟨not_space_of_isNewline hnewline, ne_of_isNewline hnewline (by decide),
            ne_of_isNewline hnewline (by decide)⟩
        · decide
        · decide
      obtain ⟨hspace, hslash, hescape⟩ := hspace
      rw [skipBlank, if_neg hescape]
      · simp [hspace]
      · exact fun _ hc => absurd hc hslash
      · exact fun _ hc => absurd hc hslash

theorem head_ne_slash_of_endsNode {rest : List Char} (hends : endsNode rest = true) :
    rest.head? ≠ some '/' := by
  cases rest with
  | nil => simp
  | cons c rest =>
      rintro ⟨⟩
      cases hends

/-- Only the next character decides whether a node ends. -/
theorem endsNode_congr {rest other : List Char} (hhead : rest.head? = other.head?) :
    endsNode rest = endsNode other := by
  cases rest <;> cases other <;> cases hhead <;> rfl

theorem endsNodeAt_self {rest : List Char} (hends : endsNode rest = true) (offset : Nat) :
    EndsNodeAt ⟨offset, rest⟩ ⟨offset, rest⟩ :=
  ⟨_, stopsBlank_of_endsNode hends offset,
    skipLineComment_of_head (head_ne_slash_of_endsNode hends), hends⟩

/-- A line comment, if any, is passed in the same way whatever comes after the next character. -/
theorem skipLineComment_takes {start stop : Cursor} (hstop : skipLineComment start = stop)
    (hend : endsNode stop.rest = true) :
    ∃ comment, start.Takes comment stop ∧
      ∀ offset rest, rest.head? = stop.rest.head? → StopsBlank false (comment ++ rest) ∧
        skipLineComment ⟨offset, comment ++ rest⟩ = ⟨offset + comment.length, rest⟩ := by
  unfold skipLineComment at hstop
  split at hstop
  · next more hmore =>
    obtain ⟨htakes, hline, hnewline⟩ := start.takes_takeWhile fun c => !isNewline c
    have hcomment : (start.takeWhile fun c => !isNewline c).1 =
        '/' :: '/' :: more.takeWhile fun c => !isNewline c := by
      simp [Cursor.takeWhile, hmore, isNewline]
    rw [show (start.takeWhile fun c => !isNewline c).2 = stop from hstop] at htakes hnewline
    rw [hcomment] at htakes hline
    refine ⟨_, htakes, fun offset rest hhead => ⟨fun _ => rfl, ?_⟩⟩
    exact congrArg Prod.snd
      (Cursor.takeWhile_append offset hline fun c hc => hnewline c (hhead ▸ hc))
  · next hother =>
    subst hstop
    refine ⟨[], .refl _, fun offset rest hhead => ?_⟩
    have hends : endsNode rest = true := (endsNode_congr hhead).trans hend
    exact ⟨stopsBlank_of_endsNode hends,
      skipLineComment_of_head (head_ne_slash_of_endsNode hends)⟩

theorem head?_append_congr {rest other : List Char} (text : List Char)
    (hhead : rest.head? = other.head?) : (text ++ rest).head? = (text ++ other).head? := by
  cases text with
  | nil => exact hhead
  | cons => rfl

/-- The text behind a node is passed in the same way wherever it stands and whatever comes after
the next character. -/
theorem EndsNodeAt.takes {start stop : Cursor} (hends : EndsNodeAt start stop) :
    ∃ close, start.Takes close stop ∧ EndsNode close stop.rest.head? := by
  obtain ⟨next, hnext, hstop, hend⟩ := hends
  obtain ⟨blank, hblank, -, hpass⟩ := skipBlank_passes hnext
  obtain ⟨comment, hcomment, hskip⟩ := skipLineComment_takes hstop hend
  refine ⟨blank ++ comment, hblank.trans hcomment, fun offset rest hhead => ?_⟩
  have hnexthead : (comment ++ rest).head? = next.rest.head? := by
    rw [hcomment.1]
    exact head?_append_congr comment hhead
  obtain ⟨hstops, hline⟩ := hskip (offset + blank.length) rest hhead
  refine ⟨⟨offset + blank.length, comment ++ rest⟩, ?_, ?_, (endsNode_congr hhead).trans hend⟩
  · rw [List.append_assoc]
    refine (hpass 0 offset (comment ++ rest) (fun hnil => ?_) fun hfeed => ?_).trans (hstops _)
    · rw [hnil] at hnexthead
      exact List.head?_eq_none_iff.mp hnexthead
    · rw [← hnexthead]
      exact hfeed
  · rw [hline, List.length_append, Nat.add_assoc]

structure IsBlock (read : BlockReader) (text : List Char) (block : Block Node) : Prop where
  head : ∃ rest, text = '\x7b' :: rest
  span_eq : block.span = ⟨0, text.length⟩
  reads : ∀ offset rest,
    read ⟨offset, text ++ rest⟩ = .ok (block.shift offset, ⟨offset + text.length, rest⟩)

theorem IsBlock.span_shift {read : BlockReader} {text : List Char} {block : Block Node}
    (hblock : IsBlock read text block) (distance : Nat) :
    (block.shift distance).span = ⟨distance, text.length⟩ := by
  rw [Block.shift, hblock.span_eq, Span.shift, Nat.zero_add]

/-- An entry or a block. -/
inductive IsElement (read : BlockReader) : List Char → Prop
  | entry {text : List Char} {entry : Entry} (hentry : IsEntry text entry) : IsElement read text
  | block {text : List Char} {block : Block Node} (hblock : IsBlock read text block) :
      IsElement read text

/-- Blank text ends before an element. -/
theorem IsBlank.skip_element {betweenNodes : Bool} {blank rest : List Char} {c : Char}
    (hblank : IsBlank betweenNodes blank) (hstarts : startsElement c = true ∨ c = '\x7b')
    (offset : Nat) :
    skipBlank betweenNodes .plain offset (blank ++ c :: rest) =
      .ok ⟨offset + blank.length, c :: rest⟩ := by
  refine hblank.skip (List.cons_ne_nil c rest) ?_ ?_ offset
  · rintro ⟨⟩
    rcases hstarts with hstarts | hopen
    · cases hstarts
    · cases hopen
  · rcases hstarts with hstarts | rfl
    · exact fun _ => skipBlank_startsElement hstarts
    · exact stopsBlank_mark rest (.inr (.inl rfl))

theorem IsBlank.skip_slashdash {betweenNodes : Bool} {blank rest : List Char}
    (hblank : IsBlank betweenNodes blank) (offset : Nat) :
    skipBlank betweenNodes .plain offset (blank ++ '/' :: '-' :: rest) =
      .ok ⟨offset + blank.length, '/' :: '-' :: rest⟩ :=
  hblank.skip (List.cons_ne_nil _ _) (by simp) (stopsBlank_slashdash betweenNodes rest) offset

section Reading

variable {read : BlockReader}

theorem IsElement.head {text : List Char} (helement : IsElement read text) :
    ∃ c rest, text = c :: rest ∧ (startsElement c = true ∨ c = '\x7b') := by
  cases helement with
  | entry hentry =>
      obtain ⟨c, rest, htext, hstarts⟩ := hentry.head
      exact ⟨c, rest, htext, .inl hstarts⟩
  | block hblock =>
      obtain ⟨rest, htext⟩ := hblock.head
      exact ⟨'\x7b', rest, htext, .inr rfl⟩

/-- An element is skipped as a whole, wherever it stands. -/
theorem IsElement.skipElement {text rest : List Char} (helement : IsElement read text)
    (hends : EndsEntry rest) (offset : Nat) :
    skipElement read ⟨offset, text ++ rest⟩ = .ok ⟨offset + text.length, rest⟩ := by
  cases helement with
  | entry hentry =>
      obtain ⟨c, more, htext, hstarts⟩ := hentry.head
      have hread := hentry.reads offset rest hends
      have hopen : c ≠ '\x7b' := ne_of_startsElement hstarts (by decide)
      unfold Kdl.skipElement
      split
      · next hrest =>
        rw [htext, List.cons_append] at hrest
        exact absurd (List.cons.inj hrest).1 hopen
      · rw [hread]
        rfl
  | block hblock =>
      obtain ⟨more, rfl⟩ := hblock.head
      have hread := hblock.reads offset rest
      rw [List.cons_append] at hread ⊢
      simp only [Kdl.skipElement, hread, map_ok]

end Reading

/-! ### What follows the name of a node

The parts of a node are read by a cursor that moves on, and described by a text that does not say
where it stands. `IsTail` is the description and `TakesTail` what connects the two; the case that
reads a part and the constructor that describes it are proved to match one by one.
-/

/-- The parts of a node, which begin that many characters after it; it tells their spans from its
own beginning. -/
inductive IsTail (read : BlockReader) :
    Nat → List Char → List Entry → Option (Block Node) → Prop
  | nil {base : Nat} : IsTail read base [] [] none
  | block {base : Nat} {blank text : List Char} {block : Block Node}
      (hblank : IsBlank false blank) (hblock : IsBlock read text block) :
      IsTail read base (blank ++ text) [] (some (block.shift (base + blank.length)))
  | entry {base : Nat} {blank text rest : List Char} {entry : Entry} {entries : List Entry}
      {children : Option (Block Node)} (hblank : IsBlank false blank) (hne : blank ≠ [])
      (hentry : IsEntry text entry)
      (hrest : IsTail read (base + blank.length + text.length) rest entries children) :
      IsTail read base (blank ++ (text ++ rest)) (entry.shift (base + blank.length) :: entries)
        children
  | skipped {base : Nat} {blank gap text rest : List Char} {entries : List Entry}
      {children : Option (Block Node)} (hblank : IsBlank false blank) (hgap : IsBlank false gap)
      (helement : IsElement read text)
      (hrest : IsTail read (base + blank.length + 2 + gap.length + text.length) rest entries
        children) :
      IsTail read base (blank ++ '/' :: '-' :: (gap ++ (text ++ rest))) entries children

section Reading

variable {read : BlockReader}

theorem endsEntry_blank {blank rest : List Char} (hblank : IsBlank false blank)
    (hrest : EndsEntry rest) : EndsEntry (blank ++ rest) := by
  cases blank with
  | nil => exact hrest
  | cons c blank =>
      rintro d ⟨⟩
      exact hblank.head_not_content

theorem IsTail.endsEntry {base : Nat} {text rest : List Char} {entries : List Entry}
    {children : Option (Block Node)} (htail : IsTail read base text entries children)
    (hrest : EndsEntry rest) : EndsEntry (text ++ rest) := by
  have hmark {c : Char} (more : List Char) (hother : isContent c = false) :
      EndsEntry (c :: more) := by
    rintro d ⟨⟩
    exact hother
  cases htail with
  | nil => exact hrest
  | block hblank hblock =>
      obtain ⟨more, rfl⟩ := hblock.head
      rw [List.append_assoc]
      exact endsEntry_blank hblank (hmark _ (by decide))
  | entry hblank hne =>
      obtain ⟨c, blank, rfl⟩ := List.exists_cons_of_ne_nil hne
      exact hmark _ hblank.head_not_content
  | skipped hblank =>
      rw [List.append_assoc]
      exact endsEntry_blank hblank (hmark _ (by decide))

/-- What follows the name of a node is read wherever it stands, in front of anything that ends the
node. -/
theorem IsTail.tailFrom {base offset start finish : Nat} {text rest : List Char}
    {entries : List Entry} {children : Option (Block Node)} {stop : Cursor}
    (htail : IsTail read base text entries children) (hread : read.Advances)
    (hstart : start = base + offset) (hfinish : finish = start + text.length)
    (hends : EndsNodeAt ⟨finish, rest⟩ stop) :
    tailFrom read ⟨start, text ++ rest⟩ start =
      .ok (⟨entries.map (Entry.shift offset), children.map (Block.shift offset), finish⟩,
        stop) := by
  -- The offset stays the same throughout: `base` and `start` move on together.
  induction htail generalizing start with
  | nil =>
      subst hfinish
      exact hends.tailFrom read _
  | @block base blank text block hblank hblock =>
      obtain ⟨more, htext⟩ := hblock.head
      have hnext : Cursor.inlineBlank ⟨start, blank ++ text ++ rest⟩ =
          .ok ⟨start + blank.length, text ++ rest⟩ := by
        rw [List.append_assoc, htext]
        exact hblank.skip_element (.inr rfl) start
      have hopen : text ++ rest = '\x7b' :: (more ++ rest) := by rw [htext, List.cons_append]
      have hlength : start + blank.length + text.length = finish := by
        rw [hfinish, List.length_append, Nat.add_assoc]
      have hshift : base + blank.length + offset = start + blank.length := by omega
      rw [tailFrom_block hnext hopen]
      refine readLastBlock_eq_ok.mpr ⟨_, _, hblock.reads _ rest, ?_, ?_⟩
      · rw [hlength]
        exact hends
      · simp only [Option.map_some, List.map_nil, Block.shift_shift, hshift, hlength]
  | @entry base blank text tail entry entries children hblank hne hentry hrest ih =>
      obtain ⟨c, more, htext, hstarts⟩ := hentry.head
      have hnext : Cursor.inlineBlank ⟨start, blank ++ (text ++ tail) ++ rest⟩ =
          .ok ⟨start + blank.length, text ++ (tail ++ rest)⟩ := by
        rw [List.append_assoc, List.append_assoc, htext]
        exact hblank.skip_element (.inl hstarts) start
      have hhead : text ++ (tail ++ rest) = c :: (more ++ (tail ++ rest)) := by
        rw [htext, List.cons_append]
      have hspaced : ¬start + blank.length = start := by
        have hpos := List.length_pos_of_ne_nil hne
        omega
      have hshift : base + blank.length + offset = start + blank.length := by omega
      rw [List.length_append, List.length_append] at hfinish
      rw [tailFrom_element hread hstarts hnext hhead, if_neg hspaced,
        hentry.reads _ _ (hrest.endsEntry hends.endsEntry), ok_bind]
      have hmore := @ih (start + blank.length + text.length) (by omega) (by omega)
      dsimp only
      rw [hmore]
      simp only [ok_bind, pure_eq_ok, List.map_cons, Entry.shift_shift, hshift]
  | @skipped base blank gap text tail entries children hblank hgap helement hrest ih =>
      obtain ⟨c, more, htext, hstarts⟩ := helement.head
      have hnext : Cursor.inlineBlank
        ⟨start, blank ++ '/' :: '-' :: (gap ++ (text ++ tail)) ++ rest⟩ =
          .ok ⟨start + blank.length, '/' :: '-' :: (gap ++ (text ++ (tail ++ rest)))⟩ := by
        rw [← hblank.skip_slashdash start]
        simp [Cursor.inlineBlank]
      have helementAt : Cursor.inlineBlank
          ⟨start + blank.length + 2, gap ++ (text ++ (tail ++ rest))⟩ =
            .ok ⟨start + blank.length + 2 + gap.length, text ++ (tail ++ rest)⟩ := by
        rw [htext]
        exact hgap.skip_element hstarts _
      simp only [List.length_append, List.length_cons] at hfinish
      rw [tailFrom_slashdash hread hnext rfl, helementAt, ok_bind,
        helement.skipElement (hrest.endsEntry hends.endsEntry), ok_bind]
      exact ih (by omega) (by omega)

/-- A reader of blocks that reads only the text of the block, and reads it wherever it stands. -/
def BlockReader.IsLocal (read : BlockReader) : Prop :=
  ∀ start block stop, start.rest.head? = some '\x7b' → read start = .ok (block, stop) →
    ∃ text origin, start.Takes text stop ∧ IsBlock read text origin ∧
      block = origin.shift start.offset

/-- What is skipped is an element. -/
theorem skipElement_takes {start stop : Cursor} (hlocal : read.IsLocal)
    (hskip : skipElement read start = .ok stop) :
    ∃ text, start.Takes text stop ∧ IsElement read text := by
  unfold skipElement at hskip
  split at hskip
  · next rest hrest =>
    obtain ⟨⟨block, after⟩, hblock, rfl⟩ := map_eq_ok.mp hskip
    obtain ⟨text, origin, htakes, horigin, -⟩ := hlocal start block after (by simp [hrest]) hblock
    exact ⟨text, htakes, .block horigin⟩
  · obtain ⟨⟨entry, after⟩, hentry, rfl⟩ := map_eq_ok.mp hskip
    obtain ⟨text, origin, htakes, horigin, -⟩ := readEntry_takes hentry
    exact ⟨text, htakes, .entry horigin⟩

theorem endsNode_lineEnd (cursor : Cursor) : endsNode cursor.lineEnd.rest = true := by
  obtain ⟨-, -, hnewline⟩ := cursor.takes_takeWhile fun c => !isNewline c
  cases hrest : cursor.lineEnd.rest with
  | nil => rfl
  | cons c rest =>
      have hc := hnewline c (by rw [show (cursor.takeWhile _).2.rest = _ from hrest]; rfl)
      simp [endsNode, show isNewline c = true by simpa using hc]

def TakesTail (read : BlockReader) (base offset : Nat) (start stop : Cursor) (tail : NodeTail) :
    Prop :=
  ∃ text entries children middle, start.Takes text middle ∧
    IsTail read base text entries children ∧ EndsNodeAt middle stop ∧
    tail = ⟨entries.map (Entry.shift offset), children.map (Block.shift offset), middle.offset⟩

namespace TakesTail

variable {base offset : Nat} {start next after stop : Cursor} {blank text : List Char}
  {tail : NodeTail}

theorem nil (hends : EndsNodeAt start stop) :
    TakesTail read base offset start stop ⟨[], none, start.offset⟩ :=
  ⟨[], [], none, start, .refl start, .nil, hends, rfl⟩

theorem block {block : Block Node} (hstart : start.offset = base + offset)
    (hblank : start.Takes blank next) (isblank : IsBlank false blank)
    (htext : next.Takes text after) (isblock : IsBlock read text block)
    (hends : EndsNodeAt after stop) :
    TakesTail read base offset start stop
      ⟨[], some (block.shift next.offset), after.offset⟩ := by
  refine ⟨_, [], _, after, hblank.trans htext, .block isblank isblock, hends, ?_⟩
  simp only [List.map_nil, Option.map_some, Block.shift_shift, hblank.offset_from hstart]

theorem entry {entry : Entry} (hstart : start.offset = base + offset)
    (hblank : start.Takes blank next) (isblank : IsBlank false blank) (hne : blank ≠ [])
    (htext : next.Takes text after) (isentry : IsEntry text entry)
    (hmore : ∀ base, after.offset = base + offset → TakesTail read base offset after stop tail) :
    TakesTail read base offset start stop
      { tail with entries := entry.shift next.offset :: tail.entries } := by
  have hnext := hblank.offset_from hstart
  have hafter : after.offset = base + blank.length + text.length + offset := by
    rw [htext.2, ← hnext, Nat.add_right_comm]
  obtain ⟨others, entries, children, middle, hothers, istail, hends, rfl⟩ := hmore _ hafter
  refine ⟨_, _, children, middle, ?_, .entry isblank hne isentry istail, hends, ?_⟩
  · exact hblank.trans (htext.trans hothers)
  · simp only [List.map_cons, Entry.shift_shift, hnext]

theorem skipped {element : Cursor} {gap rest : List Char} (hstart : start.offset = base + offset)
    (hblank : start.Takes blank next) (isblank : IsBlank false blank)
    (hrest : next.rest = '/' :: '-' :: rest)
    (hgap : Cursor.Takes ⟨next.offset + 2, rest⟩ gap element) (isgap : IsBlank false gap)
    (htext : element.Takes text after) (iselement : IsElement read text)
    (hmore : ∀ base, after.offset = base + offset → TakesTail read base offset after stop tail) :
    TakesTail read base offset start stop tail := by
  have hnext := hblank.offset_from hstart
  have hafter : after.offset = base + blank.length + 2 + gap.length + text.length + offset := by
    rw [htext.2, hgap.2, ← hnext]
    simp only [Nat.add_right_comm _ offset]
  have hmark : next.Takes ['/', '-'] ⟨next.offset + 2, rest⟩ := ⟨hrest, rfl⟩
  obtain ⟨others, entries, children, middle, hothers, istail, hends, rfl⟩ := hmore _ hafter
  refine ⟨_, entries, children, middle, ?_, .skipped isblank isgap iselement istail, hends, rfl⟩
  exact hblank.trans (hmark.trans (hgap.trans (htext.trans hothers)))

end TakesTail

/-- What is read behind the name of a node is a tail up to where the node ends. -/
theorem tailFrom_takes (hread : read.Advances) (hlocal : read.IsLocal) {base offset : Nat}
    {start stop : Cursor} {tail : NodeTail} (hstart : start.offset = base + offset)
    (htail : tailFrom read start start.offset = .ok (tail, stop)) :
    TakesTail read base offset start stop tail := by
  -- Every element is shorter than what is left of the text.
  induction hlength : start.rest.length using Nat.strong_induction_on
    generalizing start base tail with
  | _ length ih =>
    subst hlength
    rw [tailFrom, readTail] at htail
    obtain ⟨next, hnext, htail⟩ := bind_eq_ok.mp htail
    split at htail
    · next rest hrest =>
      cases htail
      refine .nil ⟨next, hnext, ?_, endsNode_lineEnd next⟩
      simp only [skipLineComment, hrest]
    · next rest hrest =>
      obtain ⟨element, helement, htail⟩ := bind_eq_ok.mp htail
      obtain ⟨after, hafter, htail⟩ := bind_eq_ok.mp htail
      obtain ⟨text, htext, iselement⟩ := skipElement_takes hlocal hafter
      obtain ⟨c, more, rfl, -⟩ := iselement.head
      obtain ⟨blank, hblank, isblank⟩ := isBlank_of_skipBlank hnext (by simp [hrest])
      obtain ⟨gap, hgap, isgap⟩ := isBlank_of_skipBlank helement (by simp [htext.1])
      have hmark : next.Takes ['/', '-'] ⟨next.offset + 2, rest⟩ := ⟨hrest, rfl⟩
      have hpass : start.Passes after :=
        (hblank.trans (hmark.trans (hgap.trans htext))).passes (by simp)
      rw [readTail_eq hread hpass.length_lt] at htail
      exact .skipped hstart hblank isblank hrest hgap isgap htext iselement
        fun _ hbase => ih _ hpass.length_lt hbase htail rfl
    · next rest hrest =>
      obtain ⟨block, after, hblock, hends, rfl⟩ := readLastBlock_eq_ok.mp htail
      obtain ⟨blank, hblank, isblank⟩ := isBlank_of_skipBlank hnext (by simp [hrest])
      obtain ⟨text, origin, htext, isblock, rfl⟩ := hlocal next block after (by simp [hrest]) hblock
      exact .block hstart hblank isblank htext isblock hends
    · split at htail
      · next hend =>
        cases htail
        refine .nil ⟨_, hnext, ?_, hend⟩
        exact skipLineComment_of_head (head_ne_slash_of_endsNode hend)
      · next hcontinues =>
        split at htail
        · cases htail
        · next hspaced =>
          obtain ⟨⟨entry, after⟩, hentry, htail⟩ := bind_eq_ok.mp htail
          obtain ⟨⟨following, last⟩, hfollowing, htail⟩ := bind_eq_ok.mp htail
          cases htail
          obtain ⟨text, origin, htext, isentry, rfl⟩ := readEntry_takes hentry
          obtain ⟨c, more, rfl, -⟩ := isentry.head
          obtain ⟨blank, hblank, isblank⟩ := isBlank_of_skipBlank hnext (by simp [htext.1])
          have hne : blank ≠ [] := by
            rintro rfl
            exact hspaced hblank.2
          have hpass : start.Passes after := (hblank.trans htext).passes (by simp)
          rw [readTail_eq hread hpass.length_lt] at hfollowing
          exact .entry hstart hblank isblank hne htext isentry
            fun _ hbase => ih _ hpass.length_lt hbase hfollowing rfl

end Reading

inductive IsNode (read : BlockReader) : List Char → Node → Prop
  | mk {type word content tail : List Char} {value : Cursor → Reading Scalar}
      {entries : List Entry} {children : Option (Block Node)} (htype : IsType type)
      (hword : IsWord word content value)
      (htail : IsTail read (type.length + word.length) tail entries children) :
      IsNode read (type ++ (word ++ tail))
        { name := String.ofList content, nameSpan := ⟨type.length, word.length⟩
          span := ⟨0, (type ++ (word ++ tail)).length⟩, entries, children }

section Reading

variable {read : BlockReader} {text : List Char} {node : Node}

theorem IsNode.head (hnode : IsNode read text node) :
    ∃ c rest, text = c :: rest ∧ startsElement c = true := by
  cases hnode with
  | mk htype hword => exact head_type_word htype hword _

theorem IsNode.span_eq (hnode : IsNode read text node) : node.span = ⟨0, text.length⟩ := by
  cases hnode
  rfl

theorem IsNode.span_shift (hnode : IsNode read text node) (distance : Nat) :
    (node.shift distance).span = ⟨distance, text.length⟩ := by
  rw [Node.shift_span, hnode.span_eq, Span.shift, Nat.zero_add]

/-- A node is read wherever it stands, in front of anything that ends it. -/
theorem IsNode.readNode {offset : Nat} {rest : List Char} {stop : Cursor}
    (hnode : IsNode read text node) (hread : read.Advances)
    (hends : EndsNodeAt ⟨offset + text.length, rest⟩ stop) :
    readNode read ⟨offset, text ++ rest⟩ = .ok (node.shift offset, skipSemicolon stop) := by
  cases hnode with
  | @mk type word content tail value entries children htype hword htail =>
    have hlength : offset + (type ++ (word ++ tail)).length =
        offset + type.length + word.length + tail.length := by
      simp only [List.length_append]
      omega
    have hname := hword.readName
      (htail.endsEntry hends.endsEntry).endsWord (offset + type.length)
    rw [hlength] at hends
    have hfound := htail.tailFrom hread
      (show offset + type.length + word.length = type.length + word.length + offset by omega)
      rfl hends
    have hspan : offset + type.length + word.length + tail.length - offset =
        (type ++ (word ++ tail)).length := by omega
    have hnameSpan : Cursor.spanTo ⟨offset + type.length, word ++ (tail ++ rest)⟩
        ⟨offset + type.length + word.length, tail ++ rest⟩ =
          Span.shift ⟨type.length, word.length⟩ offset := by
      simp [Cursor.spanTo, Span.shift, Nat.add_comm]
    rw [List.append_assoc, List.append_assoc, Kdl.readNode,
      htype.skips offset _ (hword.head_ne_paren _), ok_bind, hname, ok_bind]
    change Kdl.tailFrom read ⟨offset + type.length + word.length, tail ++ rest⟩
      (offset + type.length + word.length) >>= _ = _
    rw [hfound]
    simp only [ok_bind, pure_eq_ok, Node.shift, shiftChildren_eq_map, hnameSpan, hspan]
    simp only [Span.shift, Nat.zero_add]

/-- What is read as a node is one, and then the node ends. -/
theorem readNode_takes {start after : Cursor} (hread : read.Advances) (hlocal : read.IsLocal)
    (hnode : readNode read start = .ok (node, after)) :
    ∃ text origin middle stop, start.Takes text middle ∧ IsNode read text origin ∧
      EndsNodeAt middle stop ∧ node = origin.shift start.offset ∧ after = skipSemicolon stop := by
  obtain ⟨named, hnamed, hnode⟩ := bind_eq_ok.mp hnode
  obtain ⟨⟨name, behind⟩, hname, hnode⟩ := bind_eq_ok.mp hnode
  obtain ⟨⟨tail, stop⟩, htail, hfound⟩ := bind_eq_ok.mp hnode
  cases hfound
  obtain ⟨type, htype, istype⟩ := skipType_takes hnamed
  obtain ⟨word, content, value, hword, isword, rfl⟩ := readName_takes hname
  have hbehind : behind.offset = type.length + word.length + start.offset := by
    rw [hword.2, htype.2]
    omega
  obtain ⟨parts, entries, children, middle, hparts, istail, hends, rfl⟩ :=
    tailFrom_takes hread hlocal hbehind htail
  have hall := htype.trans (hword.trans hparts)
  refine ⟨_, _, middle, stop, hall, .mk istype isword istail, hends, ?_, rfl⟩
  have hspan : middle.offset - start.offset = (type ++ (word ++ parts)).length := by
    rw [hall.2]
    omega
  have hnameSpan : named.spanTo behind = Span.shift ⟨type.length, word.length⟩ start.offset := by
    simp [Cursor.spanTo, Span.shift, hword.2, htype.2, Nat.add_comm]
  simp only [Node.shift, shiftChildren_eq_map, hnameSpan, hspan]
  simp only [Span.shift, Nat.zero_add]

end Reading

def BlockReader.Within (read wider : BlockReader) : Prop :=
  ∀ start found, read start = .ok found → wider start = .ok found

section Wider

variable {read wider : BlockReader}

theorem IsBlock.mono {text : List Char} {block : Block Node} (hblock : IsBlock read text block)
    (hwider : read.Within wider) : IsBlock wider text block where
  head := hblock.head
  span_eq := hblock.span_eq
  reads offset rest := hwider _ _ (hblock.reads offset rest)

theorem IsElement.mono {text : List Char} (helement : IsElement read text)
    (hwider : read.Within wider) : IsElement wider text := by
  cases helement with
  | entry hentry => exact .entry hentry
  | block hblock => exact .block (hblock.mono hwider)

/-- A reader that opens more blocks finds the same parts. -/
theorem IsTail.mono {base : Nat} {text : List Char} {entries : List Entry}
    {children : Option (Block Node)} (htail : IsTail read base text entries children)
    (hwider : read.Within wider) : IsTail wider base text entries children := by
  induction htail with
  | nil => exact .nil
  | block hblank hblock => exact .block hblank (hblock.mono hwider)
  | entry hblank hne hentry _ ih => exact .entry hblank hne hentry ih
  | skipped hblank hgap helement _ ih => exact .skipped hblank hgap (helement.mono hwider) ih

theorem IsNode.mono {text : List Char} {node : Node} (hnode : IsNode read text node)
    (hwider : read.Within wider) : IsNode wider text node := by
  cases hnode with
  | mk htype hword htail => exact .mk htype hword (htail.mono hwider)

end Wider

end ReverseProxy.Kdl
