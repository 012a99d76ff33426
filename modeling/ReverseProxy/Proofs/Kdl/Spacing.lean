import ReverseProxy.Proofs.Kdl.Surroundings

/-!
# Comments and spacing

Spacing in front of an element changes nothing of what a document says (`readDocument_spaced`):
inline spaces, comments, however they are nested, and line continuations in front of a node at any
depth, of an entry or of a block; newlines, semicolons and line comments in front of a node.
-/

namespace ReverseProxy.Kdl

/-- The rest of a comment that is within that many others, up to the mark that closes the outermost
one. -/
inductive ClosesComment : Nat → List Char → Prop
  | close : ClosesComment 0 ['*', '/']
  | closeInner {level : Nat} {rest : List Char} (hrest : ClosesComment level rest) :
      ClosesComment (level + 1) ('*' :: '/' :: rest)
  | openInner {level : Nat} {rest : List Char} (hrest : ClosesComment (level + 1) rest) :
      ClosesComment level ('/' :: '*' :: rest)
  | char {level : Nat} {c : Char} {rest : List Char} (hopen : c = '/' → rest.head? ≠ some '*')
      (hclose : c = '*' → rest.head? ≠ some '/') (hrest : ClosesComment level rest) :
      ClosesComment level (c :: rest)

def IsLineComment (comment : List Char) : Prop :=
  ∃ text, comment = '/' :: '/' :: text ∧ ∀ c ∈ text, isNewline c = false

def IsLineEnd (newline : List Char) : Prop :=
  newline = ['\r', '\n'] ∨ ∃ c, newline = [c] ∧ isNewline c = true

/-- A piece of spacing within a line, or one that may also end lines. -/
inductive IsSpacer : Bool → List Char → Prop
  | space {endsLines : Bool} {c : Char} (hspace : isInlineSpace c = true) : IsSpacer endsLines [c]
  | comment {endsLines : Bool} {text : List Char} (hcloses : ClosesComment 0 text) :
      IsSpacer endsLines ('/' :: '*' :: text)
  | continuation {endsLines : Bool} {spaces comment newline : List Char}
      (hspaces : ∀ c ∈ spaces, isInlineSpace c = true)
      (hcomment : comment = [] ∨ IsLineComment comment) (hnewline : IsLineEnd newline) :
      IsSpacer endsLines ('\\' :: (spaces ++ (comment ++ newline)))
  | newline {newline : List Char} (hnewline : IsLineEnd newline) : IsSpacer true newline
  | semicolon : IsSpacer true [';']
  | lineComment {comment newline : List Char} (hcomment : IsLineComment comment)
      (hnewline : IsLineEnd newline) : IsSpacer true (comment ++ newline)

def IsSpacing (endsLines : Bool) (spacing : List Char) : Prop :=
  ∃ pieces : List (List Char), (∀ piece ∈ pieces, IsSpacer endsLines piece) ∧
    spacing = pieces.flatten

section Blanks

variable {betweenNodes : Bool} {state : BlankState} {level : Nat} {chars text next : List Char}

theorem ClosesComment.head?_append (hcloses : ClosesComment level text) (rest : List Char) :
    (text ++ rest).head? = text.head? := by
  cases hcloses <;> rfl

/-- A comment is passed whatever it has inside, as deep as its marks go. -/
theorem ClosesComment.passes (hcloses : ClosesComment level text) :
    PassesBlank betweenNodes (.comment 0 level) text next := by
  induction hcloses with
  | close => exact PassesBlank.nil.mark fun opened _ _ => ⟨opened, rfl⟩
  | closeInner _ ih => exact ih.mark fun opened _ _ => ⟨opened, rfl⟩
  | openInner _ ih => exact ih.mark fun opened _ _ => ⟨opened, rfl⟩
  | char hopen hclose hrest ih =>
      refine ih.cons fun opened _ rest _ => ⟨opened, skipBlank_comment ?_ ?_⟩
      · rw [hrest.head?_append]
        exact hopen
      · rw [hrest.head?_append]
        exact hclose

/-- Characters that leave the state as it is. -/
theorem PassesBlank.prepend (hpass : PassesBlank betweenNodes state text next)
    (hstays : ∀ c ∈ chars, ∀ opened offset rest,
      skipBlank betweenNodes (state.openedAt opened) offset (c :: rest) =
        skipBlank betweenNodes (state.openedAt opened) (offset + 1) rest) :
    PassesBlank betweenNodes state (chars ++ text) next := by
  induction chars with
  | nil => exact hpass
  | cons c chars ih =>
      obtain ⟨hc, hchars⟩ := List.forall_mem_cons.mp hstays
      exact (ih hchars).cons fun opened offset _ _ => ⟨opened, hc opened offset _⟩

/-- A newline that ends something; a carriage return and a line feed are one. -/
theorem IsLineEnd.passes (hnewline : IsLineEnd text) (hnext : next.head? ≠ some '\n')
    (hpair : ∀ opened offset rest,
      skipBlank betweenNodes (state.openedAt opened) offset ('\r' :: '\n' :: rest) =
        skipBlank betweenNodes .plain (offset + 2) rest)
    (hstep : ∀ c opened offset rest, isNewline c = true → rest.head? ≠ some '\n' →
      skipBlank betweenNodes (state.openedAt opened) offset (c :: rest) =
        skipBlank betweenNodes .plain (offset + 1) rest) :
    PassesBlank betweenNodes state text next := by
  rcases hnewline with rfl | ⟨c, rfl, hc⟩
  · exact PassesBlank.nil.mark fun opened offset rest => ⟨opened, hpair opened offset rest⟩
  · exact PassesBlank.nil.cons fun opened offset rest hfeed =>
      ⟨opened, hstep c opened offset rest hc fun hhead => hnext (hfeed hhead)⟩

/-- A line comment inside of which another state is kept. -/
theorem IsLineComment.passes {comment : List Char} {inside : BlankState}
    (hcomment : IsLineComment comment) (hpass : PassesBlank betweenNodes inside text next)
    (hopen : ∀ opened offset rest,
      skipBlank betweenNodes (state.openedAt opened) offset ('/' :: '/' :: rest) =
        skipBlank betweenNodes (inside.openedAt opened) (offset + 2) rest)
    (hstays : ∀ c opened offset rest, isNewline c = false →
      skipBlank betweenNodes (inside.openedAt opened) offset (c :: rest) =
        skipBlank betweenNodes (inside.openedAt opened) (offset + 1) rest) :
    PassesBlank betweenNodes state (comment ++ text) next := by
  obtain ⟨body, rfl, hbody⟩ := hcomment
  have hinside :=
    hpass.prepend fun c hc opened offset rest => hstays c opened offset rest (hbody c hc)
  exact hinside.mark fun opened offset rest => ⟨opened, hopen opened offset rest⟩

theorem passes_continuation {spaces comment newline : List Char}
    (hspaces : ∀ c ∈ spaces, isInlineSpace c = true)
    (hcomment : comment = [] ∨ IsLineComment comment) (hnewline : IsLineEnd newline)
    (hnext : next.head? ≠ some '\n') :
    PassesBlank betweenNodes (.continuation 0) (spaces ++ (comment ++ newline)) next := by
  refine .prepend ?_ fun c hc _ _ _ => skipBlank_continuation_space (hspaces c hc)
  rcases hcomment with rfl | hcomment
  · exact hnewline.passes hnext (fun _ _ _ => rfl) fun c _ _ _ hc hfeed =>
      skipBlank_continuation_newline (not_space_of_isNewline hc) hc fun _ => hfeed
  · have hend : PassesBlank betweenNodes .continuedComment newline next :=
      hnewline.passes hnext (fun _ _ _ => rfl) fun c _ _ _ hc hfeed =>
        skipBlank_continuedComment_newline hc fun _ => hfeed
    exact hcomment.passes hend (fun _ _ _ => rfl) fun c _ _ _ hc => skipBlank_continuedComment hc

/-- Every piece of spacing is passed in front of what does not complete its newline. -/
theorem IsSpacer.passes (hspacer : IsSpacer betweenNodes text) (hnext : next.head? ≠ some '\n') :
    PassesBlank betweenNodes .plain text next := by
  cases hspacer with
  | space hspace =>
      refine PassesBlank.nil.cons fun opened _ _ _ => ⟨opened, skipBlank_blank ?_⟩
      rw [hspace, Bool.true_or]
  | comment hcloses => exact hcloses.passes.mark fun _ offset _ => ⟨offset, rfl⟩
  | continuation hspaces hcomment hnewline =>
      exact (passes_continuation hspaces hcomment hnewline hnext).cons fun _ offset _ _ =>
        ⟨offset, rfl⟩
  | newline hnewline =>
      refine hnewline.passes hnext (fun _ _ _ => rfl) fun c _ _ _ hc _ => skipBlank_blank ?_
      rw [hc, Bool.true_and, Bool.true_or, Bool.or_true]
  | semicolon => exact PassesBlank.nil.cons fun opened _ _ _ => ⟨opened, rfl⟩
  | lineComment hcomment hnewline =>
      have hend : PassesBlank true .lineComment _ next :=
        hnewline.passes hnext (fun _ _ _ => rfl) fun c _ _ _ hc _ =>
          skipBlank_lineComment.trans (if_pos hc)
      exact hcomment.passes hend (fun _ _ _ => rfl) fun c _ _ _ hc =>
        skipBlank_lineComment.trans (if_neg (Bool.eq_false_iff.mp hc))

theorem IsSpacer.isBlank (hspacer : IsSpacer betweenNodes text) : IsBlank betweenNodes text := by
  intro offset rest _ hfeed
  have hpass : PassesBlank betweenNodes .plain text ['a'] := hspacer.passes (by decide)
  exact hpass 0 offset rest nofun fun hhead => absurd hhead hfeed

/-- Spacing is blank text. -/
theorem IsSpacing.isBlank (hspacing : IsSpacing betweenNodes text) : IsBlank betweenNodes text := by
  obtain ⟨pieces, hpieces, rfl⟩ := hspacing
  induction pieces with
  | nil => exact isBlank_nil betweenNodes
  | cons piece pieces ih =>
      obtain ⟨hpiece, hpieces⟩ := List.forall_mem_cons.mp hpieces
      exact hpiece.isBlank.append (ih hpieces)

/-- What may stand within a line may stand between nodes as well. -/
theorem IsSpacing.between (hspacing : IsSpacing false text) : IsSpacing true text := by
  obtain ⟨pieces, hpieces, rfl⟩ := hspacing
  refine ⟨pieces, fun piece hpiece => ?_, rfl⟩
  cases hpieces piece hpiece with
  | space hspace => exact .space hspace
  | comment hcloses => exact .comment hcloses
  | continuation hspaces hcomment hnewline => exact .continuation hspaces hcomment hnewline

end Blanks

/-- An element begins at that offset: the node, an entry of it, or its block. -/
inductive Node.StartsElement (node : Node) : Nat → Prop
  | whole : node.StartsElement node.span.offset
  | entry {entry : Entry} (hentry : entry ∈ node.entries) : node.StartsElement entry.span.offset
  | block {block : Block Node} (hblock : node.children = some block) :
      node.StartsElement block.span.offset

section Reading

variable {read : BlockReader} {text spacing : List Char} {node : Node} {offset : Nat}

theorem Node.StartsElement.of_shift {distance : Nat}
    (hstarts : (node.shift distance).StartsElement offset) :
    ∃ start, node.StartsElement start ∧ offset = distance + start := by
  cases hstarts with
  | whole =>
      rw [Node.shift_span]
      exact ⟨_, .whole, Nat.add_comm _ _⟩
  | entry hentry =>
      rw [Node.shift_entries] at hentry
      obtain ⟨own, hown, rfl⟩ := List.mem_map.mp hentry
      exact ⟨_, .entry hown, Nat.add_comm _ _⟩
  | block hblock =>
      rw [Node.shift_children] at hblock
      obtain ⟨own, hown, rfl⟩ := Option.map_eq_some_iff.mp hblock
      exact ⟨_, .block hown, Nat.add_comm _ _⟩

/-- Spacing in front of a node is blank text, also if it ends lines. -/
theorem IsNode.spaced_whole (hnode : IsNode read text node) (hspacing : IsSpacing true spacing) :
    InsertionSays read 0 spacing text [node.shape] :=
  ⟨[], text, spacing, text, rfl, rfl, rfl, hspacing.isBlank, hnode.says⟩

/-- Spacing inside of a node, or in front of it, leaves the text of that node. -/
theorem IsNode.spaced (hnode : IsNode read text node) (hstarts : node.StartsElement offset)
    (hspacing : IsSpacing false spacing) : InsertionSays read offset spacing text [node.shape] := by
  cases hstarts with
  | whole =>
      rw [hnode.span_eq]
      exact hnode.spaced_whole hspacing.between
  | entry hentry =>
      obtain ⟨first, last, hentries⟩ := List.append_of_mem hentry
      obtain ⟨front, blank, piece, rest, origin, rfl, hfront, hblank, hne, horigin, rfl, hrest⟩ :=
        hnode.split_entry hentries
      have hlonger : blank ++ spacing ≠ [] := List.append_ne_nil_of_left_ne_nil hne spacing
      have hitem := hfront _ _ _ (.entry (hblank.append hspacing.isBlank) hlonger horigin hrest)
      rw [horigin.span_shift, Node.shape_eq, hentries, List.map_append, List.map_cons, datum_shift,
        ← List.append_assoc]
      rw [List.append_assoc blank, ← List.append_assoc] at hitem
      exact hitem.insertion
  | block hblock =>
      obtain ⟨front, blank, piece, origin, rfl, hfront, hblank, horigin, rfl⟩ :=
        hnode.split_block hblock
      have hitem := hfront _ _ _ (.block (hblank.append hspacing.isBlank) horigin)
      rw [horigin.span_shift, Node.shape_eq, hblock, Option.map_some, Block.shapes_shift,
        ← List.append_assoc]
      rw [List.append_nil, List.append_assoc blank, ← List.append_assoc] at hitem
      exact hitem.insertion

end Reading

/-- **Comments and spacing say nothing.** In front of a node at any depth, of an entry or of a block
they leave a text that is accepted and says the same; in front of a node they may end lines. -/
theorem readDocument_spaced {text : List Char} {document : Document} {node : Node}
    (hread : readDocument text = .ok document) (hheld : document.Holds node) :
    (∀ offset spacing, node.StartsElement offset → IsSpacing false spacing →
      ∃ spaced, readDocument (insertAt offset spacing text) = .ok spaced ∧
        spaced.shapes = document.shapes) ∧
    ∀ spacing, IsSpacing true spacing →
      ∃ spaced, readDocument (insertAt node.span.offset spacing text) = .ok spaced ∧
        spaced.shapes = document.shapes := by
  obtain ⟨top, htop, hheld⟩ := hheld
  obtain ⟨rest, hreplaces⟩ := hheld.replaces [node] htop
  have hsame : shapes rest = document.shapes := hreplaces.shapes_eq rfl
  rw [← hsame]
  constructor
  · intro offset spacing hstarts hspacing
    refine readDocument_insertAt hread hreplaces ?_
    rintro read piece origin distance hnode rfl
    obtain ⟨start, hstart, rfl⟩ := hstarts.of_shift
    rw [shapes, shape_shift]
    exact ⟨start, rfl, hnode.spaced hstart hspacing⟩
  · intro spacing hspacing
    refine readDocument_insertAt hread hreplaces ?_
    rintro read piece origin distance hnode rfl
    rw [shapes, shape_shift, hnode.span_shift]
    exact ⟨0, rfl, hnode.spaced_whole hspacing⟩

/-- A comment with another one and a newline in it, and a continuation with a line comment, in front
of a block; lines, one of them with a comment, in front of the first node in it. -/
theorem readDocument_spaced_nested :
    let text := "a 1 \x7bb 2;c\x7d".toList
    let spacing := "/*x/**/\n*/\\ //y\n".toList
    let lines := "\n;//z\r\n".toList
    let inner : Node := ⟨"b", ⟨5, 1⟩, ⟨5, 3⟩, [⟨none, .integer 2, ⟨7, 1⟩⟩], none⟩
    let last : Node := ⟨"c", ⟨9, 1⟩, ⟨9, 1⟩, [], none⟩
    let outer : Node :=
      ⟨"a", ⟨0, 1⟩, ⟨0, 11⟩, [⟨none, .integer 1, ⟨2, 1⟩⟩], some ⟨[inner, last], ⟨4, 7⟩⟩⟩
    let document : Document := ⟨[outer], ⟨0, 11⟩⟩
    readDocument text = .ok document ∧ document.Holds outer ∧ document.Holds inner ∧
      IsSpacing false spacing ∧ IsSpacing true lines ∧
      (∃ spaced, readDocument "a 1 /*x/**/\n*/\\ //y\n\x7bb 2;c\x7d".toList = .ok spaced ∧
        spaced.shapes = document.shapes) ∧
      ∃ spaced, readDocument "a 1 \x7b\n;//z\r\nb 2;c\x7d".toList = .ok spaced ∧
        spaced.shapes = document.shapes := by
  intro text spacing lines inner last outer document
  have hread : readDocument text = .ok document := by
    unfold text
    rfl
  have houter : document.Holds outer := ⟨outer, List.mem_cons_self, .self⟩
  have hinner : document.Holds inner :=
    ⟨outer, List.mem_cons_self, .inBlock rfl List.mem_cons_self .self⟩
  have hcomment : IsSpacer false "/*x/**/\n*/".toList :=
    .comment (.char nofun nofun (.openInner (.closeInner (.char nofun nofun .close))))
  have hcontinuation : IsSpacer false "\\ //y\n".toList :=
    .continuation (List.forall_mem_singleton.mpr rfl)
      (.inr ⟨['y'], rfl, List.forall_mem_singleton.mpr rfl⟩) (.inr ⟨'\n', rfl, rfl⟩)
  have hspacing : IsSpacing false spacing :=
    ⟨_, List.forall_mem_cons.mpr ⟨hcomment, List.forall_mem_singleton.mpr hcontinuation⟩, rfl⟩
  have hline : IsSpacer true "//z\r\n".toList :=
    .lineComment ⟨['z'], rfl, List.forall_mem_singleton.mpr rfl⟩ (.inl rfl)
  have hlines : IsSpacing true lines :=
    ⟨_, List.forall_mem_cons.mpr ⟨.newline (.inr ⟨'\n', rfl, rfl⟩),
      List.forall_mem_cons.mpr ⟨.semicolon, List.forall_mem_singleton.mpr hline⟩⟩, rfl⟩
  have hblock := (readDocument_spaced hread houter).1 _ spacing (.block rfl) hspacing
  have hnode := (readDocument_spaced hread hinner).2 lines hlines
  exact ⟨hread, houter, hinner, hspacing, hlines, hblock, hnode⟩

end ReverseProxy.Kdl
