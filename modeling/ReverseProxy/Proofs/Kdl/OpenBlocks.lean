import Mathlib.Order.Lattice
import Mathlib.Order.MinMax
import ReverseProxy.Proofs.Kdl.Progress

/-!
# How many blocks are open

The reader once more, with a counter that goes up where a block opens and down where it closes, also
in what is thrown away. It reads the same documents, and the highest value that the counter takes is
the lowest limit on the depth under which the text is read; a lower one refuses some block as too
deep (`countDocument_eq_ok`).
-/

namespace ReverseProxy.Kdl

/-! ### Reading with a counter

The same reader once more, with the blocks that are open as a state. It answers what no result of
the reader tells: how many blocks were open at most, those inside of discarded nodes included.
-/

/-- How many blocks are open, and how many were at most. -/
structure Nesting where
  opened : Nat
  most : Nat
  opened_le : opened ≤ most

namespace Nesting

def start : Nesting := ⟨0, 0, le_rfl⟩

def enter (nesting : Nesting) : Nesting :=
  ⟨nesting.opened + 1, max nesting.most (nesting.opened + 1), le_max_right _ _⟩

def leave (nesting : Nesting) : Nesting :=
  ⟨nesting.opened - 1, nesting.most, (Nat.sub_le _ _).trans nesting.opened_le⟩

def raise (height : Nat) (nesting : Nesting) : Nesting :=
  ⟨nesting.opened, max nesting.most (nesting.opened + height),
    nesting.opened_le.trans (le_max_left _ _)⟩

theorem raise_zero (nesting : Nesting) : nesting.raise 0 = nesting := by
  obtain ⟨opened, most, hle⟩ := nesting
  simp [raise, hle]

/-- Of what two steps rise by, the larger counts. -/
theorem raise_raise (first second : Nat) (nesting : Nesting) :
    (nesting.raise first).raise second = nesting.raise (max first second) := by
  simp only [raise, Nesting.mk.injEq, true_and]
  omega

/-- A block rises by one more than what is inside of it. -/
theorem leave_raise_enter (height : Nat) (nesting : Nesting) :
    (nesting.enter.raise height).leave = nesting.raise (height + 1) := by
  simp only [raise, enter, leave, Nesting.mk.injEq]
  omega

end Nesting

abbrev Counting := StateT Nesting Reading

abbrev BlockCounter := Cursor → Counting (Block Node × Cursor)

def countElement (count : BlockCounter) (cursor : Cursor) : Counting Cursor :=
  match cursor.rest with
  | '\x7b' :: _ => Prod.snd <$> count cursor
  | _ => liftM (Prod.snd <$> readEntry cursor)

def countLastBlock (count : BlockCounter) (cursor : Cursor) : Counting (NodeTail × Cursor) := do
  let (block, after) ← count cursor
  let stop := skipLineComment (← after.inlineBlank)
  if endsNode stop.rest then return (⟨[], some block, after.offset⟩, stop)
  else refuse .textAfterBlock stop.here

def countTail (count : BlockCounter) :
    (steps : Nat) → Cursor → (finish : Nat) → Counting (NodeTail × Cursor)
  | 0, cursor, finish => return (⟨[], none, finish⟩, cursor)
  | steps + 1, cursor, finish => do
      let next ← cursor.inlineBlank
      match next.rest with
      | '/' :: '/' :: _ => return (⟨[], none, finish⟩, next.lineEnd)
      | '/' :: '-' :: rest =>
          let element ← Cursor.inlineBlank ⟨next.offset + 2, rest⟩
          let after ← countElement count element
          countTail count steps after after.offset
      | '\x7b' :: _ => countLastBlock count next
      | _ =>
          if endsNode next.rest then return (⟨[], none, finish⟩, next)
          else if next.offset = cursor.offset then refuse .noSpaceBeforeEntry next.here
          else
            let (entry, after) ← readEntry next
            let (tail, stop) ← countTail count steps after after.offset
            return ({ tail with entries := entry :: tail.entries }, stop)

def countNode (count : BlockCounter) (start : Cursor) : Counting (Node × Cursor) := do
  let named ← skipType start
  let (name, after) ← readName named
  let (tail, stop) ← countTail count (after.rest.length + 1) after after.offset
  return ({ name, nameSpan := named.spanTo after
            span := ⟨start.offset, tail.finish - start.offset⟩
            entries := tail.entries, children := tail.children }, skipSemicolon stop)

def countNodes (count : BlockCounter) (nested : Bool) :
    (steps : Nat) → Cursor → Counting (List Node × Cursor)
  | 0, cursor => return ([], cursor)
  | steps + 1, cursor => do
      let next ← cursor.nodeBlank
      match next.rest with
      | [] => return ([], next)
      | '\x7d' :: _ => if nested then return ([], next) else refuse .strayBrace next.here
      | '/' :: '-' :: rest =>
          let start ← Cursor.nodeBlank ⟨next.offset + 2, rest⟩
          let (_, after) ← countNode count start
          countNodes count nested steps after
      | _ =>
          let (node, after) ← countNode count next
          let (nodes, stop) ← countNodes count nested steps after
          return (node :: nodes, stop)

def countInside (count : BlockCounter) (start : Cursor) : Counting (Block Node × Cursor) := do
  let inside := start.skip 1
  let (nodes, stop) ← countNodes count true (inside.rest.length + 1) inside
  match stop.rest with
  | '\x7d' :: rest =>
      let after : Cursor := ⟨stop.offset + 1, rest⟩
      return (⟨nodes, start.spanTo after⟩, after)
  | _ => refuse .openBlock start.here

def countBlock : (depth : Nat) → BlockCounter
  | 0, start => refuse .tooDeep start.here
  | depth + 1, start => do
      modify Nesting.enter
      let found ← countInside (countBlock depth) start
      modify Nesting.leave
      return found

def countDocument (text : List Char) : Reading (Document × Nat) := do
  let ((nodes, _), nesting) ←
    (countNodes (countBlock maxDepth) false (text.length + 1) (Cursor.ofText text)).run .start
  return (⟨nodes, ⟨0, text.length⟩⟩, nesting.most)

/-! ### What the counter tells

Each step of the counted reader is the corresponding step of the plain one. What the counter rises
by is the least limit under which the plain step yields its value, and under any smaller one it
fails.
-/

/-- These steps yield the value if that many blocks may be open; if fewer may, some block is too
deep. -/
structure Needs {α : Type} (plain : Nat → Reading α) (value : α) (height : Nat) : Prop where
  enough : ∀ limit, height ≤ limit → plain limit = .ok value
  tooFew : ∀ limit, limit < height → ∃ span, plain limit = refuse .tooDeep span

namespace Needs

variable {α β : Type} {plain : Nat → Reading α} {value : α} {height : Nat}

/-- The limit has to be high enough, and it changes nothing else. -/
theorem eq_ok_iff (hneeds : Needs plain value height) {limit : Nat} {other : α} :
    plain limit = .ok other ↔ other = value ∧ height ≤ limit := by
  rcases Nat.lt_or_ge limit height with hlt | hle
  · obtain ⟨span, hrefused⟩ := hneeds.tooFew limit hlt
    simp [hrefused, refuse, hlt]
  · simp [hneeds.enough limit hle, hle, eq_comm]

/-- Two steps in turn need the larger of the two limits. -/
theorem bind {plainNext : α → Nat → Reading β} {result : β} {more : Nat}
    (hfirst : Needs plain value height) (hnext : Needs (plainNext value) result more) :
    Needs (fun limit => plain limit >>= fun value => plainNext value limit) result
      (max height more) where
  enough limit hle := by
    rw [hfirst.enough limit (le_of_max_le_left hle), ok_bind]
    exact hnext.enough limit (le_of_max_le_right hle)
  tooFew limit hlt := by
    by_cases hheight : height ≤ limit
    · obtain ⟨span, hrefused⟩ := hnext.tooFew limit (by omega)
      exact ⟨span, by rw [hfirst.enough limit hheight, ok_bind, hrefused]⟩
    · obtain ⟨span, hrefused⟩ := hfirst.tooFew limit (Nat.lt_of_not_le hheight)
      exact ⟨span, by rw [hrefused]; rfl⟩

end Needs

/-- The counted steps do what the plain ones do under the limit `left`, and the counter rises by as
much as these need. -/
structure Counts {α : Type} (left : Nat) (counted : Counting α) (plain : Nat → Reading α) :
    Prop where
  ok : ∀ value, plain left = .ok value → ∃ height,
    (∀ nesting, counted nesting = .ok (value, nesting.raise height)) ∧ Needs plain value height
  error : ∀ failure, plain left = .error failure → ∀ nesting, counted nesting = .error failure

namespace Counts

variable {α β : Type} {left : Nat}

theorem pure (value : α) : Counts left (Pure.pure value) fun _ => .ok value where
  ok := by
    rintro _ ⟨⟩
    refine ⟨0, fun nesting => ?_, fun _ _ => rfl, fun _ hlt => absurd hlt (Nat.not_lt_zero _)⟩
    rw [Nesting.raise_zero]
    rfl
  error := nofun

theorem lift (step : Reading α) : Counts left (liftM step) fun _ => step where
  ok := by
    rintro value rfl
    exact (pure value : Counts left _ _).ok value rfl
  error := by
    rintro failure rfl nesting
    rfl

theorem bind {counted : Counting α} {plain : Nat → Reading α} {next : α → Counting β}
    {plainNext : α → Nat → Reading β} (hfirst : Counts left counted plain)
    (hnext : ∀ value, Counts left (next value) (plainNext value)) :
    Counts left (counted >>= next) fun limit =>
      plain limit >>= fun value => plainNext value limit where
  ok := by
    intro value hvalue
    obtain ⟨middle, hmiddle, hvalue⟩ := bind_eq_ok.mp hvalue
    obtain ⟨height, hcounted, hneeds⟩ := hfirst.ok middle hmiddle
    obtain ⟨more, hmore, hneedsMore⟩ := (hnext middle).ok value hvalue
    refine ⟨max height more, fun nesting => ?_, hneeds.bind hneedsMore⟩
    rw [← Nesting.raise_raise, ← hmore]
    change counted nesting >>= _ = _
    rw [hcounted]
    rfl
  error := by
    intro failure hfailure nesting
    change counted nesting >>= _ = _
    rcases bind_eq_error.mp hfailure with hfirstFails | ⟨middle, hmiddle, hfails⟩
    · rw [hfirst.error failure hfirstFails]
      rfl
    · obtain ⟨height, hcounted, -⟩ := hfirst.ok middle hmiddle
      rw [hcounted]
      exact (hnext middle).error failure hfails _

/-- A block counts for one more than what is in it. -/
theorem block {counted : Counting α} {plain outer : Nat → Reading α} {span : Span}
    (hinside : Counts left counted plain) (hnone : outer 0 = refuse .tooDeep span)
    (hmore : ∀ limit, outer (limit + 1) = plain limit) :
    Counts (left + 1) (do
      modify Nesting.enter
      let found ← counted
      modify Nesting.leave
      return found) outer where
  ok := by
    intro value hvalue
    rw [hmore] at hvalue
    obtain ⟨height, hcounted, hneeds⟩ := hinside.ok value hvalue
    refine ⟨height + 1, fun nesting => ?_, fun limit hle => ?_, fun limit hlt => ?_⟩
    · rw [← Nesting.leave_raise_enter]
      change counted nesting.enter >>= _ = _
      rw [hcounted]
      rfl
    · obtain ⟨fewer, rfl⟩ := Nat.exists_eq_add_of_le' (Nat.one_le_of_lt hle)
      rw [hmore]
      exact hneeds.enough fewer (Nat.le_of_succ_le_succ hle)
    · cases limit with
      | zero => exact ⟨span, hnone⟩
      | succ limit =>
          rw [hmore]
          exact hneeds.tooFew limit (Nat.lt_of_succ_lt_succ hlt)
  error := by
    intro failure hfailure nesting
    rw [hmore] at hfailure
    change counted nesting.enter >>= _ = _
    rw [hinside.error failure hfailure]
    rfl

section Branches

variable {counted : Counting α} {plain : Nat → Reading α}
  {first second third : List Char → Counting α}
  {first' second' third' : List Char → Nat → Reading α} (rest : List Char)

/-- Readers that go by the same text take the same branch. -/
theorem tail (hfirst : ∀ rest, Counts left (first rest) (first' rest))
    (hsecond : ∀ rest, Counts left (second rest) (second' rest))
    (hthird : ∀ rest, Counts left (third rest) (third' rest)) (hother : Counts left counted plain) :
    Counts left
      (match rest with
        | '/' :: '/' :: rest => first rest
        | '/' :: '-' :: rest => second rest
        | '\x7b' :: rest => third rest
        | _ => counted)
      fun limit => match rest with
        | '/' :: '/' :: rest => first' rest limit
        | '/' :: '-' :: rest => second' rest limit
        | '\x7b' :: rest => third' rest limit
        | _ => plain limit := by
  split
  · exact hfirst _
  · exact hsecond _
  · exact hthird _
  · exact hother

theorem nodes {ended : Counting α} {ended' : Nat → Reading α} (hended : Counts left ended ended')
    (hfirst : ∀ rest, Counts left (first rest) (first' rest))
    (hsecond : ∀ rest, Counts left (second rest) (second' rest))
    (hother : Counts left counted plain) :
    Counts left
      (match rest with
        | [] => ended
        | '\x7d' :: rest => first rest
        | '/' :: '-' :: rest => second rest
        | _ => counted)
      fun limit => match rest with
        | [] => ended' limit
        | '\x7d' :: rest => first' rest limit
        | '/' :: '-' :: rest => second' rest limit
        | _ => plain limit := by
  split
  · exact hended
  · exact hfirst _
  · exact hsecond _
  · exact hother

theorem brace (hfirst : ∀ rest, Counts left (first rest) (first' rest))
    (hother : Counts left counted plain) :
    Counts left
      (match rest with
        | '\x7d' :: rest => first rest
        | _ => counted)
      fun limit => match rest with
        | '\x7d' :: rest => first' rest limit
        | _ => plain limit := by
  split
  · exact hfirst _
  · exact hother

end Branches

end Counts

section Loops

variable {left : Nat} {count : BlockCounter} {read : Nat → BlockReader}
  (hcount : ∀ start, Counts left (count start) fun limit => read limit start)

include hcount

theorem countElement_counts (cursor : Cursor) :
    Counts left (countElement count cursor) fun limit => skipElement (read limit) cursor := by
  unfold countElement
  split
  · next hrest =>
    simp only [skipElement, hrest]
    exact (hcount cursor).bind fun found => .pure found.2
  · simp only [skipElement]
    exact .lift _

theorem countLastBlock_counts (cursor : Cursor) :
    Counts left (countLastBlock count cursor) fun limit => readLastBlock (read limit) cursor := by
  refine (hcount cursor).bind fun ⟨block, after⟩ =>
    (Counts.lift after.inlineBlank).bind fun next => ?_
  dsimp only
  split
  · exact .pure _
  · exact .lift _

/-- The parts of a node are read alike, each element with its own blocks. -/
theorem countTail_counts (steps : Nat) (cursor : Cursor) (finish : Nat) :
    Counts left (countTail count steps cursor finish) fun limit =>
      readTail (read limit) steps cursor finish := by
  induction steps generalizing cursor finish with
  | zero => exact .pure _
  | succ steps ih =>
      refine (Counts.lift cursor.inlineBlank).bind fun next => ?_
      refine Counts.tail next.rest (fun _ => .pure _) (fun rest => ?_)
        (fun _ => countLastBlock_counts hcount next) ?_
      · refine (Counts.lift _).bind fun element => ?_
        exact (countElement_counts hcount element).bind fun after => ih after after.offset
      · split
        · exact .pure _
        · split
          · exact .lift _
          · refine (Counts.lift (readEntry next)).bind fun found => ?_
            exact (ih found.2 found.2.offset).bind fun _ => .pure _

theorem countNode_counts (start : Cursor) :
    Counts left (countNode count start) fun limit => readNode (read limit) start := by
  refine (Counts.lift (skipType start)).bind fun named => ?_
  refine (Counts.lift (readName named)).bind fun ⟨name, after⟩ => ?_
  exact (countTail_counts hcount _ after after.offset).bind fun _ => .pure _

theorem countNodes_counts (nested : Bool) (steps : Nat) (cursor : Cursor) :
    Counts left (countNodes count nested steps cursor) fun limit =>
      readNodes (read limit) nested steps cursor := by
  induction steps generalizing cursor with
  | zero => exact .pure _
  | succ steps ih =>
      refine (Counts.lift cursor.nodeBlank).bind fun next => ?_
      refine Counts.nodes next.rest (.pure _) (fun _ => ?_) (fun rest => ?_) ?_
      · split
        · exact .pure _
        · exact .lift _
      · refine (Counts.lift _).bind fun start => ?_
        exact (countNode_counts hcount start).bind fun found => ih found.2
      · refine (countNode_counts hcount next).bind fun found => ?_
        exact (ih found.2).bind fun _ => .pure _

end Loops

/-- Blocks are read alike, in as many steps as the limit allows. -/
theorem countBlock_counts (depth : Nat) (start : Cursor) :
    Counts depth (countBlock depth start) fun limit => readBlock limit start := by
  induction depth generalizing start with
  | zero =>
      refine ⟨nofun, ?_⟩
      rintro failure ⟨⟩ nesting
      rfl
  | succ depth ih =>
      have hinside : Counts depth (countInside (countBlock depth) start) fun limit =>
          readBlock (limit + 1) start := by
        refine (countNodes_counts ih true _ (start.skip 1)).bind fun ⟨nodes, stop⟩ => ?_
        exact Counts.brace stop.rest (fun _ => .pure _) (.lift _)
      exact hinside.block rfl fun _ => rfl

/-- The counter changes nothing about what is read, and its highest value is the number of open
blocks that reading the text needs. -/
theorem countDocument_eq_ok {text : List Char} {document : Document}
    (hread : readDocument text = .ok document) :
    ∃ peak stop, countDocument text = .ok (document, peak) ∧
      Needs (fun limit => readNodes (readBlock limit) false (text.length + 1) (Cursor.ofText text))
        (document.nodes, stop) peak := by
  obtain ⟨⟨nodes, stop⟩, hnodes, hdocument⟩ := bind_eq_ok.mp hread
  cases hdocument
  obtain ⟨peak, hcounted, hneeds⟩ :=
    (countNodes_counts (countBlock_counts maxDepth) false _ (Cursor.ofText text)).ok _ hnodes
  refine ⟨peak, stop, ?_, hneeds⟩
  rw [countDocument, StateT.run, hcounted, ok_bind]
  simp [Nesting.raise, Nesting.start]

end ReverseProxy.Kdl
