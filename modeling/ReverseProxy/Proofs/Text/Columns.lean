import ReverseProxy.Text.Columns

/-!
# Cutting a text to columns

The pieces of a text are all of it. Taking its first columns keeps what takes one column each in
front, and adds nothing but blanks.
-/

namespace ReverseProxy.Text

/-- Packing graphemes into lines loses nothing. -/
theorem flatten_packGraphemes (width : Nat) (line : List Char) (column : Nat)
    (found : List Grapheme) :
    (packGraphemes width line column found).flatten = line ++ found.flatMap Grapheme.chars := by
  induction found generalizing line column with
  | nil => simp [packGraphemes]
  | cons grapheme rest ih =>
      rw [packGraphemes]
      split
      · rw [ih, List.flatMap_cons, List.append_assoc]
      · rw [List.flatten_cons, ih, List.flatMap_cons]

theorem flatten_pieces (width : Nat) (text : List Char) : (pieces width text).flatten = text := by
  rw [pieces, flatten_packGraphemes, flatMap_chars_graphemes, List.nil_append]

theorem mem_takeGraphemes {room : Nat} {found : List Grapheme} {c : Char}
    (hc : c ∈ takeGraphemes room found) : c = ' ' ∨ c ∈ found.flatMap Grapheme.chars := by
  induction found generalizing room with
  | nil => cases hc
  | cons grapheme rest ih =>
      rw [takeGraphemes] at hc
      split at hc
      · rcases List.mem_append.mp hc with hgrapheme | hrest
        · exact .inr (List.mem_append_left _ hgrapheme)
        · exact (ih hrest).imp_right (List.mem_append_right _)
      · exact .inl (List.eq_of_mem_replicate hc)

/-- The first columns of a text are its own, but for blanks. -/
theorem mem_takeColumns {width : Nat} {text : List Char} {c : Char}
    (hc : c ∈ takeColumns width text) : c = ' ' ∨ c ∈ text := by
  rw [takeColumns] at hc
  split at hc
  · exact .inr hc
  · have hmem := mem_takeGraphemes hc
    rwa [flatMap_chars_graphemes] at hmem

/-- The grapheme under way comes first, and a selector can widen it only once. -/
theorem graphemesAfter_eq_cons (current : Grapheme) (joined : Bool) (last : Option Char)
    (text : List Char) :
    ∃ first others, graphemesAfter current joined last text = first :: others ∧
      current.chars <+: first.chars ∧ first.columns ≤ current.columns + selectorColumns last := by
  induction text generalizing current joined last with
  | nil => exact ⟨current, [], rfl, List.prefix_rfl, Nat.le_add_right _ _⟩
  | cons c rest ih =>
      have hextend (added : Nat) (joined : Bool) (next : Option Char)
          (hadded : added + selectorColumns next ≤ selectorColumns last) :
          ∃ first others, graphemesAfter (current.extend c added) joined next rest =
              first :: others ∧ current.chars <+: first.chars ∧
            first.columns ≤ current.columns + selectorColumns last := by
        obtain ⟨first, others, hfirst, hchars, hcolumns⟩ := ih (current.extend c added) joined next
        refine ⟨first, others, hfirst, (List.prefix_append current.chars [c]).trans hchars, ?_⟩
        rw [Grapheme.extend] at hcolumns
        simp only at hcolumns
        omega
      have hselector : selectorColumns last +
          selectorColumns (if selectorColumns last = 0 then last else none) ≤
            selectorColumns last := by
        split
        · next hnone => omega
        · exact Nat.le_refl _
      have hkeep : 0 + selectorColumns last ≤ selectorColumns last :=
        Nat.le_of_eq (Nat.zero_add _)
      rw [graphemesAfter]
      split
      · exact hextend 0 false last hkeep
      · split
        · exact hextend 0 true last hkeep
        · split
          · exact hextend (selectorColumns last) false _ hselector
          · split
            · exact hextend 0 false last hkeep
            · exact ⟨current, _, rfl, List.prefix_rfl, Nat.le_add_right _ _⟩

theorem takeColumns_slashes {width : Nat} (hwidth : 2 ≤ width) (rest : List Char) :
    ∃ more, takeColumns width ('/' :: '/' :: rest) = '/' :: '/' :: more := by
  rw [takeColumns]
  split
  · exact ⟨rest, rfl⟩
  · obtain ⟨second, others, hsecond, ⟨more, hchars⟩, hcolumns⟩ :=
      graphemesAfter_eq_cons ⟨['/'], 1⟩ false (some '/') rest
    have hgraphemes : graphemes ('/' :: '/' :: rest) = ⟨['/'], 1⟩ :: second :: others := by
      rw [← hsecond]
      rfl
    have hselector : selectorColumns (some '/') = 0 := by decide
    have hroom : second.columns ≤ width - 1 := by
      rw [hselector] at hcolumns
      simp only at hcolumns
      omega
    rw [hgraphemes, takeGraphemes, if_pos (by simp only; omega), takeGraphemes, if_pos hroom,
      ← hchars]
    exact ⟨_, rfl⟩

end ReverseProxy.Text
