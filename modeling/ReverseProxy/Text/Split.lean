/-!
# Splitting at a character

Cutting a text at every occurrence of a separator, or at the last one. Joining the parts with the
separator gives the text back.
-/

namespace ReverseProxy.Text

/-- The parts between the separators, at least one. -/
def splitAll (separator : Char) : List Char → List (List Char)
  | [] => [[]]
  | c :: rest =>
      if c = separator then [] :: splitAll separator rest
      else match splitAll separator rest with
        | [] => [[c]]
        | part :: parts => (c :: part) :: parts

def splitLast? (separator : Char) : List Char → Option (List Char × List Char)
  | [] => none
  | c :: rest =>
      match splitLast? separator rest with
      | some (before, after) => some (c :: before, after)
      | none => if c = separator then some ([], rest) else none

def splitFirst? (separator : Char) : List Char → Option (List Char × List Char)
  | [] => none
  | c :: rest =>
      if c = separator then some ([], rest)
      else (splitFirst? separator rest).map fun (before, after) => (c :: before, after)

def join (separator : Char) : List (List Char) → List Char
  | [] => []
  | [part] => part
  | part :: parts => part ++ separator :: join separator parts

theorem splitAll_ne_nil (separator : Char) (text : List Char) : splitAll separator text ≠ [] := by
  cases text with
  | nil => simp [splitAll]
  | cons c rest =>
    simp only [splitAll]
    split
    · simp
    · split <;> simp

theorem join_splitAll (separator : Char) (text : List Char) :
    join separator (splitAll separator text) = text := by
  induction text with
  | nil => rfl
  | cons c rest ih =>
    obtain ⟨part, parts, split⟩ := List.exists_cons_of_ne_nil (splitAll_ne_nil separator rest)
    rw [split] at ih
    by_cases h : c = separator
    · simp [splitAll, h, split, join, ih]
    · cases parts <;> simp_all [splitAll, join]

/-- A text without the separator is the only part. -/
theorem splitAll_of_not_mem {separator : Char} {text : List Char} (h : separator ∉ text) :
    splitAll separator text = [text] := by
  induction text with
  | nil => rfl
  | cons c rest ih =>
    have other : c ≠ separator := fun same => h (same ▸ List.mem_cons_self)
    rw [splitAll, if_neg other, ih fun member => h (List.mem_cons_of_mem _ member)]

theorem splitLast?_eq_some {separator : Char} {text before after : List Char}
    (h : splitLast? separator text = some (before, after)) :
    text = before ++ separator :: after ∧ separator ∉ after := by
  induction text generalizing before after with
  | nil => simp [splitLast?] at h
  | cons c rest ih =>
    simp only [splitLast?] at h
    split at h
    · next front back found =>
      obtain ⟨rfl, rfl⟩ := Prod.mk.inj (Option.some.inj h)
      obtain ⟨shape, absent⟩ := ih found
      exact ⟨by rw [shape]; rfl, absent⟩
    · next missing =>
      split at h
      · next same =>
        obtain ⟨rfl, rfl⟩ := Prod.mk.inj (Option.some.inj h)
        refine ⟨by rw [same]; rfl, fun member => ?_⟩
        clear ih h same
        induction rest with
        | nil => cases member
        | cons d rest ih =>
          simp only [splitLast?] at missing
          split at missing
          · cases missing
          · next absent =>
            split at missing
            · cases missing
            · next other =>
              rcases List.mem_cons.mp member with equal | inRest
              · exact other equal.symm
              · exact ih absent inRest
      · cases h

end ReverseProxy.Text
