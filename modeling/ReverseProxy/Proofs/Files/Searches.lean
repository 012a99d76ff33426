import ReverseProxy.Files.Search

/-!
# What searches find

What can stop a search is what its questions are refused with, which is shown once for all patterns
(`Host.stopsBy_select`). A search that nothing stops finds the values of its parts one after the
other.
-/

namespace ReverseProxy.Files

variable {α β : Type} {P : Refusal → Prop}

namespace Search

/-- If a refusal stops the search, it is one of these. -/
def StopsBy (P : Refusal → Prop) (search : Search α) : Prop :=
  ∀ refusal, search.refusal = some refusal → P refusal

theorem StopsBy.refusal_eq_none {search : Search α} (hsearch : search.StopsBy fun _ => False) :
    search.refusal = none := Option.eq_none_iff_forall_ne_some.mpr hsearch

theorem StopsBy.append {first second : Search α} (hfirst : first.StopsBy P)
    (hsecond : second.StopsBy P) : (first.append second).StopsBy P := by
  intro refusal hrefusal
  unfold Search.append at hrefusal
  split at hrefusal
  · exact hfirst refusal hrefusal
  · exact hsecond refusal hrefusal

theorem StopsBy.each {next : α → Search β} (values : List α)
    (hnext : ∀ value, (next value).StopsBy P) :
    (Search.each next values).StopsBy P := by
  induction values with
  | nil => nofun
  | cons value values ih => exact (hnext value).append ih

/-- A search that goes on from what was found stops by what either part stops by. -/
theorem StopsBy.andThen {search : Search α} {next : α → Search β} (hsearch : search.StopsBy P)
    (hnext : ∀ value, (next value).StopsBy P) : (search.andThen next).StopsBy P :=
  (StopsBy.each search.found hnext).append hsearch

theorem StopsBy.unlessDenied {search : Search α} (hsearch : search.StopsBy P) :
    search.unlessDenied.StopsBy P := fun refusal hrefusal =>
  hsearch refusal (Option.filter_eq_some_iff.mp hrefusal).1

/-- A search that is not stopped is followed by the next. -/
theorem found_append {first second : Search α} (hfirst : first.refusal = none) :
    (first.append second).found = first.found ++ second.found := by
  rw [append, hfirst]

/-- If nothing stops the parts of a search, all of them are found. -/
theorem found_each {next : α → Search β} (values : List α)
    (hnext : ∀ value, (next value).refusal = none) :
    (each next values).found = values.flatMap fun value => (next value).found := by
  induction values with
  | nil => rfl
  | cons value values ih => rw [each, found_append (hnext value), ih, List.flatMap_cons]

theorem mem_found_ite {accepted : Bool} {search : Search α} {value : α} :
    value ∈ (if accepted then search else nothing).found ↔
      accepted = true ∧ value ∈ search.found := by
  cases accepted
  · exact iff_of_false nofun nofun
  · exact (and_iff_right rfl).symm

theorem found_each_one (accepts : α → Bool) (f : α → β) (values : List α) :
    (each (fun value => if accepts value then one (f value) else nothing) values).found =
      (values.filter accepts).map f := by
  have hpart (value : α) :
      (if accepts value then one (f value) else nothing : Search β).refusal = none := by
    split <;> rfl
  rw [found_each values hpart]
  induction values with
  | nil => rfl
  | cons value values ih =>
      rw [List.flatMap_cons, ih, List.filter_cons]
      split <;> rfl

theorem refusal_each {next : α → Search β} (values : List α)
    (hnext : ∀ value, (next value).refusal = none) : (each next values).refusal = none :=
  (StopsBy.each values fun value => by simp [StopsBy, hnext value]).refusal_eq_none

/-- What is found from each value comes in the order of the values. -/
theorem found_andThen {search : Search α} {next : α → Search β}
    (hnext : ∀ value, (next value).refusal = none) :
    (search.andThen next).found = search.found.flatMap fun value => (next value).found := by
  rw [andThen, found_append (refusal_each search.found hnext), found_each search.found hnext,
    List.append_nil]

/-- A search that nothing stops has what it finds for its result. -/
theorem result_eq_ok {search : Search α} (hsearch : search.refusal = none) :
    search.result = .ok search.found := by
  rw [result, hsearch]

end Search

namespace Host

variable {host : Host} {question : Question} {path : Path}

theorem ask_eq_error {answer : α} {refusal : Refusal} :
    host.ask question path answer = .error refusal ↔
      host.refusal? question path = some refusal := by
  unfold ask
  split <;> simp [*]

variable (hrefusals : ∀ question path refusal,
  host.refusal? question path = some refusal → P refusal)

include hrefusals

theorem stopsBy_after {answer : α} {next : α → Search β} (hnext : ∀ value, (next value).StopsBy P) :
    (Search.after (host.ask question path answer) next).StopsBy P := by
  intro refusal hrefusal
  cases hanswer : host.ask question path answer with
  | ok value =>
      rw [hanswer] at hrefusal
      exact hnext value refusal hrefusal
  | error cause =>
      rw [hanswer] at hrefusal
      cases hrefusal
      exact hrefusals _ _ _ (ask_eq_error.mp hanswer)

mutual

theorem stopsBy_ways (start : Path) (names : List String) (tree : Tree) :
    (host.ways start names tree).StopsBy P := by
  cases tree with
  | file content => nofun
  | directory entries =>
      have hbelow := stopsBy_waysBelow start names entries
      rw [ways]
      refine Search.StopsBy.append nofun (Search.StopsBy.unlessDenied ?_)
      exact stopsBy_after hrefusals fun _ => hbelow

theorem stopsBy_waysBelow (start : Path) (names : List String) (entries : List (String × Tree)) :
    (host.waysBelow start names entries).StopsBy P := by
  rcases entries with _ | ⟨⟨name, tree⟩, entries⟩
  · nofun
  · have hbelow := stopsBy_waysBelow start names entries
    have hinner := stopsBy_ways start (names ++ [name]) tree
    rw [waysBelow]
    refine Search.StopsBy.append (stopsBy_after hrefusals fun isDirectory => ?_) hbelow
    split
    · exact hinner
    · nofun

end

/-- Only a refused question stops a search. -/
theorem stopsBy_select (selectors : List Selector) (path : Path) :
    (host.select selectors path).StopsBy P := by
  induction selectors generalizing path with
  | nil => nofun
  | cons selector rest ih =>
      cases selector with
      | itself => nofun
      | exactly name =>
          rw [select]
          refine Search.StopsBy.unlessDenied ?_
          split <;> refine stopsBy_after hrefusals fun found => ?_ <;> split
          · exact ih _
          · nofun
          · exact ih _
          · nofun
      | named glyphs =>
          rw [select]
          refine Search.StopsBy.unlessDenied (stopsBy_after hrefusals fun names => .each names ?_)
          intro name
          dsimp only
          have hpath : ∀ found, (if (found && covers glyphs name.toList) = true then
              host.select rest (path.append [name]) else .nothing).StopsBy P := by
            intro found
            split
            · exact ih _
            · nofun
          split
          · exact hpath true
          · exact stopsBy_after hrefusals hpath
      | anyDepth =>
          rw [select]
          have hways : (((host.find? path).map (host.ways path [])).getD .nothing).StopsBy P := by
            cases host.find? path with
            | none => nofun
            | some tree => exact stopsBy_ways hrefusals path [] tree
          exact Search.StopsBy.unlessDenied (hways.andThen fun names => ih _)

end Host

end ReverseProxy.Files
