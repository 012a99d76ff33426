import ReverseProxy.Proofs.Files.Listing
import ReverseProxy.Proofs.Outcome
import ReverseProxy.Proofs.Text.Split

/-!
# Patterns that lead down

A pattern of several parts passes from directory to directory. If it ends in a slash, it gets to
directories only (`FileSystem.not_findsFile_of_slash`). If no part of it is two dots, it finds a
file somewhere exactly if each part fits some name (`FileSystem.findsFile_iff_canFit`).
-/

namespace ReverseProxy.Files

/-- Each part fits a name, and there is a last part that files are found by. -/
def CanFit : List Selector → Prop
  | [] => False
  | .itself :: _ => False
  | .anyDepth :: rest => CanFit rest
  | .exactly _ :: rest => rest = [] ∨ CanFit rest
  | .named pattern :: rest =>
      (∃ name, IsFileName name ∧ covers pattern name.toList = true) ∧ (rest = [] ∨ CanFit rest)

/-- The parts of a pattern are those between its slashes, of which empty ones and single dots say
nothing. -/
theorem selectors?_eq_some {text : List Char} {selectors : List Selector} :
    selectors? text = some selectors ↔ ∃ parts,
      ((Text.splitAll '/' text).filter fun part => part ≠ [] ∧ part ≠ ['.']).mapM selector? =
        some parts ∧
        selectors = if text.getLast? = some '/' then parts ++ [.itself] else parts := by
  refine Option.bind_eq_some_iff.trans (exists_congr fun parts => and_congr_right fun _ => ?_)
  split <;> simp [eq_comm]

/-- What a part says literally is a name or two dots. -/
theorem isPathPart_of_exactly {text : List Char} {selectors : List Selector} {name : String}
    (hselectors : selectors? text = some selectors) (hname : .exactly name ∈ selectors) :
    IsPathPart name := by
  obtain ⟨parts, hparts, rfl⟩ := selectors?_eq_some.mp hselectors
  have hpart : .exactly name ∈ parts := by
    split at hname
    · exact (List.mem_append.mp hname).resolve_right (by simp)
    · exact hname
  have hkept := (List.forall₂_and_left _ _).mpr ⟨fun _ hmem => hmem, mapM_eq_some.mp hparts⟩
  have hall : ∀ selector ∈ parts, ∀ name, selector = .exactly name → IsPathPart name := by
    refine forall_of_forall₂ hkept ?_
    rintro part selector ⟨hpart, hread⟩ name rfl
    obtain ⟨hsplit, hnonempty⟩ := List.mem_filter.mp hpart
    have hslash : '/' ∉ part := fun hmem => (Text.mem_of_mem_splitAll hsplit hmem).2 rfl
    have hname : name = String.ofList part := by
      unfold selector? at hread
      split at hread
      · cases hread
      · split at hread
        · cases hread
        · split at hread <;> cases hread
          rfl
    rw [hname]
    simpa [IsPathPart, String.ext_iff, hslash] using hnonempty
  exact hall _ hpart name rfl

namespace Tree

/-- A walk stays among the trees that it knows of. -/
theorem wellFormed_of_walk {above : List Tree} {here target : Tree} {names : List String}
    (habove : ∀ tree ∈ above, tree.WellFormed) (hhere : here.WellFormed)
    (hwalk : here.walk above names = some target) : target.WellFormed := by
  induction names generalizing above here with
  | nil =>
      cases hwalk
      exact hhere
  | cons name names ih =>
      rw [walk_cons] at hwalk
      split at hwalk
      · cases hwalk
      · split at hwalk
        · cases above with
          | nil => exact ih habove hhere hwalk
          | cons parent above =>
              obtain ⟨hparent, habove⟩ := List.forall_mem_cons.mp habove
              exact ih habove hparent hwalk
        · obtain ⟨child, hchild, hwalk⟩ := Option.bind_eq_some_iff.mp hwalk
          refine ih (List.forall_mem_cons.mpr ⟨hhere, habove⟩) ?_ hwalk
          cases hhere with
          | file => cases hchild
          | directory hnames _ hentries =>
            exact hentries _ ((lookup_eq_some_iff_mem hnames).mp hchild)

/-- A directory with one thing in it. -/
theorem WellFormed.single {name : String} {child : Tree} (hname : IsFileName name)
    (hchild : child.WellFormed) : (Tree.directory [(name, child)]).WellFormed :=
  .directory (List.nodup_singleton name) (List.forall_mem_singleton.mpr hname)
    (List.forall_mem_singleton.mpr hchild)

end Tree

namespace FileSystem

def here : Path := ⟨.relative, [], List.forall_mem_nil _⟩

variable {files : FileSystem} {directory path : Path} {name : String} {pattern : List Glyph}
  {selectors rest : List Selector} {tree : Tree}

theorem mem_select_exactly :
    path ∈ (files.host.select (.exactly name :: rest) directory).found ↔
      (if rest.isEmpty then (files.find? (directory.append [name])).isSome
        else files.isDirectory (directory.append [name])) = true ∧
          path ∈ (files.host.select rest (directory.append [name])).found := by
  rw [Host.select]
  cases rest.isEmpty <;> exact Search.mem_found_ite

theorem mem_select_named_cons (hfound : files.find? directory = some tree) :
    path ∈ (files.host.select (.named pattern :: rest) directory).found ↔
      ∃ name ∈ tree.names, covers pattern name.toList = true ∧
        (rest.isEmpty || files.isDirectory (directory.append [name])) = true ∧
          path ∈ (files.host.select rest (directory.append [name])).found := by
  have hnames : ((files.find? directory).map Tree.names).getD [] = tree.names := by rw [hfound]; rfl
  let part (name : String) : Search Path :=
    if (rest.isEmpty || files.isDirectory (directory.append [name])) &&
      covers pattern name.toList then
      files.host.select rest (directory.append [name])
    else .nothing
  have hpart (name : String) : (part name).refusal = none := by
    unfold part
    split
    · exact refusal_select rest _
    · rfl
  have hselect : (files.host.select (.named pattern :: rest) directory).found =
      (Search.each part tree.names).found := by
    rw [Host.select, ← hnames]
    unfold part
    cases rest.isEmpty <;> rfl
  rw [hselect, Search.found_each tree.names hpart, List.mem_flatMap]
  refine exists_congr fun name => and_congr_right fun _ => Search.mem_found_ite.trans ?_
  rw [Bool.and_eq_true, and_assoc, and_left_comm]

/-- Some directory of a well-formed file system has a file that the pattern leads to. -/
def FindsFile (selectors : List Selector) : Prop :=
  ∃ (files : FileSystem) (directory path : Path), files.root.WellFormed ∧
    files.isDirectory directory = true ∧
      path ∈ (files.host.select selectors directory).found ∧ files.isFile path = true

section Inside

variable (hroot : files.root.WellFormed)

include hroot

theorem wellFormed_of_find? (hfound : files.find? directory = some tree) : tree.WellFormed :=
  Tree.wellFormed_of_walk (List.forall_mem_nil _) hroot hfound

/-- A search at any depth goes on in directories. -/
theorem exists_directory_of_anyDepth (hdirectory : files.isDirectory directory = true)
    (hpath : path ∈ (files.host.select (.anyDepth :: rest) directory).found) :
    ∃ below, files.isDirectory below = true ∧ path ∈ (files.host.select rest below).found := by
  obtain ⟨inner, hfound⟩ := isDirectory_iff.mp hdirectory
  have htree := wellFormed_of_find? hroot hfound
  obtain ⟨names, entries, hleads, hpath⟩ := (mem_select_anyDepth hfound).mp hpath
  have hbelow := (find?_append hfound htree (hleads.valid htree)).mpr hleads
  exact ⟨_, isDirectory_iff.mpr ⟨entries, hbelow⟩, hpath⟩

/-- What a pattern with a slash at its end leads to is a directory. -/
theorem isDirectory_of_slash (hdirectory : files.isDirectory directory = true)
    (hpath : path ∈ (files.host.select (selectors ++ [.itself]) directory).found) :
    files.isDirectory path = true := by
  induction selectors generalizing directory with
  | nil =>
      cases List.mem_singleton.mp hpath
      exact hdirectory
  | cons selector rest ih =>
      have hmore : (rest ++ [Selector.itself]).isEmpty = false := by simp
      rw [List.cons_append] at hpath
      cases selector with
      | itself =>
          cases List.mem_singleton.mp hpath
          exact hdirectory
      | exactly name =>
          obtain ⟨hnext, hpath⟩ := mem_select_exactly.mp hpath
          rw [hmore] at hnext
          exact ih hnext hpath
      | named pattern =>
          obtain ⟨entries, hfound⟩ := isDirectory_iff.mp hdirectory
          obtain ⟨name, -, -, hnext, hpath⟩ := (mem_select_named_cons hfound).mp hpath
          rw [hmore] at hnext
          exact ih hnext hpath
      | anyDepth =>
          obtain ⟨below, hbelow, hpath⟩ := exists_directory_of_anyDepth hroot hdirectory hpath
          exact ih hbelow hpath

/-- If a file is found, every part of the pattern fits some name. -/
theorem canFit_of_isFile (hdirectory : files.isDirectory directory = true)
    (hpath : path ∈ (files.host.select selectors directory).found)
    (hfile : files.isFile path = true) :
    CanFit selectors := by
  have hother {other : Path} (hplace : files.isDirectory other = true) (hsame : path = other) :
      False := by
    rw [hsame, isFile_of_isDirectory hplace] at hfile
    cases hfile
  induction selectors generalizing directory with
  | nil => exact hother hdirectory (List.mem_singleton.mp hpath)
  | cons selector rest ih =>
      cases selector with
      | itself => exact hother hdirectory (List.mem_singleton.mp hpath)
      | exactly name =>
          obtain ⟨hnext, hpath⟩ := mem_select_exactly.mp hpath
          cases rest with
          | nil => exact .inl rfl
          | cons => exact .inr (ih hnext hpath)
      | named pattern =>
          obtain ⟨entries, hfound⟩ := isDirectory_iff.mp hdirectory
          obtain ⟨name, hname, hcovers, hnext, hpath⟩ := (mem_select_named_cons hfound).mp hpath
          have hvalid := valid_of_mem_names (wellFormed_of_find? hroot hfound) hname
          refine ⟨⟨name, List.forall_mem_singleton.mp hvalid, hcovers⟩, ?_⟩
          cases rest with
          | nil => exact .inl rfl
          | cons => exact .inr (ih hnext hpath)
      | anyDepth =>
          obtain ⟨below, hbelow, hpath⟩ := exists_directory_of_anyDepth hroot hdirectory hpath
          exact ih hbelow hpath

end Inside

/-- Searching below a directory finds no file that the pattern could not find. -/
theorem findsFile_of_search {recursive : Bool} (hfinds : FindsFile (search recursive selectors)) :
    FindsFile selectors := by
  cases recursive with
  | false => exact hfinds
  | true =>
      obtain ⟨files, directory, path, hroot, hdirectory, hpath, hfile⟩ := hfinds
      obtain ⟨below, hbelow, hpath⟩ := exists_directory_of_anyDepth hroot hdirectory hpath
      exact ⟨files, below, path, hroot, hbelow, hpath, hfile⟩

/-- What a pattern ends in after a slash is a directory. -/
theorem not_findsFile_of_slash : ¬FindsFile (selectors ++ [.itself]) := by
  rintro ⟨files, directory, path, hroot, hdirectory, hpath, hfile⟩
  rw [isFile_of_isDirectory (isDirectory_of_slash hroot hdirectory hpath)] at hfile
  cases hfile

theorem find?_single {child : Tree} (hname : IsFileName name) (hchild : child.WellFormed)
    (hfound : files.find? directory = some (.directory [(name, child)])) :
    files.find? (directory.append [name]) = some child :=
  (find?_append hfound (.single hname hchild) (List.forall_mem_singleton.mpr hname)).mpr
    (.inside List.mem_cons_self (.here child))

/-- If every part fits a name, there is a tree in which these names lead to a file. -/
theorem exists_tree_of_canFit (hnames : ∀ name, .exactly name ∈ selectors → IsFileName name)
    (hfits : selectors = [] ∨ CanFit selectors) :
    ∃ tree : Tree, tree.WellFormed ∧ (selectors.isEmpty || tree.isDirectory) = true ∧
      ∀ (files : FileSystem) directory, files.find? directory = some tree →
        ∃ path ∈ (files.host.select selectors directory).found, files.isFile path = true := by
  induction selectors with
  | nil =>
      refine ⟨.file [], .file [], rfl, fun files directory hfound => ⟨_, List.mem_cons_self, ?_⟩⟩
      rw [isFile, content?, hfound]
      rfl
  | cons selector rest ih =>
      have hfits := hfits.resolve_left (List.cons_ne_nil selector rest)
      have ih := ih fun name hname => hnames name (List.mem_cons_of_mem selector hname)
      -- A name and a tree for the rest of the parts, where the name is that of the tree.
      have hplace {child : Tree} (hkind : (rest.isEmpty || child.isDirectory) = true)
          {files : FileSystem} {next : Path} (hfound : files.find? next = some child) :
          (if rest.isEmpty then (files.find? next).isSome else files.isDirectory next) = true := by
        rw [isDirectory, hfound]
        cases hrest : rest.isEmpty
        · simpa [hrest] using hkind
        · rfl
      cases selector with
      | itself => cases hfits
      | anyDepth =>
          obtain ⟨tree, htree, hkind, hfinds⟩ := ih (.inr hfits)
          have hdirectory : tree.isDirectory = true := by
            cases rest with
            | nil => cases hfits
            | cons => exact hkind
          refine ⟨tree, htree, hdirectory, fun files directory hfound => ?_⟩
          have hhere : files.find? (directory.append []) = some tree :=
            (find?_append hfound htree (List.forall_mem_nil _)).mpr (.here tree)
          obtain ⟨path, hpath, hfile⟩ := hfinds files _ hhere
          obtain ⟨entries, rfl⟩ : ∃ entries, tree = .directory entries := by
            cases tree with
            | file => cases hdirectory
            | directory entries => exact ⟨entries, rfl⟩
          exact ⟨path, (mem_select_anyDepth hfound).mpr ⟨[], entries, .here _, hpath⟩, hfile⟩
      | exactly name =>
          obtain ⟨child, hchild, hkind, hfinds⟩ := ih hfits
          have hname := hnames name List.mem_cons_self
          refine ⟨_, .single hname hchild, rfl, fun files directory hfound => ?_⟩
          have hnext := find?_single hname hchild hfound
          obtain ⟨path, hpath, hfile⟩ := hfinds files _ hnext
          exact ⟨path, mem_select_exactly.mpr ⟨hplace hkind hnext, hpath⟩, hfile⟩
      | named pattern =>
          obtain ⟨⟨name, hname, hcovers⟩, hfits⟩ := hfits
          obtain ⟨child, hchild, hkind, hfinds⟩ := ih hfits
          refine ⟨_, .single hname hchild, rfl, fun files directory hfound => ?_⟩
          have hnext := find?_single hname hchild hfound
          obtain ⟨path, hpath, hfile⟩ := hfinds files _ hnext
          refine ⟨path, (mem_select_named_cons hfound).mpr ⟨name, List.mem_cons_self, hcovers, ?_,
            hpath⟩, hfile⟩
          rw [isDirectory, hnext]
          exact hkind

/-- A pattern without two dots as a part finds a file somewhere exactly if each part fits a name. -/
theorem findsFile_iff_canFit (hnames : ∀ name, .exactly name ∈ selectors → IsFileName name) :
    FindsFile selectors ↔ CanFit selectors := by
  constructor
  · rintro ⟨files, directory, path, hroot, hdirectory, hpath, hfile⟩
    exact canFit_of_isFile hroot hdirectory hpath hfile
  · intro hfits
    obtain ⟨tree, htree, hkind, hfinds⟩ := exists_tree_of_canFit hnames (.inr hfits)
    have hdirectory : tree.isDirectory = true := by
      cases selectors with
      | nil => cases hfits
      | cons => exact hkind
    obtain ⟨path, hpath, hfile⟩ := hfinds ⟨tree, []⟩ here rfl
    exact ⟨⟨tree, []⟩, here, path, htree, hdirectory, hpath, hfile⟩

end FileSystem

end ReverseProxy.Files
