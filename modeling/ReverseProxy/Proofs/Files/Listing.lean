import Mathlib.Data.List.Lex
import Mathlib.Data.List.Nodup
import Mathlib.Data.String.Basic
import ReverseProxy.Loading
import ReverseProxy.Proofs.Files.Searches

/-!
# The files of a directory

What a search for files gives, said by the tree that the directory holds: the files in it, or
anywhere below it, with a name that the last part of the pattern covers, each of them once and in
the order of the names that lead to it (`FileSystem.filesAt_named`).
-/

namespace ReverseProxy.Files

def IsFileName (name : String) : Prop := IsPathPart name ∧ name ≠ ".."

instance (name : String) : Decidable (IsFileName name) := inferInstanceAs (Decidable (_ ∧ _))

namespace Tree

/-- No directory holds two things by the same name. -/
inductive WellFormed : Tree → Prop
  | file (content : List UInt8) : WellFormed (.file content)
  | directory {entries : List (String × Tree)} (hnames : (entries.map Prod.fst).Nodup)
      (hvalid : ∀ entry ∈ entries, IsFileName entry.1)
      (hentries : ∀ entry ∈ entries, entry.2.WellFormed) : WellFormed (.directory entries)

inductive Leads : Tree → List String → Tree → Prop
  | here (tree : Tree) : Leads tree [] tree
  | inside {entries : List (String × Tree)} {name : String} {names : List String}
    {child target : Tree}
      (hentry : (name, child) ∈ entries) (hleads : child.Leads names target) :
      Leads (.directory entries) (name :: names) target

def HasFile (tree : Tree) (names : List String) : Prop :=
  ∃ content, tree.Leads names (.file content)

theorem lookup_eq_some_iff_mem {entries : List (String × Tree)} {name : String} {child : Tree}
    (hnames : (entries.map Prod.fst).Nodup) :
    entries.lookup name = some child ↔ (name, child) ∈ entries := by
  induction entries with
  | nil => simp
  | cons entry entries ih =>
      obtain ⟨first, tree⟩ := entry
      rw [List.map_cons, List.nodup_cons] at hnames
      by_cases hsame : name = first
      · subst hsame
        have hother : (name, child) ∉ entries := fun hmem =>
          hnames.1 (List.mem_map.mpr ⟨_, hmem, rfl⟩)
        simp [hother, eq_comm]
      · have hne : (name == first) = false := beq_false_of_ne hsame
        simp [List.lookup_cons, hne, ih hnames.2, hsame]

variable {tree target : Tree} {names : List String}

theorem Leads.valid (hleads : tree.Leads names target) (htree : tree.WellFormed) :
    ∀ name ∈ names, IsFileName name := by
  induction hleads with
  | here => exact List.forall_mem_nil _
  | inside hentry _ ih =>
      cases htree with
      | directory _ hvalid hentries =>
          exact List.forall_mem_cons.mpr ⟨hvalid _ hentry, ih (hentries _ hentry)⟩

theorem Leads.append {middle : Tree} {more : List String} (hleads : tree.Leads names middle)
    (hmore : middle.Leads more target) : tree.Leads (names ++ more) target := by
  induction hleads with
  | here => exact hmore
  | inside hentry _ ih => exact .inside hentry (ih hmore)

theorem leads_append {more : List String} :
    tree.Leads (names ++ more) target ↔
      ∃ middle, tree.Leads names middle ∧ middle.Leads more target := by
  constructor
  · intro hleads
    induction names generalizing tree with
    | nil => exact ⟨tree, .here tree, hleads⟩
    | cons name names ih =>
        cases hleads with
        | inside hentry hrest =>
            obtain ⟨middle, hmiddle, hmore⟩ := ih hrest
            exact ⟨middle, .inside hentry hmiddle, hmore⟩
  · rintro ⟨middle, hmiddle, hmore⟩
    exact hmiddle.append hmore

theorem walk_cons (above : List Tree) (here : Tree) (name : String) (names : List String) :
    here.walk above (name :: names) =
      if !here.isDirectory then none
      else if name = ".." then
        match above with
        | [] => here.walk [] names
        | parent :: above => parent.walk above names
      else (here.child? name).bind fun child => child.walk (here :: above) names := by
  rw [walk.eq_def]
  dsimp only
  cases here.child? name <;> cases above <;> simp only [Option.bind]

/-- Without two dots a walk is the way down, whatever is above. -/
theorem walk_eq_some {above : List Tree} (htree : tree.WellFormed)
    (hnames : ∀ name ∈ names, IsFileName name) :
    tree.walk above names = some target ↔ tree.Leads names target := by
  induction names generalizing tree above with
  | nil =>
      simp only [walk, Option.some.injEq]
      constructor
      · rintro rfl
        exact .here tree
      · rintro ⟨⟩
        rfl
  | cons name names ih =>
      obtain ⟨hname, hothers⟩ := List.forall_mem_cons.mp hnames
      rw [walk_cons]
      cases htree with
      | file content =>
          simp only [isDirectory, Bool.not_false, if_true, reduceCtorEq, false_iff]
          rintro ⟨⟩
      | @directory entries hdistinct hvalid hentries =>
          simp only [isDirectory, Bool.not_true, Bool.false_eq_true, if_false, if_neg hname.2,
            child?,
            Option.bind_eq_some_iff, lookup_eq_some_iff_mem hdistinct]
          constructor
          · rintro ⟨child, hentry, hwalk⟩
            exact .inside hentry ((ih (hentries _ hentry) hothers).mp hwalk)
          · rintro (_ | ⟨hentry, hleads⟩)
            exact ⟨_, hentry, (ih (hentries _ hentry) hothers).mpr hleads⟩

/-- A walk that goes on beyond a tree goes on from that tree. -/
theorem walk_append {above : List Tree} {here : Tree} {route : List String}
    (hroute : here.walk above route = some tree) :
    ∃ beyond, ∀ names, here.walk above (route ++ names) = tree.walk beyond names := by
  induction route generalizing here above with
  | nil =>
      cases hroute
      exact ⟨above, fun _ => rfl⟩
  | cons name route ih =>
      rw [walk_cons] at hroute
      simp only [List.cons_append, walk_cons]
      split at hroute
      · cases hroute
      · next hdirectory =>
        simp only [if_neg hdirectory]
        split at hroute
        · next hup =>
          simp only [if_pos hup]
          cases above with
          | nil => exact ih hroute
          | cons parent above => exact ih hroute
        · next hdown =>
          obtain ⟨child, hchild, hroute⟩ := Option.bind_eq_some_iff.mp hroute
          simp only [if_neg hdown, hchild]
          exact ih hroute

end Tree

section Below

variable {files : FileSystem} {directory : Path} {tree target : Tree} {names : List String}

theorem append_parts (hnames : ∀ name ∈ names, IsFileName name) :
    (directory.append names).parts = directory.parts ++ names := by
  have hkept : Path.keepParts names = names :=
    List.filter_eq_self.mpr fun name hmem => decide_eq_true (hnames name hmem).1
  simp only [Path.append, hkept]

theorem append_append (first second : List String) :
    (directory.append first).append second = directory.append (first ++ second) := by
  simp only [Path.append, Path.keepParts, List.filter_append, List.append_assoc]

theorem append_inj {others : List String} (hnames : ∀ name ∈ names, IsFileName name)
    (hothers : ∀ name ∈ others, IsFileName name)
    (hsame : directory.append names = directory.append others) : names = others := by
  have hparts := congrArg Path.parts hsame
  rwa [append_parts hnames, append_parts hothers, List.append_cancel_left_eq] at hparts

namespace FileSystem

/-- What names lead to from a directory is what the path with these names behind it is. -/
theorem find?_append (hfound : files.find? directory = some tree) (htree : tree.WellFormed)
    (hnames : ∀ name ∈ names, IsFileName name) :
    files.find? (directory.append names) = some target ↔ tree.Leads names target := by
  have hroute : files.route (directory.append names) = files.route directory ++ names := by
    have hroot : (directory.append names).root = directory.root := rfl
    rw [route, route, append_parts hnames, hroot]
    cases directory.root
    · exact (List.append_assoc _ _ _).symm
    · rfl
    · rfl
  obtain ⟨beyond, hbeyond⟩ := Tree.walk_append hfound
  rw [find?, hroute, hbeyond, Tree.walk_eq_some htree hnames]

theorem isFile_append (hfound : files.find? directory = some tree) (htree : tree.WellFormed)
    (hnames : ∀ name ∈ names, IsFileName name) :
    files.isFile (directory.append names) = true ↔ tree.HasFile names := by
  have hcontent (content : List UInt8) :
      files.content? (directory.append names) = some content ↔
        tree.Leads names (.file content) := by
    rw [← find?_append hfound htree hnames, content?]
    split
    · next found hfile => simp [hfile]
    · next hother => simpa using fun hfile => hother _ hfile
  rw [isFile, Option.isSome_iff_exists]
  exact exists_congr hcontent

/-- The files that are to be found: in a directory, or anywhere below it, with a name that is
accepted. -/
def IsWanted (tree : Tree) (recursive : Bool) (accepts : String → Prop) (directory path : Path) :
    Prop :=
  ∃ names name, path = directory.append (names ++ [name]) ∧ tree.HasFile (names ++ [name]) ∧
    (recursive = true ∨ names = []) ∧ accepts name

variable {pattern : List Glyph}

theorem mem_names_iff {name : String} : name ∈ tree.names ↔ ∃ child, tree.Leads [name] child := by
  cases tree with
  | file content =>
      simp only [Tree.names, List.not_mem_nil, false_iff]
      rintro ⟨child, ⟨⟩⟩
  | directory entries =>
      rw [Tree.names, List.mem_map]
      constructor
      · rintro ⟨⟨name, child⟩, hentry, rfl⟩
        exact ⟨child, .inside hentry (.here child)⟩
      · rintro ⟨child, hleads⟩
        cases hleads with
        | inside hentry _ => exact ⟨_, hentry, rfl⟩

theorem valid_of_mem_names {name : String} (htree : tree.WellFormed) (hname : name ∈ tree.names) :
    ∀ part ∈ [name], IsFileName part := by
  obtain ⟨child, hleads⟩ := mem_names_iff.mp hname
  exact hleads.valid htree

theorem host_refuses_nothing (question : Question) (path : Path) (refusal : Refusal)
    (hrefusal : files.host.refusal? question path = some refusal) : False := nomatch hrefusal

theorem refusal_ways (start : Path) (names : List String) (tree : Tree) :
    (files.host.ways start names tree).refusal = none :=
  (Host.stopsBy_ways host_refuses_nothing start names tree).refusal_eq_none

theorem refusal_waysBelow (start : Path) (names : List String) (entries : List (String × Tree)) :
    (files.host.waysBelow start names entries).refusal = none :=
  (Host.stopsBy_waysBelow host_refuses_nothing start names entries).refusal_eq_none

theorem refusal_select (selectors : List Selector) (path : Path) :
    (files.host.select selectors path).refusal = none :=
  (Host.stopsBy_select host_refuses_nothing selectors path).refusal_eq_none

mutual

/-- Every directory of a tree is on the way of the search, and nothing else. -/
theorem mem_ways (start : Path) (names way : List String) (tree : Tree) :
    way ∈ (files.host.ways start names tree).found ↔
      ∃ below entries, way = names ++ below ∧ tree.Leads below (.directory entries) := by
  cases tree with
  | file content =>
      refine iff_of_false nofun ?_
      rintro ⟨below, entries, -, ⟨⟩⟩
  | directory entries =>
      change way ∈ names :: (files.host.waysBelow start names entries).found ↔ _
      rw [List.mem_cons, mem_waysBelow start names way entries]
      constructor
      · rintro (rfl | ⟨name, child, below, found, rfl, hentry, hleads⟩)
        · exact ⟨[], entries, (List.append_nil way).symm, .here _⟩
        · exact ⟨name :: below, found, rfl, .inside hentry hleads⟩
      · rintro ⟨below, found, rfl, hleads⟩
        cases hleads with
        | here => exact .inl (List.append_nil names)
        | inside hentry hleads => exact .inr ⟨_, _, _, found, rfl, hentry, hleads⟩

/-- The ways below a directory begin with a name in it. -/
theorem mem_waysBelow (start : Path) (names way : List String) (entries : List (String × Tree)) :
    way ∈ (files.host.waysBelow start names entries).found ↔ ∃ name child below found,
      way = names ++ name :: below ∧ (name, child) ∈ entries ∧
        child.Leads below (.directory found) := by
  rcases entries with _ | ⟨⟨first, tree⟩, entries⟩
  · refine iff_of_false nofun ?_
    rintro ⟨name, child, below, found, -, hentry, -⟩
    cases hentry
  · have hfirst : way ∈ (if tree.isDirectory then files.host.ways start (names ++ [first]) tree
        else .nothing).found ↔
          ∃ below found, way = names ++ first :: below ∧ tree.Leads below (.directory found) := by
      have hways := mem_ways start (names ++ [first]) way tree
      simp only [List.append_assoc, List.singleton_append] at hways
      rw [← hways]
      cases tree <;> rfl
    have hanswered : (if tree.isDirectory then files.host.ways start (names ++ [first]) tree
        else .nothing).refusal = none := by
      split
      · exact refusal_ways start (names ++ [first]) tree
      · rfl
    change way ∈ ((if tree.isDirectory then files.host.ways start (names ++ [first]) tree
        else .nothing).append (files.host.waysBelow start names entries)).found ↔ _
    rw [Search.found_append hanswered, List.mem_append, hfirst,
      mem_waysBelow start names way entries]
    constructor
    · rintro (⟨below, found, rfl, hleads⟩ | ⟨name, child, below, found, rfl, hentry, hleads⟩)
      · exact ⟨first, tree, below, found, rfl, List.mem_cons_self, hleads⟩
      · exact ⟨name, child, below, found, rfl, List.mem_cons_of_mem _ hentry, hleads⟩
    · rintro ⟨name, child, below, found, rfl, hentry, hleads⟩
      rcases List.mem_cons.mp hentry with hsame | hother
      · cases hsame
        exact .inl ⟨below, found, rfl, hleads⟩
      · exact .inr ⟨name, child, below, found, rfl, hother, hleads⟩

end

/-- A part for names finds those it covers, in the order of the directory. -/
theorem select_named (hfound : files.find? directory = some tree) :
    (files.host.select [.named pattern] directory).found =
      (tree.names.filter fun name => covers pattern name.toList).map fun name =>
        directory.append [name] := by
  have hnames : ((files.find? directory).map Tree.names).getD [] = tree.names := by rw [hfound]; rfl
  change (Search.each (fun name => if covers pattern name.toList then
    .one (directory.append [name]) else .nothing)
      (((files.find? directory).map Tree.names).getD [])).found = _
  rw [hnames]
  exact Search.found_each_one _ _ tree.names

theorem mem_select_named (hfound : files.find? directory = some tree)
    {path : Path} : path ∈ (files.host.select [.named pattern] directory).found ↔
      ∃ name, path = directory.append [name] ∧ (∃ child, tree.Leads [name] child) ∧
        covers pattern name.toList = true := by
  simp only [select_named hfound, List.mem_map, List.mem_filter, mem_names_iff]
  constructor
  · rintro ⟨name, ⟨hname, hcovers⟩, rfl⟩
    exact ⟨name, rfl, hname, hcovers⟩
  · rintro ⟨name, rfl, hname, hcovers⟩
    exact ⟨name, ⟨hname, hcovers⟩, rfl⟩

theorem nodup_select_named (hfound : files.find? directory = some tree) (htree : tree.WellFormed) :
    (files.host.select [.named pattern] directory).found.Nodup := by
  rw [select_named hfound]
  have hnames : tree.names.Nodup := by
    cases htree with
    | file => exact List.nodup_nil
    | directory hdistinct => exact hdistinct
  refine (hnames.filter _).map_on fun name hname other hother hsame => ?_
  exact List.singleton_inj.mp (append_inj
    (valid_of_mem_names htree (List.mem_of_mem_filter hname))
    (valid_of_mem_names htree (List.mem_of_mem_filter hother)) hsame)

def search (recursive : Bool) (selectors : List Selector) : List Selector :=
  if recursive then .anyDepth :: selectors else selectors

theorem mem_select_anyDepth (hfound : files.find? directory = some tree) {selectors : List Selector}
    {path : Path} : path ∈ (files.host.select (.anyDepth :: selectors) directory).found ↔
      ∃ names entries, tree.Leads names (.directory entries) ∧
        path ∈ (files.host.select selectors (directory.append names)).found := by
  have hbelow : ((files.find? directory).map (files.host.ways directory [])).getD .nothing =
      files.host.ways directory [] tree := by rw [hfound]; rfl
  have hrest (names : List String) :
      (files.host.select selectors (directory.append names)).refusal = none :=
    refusal_select selectors (directory.append names)
  have hselect : (files.host.select (.anyDepth :: selectors) directory).found =
      ((files.host.ways directory [] tree).andThen fun names =>
        files.host.select selectors (directory.append names)).found.eraseDups := by
    rw [Host.select]
    exact congrArg (fun search : Search (List String) => (search.andThen fun names =>
      files.host.select selectors (directory.append names)).found.eraseDups) hbelow
  rw [hselect, List.mem_eraseDups, Search.found_andThen hrest, List.mem_flatMap]
  constructor
  · rintro ⟨names, hnames, hpath⟩
    obtain ⟨below, entries, rfl, hleads⟩ := (mem_ways directory [] names tree).mp hnames
    exact ⟨_, entries, hleads, hpath⟩
  · rintro ⟨names, entries, hleads, hpath⟩
    exact ⟨names, (mem_ways directory [] names tree).mpr ⟨names, entries, rfl, hleads⟩, hpath⟩

/-- A search finds the names that are covered, in the directory or anywhere below. -/
theorem mem_search {recursive : Bool} (hfound : files.find? directory = some tree)
    (htree : tree.WellFormed) {path : Path} :
    path ∈ (files.host.select (search recursive [.named pattern]) directory).found ↔
      ∃ names name, path = directory.append (names ++ [name]) ∧
        (∃ child, tree.Leads (names ++ [name]) child) ∧ (recursive = true ∨ names = []) ∧
          covers pattern name.toList = true := by
  cases recursive with
  | false =>
      rw [search, if_neg Bool.false_ne_true, mem_select_named hfound]
      constructor
      · rintro ⟨name, rfl, hleads, hcovers⟩
        exact ⟨[], name, rfl, hleads, .inr rfl, hcovers⟩
      · rintro ⟨names, name, rfl, hleads, hnone | rfl, hcovers⟩
        · cases hnone
        · exact ⟨name, rfl, hleads, hcovers⟩
  | true =>
      -- Every directory below is searched as if the search had begun there.
      have hinner {names : List String} {entries : List (String × Tree)}
          (hleads : tree.Leads names (.directory entries)) :
          path ∈ (files.host.select [.named pattern] (directory.append names)).found ↔ _ :=
        mem_select_named ((find?_append hfound htree (hleads.valid htree)).mpr hleads)
      rw [search, if_pos rfl, mem_select_anyDepth hfound]
      constructor
      · rintro ⟨names, entries, hleads, hpath⟩
        obtain ⟨name, rfl, ⟨child, hchild⟩, hcovers⟩ := (hinner hleads).mp hpath
        exact ⟨names, name, append_append names [name], ⟨child, hleads.append hchild⟩, .inl rfl,
          hcovers⟩
      · rintro ⟨names, name, rfl, ⟨child, hleads⟩, -, hcovers⟩
        obtain ⟨middle, hmiddle, hchild⟩ := Tree.leads_append.mp hleads
        obtain ⟨entries, rfl⟩ : ∃ entries, middle = .directory entries := by
          cases hchild
          exact ⟨_, rfl⟩
        refine ⟨names, entries, hmiddle, ?_⟩
        exact (hinner hmiddle).mpr ⟨name, (append_append names [name]).symm, ⟨child, hchild⟩,
          hcovers⟩

theorem nodup_eraseDups {α : Type} [BEq α] [LawfulBEq α] (values : List α) :
    values.eraseDups.Nodup := by
  cases values with
  | nil => exact List.nodup_nil
  | cons value rest =>
      rw [List.eraseDups_cons, List.nodup_cons]
      exact ⟨by simp [List.mem_eraseDups], nodup_eraseDups _⟩
termination_by values.length
decreasing_by exact Nat.lt_succ_of_le (List.length_filter_le _ _)

/-- A search finds nothing twice. -/
theorem nodup_search {recursive : Bool} (hfound : files.find? directory = some tree)
    (htree : tree.WellFormed) :
    (files.host.select (search recursive [.named pattern]) directory).found.Nodup := by
  cases recursive with
  | false => exact nodup_select_named hfound htree
  | true => exact nodup_eraseDups _

theorem mem_files {recursive : Bool} (hfound : files.find? directory = some tree)
    (htree : tree.WellFormed) {path : Path} :
    path ∈ (files.host.select (search recursive [.named pattern]) directory).found.filter
      files.isFile ↔
      IsWanted tree recursive (fun name => covers pattern name.toList = true) directory path := by
  rw [List.mem_filter, mem_search hfound htree]
  constructor
  · rintro ⟨⟨names, name, rfl, ⟨child, hleads⟩, hplace, hcovers⟩, hfile⟩
    exact ⟨names, name, rfl, (isFile_append hfound htree (hleads.valid htree)).mp hfile, hplace,
      hcovers⟩
  · rintro ⟨names, name, rfl, ⟨content, hleads⟩, hplace, hcovers⟩
    exact ⟨⟨names, name, rfl, ⟨_, hleads⟩, hplace, hcovers⟩,
      (isFile_append hfound htree (hleads.valid htree)).mpr ⟨content, hleads⟩⟩

theorem filesAmong_host {found : Search Path} (hanswered : found.refusal = none) :
    files.host.filesAmong found = .ok (found.found.filter files.isFile) := by
  have hstep (path : Path) :
      (if files.isFile path then Search.one path else .nothing).refusal = none := by
    split <;> rfl
  have hkept := Search.found_each_one files.isFile id found.found
  rw [List.map_id] at hkept
  change ((Search.each (fun path => if files.isFile path then Search.one path else .nothing)
    found.found).append ⟨[], found.refusal⟩).result = _
  rw [Search.result_eq_ok]
  · rw [Search.found_append (Search.refusal_each found.found hstep), List.append_nil]
    exact congrArg Except.ok hkept
  · rw [Search.append, Search.refusal_each found.found hstep, hanswered]

theorem pathLe_iff {left right : Path} :
    pathLe left right = true ↔ left.sortKey ≤ right.sortKey := by
  rw [pathLe, Bool.not_eq_true', decide_eq_false_iff_not, not_lt]

theorem parts_lt {left right : Path} (hle : pathLe left right = true)
    (hroot : left.root = right.root)
    (hne : left ≠ right) : left.parts < right.parts := by
  have hparts : left.parts ≠ right.parts := by
    rintro hsame
    obtain ⟨root, parts, _⟩ := left
    cases hroot
    cases hsame
    exact hne rfl
  refine lt_of_le_of_ne ?_ hparts
  rw [pathLe_iff, Path.sortKey, Path.sortKey, hroot] at hle
  split at hle
  · exact hle
  · rw [← not_lt] at hle ⊢
    exact fun hlt => hle (List.cons_lt_cons_iff.mpr (.inr ⟨rfl, hlt⟩))

/-- Paths below one directory are in the order of their names. -/
theorem pairwise_sorted {found : List Path} {root : Root} (hnodup : found.Nodup)
    (hroot : ∀ path ∈ found, path.root = root) :
    (found.mergeSort pathLe).Pairwise fun left right => left.parts < right.parts := by
  have htrans (first second third : Path) (hle : pathLe first second = true)
      (hle' : pathLe second third = true) : pathLe first third = true :=
    pathLe_iff.mpr ((pathLe_iff.mp hle).trans (pathLe_iff.mp hle'))
  have htotal (first second : Path) : (pathLe first second || pathLe second first) = true := by
    rw [Bool.or_eq_true, pathLe_iff, pathLe_iff]
    exact le_total _ _
  have hsorted := List.pairwise_mergeSort htrans htotal found
  have hdistinct : (found.mergeSort pathLe).Nodup :=
    (List.mergeSort_perm found pathLe).nodup_iff.mpr hnodup
  refine (hsorted.and hdistinct).imp_of_mem fun {left right} hleft hright hboth => ?_
  exact parts_lt hboth.1 ((hroot _ (List.mem_mergeSort.mp hleft)).trans
    (hroot _ (List.mem_mergeSort.mp hright)).symm) hboth.2

/-! ### What a directory stands for

The pattern that is searched for is a star with the extension behind it. As long as no slash is in
the extension this asks for names, here or anywhere below, and what is found is put in order and
freed of repetitions.
-/

/-- A directory stands for the files wanted in it, each once and in order, and for none there is a
failure that says so. -/
def Lists (files : FileSystem) (options : SourceOptions) (directory : Path) (tree : Tree)
    (accepts : String → Prop) : Prop :=
  ∃ found : List Path, (found.Pairwise fun left right => left.parts < right.parts) ∧
    (∀ path, path ∈ found ↔ IsWanted tree options.recursive accepts directory path) ∧
    files.filesAt options directory =
      if found = [] then .error (.source (.noFiles ("*" ++ options.extension) directory))
      else .ok found

theorem isDirectory_iff :
    files.isDirectory directory = true ↔
      ∃ entries, files.find? directory = some (.directory entries) := by
  rw [isDirectory, Option.any_eq_true]
  constructor
  · rintro ⟨_ | entries, hfound, hdirectory⟩
    · cases hdirectory
    · exact ⟨entries, hfound⟩
  · rintro ⟨entries, hfound⟩
    exact ⟨_, hfound, rfl⟩

theorem isFile_of_isDirectory (hdirectory : files.isDirectory directory = true) :
    files.isFile directory = false := by
  obtain ⟨entries, hfound⟩ := isDirectory_iff.mp hdirectory
  rw [isFile, content?, hfound]
  rfl

theorem filesAt_eq_filesIn {options : SourceOptions}
    (hdirectory : files.isDirectory directory = true) :
    files.filesAt options directory = files.host.filesIn options directory := by
  change (if files.isFile directory then _ else if files.isDirectory directory then _ else _) = _
  rw [isFile_of_isDirectory hdirectory, hdirectory]
  rfl

theorem filesAt_badPattern (options : SourceOptions)
    (hdirectory : files.isDirectory directory = true)
    (hselectors : selectors? ("*" ++ options.extension).toList = none) :
    files.filesAt options directory = .error (.abort .badPattern) := by
  rw [filesAt_eq_filesIn hdirectory, Host.filesIn, hselectors]

/-- A directory stands for the files that the search finds in it. -/
theorem filesAt_directory (options : SourceOptions) {selectors : List Selector}
    (hdirectory : files.isDirectory directory = true)
    (hselectors : selectors? ("*" ++ options.extension).toList = some selectors) :
    files.filesAt options directory =
      match (files.host.select (search options.recursive selectors) directory).found.filter
          files.isFile with
      | [] => .error (.source (.noFiles ("*" ++ options.extension) directory))
      | found => .ok (found.mergeSort pathLe) := by
  have hanswer : files.host.filesAmong
      (files.host.select (search options.recursive selectors) directory) = _ :=
    filesAmong_host (refusal_select _ directory)
  rw [filesAt_eq_filesIn hdirectory, Host.filesIn, hselectors]
  change (answered (files.host.filesAmong
    (files.host.select (search options.recursive selectors) directory)) >>= _) = _
  rw [hanswer]
  rfl

/-- A pattern of one part lists the files with a name that it covers. -/
theorem filesAt_named {options : SourceOptions} (hfound : files.find? directory = some tree)
    (htree : tree.WellFormed) (hdirectory : tree.isDirectory = true)
    (hselectors : selectors? ("*" ++ options.extension).toList = some [.named pattern]) :
    Lists files options directory tree fun name => covers pattern name.toList = true := by
  have hmem (path : Path) : path ∈ (files.host.select (search options.recursive [.named pattern])
      directory).found.filter files.isFile ↔ _ := mem_files hfound htree
  have hroot (path : Path) (hpath : path ∈ (files.host.select
      (search options.recursive [.named pattern]) directory).found.filter files.isFile) :
      path.root = directory.root := by
    obtain ⟨names, name, rfl, -⟩ := (hmem path).mp hpath
    rfl
  refine ⟨_, pairwise_sorted ((nodup_search hfound htree).filter _) hroot,
    fun path => List.mem_mergeSort.trans (hmem path), ?_⟩
  have hplace : files.isDirectory directory = true := by
    rw [isDirectory, hfound]
    exact hdirectory
  rw [filesAt_directory options hplace hselectors]
  split
  · next hnone => simp [hnone]
  · next hsome =>
    rw [if_neg]
    exact fun hnil =>
      hsome (List.eq_nil_of_length_eq_zero (by simpa using congrArg List.length hnil))

end FileSystem

end Below

end ReverseProxy.Files
