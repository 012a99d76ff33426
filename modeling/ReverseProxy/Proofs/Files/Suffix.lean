import ReverseProxy.Proofs.Files.Descents

/-!
# Extensions of file names

An extension is put behind a star, and the text that results is a pattern. If no character of the
extension means anything else in a pattern, this chooses the files whose names end in the extension;
otherwise there is a name on which the two differ (`FileSystem.extension_is_suffix_iff`).
-/

namespace ReverseProxy.Files

/-- The text closes the set that is opened in front of it: behind an exclamation mark, if there is
one, and at least one character. -/
def ClosesSet (rest : List Char) : Prop :=
  ']' ∈ (if rest.head? = some '!' then rest.tail else rest).tail

/-- Every character of the text stands for itself in a pattern. -/
def IsPlain : List Char → Prop
  | [] => True
  | c :: rest => c ≠ '*' ∧ c ≠ '?' ∧ (c = '[' → ¬ClosesSet rest) ∧ IsPlain rest

instance (rest : List Char) : Decidable (ClosesSet rest) := inferInstanceAs (Decidable (_ ∈ _))

instance instDecidableIsPlain : (text : List Char) → Decidable (IsPlain text)
  | [] => .isTrue trivial
  | c :: rest =>
      haveI := instDecidableIsPlain rest
      inferInstanceAs (Decidable (c ≠ '*' ∧ c ≠ '?' ∧ (c = '[' → ¬ClosesSet rest) ∧ IsPlain rest))

/-- A bracket opens a set exactly if the rest of the text closes it. -/
theorem splitSet?_eq_none_iff {rest : List Char} : splitSet? rest = none ↔ ¬ClosesSet rest := by
  have hbody (body : List Char) : Text.splitFirst? ']'
      (body.drop (if body.head? = some ']' then [']'] else []).length) = none ↔
        ']' ∉ body.tail := by
    rw [Text.splitFirst?_eq_none_iff]
    rcases body with _ | ⟨c, body⟩
    · simp
    · by_cases hclose : c = ']'
      · simp [hclose]
      · simp [hclose, Ne.symm hclose]
  unfold splitSet? ClosesSet
  split
  · next hnegated =>
    obtain ⟨rest, rfl⟩ := List.head?_eq_some_iff.mp hnegated
    exact Option.map_eq_none_iff.trans (hbody rest)
  · exact Option.map_eq_none_iff.trans (hbody rest)

/-- The text of a set is not empty, and a bracket comes after it. -/
theorem splitSet?_shortens {rest inside after : List Char}
    (hsplit : splitSet? rest = some (inside, after)) :
    after <:+ rest ∧ after.length + 2 ≤ rest.length := by
  obtain ⟨⟨inner, last⟩, hfirst, hfound⟩ := Option.map_eq_some_iff.mp hsplit
  obtain ⟨-, rfl⟩ := Prod.mk.inj hfound
  have hbody := Text.splitFirst?_eq_some hfirst
  refine ⟨?_, ?_⟩
  · have hsuffix : last <:+ inner ++ ']' :: last :=
      (List.suffix_cons ']' last).trans (List.suffix_append inner _)
    rw [← hbody] at hsuffix
    exact hsuffix.trans ((List.drop_suffix _ _).trans (List.drop_suffix _ _))
  have hlength := congrArg List.length hbody
  simp only [List.length_drop, List.length_append, List.length_cons] at hlength
  by_cases hnegated : rest.head? = some '!'
  · simp only [if_pos hnegated, List.length_singleton] at hlength
    omega
  · rw [if_neg hnegated] at hbody hlength
    by_cases hclose : rest.head? = some ']'
    · simp only [List.length_nil, List.drop_zero, if_pos hclose, List.length_singleton] at hlength
      omega
    · simp only [List.length_nil, List.drop_zero, if_neg hclose] at hbody hlength
      have hinner : inner ≠ [] := by
        rintro rfl
        rw [hbody] at hclose
        exact hclose rfl
      have hpos := List.length_pos_of_ne_nil hinner
      omega

theorem anyEnd_iff {accepts : List Char → Bool} {name : List Char} :
    anyEnd accepts name = true ↔ ∃ after, after <:+ name ∧ accepts after = true := by
  induction name with
  | nil => simp [anyEnd]
  | cons c rest ih =>
      rw [anyEnd, Bool.or_eq_true, ih]
      constructor
      · rintro (haccepts | ⟨after, hsuffix, haccepts⟩)
        · exact ⟨_, List.suffix_rfl, haccepts⟩
        · exact ⟨after, hsuffix.trans (List.suffix_cons c rest), haccepts⟩
      · rintro ⟨after, hsuffix, haccepts⟩
        rcases List.suffix_cons_iff.mp hsuffix with rfl | hrest
        · exact .inl haccepts
        · exact .inr ⟨after, hrest, haccepts⟩

theorem covers_many {pattern : List Glyph} {name : List Char} :
    covers (.many :: pattern) name = true ↔
      ∃ after, after <:+ name ∧ covers pattern after = true := by
  rw [covers, anyEnd_iff]

theorem covers_cons {glyph : Glyph} {pattern : List Glyph} {c : Char} {rest : List Char}
    (hglyph : glyph ≠ .many) :
    covers (glyph :: pattern) (c :: rest) = (glyph.accepts c && covers pattern rest) := by
  cases glyph with
  | many => exact absurd rfl hglyph
  | _ => rfl

/-- Literal glyphs cover the text they spell, and nothing else. -/
theorem covers_literals {text name : List Char} :
    covers (text.map .literal) name = true ↔ name = text := by
  induction text generalizing name with
  | nil => simp [covers]
  | cons c text ih =>
      cases name with
      | nil => simp [covers]
      | cons d name => simp [covers_cons, ih, Glyph.accepts]

/-- Every glyph but a star stands for a character of a covered name. -/
theorem accepts_of_covers {pattern : List Glyph} {name : List Char}
    (hcovers : covers pattern name = true) :
    ∀ glyph ∈ pattern, glyph = .many ∨ ∃ c ∈ name, glyph.accepts c = true := by
  induction pattern generalizing name with
  | nil => exact List.forall_mem_nil _
  | cons glyph pattern ih =>
      by_cases hmany : glyph = .many
      · subst hmany
        obtain ⟨after, hsuffix, hafter⟩ := covers_many.mp hcovers
        refine List.forall_mem_cons.mpr ⟨.inl rfl, fun other hother => ?_⟩
        exact (ih hafter other hother).imp_right fun ⟨c, hc, haccepts⟩ =>
          ⟨c, hsuffix.mem hc, haccepts⟩
      · cases name with
        | nil => cases glyph <;> first | exact absurd rfl hmany | cases hcovers
        | cons c name =>
            rw [covers_cons hmany, Bool.and_eq_true] at hcovers
            refine List.forall_mem_cons.mpr
              ⟨.inr ⟨c, List.mem_cons_self, hcovers.1⟩, fun other hother => ?_⟩
            exact (ih hcovers.2 other hother).imp_right fun ⟨d, hd, haccepts⟩ =>
              ⟨d, List.mem_cons_of_mem c hd, haccepts⟩

/-! ### The glyphs of a text

A text that is not plain covers some name that it does not end: it is enough to leave out a star, to
put a letter for a question mark, or to take one character for a set. The name is no longer than the
text, and its first glyph accepts the first character.
-/

theorem glyphs_literal {count : Nat} {c : Char} {rest : List Char} (hstar : c ≠ '*')
    (hmark : c ≠ '?')
    (hset : c = '[' → ¬ClosesSet rest) :
    glyphs (count + 1) (c :: rest) = .literal c :: glyphs count rest := by
  by_cases hopen : c = '['
  · subst hopen
    rw [glyphs, splitSet?_eq_none_iff.mpr (hset rfl)]
  · rw [glyphs]
    · exact fun h => absurd h hstar
    · exact fun h => absurd h hmark
    · exact fun h => absurd h hopen

/-- A plain text consists of its own characters. -/
theorem glyphs_plain {count : Nat} {text : List Char} (hplain : IsPlain text)
    (hcount : text.length ≤ count) : glyphs count text = text.map .literal := by
  induction text generalizing count with
  | nil => cases count <;> rfl
  | cons c text ih =>
      obtain ⟨hstar, hmark, hset, hrest⟩ := hplain
      cases count with
      | zero => cases hcount
      | succ count =>
          rw [glyphs_literal hstar hmark hset, ih hrest (Nat.le_of_succ_le_succ hcount),
            List.map_cons]

theorem glyphOfSet_ne_many (inside : List Char) : glyphOfSet inside ≠ .many := by
  unfold glyphOfSet
  dsimp only
  split <;> nofun

/-- The pattern covers a name that is shorter than the text, or as long and then another one, unless
the text is plain. -/
def CoversOther (pattern : List Glyph) (text : List Char) : Prop :=
  ∃ name, covers pattern name = true ∧ '/' ∉ name ∧
    (name.length + 2 ≤ text.length ∨ name.length = text.length ∧ (name = text → IsPlain text))

namespace CoversOther

variable {pattern : List Glyph} {glyph : Glyph} {c d : Char} {text after : List Char}

theorem nil : CoversOther [] [] := ⟨[], rfl, List.not_mem_nil, .inr ⟨rfl, fun _ => trivial⟩⟩

/-- One character of the name for one of the text. -/
theorem cons (hrest : CoversOther pattern text) (hd : d ≠ '/')
    (hcovers : ∀ name, covers pattern name = true → covers (glyph :: pattern) (d :: name) = true)
    (hplain : d = c → IsPlain text → IsPlain (c :: text)) :
    CoversOther (glyph :: pattern) (c :: text) := by
  obtain ⟨name, hname, hclean, hlength⟩ := hrest
  refine ⟨d :: name, hcovers name hname, ?_, ?_⟩
  · rw [List.mem_cons, not_or]
    exact ⟨hd.symm, hclean⟩
  · simp only [List.length_cons, Nat.add_right_cancel_iff, List.cons.injEq]
    rcases hlength with hshort | ⟨hsame, hrest⟩
    · exact .inl (by omega)
    · exact .inr ⟨hsame, fun ⟨hfirst, hothers⟩ => hplain hfirst (hrest hothers)⟩

/-- One character of the name for a set. -/
theorem set (hrest : CoversOther pattern after) (hd : d ≠ '/') (hglyph : glyph ≠ .many)
    (haccepts : glyph.accepts d = true) (hshorter : after.length + 2 ≤ text.length) :
    CoversOther (glyph :: pattern) (c :: text) := by
  obtain ⟨name, hname, hclean, hlength⟩ := hrest
  refine ⟨d :: name, ?_, ?_, .inl ?_⟩
  · rw [covers_cons hglyph, haccepts, hname]
    rfl
  · rw [List.mem_cons, not_or]
    exact ⟨hd.symm, hclean⟩
  · simp only [List.length_cons]
    omega

end CoversOther

/-- If every glyph accepts some character of a name, there is such a name. -/
theorem glyphs_coversOther {count : Nat} {text : List Char} (hcount : text.length ≤ count)
    (hslash : '/' ∉ text)
    (hall : ∀ glyph ∈ glyphs count text, ∃ c, c ≠ '/' ∧ glyph.accepts c = true) :
    CoversOther (glyphs count text) text := by
  induction count generalizing text with
  | zero =>
      cases List.eq_nil_of_length_eq_zero (Nat.le_zero.mp hcount)
      exact .nil
  | succ count ih =>
      cases text with
      | nil => exact .nil
      | cons c text =>
          rw [List.mem_cons, not_or] at hslash
          have hcount := Nat.le_of_succ_le_succ hcount
          have hrest {glyph : Glyph} (hglyphs : glyphs (count + 1) (c :: text) =
              glyph :: glyphs count text) : CoversOther (glyphs count text) text :=
            ih hcount hslash.2 (List.forall_mem_cons.mp (hglyphs ▸ hall)).2
          -- A star and a question mark cover a letter that is not in the text at their place.
          by_cases hstar : c = '*'
          · subst hstar
            refine (hrest rfl).cons (d := 'a') (by decide) (fun name hname => ?_) (by rintro ⟨⟩)
            exact covers_many.mpr ⟨name, List.suffix_cons 'a' name, hname⟩
          by_cases hmark : c = '?'
          · subst hmark
            exact (hrest rfl).cons (d := 'a') (by decide) (fun name hname => hname) (by rintro ⟨⟩)
          -- A set has at least three characters of the text and covers one.
          by_cases hset : c = '[' ∧ ClosesSet text
          · obtain ⟨rfl, hcloses⟩ := hset
            obtain ⟨⟨inside, after⟩, hsplit⟩ := Option.ne_none_iff_exists'.mp
              (fun hnone => splitSet?_eq_none_iff.mp hnone hcloses)
            obtain ⟨hsuffix, hshorter⟩ := splitSet?_shortens hsplit
            have hglyphs : glyphs (count + 1) ('[' :: text) =
                glyphOfSet inside :: glyphs count after := by
              rw [glyphs, hsplit]
            rw [hglyphs] at hall ⊢
            obtain ⟨⟨d, hd, haccepts⟩, hothers⟩ := List.forall_mem_cons.mp hall
            exact (ih (by omega) (fun hmem => hslash.2 (hsuffix.mem hmem)) hothers).set hd
              (glyphOfSet_ne_many inside) haccepts hshorter
          · have hclosed : c = '[' → ¬ClosesSet text := fun hopen hcloses => hset ⟨hopen, hcloses⟩
            have hliteral : glyphs (count + 1) (c :: text) = .literal c :: glyphs count text :=
              glyphs_literal hstar hmark hclosed
            rw [hliteral]
            refine (hrest hliteral).cons (d := c) (Ne.symm hslash.1) (fun name hname => ?_)
              fun _ hplain => ⟨hstar, hmark, hclosed, hplain⟩
            rw [covers_cons (by nofun), hname]
            simp [Glyph.accepts]

/-- With a star in front a plain text covers what ends in it. -/
theorem covers_star_plain {count : Nat} {text name : List Char} (hplain : IsPlain text)
    (hcount : text.length ≤ count) :
    covers (.many :: glyphs count text) name = true ↔ text <:+ name := by
  simp only [covers_many, glyphs_plain hplain hcount, covers_literals, exists_eq_right]

/-- A text is plain if a star and the text cover the names that end in it. -/
theorem isPlain_of_covers_iff {count : Nat} {text : List Char} (hcount : text.length ≤ count)
    (hslash : '/' ∉ text)
    (hsuffix : ∀ name, '/' ∉ name →
      (covers (.many :: glyphs count text) ('a' :: name) = true ↔ text <:+ 'a' :: name)) :
    IsPlain text := by
  by_cases hall : ∀ glyph ∈ glyphs count text, ∃ c, c ≠ '/' ∧ glyph.accepts c = true
  · obtain ⟨name, hname, hclean, hlength⟩ := glyphs_coversOther hcount hslash hall
    have hends :=
      (hsuffix name hclean).mp (covers_many.mpr ⟨name, List.suffix_cons 'a' name, hname⟩)
    have hle := hends.length_le
    rw [List.length_cons] at hle
    obtain ⟨hsame, hplain⟩ := hlength.resolve_left (by omega)
    rcases List.suffix_cons_iff.mp hends with rfl | hinner
    · exact absurd hsame (by simp)
    · exact hplain (hinner.eq_of_length hsame.symm).symm
  · exfalso
    obtain ⟨after, hafter, hcovers⟩ :=
      covers_many.mp ((hsuffix text hslash).mpr (List.suffix_cons 'a' text))
    refine hall fun glyph hglyph => ?_
    rcases accepts_of_covers hcovers glyph hglyph with rfl | ⟨c, hc, haccepts⟩
    · exact ⟨'a', by decide, rfl⟩
    · refine ⟨c, ?_, haccepts⟩
      rintro rfl
      have hmem := hafter.mem hc
      simp [hslash] at hmem

theorem selectors?_star {text : List Char} (hslash : '/' ∉ text) :
    selectors? ('*' :: text) = (selector? ('*' :: text)).map fun selector => [selector] := by
  have hpart : '/' ∉ '*' :: text := by
    rw [List.mem_cons, not_or]
    exact ⟨by decide, hslash⟩
  have hlast : ('*' :: text).getLast? ≠ some '/' := fun hlast => hpart (List.mem_of_getLast? hlast)
  rw [selectors?, Text.splitAll_of_not_mem hpart]
  cases hselector : selector? ('*' :: text) <;> simp [hselector, hlast]

theorem selector?_star {text : List Char} (htext : text ≠ ['*'])
    (hstars : hasTwoStars ('*' :: text) = false) :
    selector? ('*' :: text) = some (.named (.many :: glyphs (text.length + 1) text)) := by
  rw [selector?, if_neg (by simpa using htext), hstars]
  rfl

theorem not_hasTwoStars {text : List Char} (hplain : IsPlain text) (c : Char) :
    hasTwoStars (c :: text) = false := by
  induction text generalizing c with
  | nil => simp [hasTwoStars]
  | cons d text ih =>
      rw [hasTwoStars, ih hplain.2.2.2]
      exact fun _ _ hsame => hplain.1 (List.cons.inj hsame).1

namespace FileSystem

/-- What a directory stands for settles which of its files are wanted. -/
theorem Lists.unique {files : FileSystem} {options : SourceOptions} {directory : Path} {tree : Tree}
    {accepts others : String → Prop} (hlists : Lists files options directory tree accepts)
    (hothers : Lists files options directory tree others) (path : Path) :
    IsWanted tree options.recursive accepts directory path ↔
      IsWanted tree options.recursive others directory path := by
  obtain ⟨found, -, hfound, hresult⟩ := hlists
  obtain ⟨also, -, halso, hsame⟩ := hothers
  have heq : found = also := by
    rw [hresult] at hsame
    split at hsame <;> split at hsame
    · next hnil hnil' => rw [hnil, hnil']
    · cases hsame
    · cases hsame
    · exact Except.ok.inj hsame
  rw [← hfound, ← halso, heq]

def alone (name : String) : FileSystem := ⟨.directory [(name, .file [])], []⟩

theorem wellFormed_alone {name : String} (hname : IsFileName name) :
    (alone name).root.WellFormed :=
  .directory (List.nodup_singleton name) (List.forall_mem_singleton.mpr hname)
    (List.forall_mem_singleton.mpr (.file []))

theorem isWanted_alone {name : String} {accepts : String → Prop} (hname : IsFileName name) :
    IsWanted (alone name).root false accepts here (here.append [name]) ↔ accepts name := by
  constructor
  · rintro ⟨names, last, hpath, ⟨content, hleads⟩, -, haccepts⟩
    have hnames := append_inj (List.forall_mem_singleton.mpr hname)
      (hleads.valid (wellFormed_alone hname)) hpath
    have hlast : some name = some last := by simpa using congrArg List.getLast? hnames
    cases hlast
    exact haccepts
  · intro haccepts
    exact ⟨[], name, rfl, ⟨[], .inside List.mem_cons_self (.here _)⟩, .inr rfl, haccepts⟩

theorem isFileName_letter {name : List Char} (hslash : '/' ∉ name) :
    IsFileName (String.ofList ('a' :: name)) := by
  simp [IsFileName, IsPathPart, String.ext_iff, hslash]

/-- In this file system a directory stands for the files with a name that ends in the extension. -/
def IsSuffixIn (files : FileSystem) (extension : String) : Prop :=
  ∀ (directory : Path) (tree : Tree) (recursive : Bool) (encoding : String),
    files.find? directory = some tree → tree.WellFormed → tree.isDirectory = true →
      Lists files ⟨extension, recursive, encoding⟩ directory tree
        fun name => extension.toList <:+ name.toList

section Extension

variable {extension : String} (hslash : '/' ∉ extension.toList)

include hslash

theorem selectors?_extension (htext : extension.toList ≠ ['*'])
    (hstars : hasTwoStars ('*' :: extension.toList) = false) :
    selectors? ("*" ++ extension).toList =
      some [.named (.many :: glyphs (extension.toList.length + 1) extension.toList)] := by
  rw [String.toList_append]
  change selectors? ('*' :: extension.toList) = _
  rw [selectors?_star hslash, selector?_star htext hstars]
  rfl

theorem selectors?_twoStars (htext : extension.toList ≠ ['*'])
    (hstars : hasTwoStars ('*' :: extension.toList) = true) :
    selectors? ("*" ++ extension).toList = none := by
  have htwo : '*' :: extension.toList ≠ ['*', '*'] := by simpa using htext
  rw [String.toList_append]
  change selectors? ('*' :: extension.toList) = _
  rw [selectors?_star hslash, selector?, if_neg htwo, if_pos hstars]
  rfl

/-- A plain extension selects by suffix in every file system. -/
theorem isSuffixIn_of_isPlain (files : FileSystem) (hplain : IsPlain extension.toList) :
    IsSuffixIn files extension := by
  intro directory tree recursive encoding hfound htree hdirectory
  have htext : extension.toList ≠ ['*'] := by
    intro hstar
    rw [hstar] at hplain
    exact hplain.1 rfl
  have hlists : Lists files ⟨extension, recursive, encoding⟩ directory tree _ :=
    filesAt_named hfound htree hdirectory
      (selectors?_extension hslash htext (not_hasTwoStars hplain '*'))
  simpa only [covers_star_plain hplain (Nat.le_succ _)] using hlists

/-- Directories with one file each tell whether an extension is plain. -/
theorem isPlain_of_lists
    (hlists : ∀ name, '/' ∉ name →
      Lists (alone (String.ofList ('a' :: name))) ⟨extension, false, "utf-8"⟩ here
        (alone (String.ofList ('a' :: name))).root fun name => extension.toList <:+ name.toList) :
    IsPlain extension.toList := by
  by_cases htext : extension.toList = ['*']
  · -- The pattern is two stars, which lead to directories only.
    obtain rfl : extension = "*" := String.toList_inj.mp htext
    obtain ⟨found, -, hfound, hresult⟩ := hlists ['*'] (by decide)
    have hwanted :=
      (hfound _).mpr ((isWanted_alone (isFileName_letter (by decide))).mpr (by decide))
    rw [if_neg (List.ne_nil_of_mem hwanted)] at hresult
    cases hresult
  by_cases hstars : hasTwoStars ('*' :: extension.toList) = true
  · -- The pattern is refused as such.
    obtain ⟨found, -, -, hresult⟩ := hlists [] List.not_mem_nil
    rw [filesAt_badPattern _ rfl (selectors?_twoStars hslash htext hstars)] at hresult
    split at hresult <;> cases hresult
  · refine isPlain_of_covers_iff (Nat.le_succ _) hslash fun name hname => ?_
    have hvalid := isFileName_letter hname
    have hcovers : Lists (alone _) ⟨extension, false, "utf-8"⟩ here _ _ :=
      filesAt_named rfl (wellFormed_alone hvalid) rfl
        (selectors?_extension hslash htext (Bool.eq_false_iff.mpr hstars))
    have hsame := hcovers.unique (hlists name hname) (here.append [String.ofList ('a' :: name)])
    rw [isWanted_alone hvalid, isWanted_alone hvalid] at hsame
    simpa using hsame

end Extension

section Slash

variable {extension : String} (hslash : '/' ∈ extension.toList)

include hslash

/-- No name has a slash in it, so no file is wanted. -/
theorem lists_iff_noFiles {files : FileSystem} {directory : Path} {tree : Tree} {recursive : Bool}
    {encoding : String} (htree : tree.WellFormed) :
    (Lists files ⟨extension, recursive, encoding⟩ directory tree
      fun name => extension.toList <:+ name.toList) ↔
    files.filesAt ⟨extension, recursive, encoding⟩ directory =
      .error (.source (.noFiles ("*" ++ extension) directory)) := by
  have hnone (path : Path) : ¬IsWanted tree recursive
      (fun name => extension.toList <:+ name.toList) directory path := by
    rintro ⟨names, name, -, ⟨content, hleads⟩, -, hends⟩
    have hname : IsFileName name := hleads.valid htree name (by simp)
    exact hname.1.2.2 (hends.mem hslash)
  constructor
  · rintro ⟨found, -, hfound, hresult⟩
    obtain rfl : found = [] :=
      List.eq_nil_iff_forall_not_mem.mpr fun path hpath => hnone path ((hfound path).mp hpath)
    rwa [if_pos rfl] at hresult
  · intro hresult
    exact ⟨[], .nil, fun path => iff_of_false List.not_mem_nil (hnone path), hresult⟩

/-- No name ends in an extension with a slash, so that nothing may be found by it. -/
theorem isSuffixIn_iff_of_slash :
    (∀ files : FileSystem, files.root.WellFormed → IsSuffixIn files extension) ↔
      ∃ selectors, selectors? ("*" ++ extension).toList = some selectors ∧
        ¬FindsFile selectors := by
  constructor
  · intro hsuffix
    cases hselectors : selectors? ("*" ++ extension).toList with
    | none =>
        have hroot : (alone "a").root.WellFormed := wellFormed_alone (by decide)
        have hlists := hsuffix (alone "a") hroot here (alone "a").root false "utf-8" rfl hroot rfl
        have hresult := (lists_iff_noFiles hslash hroot).mp hlists
        have hdirectory : (alone "a").isDirectory here = true := rfl
        rw [filesAt_badPattern ⟨extension, false, "utf-8"⟩ hdirectory hselectors] at hresult
        cases hresult
    | some selectors =>
        refine ⟨selectors, rfl, ?_⟩
        rintro ⟨files, directory, path, hroot, hdirectory, hpath, hfile⟩
        obtain ⟨entries, hfound⟩ := isDirectory_iff.mp hdirectory
        have htree := wellFormed_of_find? hroot hfound
        have hresult := (lists_iff_noFiles hslash htree).mp
          (hsuffix files hroot directory _ false "utf-8" hfound htree rfl)
        rw [filesAt_directory ⟨extension, false, "utf-8"⟩ hdirectory hselectors] at hresult
        split at hresult
        · next hnone => exact List.filter_eq_nil_iff.mp hnone path hpath hfile
        · cases hresult
  · rintro ⟨selectors, hselectors, hnone⟩ files hroot directory tree recursive encoding hfound htree
      hkind
    have hdirectory : files.isDirectory directory = true := by
      rw [isDirectory, hfound]
      exact hkind
    have hfiles : (files.host.select (search recursive selectors) directory).found.filter
        files.isFile = [] := by
      refine List.filter_eq_nil_iff.mpr fun path hpath hfile => hnone ?_
      exact findsFile_of_search ⟨files, directory, path, hroot, hdirectory, hpath, hfile⟩
    refine (lists_iff_noFiles hslash htree).mpr ?_
    rw [filesAt_directory ⟨extension, recursive, encoding⟩ hdirectory hselectors, hfiles]

end Slash

/-- **When an extension is a suffix.** Whatever a file system holds, a directory stands for the
files directly in it, or also for those below it, with a name that ends in the extension, each once
and in the order of the names on the way, and no such file is a failure that says so. Of the
extensions without a slash this holds for those in which no character is a star, a question mark or
a bracket that opens a set. As no name has a slash in it, of the others it holds for those that make
a pattern by which no file is ever found: if the slash is the last character, or, as long as no part
of the pattern is two dots, if some part fits no name. -/
theorem extension_is_suffix_iff (extension : String) :
    ('/' ∉ extension.toList →
      ((∀ files, IsSuffixIn files extension) ↔ IsPlain extension.toList)) ∧
    ('/' ∈ extension.toList →
      ((∀ files : FileSystem, files.root.WellFormed → IsSuffixIn files extension) ↔
        ∃ selectors, selectors? ("*" ++ extension).toList = some selectors ∧
          ¬FindsFile selectors)) ∧
    ∀ selectors, selectors? ("*" ++ extension).toList = some selectors →
      (extension.toList.getLast? = some '/' → ¬FindsFile selectors) ∧
        (.exactly ".." ∉ selectors → (FindsFile selectors ↔ CanFit selectors)) := by
  refine ⟨fun hslash => ⟨fun hsuffix => ?_, fun hplain files => ?_⟩, isSuffixIn_iff_of_slash, ?_⟩
  · refine isPlain_of_lists hslash fun name hname => ?_
    exact hsuffix _ here _ false "utf-8" rfl (wellFormed_alone (isFileName_letter hname)) rfl
  · exact isSuffixIn_of_isPlain hslash files hplain
  · intro selectors hselectors
    constructor
    · intro hlast
      obtain ⟨parts, -, rfl⟩ := selectors?_eq_some.mp hselectors
      have hend : ("*" ++ extension).toList.getLast? = some '/' := by
        rw [String.toList_append, List.getLast?_append, hlast]
        rfl
      rw [if_pos hend]
      exact not_findsFile_of_slash
    · intro hdots
      refine findsFile_iff_canFit fun name hname => ⟨isPathPart_of_exactly hselectors hname, ?_⟩
      rintro rfl
      exact hdots hname

/-- A name with another ending, a bracket that opens no set, and a directory that is searched too.
With a slash behind it no file is found, with a name behind the slash some file is. -/
theorem extension_is_suffix_below :
    let inner : Tree := .directory [("b[kdl", .file [])]
    let tree : Tree := .directory [("notes.txt", .file []), ("a[kdl", .file []), ("sub", inner)]
    ('/' ∉ "[kdl".toList ∧ IsPlain "[kdl".toList ∧ tree.WellFormed ∧
      Lists ⟨tree, []⟩ ⟨"[kdl", true, "utf-8"⟩ here tree
        fun name => "[kdl".toList <:+ name.toList) ∧
    (∀ files : FileSystem, files.root.WellFormed → IsSuffixIn files "[kdl/") ∧
    ¬∀ files : FileSystem, files.root.WellFormed → IsSuffixIn files ".d/kdl" := by
  intro inner tree
  have hslash : '/' ∉ "[kdl".toList := by decide
  have hplain : IsPlain "[kdl".toList := by decide
  have hinner : inner.WellFormed := .directory (by decide) (by decide) (by simpa using .file [])
  have htree : tree.WellFormed :=
    .directory (by decide) (by decide) (by simpa using ⟨.file [], hinner⟩)
  have hsuffix := ((extension_is_suffix_iff "[kdl").1 hslash).mpr hplain
  refine ⟨⟨hslash, hplain, htree, hsuffix ⟨tree, []⟩ here tree true "utf-8" rfl htree rfl⟩, ?_, ?_⟩
  · obtain ⟨-, hiff, hparts⟩ := extension_is_suffix_iff "[kdl/"
    have hselectors : selectors? ("*" ++ "[kdl/").toList =
        some [.named (.many :: "[kdl".toList.map .literal), .itself] := rfl
    exact (hiff (by decide)).mpr ⟨_, hselectors, (hparts _ hselectors).1 (by decide)⟩
  · obtain ⟨-, hiff, hparts⟩ := extension_is_suffix_iff ".d/kdl"
    have hselectors : selectors? ("*" ++ ".d/kdl").toList =
        some [.named (.many :: ".d".toList.map .literal), .exactly "kdl"] := rfl
    have hfits : CanFit [.named (.many :: ".d".toList.map .literal), .exactly "kdl"] :=
      ⟨⟨"a.d", by decide, by decide⟩, .inr (.inl rfl)⟩
    intro hall
    obtain ⟨selectors, hsome, hnone⟩ := (hiff (by decide)).mp hall
    cases hselectors.symm.trans hsome
    exact hnone (((hparts _ hselectors).2 (by simp)).mpr hfits)

/-- Brackets that name a set of characters choose the name that ends in one of these, and pass over
the name that ends in the extension itself. -/
theorem extension_set_is_no_suffix :
    let tree : Tree := .directory [("x[ab]", .file []), ("xa", .file [])]
    let files : FileSystem := ⟨.directory [("d", tree)], []⟩
    files.filesAt ⟨"[ab]", false, "utf-8"⟩ (Path.parse "d") = .ok [Path.parse "d/xa"] ∧
      ¬Lists files ⟨"[ab]", false, "utf-8"⟩ (Path.parse "d") tree
        fun name => "[ab]".toList <:+ name.toList := by
  intro tree files
  have hselectors : selectors? ("*" ++ "[ab]").toList =
      some [.named [.many, .set false [('a', 'a'), ('b', 'b')]]] := rfl
  have hselected : (files.host.select
    (search false [.named [.many, .set false [('a', 'a'), ('b', 'b')]]])
      (Path.parse "d")).found.filter files.isFile = [Path.parse "d/xa"] := rfl
  have hfiles : files.filesAt ⟨"[ab]", false, "utf-8"⟩ (Path.parse "d") =
    .ok [Path.parse "d/xa"] := by
    have hdirectory : files.isDirectory (Path.parse "d") = true := rfl
    rw [filesAt_directory ⟨"[ab]", false, "utf-8"⟩ hdirectory hselectors, hselected]
    exact congrArg Except.ok (List.mergeSort_singleton _)
  refine ⟨hfiles, ?_⟩
  rintro ⟨found, -, hfound, hresult⟩
  have hwanted : IsWanted tree false (fun name => "[ab]".toList <:+ name.toList) (Path.parse "d")
      ((Path.parse "d").append ["x[ab]"]) :=
    ⟨[], "x[ab]", rfl, ⟨[], .inside List.mem_cons_self (.here _)⟩, .inr rfl, by decide⟩
  have hmem := (hfound _).mpr hwanted
  rw [hfiles, if_neg (List.ne_nil_of_mem hmem)] at hresult
  cases hresult
  revert hmem
  decide

end FileSystem

end ReverseProxy.Files
