import ReverseProxy.Kdl.Writer
import ReverseProxy.Proofs.Kdl.Written

/-!
# Written lines

What the lines of a configuration are read as. A name is written bare or quoted, and read as it was
unless it is a bare name with a line feed behind it: the writer takes that for a bare name, and the
reader stops at the line feed.
-/

namespace ReverseProxy.Kdl

/-- A bare name with one line feed behind it. -/
def IsBareLine (name : String) : Prop :=
  ∃ c stem, name.toList = c :: (stem ++ ['\n']) ∧ isBareStart c = true ∧
    ∀ d ∈ stem, isBareChar d = true

theorem isBareChar_of_isBareStart {c : Char} (hstart : isBareStart c = true) :
    isBareChar c = true := by
  simp only [isBareStart, isBareChar, Char.isAlphanum, Bool.or_eq_true, decide_eq_true_eq] at *
  tauto

/-- Names are tested up to their end or up to a line feed at their end. -/
theorem isBareName_cons {c : Char} {rest : List Char} :
    isBareName (c :: rest) = true ↔ isBareStart c = true ∧
      ((∀ d ∈ rest, isBareChar d = true) ∨
        ∃ stem, rest = stem ++ ['\n'] ∧ ∀ d ∈ stem, isBareChar d = true) := by
  have hline : rest.dropWhile isBareChar = ['\n'] ↔
      ∃ stem, rest = stem ++ ['\n'] ∧ ∀ d ∈ stem, isBareChar d = true := by
    constructor
    · intro hdrop
      refine ⟨rest.takeWhile isBareChar, ?_, fun d hd => List.mem_takeWhile_imp hd⟩
      rw [← hdrop, List.takeWhile_append_dropWhile]
    · rintro ⟨stem, rfl, hstem⟩
      rw [List.dropWhile_append_of_pos hstem]
      rfl
  rw [isBareName, Bool.and_eq_true, Bool.or_eq_true, decide_eq_true_eq, decide_eq_true_eq,
    List.dropWhile_eq_nil_iff, hline]

theorem isBareLine_iff {name : String} :
    IsBareLine name ↔ isBareName name.toList = true ∧ name.toList.getLast? = some '\n' := by
  constructor
  · rintro ⟨c, stem, hname, hstart, hstem⟩
    rw [hname]
    exact ⟨isBareName_cons.mpr ⟨hstart, .inr ⟨stem, rfl, hstem⟩⟩, by
      rw [← List.cons_append, List.getLast?_concat]⟩
  · rintro ⟨hbare, hlast⟩
    obtain ⟨front, hfront⟩ := List.getLast?_eq_some_iff.mp hlast
    rw [hfront] at hbare
    rw [IsBareLine, hfront]
    cases front with
    | nil => cases hbare
    | cons c front =>
        obtain ⟨hstart, hall | ⟨stem, hstem, hall⟩⟩ := isBareName_cons.mp hbare
        · exact absurd (hall '\n' (by simp)) (by decide)
        · exact ⟨c, front, rfl, hstart, (List.append_inj_left' hstem rfl) ▸ hall⟩

instance (name : String) : Decidable (IsBareLine name) := decidable_of_iff _ isBareLine_iff.symm

theorem isToken_of_isBareStart {c : Char} {stem : List Char} (hstart : isBareStart c = true)
    (hstem : ∀ d ∈ stem, isBareChar d = true) : IsToken (c :: stem) := by
  refine ⟨List.cons_ne_nil c stem, fun d hd => ?_⟩
  rcases List.mem_cons.mp hd with rfl | hrest
  · exact isTokenChar_of_isBareChar (isBareChar_of_isBareStart hstart)
  · exact isTokenChar_of_isBareChar (hstem d hrest)

/-- A name is read as what it was, if it was not taken for a bare one with its line feed. -/
theorem spellsName_writeName {name : String} (hname : ¬IsBareLine name) :
    SpellsName (writeName name).toList name := by
  unfold writeName
  split
  · next hbare =>
    rw [Bool.and_eq_true] at hbare
    cases hchars : name.toList with
    | nil =>
        rw [hchars] at hbare
        cases hbare.1
    | cons c rest =>
        rw [hchars] at hbare
        obtain ⟨hstart, hall | ⟨stem, hstem, hall⟩⟩ := isBareName_cons.mp hbare.1
        · have hspelled := SpellsName.bare (isToken_of_isBareStart hstart hall)
          rwa [← hchars, String.ofList_toList, hchars] at hspelled
        · exact absurd ⟨c, stem, by rw [hchars, hstem], hstart, hall⟩ hname
  · rw [quote, String.toList_ofList]
    exact .quoted name

/-- The name that is read where a name was written. -/
def rereadName (name : String) : String :=
  if IsBareLine name then String.ofList name.toList.dropLast else name

/-- Exactly the names of a bare line lose something when they are read again. -/
theorem rereadName_eq_self {name : String} : rereadName name = name ↔ ¬IsBareLine name := by
  unfold rereadName
  split
  · next hname =>
    refine iff_of_false (fun hsame => ?_) (fun hnot => hnot hname)
    obtain ⟨c, stem, hchars, -⟩ := hname
    have hlength := congrArg (fun text : String => text.toList.length) hsame
    simp [hchars] at hlength
  · next hname => exact iff_of_true rfl hname

/-- A bare name with a line feed behind it is written as it is, and read without the line feed. -/
theorem writeName_of_isBareLine {name : String} (hname : IsBareLine name) :
    ∃ c stem, (writeName name).toList = c :: (stem ++ ['\n']) ∧ isBareStart c = true ∧
      IsToken (c :: stem) ∧ String.ofList (c :: stem) = rereadName name := by
  have hreread : rereadName name = String.ofList name.toList.dropLast := if_pos hname
  obtain ⟨c, stem, hchars, hstart, hstem⟩ := hname
  have hreserved : reservedNames.contains name = false := by
    have hfeed : '\n' ∈ name.toList := by simp [hchars]
    rw [List.contains_eq_mem, decide_eq_false_iff_not]
    intro hmem
    exact (by decide : ∀ word ∈ reservedNames, '\n' ∉ word.toList) name hmem hfeed
  have hbare : isBareName name.toList = true := by
    rw [hchars]
    exact isBareName_cons.mpr ⟨hstart, .inr ⟨stem, rfl, hstem⟩⟩
  refine ⟨c, stem, ?_, hstart, isToken_of_isBareStart hstart hstem, ?_⟩
  · rw [writeName, hbare, hreserved]
    exact hchars
  · rw [hreread, hchars, ← List.cons_append, List.dropLast_concat]

def PropertyValue.scalar : PropertyValue → Scalar
  | .text content => .string content
  | .flag value => .boolean value

def propertyData (properties : List (String × Option PropertyValue)) : List Datum :=
  properties.filterMap fun (key, value) => value.map fun value => ⟨some key, value.scalar⟩

theorem key_ne_none_of_mem_propertyData {properties : List (String × Option PropertyValue)} :
    ∀ datum ∈ propertyData properties, datum.key ≠ none := by
  intro datum hdatum
  obtain ⟨⟨key, value⟩, -, hvalue⟩ := List.mem_filterMap.mp hdatum
  obtain ⟨written, -, rfl⟩ := Option.map_eq_some_iff.mp hvalue
  nofun

theorem spellsScalar_write (value : PropertyValue) :
    SpellsScalar value.write.toList value.scalar := by
  cases value with
  | text content =>
      rw [PropertyValue.write, quote, String.toList_ofList]
      exact .quoted content
  | flag value =>
      cases value
      · exact spellsScalar_flag false
      · exact spellsScalar_flag true

theorem writeProperties_absent (key : String) (properties : List (String × Option PropertyValue)) :
    writeProperties ((key, none) :: properties) = writeProperties properties := by
  simp [writeProperties, String.join_cons]

theorem toList_writeProperties_present (key : String) (value : PropertyValue)
    (properties : List (String × Option PropertyValue)) :
    (writeProperties ((key, some value) :: properties)).toList =
      ' ' :: ((writeName key).toList ++ '=' :: value.write.toList ++
        (writeProperties properties).toList) := by
  simp [writeProperties, writeProperty, String.join_cons]

/-- Properties are read as what was written, if no key is a bare line. -/
theorem spellsData_writeProperties {properties : List (String × Option PropertyValue)}
    (hkeys : ∀ property ∈ properties, ¬IsBareLine property.1) :
    SpellsData (writeProperties properties).toList (propertyData properties) := by
  induction properties with
  | nil => exact .nil
  | cons property properties ih =>
      obtain ⟨hkey, hothers⟩ := List.forall_mem_cons.mp hkeys
      obtain ⟨key, _ | value⟩ := property
      · rw [writeProperties_absent]
        exact ih hothers
      · rw [toList_writeProperties_present]
        exact .cons (.property (spellsName_writeName hkey) (spellsScalar_write value)) (ih hothers)

def textData (texts : List (String × String)) : List Datum :=
  texts.map fun (key, text) => ⟨some key, .string text⟩

theorem spellsData_writeTexts {texts : List (String × String)}
    (hkeys : ∀ text ∈ texts, ¬IsBareLine text.1) :
    SpellsData (writeTexts texts).toList (textData texts) := by
  have hdata : propertyData (texts.map fun (key, text) => (key, some (.text text))) =
      textData texts := by
    rw [propertyData, textData, List.filterMap_map, ← List.filterMap_eq_map]
    rfl
  rw [writeTexts, ← hdata]
  refine spellsData_writeProperties fun property hproperty => ?_
  obtain ⟨text, htext, rfl⟩ := List.mem_map.mp hproperty
  exact hkeys text htext

theorem toList_writeTexts_cons (key text : String) (texts : List (String × String)) :
    (writeTexts ((key, text) :: texts)).toList =
      ' ' :: ((writeName key).toList ++ '=' :: (PropertyValue.text text).write.toList ++
        (writeTexts texts).toList) :=
  toList_writeProperties_present key (.text text) _

/-- The line feed of a key ends the node, and an equals sign comes next. -/
theorem writeTexts_of_isBareLine {texts : List (String × String)}
    (hkey : ∃ text ∈ texts, IsBareLine text.1) :
    ∃ entries data more, SpellsData entries data ∧
      (writeTexts texts).toList = entries ++ '\n' :: '=' :: more := by
  induction texts with
  | nil =>
      obtain ⟨_, hmem, -⟩ := hkey
      cases hmem
  | cons text texts ih =>
      obtain ⟨key, text⟩ := text
      rw [toList_writeTexts_cons]
      by_cases hbad : IsBareLine key
      · obtain ⟨c, stem, hwritten, hstart, htoken, -⟩ := writeName_of_isBareLine hbad
        obtain ⟨value, hvalue⟩ := @interpret_bareStart c stem hstart
        refine ⟨' ' :: ((c :: stem) ++ []), [⟨none, value⟩],
          (PropertyValue.text text).write.toList ++ (writeTexts texts).toList,
          .cons (.positional (.bare htoken hvalue)) .nil, ?_⟩
        rw [hwritten]
        simp
      · have hothers : ∃ text ∈ texts, IsBareLine text.1 := by
          obtain ⟨other, hmem, hother⟩ := hkey
          rcases List.mem_cons.mp hmem with rfl | hrest
          · exact absurd hother hbad
          · exact ⟨other, hrest, hother⟩
        obtain ⟨entries, data, more, hdata, hmore⟩ := ih hothers
        have hdatum : SpellsDatum
            ((writeName key).toList ++ '=' :: (PropertyValue.text text).write.toList)
            ⟨some key, .string text⟩ :=
          .property (spellsName_writeName hbad) (spellsScalar_write (.text text))
        refine ⟨_, _, more, .cons hdatum hdata, ?_⟩
        rw [hmore]
        simp

def linesText (indent : Nat) (lines : List String) : List Char :=
  lines.flatMap fun line => List.replicate indent ' ' ++ (line.toList ++ ['\n'])

theorem linesText_append (indent : Nat) (lines more : List String) :
    linesText indent (lines ++ more) = linesText indent lines ++ linesText indent more :=
  List.flatMap_append

theorem linesText_indented (indent : Nat) (lines : List String) :
    linesText indent (lines.map (indentation ++ ·)) = linesText (indent + 4) lines := by
  have hspaces : List.replicate (indent + 4) ' ' =
      List.replicate indent ' ' ++ indentation.toList := by
    rw [List.replicate_add]
    rfl
  simp only [linesText, List.flatMap_map, String.toList_append, hspaces, List.append_assoc]

theorem toList_joinLines {lines : List String} (hne : lines ≠ []) :
    (joinLines lines).toList = linesText 0 lines := by
  induction lines with
  | nil => exact absurd rfl hne
  | cons line lines ih =>
      cases lines with
      | nil => simp [joinLines, linesText]
      | cons next lines =>
          have hcons : joinLines (line :: next :: lines) =
              line ++ "\n" ++ joinLines (next :: lines) := by
            rw [joinLines, String.intercalate_cons_cons, joinLines, String.append_assoc,
              String.append_assoc]
          rw [hcons, String.toList_append, ih (List.cons_ne_nil _ _)]
          simp [linesText]

/-- A block is written with its head, its lines further in, and a brace of its own. -/
theorem linesText_writeBlock (indent : Nat) (head : String) (lines : List String) :
    linesText indent (writeBlock head lines) =
      List.replicate indent ' ' ++ (head.toList ++ ' ' :: '\x7b' :: '\n' ::
        (linesText (indent + 4) lines ++ (List.replicate indent ' ' ++ '\x7d' :: '\n' :: []))) := by
  rw [writeBlock, ← List.singleton_append, linesText_append, linesText_append, linesText_indented]
  simp [linesText]

/-- What written lines are read as, however far in they stand: nodes that say this, or nothing. -/
def LinesRead (depth : Nat) (lines : List String) : Option (List Shape) → Prop
  | some shapes => ∀ indent, SpellsNodes depth (linesText indent lines) shapes
  | none => ∀ indent, SpoilsNodes depth (linesText indent lines)

theorem spellsNodes_spaces {depth : Nat} {text : List Char} {shapes : List Shape}
    (hnodes : SpellsNodes depth text shapes) (count : Nat) :
    SpellsNodes depth (List.replicate count ' ' ++ text) shapes := by
  induction count with
  | zero => exact hnodes
  | succ count ih => exact .blank (.inl rfl) ih

theorem spellsNodes_replicate (depth count : Nat) :
    SpellsNodes depth (List.replicate count ' ') [] := by
  have hspaces : SpellsNodes depth (List.replicate count ' ' ++ []) [] :=
    spellsNodes_spaces .nil count
  rwa [List.append_nil] at hspaces

theorem spoilsNodes_spaces {depth : Nat} {text : List Char} (hspoils : SpoilsNodes depth text)
    (count : Nat) : SpoilsNodes depth (List.replicate count ' ' ++ text) :=
  (spellsNodes_replicate depth count).append_spoils hspoils

/-- A key with an equals sign behind it is not read as a node. -/
theorem spoilsNodes_key {depth : Nat} (key : String) (rest : List Char) :
    SpoilsNodes depth ((writeName key).toList ++ '=' :: rest) := by
  by_cases hbad : IsBareLine key
  · obtain ⟨c, stem, hwritten, -, htoken, -⟩ := writeName_of_isBareLine hbad
    have hnode : SpellsNodes depth ((c :: stem) ++ ([] ++ '\n' :: []))
        [.mk (String.ofList (c :: stem)) [] none] := .leaf (.bare htoken) .nil .nil
    have hspoils := hnode.append_spoils (spoilsNodes_mark (.inl rfl) rest)
    simpa [hwritten] using hspoils
  · exact spoilsNodes_unspaced (spellsName_writeName hbad) rest

namespace LinesRead

variable {depth : Nat}

theorem nil : LinesRead depth [] (some []) := fun _ => .nil

/-- Lines behind lines are read one after the other, and if either cannot be read nothing can. -/
theorem append {lines more : List String} {first second : Option (List Shape)}
    (hfirst : LinesRead depth lines first) (hsecond : LinesRead depth more second) :
    LinesRead depth (lines ++ more) (do return (← first) ++ (← second)) := by
  cases first with
  | none =>
      intro indent
      rw [linesText_append]
      exact (hfirst indent).append _
  | some shapes =>
      cases second with
      | none =>
          intro indent
          rw [linesText_append]
          exact (hfirst indent).append_spoils (hsecond indent)
      | some others =>
          intro indent
          rw [linesText_append]
          exact (hfirst indent).append (hsecond indent)

/-- Lines that are written for one value after the other. -/
theorem flatMap {α : Type} {lines : α → List String} {shape? : α → Option Shape} {values : List α}
    (hread : ∀ value ∈ values, LinesRead depth (lines value) ((shape? value).map ([·]))) :
    LinesRead depth (values.flatMap lines) (values.mapM shape?) := by
  induction values with
  | nil => exact nil
  | cons value values ih =>
      obtain ⟨hvalue, hothers⟩ := List.forall_mem_cons.mp hread
      have hall := append hvalue (ih hothers)
      rw [List.flatMap_cons, List.mapM_cons]
      cases hshape : shape? value <;> cases hshapes : values.mapM shape? <;>
        simpa [hshape, hshapes] using hall

/-- Lines that are written one for each value. -/
theorem mapM {α : Type} {line : α → String} {shape? : α → Option Shape} {values : List α}
    (hread : ∀ value ∈ values, LinesRead depth [line value] ((shape? value).map ([·]))) :
    LinesRead depth (values.map line) (values.mapM shape?) := by
  have hall : LinesRead depth (values.flatMap fun value => [line value]) (values.mapM shape?) :=
    flatMap hread
  rwa [← List.map_eq_flatMap] at hall

theorem map {α : Type} {line : α → String} {shape : α → Shape} {values : List α}
    (hread : ∀ value ∈ values, LinesRead depth [line value] (some [shape value])) :
    LinesRead depth (values.map line) (some (values.map shape)) := by
  have hall : LinesRead depth (values.map line) (values.mapM fun value => pure (shape value)) :=
    mapM hread
  rwa [List.mapM_pure] at hall

variable {name entries : List Char} {title : String} {data : List Datum}

theorem line {line : String} (hname : SpellsName name title) (hdata : SpellsData entries data)
    (hline : line.toList = name ++ entries) :
    LinesRead depth [line] (some [.mk title data none]) := by
  intro indent
  have hnode : SpellsNodes depth (name ++ (entries ++ ['\n'])) [.mk title data none] :=
    .leaf hname hdata .nil
  have htext := spellsNodes_spaces hnode indent
  simpa [linesText, hline] using htext

/-- A line that ends in properties with keys of any kind. -/
theorem textsLine {line : String} {texts : List (String × String)} (hname : SpellsName name title)
    (hdata : SpellsData entries data)
    (hline : line.toList = name ++ (entries ++ (writeTexts texts).toList)) :
    LinesRead depth [line] (if ∀ text ∈ texts, ¬IsBareLine text.1 then
      some [.mk title (data ++ textData texts) none] else none) := by
  split
  · next hkeys => exact LinesRead.line hname (hdata.append (spellsData_writeTexts hkeys)) hline
  · next hkeys =>
    simp only [not_forall, not_not, exists_prop] at hkeys
    obtain ⟨more, found, rest, hmore, hwritten⟩ := writeTexts_of_isBareLine hkeys
    intro indent
    have hnode : SpellsNodes depth (name ++ ((entries ++ more) ++ ['\n']))
        [.mk title (data ++ found) none] := .leaf hname (hdata.append hmore) .nil
    have hspoils := spoilsNodes_spaces
      (hnode.append_spoils (spoilsNodes_mark (.inl rfl) (rest ++ ['\n']))) indent
    simpa [linesText, hline, hwritten] using hspoils

/-- A block is read as a node with what its lines are read as. -/
theorem block {head : String} {lines : List String} {inside : Option (List Shape)}
    (hname : SpellsName name title) (hdata : SpellsData entries data)
    (hhead : head.toList = name ++ entries) (hlines : LinesRead depth lines inside) :
    LinesRead (depth + 1) (writeBlock head lines)
      (inside.map fun below => [.mk title data (some below)]) := by
  cases inside with
  | some below =>
      intro indent
      have hinside : SpellsNodes depth ('\n' :: (linesText (indent + 4) lines ++
          List.replicate indent ' ')) below := by
        have hall := (hlines (indent + 4)).append (spellsNodes_replicate depth indent)
        rw [List.append_nil] at hall
        exact .blank (.inr rfl) hall
      have hnode := spellsNodes_spaces (SpellsNodes.block hname hdata hinside .nil) indent
      rw [linesText_writeBlock, hhead]
      simpa using hnode
  | none =>
      intro indent
      have hinside : SpoilsNodes depth ('\n' :: linesText (indent + 4) lines) :=
        (SpellsNodes.blank (.inr rfl) .nil).append_spoils (hlines (indent + 4))
      have hnode := spoilsNodes_spaces ((SpoilsNodes.block hname hdata hinside).append
        (List.replicate indent ' ' ++ '\x7d' :: '\n' :: [])) indent
      rw [linesText_writeBlock, hhead]
      simpa using hnode

/-- A block under a name with a line feed behind it has no name. -/
theorem blockOfBareLine {name : String} (hname : IsBareLine name) (lines : List String) :
    LinesRead depth (writeBlock (writeName name) lines) none := by
  intro indent
  obtain ⟨c, stem, hwritten, -, htoken, -⟩ := writeName_of_isBareLine hname
  have hnode : SpellsNodes depth ((c :: stem) ++ ([] ++ '\n' :: [' ']))
      [.mk (String.ofList (c :: stem)) [] none] :=
    .leaf (.bare htoken) .nil (.blank (.inl rfl) .nil)
  have hspoils := spoilsNodes_spaces (hnode.append_spoils (spoilsNodes_mark (.inr rfl)
    ('\n' :: (linesText (indent + 4) lines ++
      (List.replicate indent ' ' ++ '\x7d' :: '\n' :: []))))) indent
  rw [linesText_writeBlock, hwritten]
  simpa using hspoils

/-- A line that starts with a name with a line feed behind it is a line with that name alone, and
the properties behind the line feed stand for nothing. -/
theorem lineOfBareLine {name : String} (hname : IsBareLine name) (texts : List (String × String)) :
    LinesRead depth [writeName name ++ writeTexts texts]
      (if texts = [] then some [.mk (rereadName name) [] none] else none) := by
  obtain ⟨c, stem, hwritten, -, htoken, hreread⟩ := writeName_of_isBareLine hname
  split
  · next hnil =>
    intro indent
    have hnode : SpellsNodes depth ((c :: stem) ++ ([] ++ '\n' :: ['\n']))
        [.mk (String.ofList (c :: stem)) [] none] :=
      .leaf (.bare htoken) .nil (.blank (.inr rfl) .nil)
    have htext := spellsNodes_spaces hnode indent
    rw [hreread] at htext
    simpa [linesText, hwritten, hnil, writeTexts, writeProperties] using htext
  · next hne =>
    intro indent
    obtain ⟨⟨key, text⟩, others, rfl⟩ := List.exists_cons_of_ne_nil hne
    have hkey : SpoilsNodes depth ((writeName key).toList ++ '=' ::
        ((PropertyValue.text text).write.toList ++ ((writeTexts others).toList ++ ['\n']))) :=
      spoilsNodes_key key _
    have hnode : SpellsNodes depth ((c :: stem) ++ ([] ++ '\n' :: [' ']))
        [.mk (String.ofList (c :: stem)) [] none] :=
      .leaf (.bare htoken) .nil (.blank (.inl rfl) .nil)
    have hspoils := spoilsNodes_spaces (hnode.append_spoils hkey) indent
    simpa [linesText, hwritten, toList_writeTexts_cons] using hspoils

end LinesRead

/-- Lines are the document that they are read as. -/
theorem readDocument_joinLines {lines : List String} {shapes : List Shape} (hne : lines ≠ [])
    (hread : LinesRead maxDepth lines (some shapes)) :
    ∃ document, readDocument (joinLines lines).toList = .ok document ∧
      document.shapes = shapes := by
  rw [toList_joinLines hne]
  exact readDocument_spelled (hread 0)

/-- Lines that cannot be read make a text that is refused. -/
theorem readDocument_joinLines_spoiled {lines : List String} (hne : lines ≠ [])
    (hread : LinesRead maxDepth lines none) :
    ∃ failure, readDocument (joinLines lines).toList = .error failure := by
  obtain ⟨failure, hfailure⟩ := hread 0 false 0 []
  rw [List.append_nil] at hfailure
  refine ⟨failure, ?_⟩
  rw [toList_joinLines hne]
  change nodesFrom (readBlock maxDepth) false ⟨0, linesText 0 lines⟩ >>= _ = _
  rw [hfailure]
  rfl

end ReverseProxy.Kdl
