import Mathlib
import ReverseProxy.Settings.Layers

/-!
# Layers, field by field

What a field holds after fields were laid over others: what is on top, or else what is below. The
environment is such a layer, in which the variables of a field's own fields lie over the JSON of the
variable for all of them.
-/

namespace ReverseProxy.Settings

variable {fields below above : Fields} {key name : String} {value : Json}

theorem lookup_cons_ite {α : Type} (key name : String) (value : α) (fields : List (String × α)) :
    ((key, value) :: fields).lookup name =
      if name = key then some value else fields.lookup name := by
  rw [List.lookup_cons]
  by_cases hname : name = key
  · simp [hname]
  · rw [beq_eq_false_iff_ne.mpr hname, if_neg hname]

theorem lookup_eq_none_of_not_mem {α : Type} {fields : List (String × α)}
    (habsent : name ∉ fields.map Prod.fst) : fields.lookup name = none := by
  rw [List.lookup_eq_none_iff]
  intro field hfield
  rw [bne_iff_ne]
  rintro rfl
  exact habsent (List.mem_map_of_mem hfield)

theorem lookup_replace (fields : Fields) (key name : String) (value : Json) :
    (fields.map fun field => if field.1 = key then (key, value) else field).lookup name =
      if name = key then (fields.lookup name).map fun _ => value else fields.lookup name := by
  induction fields with
  | nil => simp
  | cons field fields ih =>
      obtain ⟨first, held⟩ := field
      rw [List.map_cons, lookup_cons_ite]
      by_cases hkey : first = key
      · rw [if_pos hkey, lookup_cons_ite, ih]
        by_cases hname : name = key <;> simp [hname, hkey]
      · rw [if_neg hkey, lookup_cons_ite, ih]
        by_cases hname : name = first
        · rw [if_pos hname, if_pos hname, if_neg (hname ▸ hkey)]
        · rw [if_neg hname, if_neg hname]

/-- Setting a field changes what is under its key and nothing else. -/
theorem lookup_setField (fields : Fields) (key name : String) (value : Json) :
    (setField fields key value).lookup name =
      if name = key then some value else fields.lookup name := by
  unfold setField
  split
  · next hsome =>
    obtain ⟨held, hheld⟩ := Option.isSome_iff_exists.mp hsome
    rw [lookup_replace]
    by_cases hname : name = key <;> simp [hname, hheld]
  · next hnone =>
    rw [List.lookup_append, lookup_cons_ite]
    by_cases hname : name = key
    · rw [hname, Option.not_isSome_iff_eq_none.mp hnone]
      simp
    · simp [hname]

theorem keys_setField (fields : Fields) (key : String) (value : Json) :
    (setField fields key value).map Prod.fst =
      if (fields.lookup key).isSome then fields.map Prod.fst else fields.map Prod.fst ++ [key] := by
  have hkeys :
      Prod.fst ∘ (fun field : String × Json => if field.1 = key then (key, value) else field) =
        Prod.fst := by
    funext field
    by_cases hkey : field.1 = key <;> simp [hkey]
  unfold setField
  split
  · rw [List.map_map, hkeys]
  · rw [List.map_append]
    rfl

theorem mem_keys_setField {other : String}
    (hmem : other ∈ (setField fields key value).map Prod.fst) :
    other = key ∨ other ∈ fields.map Prod.fst := by
  rw [keys_setField] at hmem
  split at hmem
  · exact .inr hmem
  · rw [List.mem_append, List.mem_singleton] at hmem
    exact hmem.symm

/-- Setting a field repeats no key. -/
theorem nodup_setField (hnodup : (fields.map Prod.fst).Nodup) :
    ((setField fields key value).map Prod.fst).Nodup := by
  rw [keys_setField]
  split
  · exact hnodup
  · next hnone =>
    have habsent := List.lookup_eq_none_iff.mp (Option.not_isSome_iff_eq_none.mp hnone)
    refine List.nodup_append.mpr ⟨hnodup, by simp, ?_⟩
    intro first hfirst last hlast
    obtain ⟨field, hfield, rfl⟩ := List.mem_map.mp hfirst
    cases List.mem_singleton.mp hlast
    exact (bne_iff_ne.mp (habsent field hfield)).symm

/-- Laying fields over others repeats no key either. -/
theorem nodup_overlay (hnodup : (below.map Prod.fst).Nodup) :
    ((overlay below above).map Prod.fst).Nodup := by
  induction above generalizing below with
  | nil => exact hnodup
  | cons field above ih =>
      rw [overlay]
      exact ih (nodup_setField hnodup)

/-- What lies on top counts, with what is below it where both have fields. -/
theorem lookup_overlay (hnodup : (above.map Prod.fst).Nodup) (name : String) :
    (overlay below above).lookup name =
      match above.lookup name with
      | none => below.lookup name
      | some value => some (overlayValue ((below.lookup name).getD .null) value) := by
  induction above generalizing below with
  | nil => rw [overlay]; rfl
  | cons field above ih =>
      obtain ⟨key, value⟩ := field
      obtain ⟨hkey, hrest⟩ := List.nodup_cons.mp hnodup
      rw [overlay, ih hrest, lookup_setField, lookup_cons_ite]
      by_cases hname : name = key
      · rw [if_pos hname, if_pos hname, hname, lookup_eq_none_of_not_mem hkey]
      · rw [if_neg hname, if_neg hname]

/-! ### Spellings of a name

Names of fields are compared without case, and a field that is given in several spellings is what
the last of them says. `spellings` keeps exactly those fields, and each way to make fields is
described by what it does to them.
-/

theorem toLower_toLower (c : Char) : c.toLower.toLower = c.toLower := by
  simp only [Char.toLower]
  split <;> grind [UInt32.toNat_add]

/-- Lower case has no capitals in it. -/
theorem lowerCase_of_subset (text : String) (hsubset : key.toList ⊆ (lowerCase text).toList) :
    lowerCase key = key := by
  have hlower : ∀ c ∈ key.toList, c.toLower = c := by
    intro c hc
    have hmem := hsubset hc
    rw [lowerCase, String.toList_map] at hmem
    obtain ⟨d, -, rfl⟩ := List.mem_map.mp hmem
    exact toLower_toLower d
  rw [← String.toList_inj, lowerCase, String.toList_map, List.map_congr_left hlower, List.map_id']

/-- The fields whose key is a name in some case. -/
def spellings (name : String) (fields : Fields) : Fields :=
  fields.filter fun field => lowerCase field.1 = name

def lastSpelling? (name : String) (fields : Fields) : Option (String × Json) :=
  (spellings name fields).getLast?

theorem spellings_cons (name : String) (field : String × Json) (fields : Fields) :
    spellings name (field :: fields) =
      if lowerCase field.1 = name then field :: spellings name fields
      else spellings name fields := by
  rw [spellings, List.filter_cons]
  simp only [decide_eq_true_eq]
  rfl

theorem lookup_spellings (hkey : lowerCase key = name) :
    (spellings name fields).lookup key = fields.lookup key := by
  induction fields with
  | nil => rfl
  | cons field fields ih =>
      rw [spellings_cons, lookup_cons_ite]
      split
      · rw [lookup_cons_ite, ih]
      · next hother =>
        have hne : key ≠ field.1 := fun hsame => hother (hsame ▸ hkey)
        rw [ih, if_neg hne]

theorem spellings_setField (name : String) (fields : Fields) (key : String) (value : Json) :
    spellings name (setField fields key value) =
      if lowerCase key = name then setField (spellings name fields) key value
      else spellings name fields := by
  have hkeys (field : String × Json) :
      (if field.1 = key then (key, value) else field).1 = field.1 := by
    by_cases hkey : field.1 = key <;> simp [hkey]
  have hreplace : spellings name
        (fields.map fun field => if field.1 = key then (key, value) else field) =
      (spellings name fields).map fun field => if field.1 = key then (key, value) else field := by
    rw [spellings, List.filter_map]
    simp only [Function.comp_def, hkeys]
    rfl
  split
  · next hkey =>
    rw [setField, setField, lookup_spellings hkey]
    split
    · exact hreplace
    · rw [spellings, List.filter_append]
      simp [hkey, spellings]
  · next hkey =>
    rw [setField]
    split
    · have hothers : ∀ field ∈ spellings name fields,
          (if field.1 = key then (key, value) else field) = field := by
        intro field hfield
        have hname := of_decide_eq_true (List.mem_filter.mp hfield).2
        exact if_neg fun hsame : field.1 = key => hkey (hsame ▸ hname)
      rw [hreplace, List.map_congr_left hothers, List.map_id']
    · rw [spellings, List.filter_append]
      simp [hkey, spellings]

/-- A new field is the last one, unless it takes the place of one that another one follows. -/
theorem getLast?_setField (fields : Fields) (key : String) (value : Json) :
    (setField fields key value).getLast? =
      match fields.getLast? with
      | none => some (key, value)
      | some last =>
          if last.1 ≠ key ∧ (fields.lookup key).isSome then some last else some (key, value) := by
  unfold setField
  split
  · next hsome =>
    rw [List.getLast?_map]
    cases hlast : fields.getLast? with
    | none =>
        rw [List.getLast?_eq_none_iff.mp hlast] at hsome
        cases hsome
    | some last => by_cases hkey : last.1 = key <;> simp [hkey, hsome]
  · next hnone =>
    rw [List.getLast?_concat]
    cases fields.getLast? <;> simp [hnone]

theorem lastSpelling?_concat (name : String) (fields : Fields) (field : String × Json) :
    lastSpelling? name (fields ++ [field]) =
      if lowerCase field.1 = name then some field else lastSpelling? name fields := by
  rw [lastSpelling?, spellings, List.filter_append, List.getLast?_append]
  by_cases hname : lowerCase field.1 = name <;> simp [hname, lastSpelling?, spellings]

section Named

variable {known : List String}

theorem nameFields_concat (known : List String) (fields : Fields) (field : String × Json) :
    nameFields known (fields ++ [field]) =
      setField (nameFields known fields)
        ((known.find? fun name => name = lowerCase field.1).getD field.1) field.2 := by
  rw [nameFields, List.foldl_append]
  rfl

/-- A key is that known name of which it is a spelling. -/
theorem known_name_eq_iff (hmem : name ∈ known) (hlower : lowerCase name = name) :
    name = (known.find? fun name => name = lowerCase key).getD key ↔ lowerCase key = name := by
  cases hfound : known.find? fun name => name = lowerCase key with
  | some found =>
      have hsame : found = lowerCase key := by simpa using List.find?_some hfound
      rw [Option.getD_some, hsame]
      exact eq_comm
  | none =>
      have hother : name ≠ lowerCase key := by
        simpa using List.find?_eq_none.mp hfound name hmem
      rw [Option.getD_none]
      refine iff_of_false ?_ hother.symm
      rintro rfl
      exact hother hlower.symm

/-- A known name is the key of one field. -/
theorem nodup_nameFields (known : List String) (fields : Fields) :
    ((nameFields known fields).map Prod.fst).Nodup := by
  induction fields using List.reverseRecOn with
  | nil => exact List.nodup_nil
  | append_singleton fields field ih =>
      rw [nameFields_concat]
      exact nodup_setField ih

/-- Of several spellings of a known name the last counts. -/
theorem lookup_nameFields (hmem : name ∈ known) (hlower : lowerCase name = name) (fields : Fields) :
    (nameFields known fields).lookup name = (lastSpelling? name fields).map Prod.snd := by
  induction fields using List.reverseRecOn with
  | nil => rfl
  | append_singleton fields field ih =>
      rw [nameFields_concat, lookup_setField, lastSpelling?_concat, ih]
      simp only [known_name_eq_iff hmem hlower]
      split <;> rfl

end Named

theorem spellings_overlay (hnodup : (above.map Prod.fst).Nodup)
    (hlower : ∀ field ∈ above, lowerCase field.1 = field.1) (name : String) :
    spellings name (overlay below above) =
      match above.lookup name with
      | none => spellings name below
      | some value =>
          setField (spellings name below) name
            (overlayValue ((below.lookup name).getD .null) value) := by
  induction above generalizing below with
  | nil => rw [overlay]; rfl
  | cons field above ih =>
      obtain ⟨key, value⟩ := field
      obtain ⟨hkey, hrest⟩ := List.nodup_cons.mp hnodup
      obtain ⟨hfirst, hothers⟩ := List.forall_mem_cons.mp hlower
      rw [overlay, ih hrest hothers, lookup_cons_ite, lookup_setField, spellings_setField, hfirst]
      by_cases hname : name = key
      · simp only [hname, if_true, lookup_eq_none_of_not_mem hkey]
      · rw [if_neg hname, if_neg hname, if_neg (Ne.symm hname)]

theorem splitName_ne_nil (text : List Char) : splitName text ≠ [] := by
  fun_cases splitName text <;> simp_all

/-- Nothing of a name is lost when it is split. -/
theorem intercalate_splitName (text : List Char) :
    ['_', '_'].intercalate (splitName text) = text := by
  fun_induction splitName text with
  | case1 => rfl
  | case2 c => rfl
  | case3 c d rest h ih =>
      obtain ⟨rfl, rfl⟩ := h
      obtain ⟨part, parts, hparts⟩ := List.exists_cons_of_ne_nil (splitName_ne_nil rest)
      rw [hparts] at ih ⊢
      rw [List.intercalate_cons_cons, ih]
      rfl
  | case4 c d rest h hnil ih => exact absurd hnil (splitName_ne_nil _)
  | case5 c d rest h part parts hsplit ih =>
      rw [hsplit] at ih
      cases parts with
      | nil => exact congrArg (c :: ·) ih
      | cons next parts =>
          rw [List.intercalate_cons_cons] at ih ⊢
          exact congrArg (c :: ·) ih

/-- The first part of a name starts it; what follows another part starts with an underscore each. -/
theorem splitName_cases {text part : List Char} {parts : List (List Char)}
    (hsplit : splitName text = part :: parts) :
    (parts = [] ∧ text = part) ∨ (parts ≠ [] ∧ part ++ ['_', '_'] <+: text) := by
  have hjoined := intercalate_splitName text
  rw [hsplit] at hjoined
  cases parts with
  | nil => exact .inl ⟨rfl, hjoined.symm.trans List.intercalate_singleton⟩
  | cons next parts =>
      rw [List.intercalate_cons_cons] at hjoined
      exact .inr ⟨nofun, ⟨_, hjoined⟩⟩

def ownVariable (field name : String) : String := variablePrefixed field ++ "__" ++ name

variable {field : String} {environment : Environment}

/-- A variable whose name does not start like those of the field's fields changes nothing; another
one sets a field or something inside of it. -/
theorem nestedFields_concat (field : String) (environment : Environment)
    (pair : String × String) :
    (nestedFields field (environment ++ [pair]) = nestedFields field environment ∧
        ¬(variablePrefixed field ++ "__").toList <+: (lowerCase pair.1).toList) ∨
      ∃ key path, nestedFields field (environment ++ [pair]) =
          placeText pair.2 (key :: path) (nestedFields field environment) ∧
        ((path = [] ∧ lowerCase pair.1 = ownVariable field key) ∨
          (path ≠ [] ∧ (ownVariable field key ++ "__").toList <+: (lowerCase pair.1).toList)) := by
  have hconcat : nestedFields field (environment ++ [pair]) =
      if (variablePrefixed field ++ "__").toList.isPrefixOf (lowerCase pair.1).toList then
        placeText pair.2 ((splitName ((lowerCase pair.1).toList.drop
          (variablePrefixed field ++ "__").toList.length)).map String.ofList)
          (nestedFields field environment)
      else nestedFields field environment := by
    rw [nestedFields, Environment.lowered, List.map_append, List.foldl_append]
    rfl
  rw [hconcat]
  split
  · next hprefix =>
    obtain ⟨rest, hrest⟩ := List.isPrefixOf_iff_prefix.mp hprefix
    obtain ⟨part, parts, hsplit⟩ := List.exists_cons_of_ne_nil (splitName_ne_nil rest)
    rw [← hrest, List.drop_left, hsplit]
    refine .inr ⟨String.ofList part, parts.map String.ofList, rfl, ?_⟩
    rcases splitName_cases hsplit with ⟨rfl, rfl⟩ | ⟨hne, hpart⟩
    · refine .inl ⟨rfl, String.toList_inj.mp ?_⟩
      simp [← hrest, ownVariable]
    · refine .inr ⟨by simpa using hne, ?_⟩
      simpa [ownVariable] using hpart
  · next hother => exact .inl ⟨rfl, fun hprefix => hother (List.isPrefixOf_iff_prefix.mpr hprefix)⟩

theorem value?_concat (environment : Environment) (pair : String × String) (name : String) :
    Environment.value? (environment ++ [pair]) name =
      if name = pair.1 then some pair.2 else environment.value? name := by
  rw [Environment.value?, List.reverse_append]
  exact lookup_cons_ite ..

theorem lowered_concat (environment : Environment) (pair : String × String) :
    Environment.lowered (environment ++ [pair]) =
      environment.lowered ++ [(lowerCase pair.1, pair.2)] := by
  rw [Environment.lowered, List.map_append]
  rfl

section Place

variable {text : String} {path : List String}

/-- A text that is placed below a field sets no other field. -/
theorem placeText_cases (text : String) (key : String) (path : List String) (fields : Fields) :
    placeText text (key :: path) fields = fields ∨
      ∃ value, placeText text (key :: path) fields = setField fields key value ∧
        (path = [] → value = .string text) ∧
        (path ≠ [] → ∀ held, fields.lookup key ≠ some (.string held)) := by
  cases path with
  | nil => exact .inr ⟨.string text, rfl, fun _ => rfl, fun hne => absurd rfl hne⟩
  | cons next path =>
      rw [placeText]
      split
      · next below hbelow =>
        refine .inr ⟨_, rfl, nofun, fun _ held hheld => ?_⟩
        rw [hheld] at hbelow
        cases hbelow
      · exact .inl rfl
      · exact nofun

theorem lookup_placeText_self (text key : String) (fields : Fields) :
    (placeText text [key] fields).lookup key = some (.string text) := by
  rw [placeText, lookup_setField, if_pos rfl]

/-- A text is placed under the first name of its path, and nothing else changes. -/
theorem lookup_placeText_of_ne (hne : name ≠ key) :
    (placeText text (key :: path) fields).lookup name = fields.lookup name := by
  rcases placeText_cases text key path fields with hsame | ⟨value, hset, -⟩
  · rw [hsame]
  · rw [hset, lookup_setField, if_neg hne]

/-- Nothing is placed inside of a text. -/
theorem lookup_placeText_of_string {held : String} (hheld : fields.lookup key = some (.string held))
    (hpath : path ≠ []) :
    (placeText text (key :: path) fields).lookup key = some (.string held) := by
  rcases placeText_cases text key path fields with hsame | ⟨value, -, -, hother⟩
  · rw [hsame, hheld]
  · exact absurd hheld (hother hpath held)

end Place

theorem nodup_nestedFields (field : String) (environment : Environment) :
    ((nestedFields field environment).map Prod.fst).Nodup := by
  induction environment using List.reverseRecOn with
  | nil => exact List.nodup_nil
  | append_singleton environment pair ih =>
      rcases nestedFields_concat field environment pair with ⟨hsame, -⟩ | ⟨key, path, hplace, -⟩
      · rw [hsame]
        exact ih
      · rw [hplace]
        rcases placeText_cases pair.2 key path (nestedFields field environment) with
          hsame | ⟨value, hset, -⟩
        · rw [hsame]
          exact ih
        · rw [hset]
          exact nodup_setField ih

theorem lowerCase_of_mem_nestedFields (hkey : key ∈ (nestedFields field environment).map Prod.fst) :
    lowerCase key = key := by
  induction environment using List.reverseRecOn with
  | nil => cases hkey
  | append_singleton environment pair ih =>
      rcases nestedFields_concat field environment pair with ⟨hsame, -⟩ |
        ⟨first, path, hplace, hname⟩
      · rw [hsame] at hkey
        exact ih hkey
      · rw [hplace] at hkey
        rcases placeText_cases pair.2 first path (nestedFields field environment) with
          hsame | ⟨value, hset, -⟩
        · rw [hsame] at hkey
          exact ih hkey
        · rw [hset] at hkey
          rcases mem_keys_setField hkey with rfl | hkey
          · have howned : key.toList ⊆ (ownVariable field key).toList := by
              rw [ownVariable, String.toList_append]
              exact List.subset_append_right ..
            refine lowerCase_of_subset pair.1 (List.Subset.trans howned ?_)
            rcases hname with ⟨-, hname⟩ | ⟨-, hname⟩
            · rw [hname]
              exact List.Subset.refl _
            · rw [String.toList_append] at hname
              exact List.Subset.trans (List.subset_append_left ..) hname.subset
          · exact ih hkey

/-- Different fields have different variables. -/
theorem ownVariable_inj {other : String}
    (hsame : ownVariable field name = ownVariable field other) :
    name = other := by
  have hchars := congrArg String.toList hsame
  simp only [ownVariable, String.toList_append, List.append_cancel_left_eq] at hchars
  exact String.toList_inj.mp hchars

/-- A field that has a variable of its own holds the text of it. -/
theorem lookup_nestedFields_of_own {text : String} (hplain : ¬['_', '_'] <:+: name.toList)
    (hown : environment.lowered.value? (ownVariable field name) = some text) :
    (nestedFields field environment).lookup name = some (.string text) := by
  induction environment using List.reverseRecOn with
  | nil => cases hown
  | append_singleton environment pair ih =>
      rw [lowered_concat, value?_concat] at hown
      rcases nestedFields_concat field environment pair with
        ⟨hsame, hother⟩ | ⟨key, path, hplace, ⟨rfl, hkey⟩ | ⟨hpath, hkey⟩⟩
      · have hne : ownVariable field name ≠ lowerCase pair.1 := by
          intro hsame
          rw [← hsame] at hother
          exact hother ⟨name.toList, by simp [ownVariable]⟩
        rw [if_neg hne] at hown
        rw [hsame, ih hown]
      · rw [hkey] at hown
        rw [hplace]
        by_cases hname : name = key
        · rw [if_pos (congrArg _ hname)] at hown
          rw [hname, lookup_placeText_self, Option.some.inj hown]
        · rw [if_neg fun hsame => hname (ownVariable_inj hsame)] at hown
          rw [lookup_placeText_of_ne hname, ih hown]
      · have hne : ownVariable field name ≠ lowerCase pair.1 := by
          intro hsame
          rw [← hsame] at hkey
          simp only [ownVariable, String.toList_append, List.append_assoc,
            List.prefix_append_right_inj] at hkey
          exact hplain ((List.suffix_append ..).isInfix.trans hkey.isInfix)
        rw [if_neg hne] at hown
        rw [hplace]
        by_cases hname : name = key
        · rw [← hname, lookup_placeText_of_string (ih hown) hpath]
        · rw [lookup_placeText_of_ne hname, ih hown]

/-- A field without variables has no value. -/
theorem lookup_nestedFields_of_none
    (hown : environment.lowered.value? (ownVariable field name) = none)
    (hinside : ∀ pair ∈ environment.lowered,
      ¬(ownVariable field name ++ "__").toList <+: pair.1.toList) :
    (nestedFields field environment).lookup name = none := by
  induction environment using List.reverseRecOn with
  | nil => rfl
  | append_singleton environment pair ih =>
      rw [lowered_concat, value?_concat] at hown
      rw [lowered_concat, List.forall_mem_append, List.forall_mem_singleton] at hinside
      obtain ⟨hinside, hpair⟩ := hinside
      by_cases hlast : ownVariable field name = lowerCase pair.1
      · rw [if_pos hlast] at hown
        cases hown
      rw [if_neg hlast] at hown
      rcases nestedFields_concat field environment pair with
        ⟨hsame, -⟩ | ⟨key, path, hplace, hkey⟩
      · rw [hsame, ih hown hinside]
      · have hname : name ≠ key := by
          rintro rfl
          rcases hkey with ⟨-, hkey⟩ | ⟨-, hkey⟩
          · exact hlast hkey.symm
          · exact hpair hkey
        rw [hplace, lookup_placeText_of_ne hname, ih hown hinside]

end ReverseProxy.Settings
