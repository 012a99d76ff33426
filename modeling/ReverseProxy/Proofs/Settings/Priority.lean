import ReverseProxy.CommandLine.Run
import ReverseProxy.Proofs.Config.PlainData
import ReverseProxy.Proofs.Outcome
import ReverseProxy.Proofs.Settings.Layers

/-!
# Which layer a setting comes from

A field of `source` comes from its own variable, or else from the JSON of the variable for all of
them, the settings file or its default. A flag comes from the options of the tool alone, which give
every flag, so that neither the environment nor the settings file is asked (`settingsOf_layers`).
-/

namespace ReverseProxy.Settings

open Validated

def sourceRecord (environment : Environment) : Fields :=
  match (environment.lowered.value? (variablePrefixed "source")).bind Json.parse? with
  | some (.object fields) => fields
  | _ => []

def sourceTable (file : Fields) : Fields :=
  match file.lookup "source" with
  | some (.object fields) => fields
  | _ => []

def ownValue? (environment : Environment) (name : String) : Option Json :=
  (environment.lowered.value? (ownVariable "source" name)).map .string

/-- What the layers give for a field of `source`, the first of which counts. -/
def sourceValues (environment : Environment) (file : Fields) (name : String) : List Json :=
  (ownValue? environment name).toList ++
    ((lastSpelling? name (sourceRecord environment)).map Prod.snd).toList ++
    ((sourceTable file).lookup name).toList

/-- What the JSON gives for a field of `source` that is in it under its name and, after that, in
another case. -/
def respelled? (environment : Environment) (name : String) : Option Json :=
  ((lastSpelling? name (sourceRecord environment)).filter fun field =>
    field.1 ≠ name ∧ ((sourceRecord environment).lookup name).isSome).map Prod.snd

/-- The value of a field: that of the first of several data, or its default. -/
def Chosen {α : Type} (validate : Json → Validated α) (default : α) (values : List Json)
    (value : α) :
    Prop :=
  match values with
  | [] => value = default
  | json :: _ => validate json = .valid value

/-- Each field of `source` is the first value that is given for it. A field that the JSON respells
is what it respells it to. -/
structure SourceRule (environment : Environment) (file : Fields) (source : SourceOptions) :
    Prop where
  extension : Chosen string ".kdl"
    ((respelled? environment "extension").toList ++ sourceValues environment file "extension")
    source.extension
  recursive : Chosen boolean false
    ((respelled? environment "recursive").toList ++ sourceValues environment file "recursive")
    source.recursive
  encoding : Chosen string "utf-8"
    ((respelled? environment "encoding").toList ++ sourceValues environment file "encoding")
    source.encoding

/-- The environment and a settings file give valid values, and no others. -/
structure GivenValues (environment : Environment) (file : Fields) : Prop where
  known : ∀ field ∈ file, field.1 ∈ "config_path" :: "source" :: flagNames
  table : ∀ value ∈ file.lookup "source", ∃ fields, value = .object fields
  record : ∀ text ∈ environment.lowered.value? (variablePrefixed "source"),
    ∃ fields, Json.parse? text = some (.object fields)
  /-- No variable gives fields to a field of `source`, which has none. -/
  inside : ∀ name ∈ sourceFieldNames, ownValue? environment name = none →
    ∀ pair ∈ environment.lowered, ¬(ownVariable "source" name ++ "__").toList <+: pair.1.toList
  extension : ∀ value ∈ sourceValues environment file "extension", ∃ text,
    string value = .valid text
  recursive : ∀ value ∈ sourceValues environment file "recursive",
    ∃ answer, boolean value = .valid answer
  encoding : ∀ value ∈ sourceValues environment file "encoding", ∃ text, string value = .valid text

variable {environment : Environment} {file : Fields} {name : String}

theorem mem_sourceValues_of_respelled {value : Json} (hmem : value ∈ respelled? environment name) :
    value ∈ sourceValues environment file name := by
  obtain ⟨last, hlast, rfl⟩ := Option.map_eq_some_iff.mp hmem
  rw [sourceValues, (Option.filter_eq_some_iff.mp hlast).1]
  simp

def sourceFields (environment : Environment) : Fields :=
  nameFields sourceFieldNames
    (overlay (sourceRecord environment) (nestedFields "source" environment))

theorem overlay_eq_append {below above : Fields} (hnodup : ((below ++ above).map Prod.fst).Nodup) :
    overlay below above = below ++ above := by
  induction above generalizing below with
  | nil => rw [overlay, List.append_nil]
  | cons field above ih =>
      obtain ⟨key, value⟩ := field
      have hkey : key ∉ below.map Prod.fst := by
        rw [List.map_append, List.nodup_append] at hnodup
        exact fun hmem => hnodup.2.2 key hmem key List.mem_cons_self rfl
      have hset : setField below key (overlayValue .null value) = below ++ [(key, value)] := by
        rw [setField, lookup_eq_none_of_not_mem hkey]
        cases value <;> rfl
      rw [overlay, lookup_eq_none_of_not_mem hkey, Option.getD_none, hset, ih, List.append_assoc]
      · rfl
      · rw [List.append_assoc]
        exact hnodup

/-- The layer of the environment has `source` in it, unless nothing is given for any field of it. -/
theorem recordField?_source (hvalid : GivenValues environment file) :
    ∃ record, recordField? "source" sourceFieldNames environment = some record ∧
      ((record = none ∧ sourceFields environment = []) ∨
        record = some (.object (sourceFields environment))) := by
  unfold recordField? sourceFields sourceRecord
  have hnested : overlay [] (nestedFields "source" environment) =
    nestedFields "source" environment :=
    overlay_eq_append (nodup_nestedFields "source" environment)
  cases hvalue : environment.lowered.value? (variablePrefixed "source") with
  | none =>
      refine ⟨_, rfl, ?_⟩
      rw [Option.bind_none, hnested]
      cases hempty : nestedFields "source" environment with
      | nil => exact .inl ⟨rfl, rfl⟩
      | cons field fields => exact .inr rfl
  | some text =>
      obtain ⟨fields, hparsed⟩ := hvalid.record text hvalue
      dsimp only
      rw [Option.bind_some, hparsed]
      exact ⟨_, rfl, .inr rfl⟩

theorem lowerCase_eq {text lower : String} (hlower : text.toList.map Char.toLower = lower.toList) :
    lowerCase text = lower := by
  rw [← String.toList_inj, lowerCase, String.toList_map]
  exact hlower

theorem plain_of_mem (hname : name ∈ sourceFieldNames) :
    lowerCase name = name ∧ ¬['_', '_'] <:+: name.toList := by
  have hplain : ∀ name ∈ sourceFieldNames,
      name.toList.map Char.toLower = name.toList ∧ ¬['_', '_'] <:+: name.toList := by
    decide +kernel
  exact ⟨lowerCase_eq (hplain name hname).1, (hplain name hname).2⟩

/-- What the environment gives for a field of `source`. -/
theorem lookup_sourceFields (hvalid : GivenValues environment file)
    (hname : name ∈ sourceFieldNames) :
    (sourceFields environment).lookup name =
      ((respelled? environment name).toList ++ (ownValue? environment name).toList ++
        ((lastSpelling? name (sourceRecord environment)).map Prod.snd).toList).head? := by
  obtain ⟨hlower, hplain⟩ := plain_of_mem hname
  have hnested : ∀ field ∈ nestedFields "source" environment, lowerCase field.1 = field.1 :=
    fun field hfield => lowerCase_of_mem_nestedFields (List.mem_map_of_mem hfield)
  rw [sourceFields, lookup_nameFields hname hlower, lastSpelling?,
    spellings_overlay (nodup_nestedFields "source" environment) hnested name]
  -- A variable of its own comes under the plain name, which the JSON may have respelled.
  cases hown : environment.lowered.value? (ownVariable "source" name) with
  | none =>
      have hvalue : ownValue? environment name = none := by rw [ownValue?, hown]; rfl
      rw [lookup_nestedFields_of_none hown (hvalid.inside name hname hvalue), hvalue]
      change (lastSpelling? name (sourceRecord environment)).map Prod.snd = _
      rw [respelled?]
      cases lastSpelling? name (sourceRecord environment) with
      | none => rfl
      | some last =>
          rw [Option.filter_some]
          split <;> rfl
  | some text =>
      have hvalue : ownValue? environment name = some (.string text) := by rw [ownValue?, hown]; rfl
      rw [lookup_nestedFields_of_own hplain hown, hvalue]
      dsimp only
      have hlast : (spellings name (sourceRecord environment)).getLast? =
          lastSpelling? name (sourceRecord environment) := rfl
      rw [getLast?_setField, lookup_spellings hlower, respelled?, hlast]
      cases lastSpelling? name (sourceRecord environment) with
      | none => rfl
      | some last =>
          rw [Option.filter_some]
          simp only [decide_eq_true_eq]
          split <;> rfl

/-- Only known names are fields of the environment. -/
theorem keys_textFields (names : List String) (environment : Environment) :
    ((textFields names environment).map Prod.fst).Sublist names := by
  induction names with
  | nil => exact List.Sublist.slnil
  | cons name names ih =>
      rw [textFields, List.filterMap_cons]
      cases environment.lowered.value? (variablePrefixed name) with
      | none => exact ih.cons name
      | some text => exact ih.cons_cons name

/-- The layer of the environment: texts for the other fields, and `source` if it is given. -/
theorem environmentFields_eq (hvalid : GivenValues environment file) :
    ∃ fields, environmentFields environment = .ok fields ∧ (fields.map Prod.fst).Nodup ∧
      (∀ field ∈ fields, field.1 ∈ "config_path" :: "source" :: flagNames) ∧
      ((fields.lookup "source" = none ∧ sourceFields environment = []) ∨
        fields.lookup "source" = some (.object (sourceFields environment))) := by
  obtain ⟨record, hrecord, hcases⟩ := recordField?_source hvalid
  have hsub := keys_textFields ("config_path" :: flagNames) environment
  have habsent : "source" ∉ (textFields ("config_path" :: flagNames) environment).map Prod.fst :=
    fun hmem => absurd (hsub.subset hmem) (by decide)
  refine ⟨textFields ("config_path" :: flagNames) environment ++
    record.toList.map fun value => ("source", value), ?_, ?_, ?_, ?_⟩
  · rw [environmentFields, hrecord]
  · rw [List.map_append, List.nodup_append]
    refine ⟨hsub.nodup (by decide), ?_, ?_⟩
    · cases record <;> simp
    · intro name hname other hother
      cases record with
      | none => cases hother
      | some value =>
          cases List.mem_singleton.mp hother
          rintro rfl
          exact habsent hname
  · intro field hfield
    rcases List.mem_append.mp hfield with hfield | hfield
    · have hname := hsub.subset (List.mem_map_of_mem hfield)
      rcases List.mem_cons.mp hname with hname | hname <;> simp [hname]
    · obtain ⟨value, -, rfl⟩ := List.mem_map.mp hfield
      simp
  · rw [List.lookup_append, lookup_eq_none_of_not_mem habsent]
    rcases hcases with ⟨rfl, hnone⟩ | rfl
    · exact .inl ⟨rfl, hnone⟩
    · exact .inr rfl

/-! ### All layers

The fields of `source` come from the JSON of one variable, from variables of their own and from a
settings file, which are merged field by field. What the merged table holds is the first of the
values that the layers give.
-/

theorem overlayValue_of_ne {value : Json} (hvalue : ∀ fields, value ≠ .object fields)
    (below : Json) :
    overlayValue below value = value := by
  cases value with
  | object fields => exact absurd rfl (hvalue fields)
  | _ => rfl

theorem mem_keys_overlay {below above : Fields} {key : String}
    (hmem : key ∈ (overlay below above).map Prod.fst) :
    key ∈ below.map Prod.fst ∨ key ∈ above.map Prod.fst := by
  induction above generalizing below with
  | nil =>
      rw [overlay] at hmem
      exact .inl hmem
  | cons field above ih =>
      rw [overlay] at hmem
      rw [List.map_cons, List.mem_cons]
      rcases ih hmem with hbelow | habove
      · exact (mem_keys_setField hbelow).symm.imp_right .inl
      · exact .inr (.inr habove)

/-- The fields of `source` when the environment lies over the settings file. -/
theorem lookup_source {above : Fields} (hvalid : GivenValues environment file)
    (hnodup : (above.map Prod.fst).Nodup)
    (habove : (above.lookup "source" = none ∧ sourceFields environment = []) ∨
      above.lookup "source" = some (.object (sourceFields environment))) :
    ∃ fields, ((overlay file above).lookup "source" = some (.object fields) ∨
        ((overlay file above).lookup "source" = none ∧ fields = [])) ∧
      ∀ name, fields.lookup name =
        match (sourceFields environment).lookup name with
        | none => (sourceTable file).lookup name
        | some value =>
          some (overlayValue (((sourceTable file).lookup name).getD .null) value) := by
  have hfields : ((sourceFields environment).map Prod.fst).Nodup := nodup_nameFields ..
  rw [lookup_overlay hnodup]
  refine ⟨overlay (sourceTable file) (sourceFields environment), ?_, lookup_overlay hfields⟩
  have htable := hvalid.table
  unfold sourceTable
  rcases habove with ⟨hnone, hempty⟩ | hsome
  · rw [hnone, hempty, overlay]
    cases hfile : file.lookup "source" with
    | none => exact .inr ⟨rfl, rfl⟩
    | some value =>
        obtain ⟨fields, rfl⟩ := htable value hfile
        exact .inl rfl
  · rw [hsome]
    cases hfile : file.lookup "source" with
    | none =>
        have hsame : overlay [] (sourceFields environment) = sourceFields environment :=
          overlay_eq_append hfields
        exact .inl (by rw [hsame]; rfl)
    | some value =>
        obtain ⟨fields, rfl⟩ := htable value hfile
        exact .inl (by simp only [Option.getD_some, overlayValue])

/-- Of all that is given for a field of `source`, the first counts. -/
theorem lookup_source_eq_head? {fields : Fields} (hvalid : GivenValues environment file)
    (hname : name ∈ sourceFieldNames)
    (hplain : ∀ value ∈ sourceValues environment file name, ∀ fields, value ≠ .object fields)
    (hlookup : fields.lookup name =
        match (sourceFields environment).lookup name with
        | none => (sourceTable file).lookup name
        | some value => some (overlayValue (((sourceTable file).lookup name).getD .null) value)) :
    fields.lookup name =
      ((respelled? environment name).toList ++ sourceValues environment file name).head? := by
  have hfirst := lookup_sourceFields hvalid hname
  rw [hlookup, sourceValues, ← List.append_assoc, ← List.append_assoc, List.head?_append, ← hfirst]
  cases hfound : (sourceFields environment).lookup name with
  | none => cases (sourceTable file).lookup name <;> rfl
  | some value =>
      rw [hfound] at hfirst
      have hmem := List.mem_of_head? hfirst.symm
      have hgiven : value ∈ sourceValues environment file name := by
        rw [List.append_assoc] at hmem
        rcases List.mem_append.mp hmem with hrespelled | hgiven
        · exact mem_sourceValues_of_respelled (Option.mem_toList.mp hrespelled)
        · exact List.mem_append_left _ hgiven
      dsimp only
      rw [overlayValue_of_ne (hplain value hgiven)]
      rfl

theorem optional_of_chosen {α : Type} {fields : Fields} {name : String} {default value : α}
    {validate : Json → Validated α} {values : List Json}
      (hlookup : fields.lookup name = values.head?)
    (hchosen : Chosen validate default values value) :
    Validated.optional fields name default validate = .valid value := by
  cases values with
  | nil =>
      rw [Validated.optional, hlookup]
      exact congrArg _ hchosen.symm
  | cons json values => exact optional_eq_valid hlookup hchosen

/-- Valid values, if there are any, give a choice. -/
theorem exists_chosen {α : Type} {validate : Json → Validated α} {values : List Json} (default : α)
    (hvalid : ∀ json ∈ values, ∃ value, validate json = .valid value) :
    ∃ value, Chosen validate default values value := by
  cases values with
  | nil => exact ⟨default, rfl⟩
  | cons json values => exact hvalid json List.mem_cons_self

/-- A field of `source` is valid if all that is given for it is, and the first of that counts. -/
theorem field_eq_valid {α : Type} {validate : Json → Validated α} {fields : Fields} (default : α)
    (hvalid : GivenValues environment file) (hname : name ∈ sourceFieldNames)
    (hobject : ∀ fields value, validate (.object fields) ≠ .valid value)
    (hvalues : ∀ json ∈ sourceValues environment file name, ∃ value, validate json = .valid value)
    (hlookup : fields.lookup name =
        match (sourceFields environment).lookup name with
        | none => (sourceTable file).lookup name
        | some value => some (overlayValue (((sourceTable file).lookup name).getD .null) value)) :
    ∃ value, Validated.optional fields name default validate = .valid value ∧
      Chosen validate default
        ((respelled? environment name).toList ++ sourceValues environment file name) value := by
  have hall : ∀ json ∈ (respelled? environment name).toList ++ sourceValues environment file name,
      ∃ value, validate json = .valid value := by
    intro json hjson
    rcases List.mem_append.mp hjson with hjson | hjson
    · exact hvalues json (mem_sourceValues_of_respelled (Option.mem_toList.mp hjson))
    · exact hvalues json hjson
  have hplain : ∀ json ∈ sourceValues environment file name, ∀ fields, json ≠ .object fields := by
    rintro json hjson fields rfl
    obtain ⟨value, hvalue⟩ := hvalues _ hjson
    exact hobject fields value hvalue
  obtain ⟨value, hchosen⟩ := exists_chosen default hall
  exact ⟨value, optional_of_chosen (lookup_source_eq_head? hvalid hname hplain hlookup) hchosen,
    hchosen⟩

/-- Valid layers make valid options for sources. -/
theorem source_eq_valid {above : Fields} (hvalid : GivenValues environment file)
    (hnodup : (above.map Prod.fst).Nodup)
    (habove : (above.lookup "source" = none ∧ sourceFields environment = []) ∨
      above.lookup "source" = some (.object (sourceFields environment))) :
    ∃ source : SourceOptions,
      Validated.optional (overlay file above) "source" .default validateSource = .valid source ∧
        SourceRule environment file source := by
  obtain ⟨fields, hsource, hlookup⟩ := lookup_source hvalid hnodup habove
  have hstring (fields : Fields) (text : String) : string (.object fields) ≠ .valid text := nofun
  have hboolean (fields : Fields) (answer : Bool) : boolean (.object fields) ≠ .valid answer :=
    nofun
  obtain ⟨extension, hextension, hextensionChosen⟩ :=
    field_eq_valid ".kdl" hvalid (by decide) hstring hvalid.extension (hlookup "extension")
  obtain ⟨recursive, hrecursive, hrecursiveChosen⟩ :=
    field_eq_valid false hvalid (by decide) hboolean hvalid.recursive (hlookup "recursive")
  obtain ⟨encoding, hencoding, hencodingChosen⟩ :=
    field_eq_valid "utf-8" hvalid (by decide) hstring hvalid.encoding (hlookup "encoding")
  refine ⟨⟨extension, recursive, encoding⟩, ?_, hextensionChosen, hrecursiveChosen, hencodingChosen⟩
  have hrecord : validateSource (.object fields) = .valid ⟨extension, recursive, encoding⟩ :=
    seq_eq_valid (seq_eq_valid (map_eq_valid hextension) hrecursive) hencoding
  rcases hsource with hsome | ⟨hnone, rfl⟩
  · exact optional_eq_valid hsome hrecord
  · rw [Validated.optional, hnone]
    exact hrecord

theorem checkExtra_eq_valid {fields : Fields}
    (hknown : ∀ key ∈ fields.map Prod.fst, key ∈ "config_path" :: "source" :: flagNames) :
    checkExtra fields = .valid () := by
  have hnone : (fields.filter fun field =>
      !("config_path" :: "source" :: flagNames).contains field.1) = [] := by
    rw [List.filter_eq_nil_iff]
    intro field hfield
    have hmem := hknown field.1 (List.mem_map_of_mem hfield)
    rw [List.contains_iff_mem.mpr hmem]
    decide
  unfold checkExtra
  dsimp only
  rw [hnone]

theorem validate_eq_valid {fields : Fields} {path : Option Path} {json quiet verbose logJson : Bool}
    {source : SourceOptions}
    (hpath : fields.lookup "config_path" =
      some (.ofOption (fun path => .string (Path.text path)) path))
    (hjson : fields.lookup "json_output" = some (.boolean json))
    (hquiet : fields.lookup "quiet" = some (.boolean quiet))
    (hverbose : fields.lookup "verbose" = some (.boolean verbose))
    (hlogJson : fields.lookup "log_json" = some (.boolean logJson))
    (hsource : Validated.optional fields "source" .default validateSource = .valid source)
    (hknown : ∀ key ∈ fields.map Prod.fst, key ∈ "config_path" :: "source" :: flagNames) :
    validate fields = .valid ⟨path, json, quiet, verbose, logJson, source⟩ := by
  have hnullable : nullable Validated.path (.ofOption (fun path => .string (Path.text path)) path) =
      .valid path := nullable_ofOption (fun _ => nofun) fun path _ => path_text path
  unfold validate
  refine seq_eq_valid (map_eq_valid ?_) (checkExtra_eq_valid hknown)
  refine seq_eq_valid (seq_eq_valid (seq_eq_valid (seq_eq_valid (seq_eq_valid (map_eq_valid ?_)
    ?_) ?_) ?_) ?_) hsource
  · exact optional_eq_valid hpath hnullable
  · exact optional_eq_valid hjson rfl
  · exact optional_eq_valid hquiet rfl
  · exact optional_eq_valid hverbose rfl
  · exact optional_eq_valid hlogJson rfl

end ReverseProxy.Settings

namespace ReverseProxy.CommandLine

open Settings Validated

/-! ### Flags

An option of the tool is passed on whether it was given or not. So a flag is what the option says,
and neither a variable nor a settings file can turn it on.
-/

inductive Flag where
  | json
  | quiet
  | verbose
  | logJson

namespace Flag

def name : Flag → String
  | json => "json_output"
  | quiet => "quiet"
  | verbose => "verbose"
  | logJson => "log_json"

def option : Flag → ToolOption
  | json => .json
  | quiet => .quiet
  | verbose => .verbose
  | logJson => .logJson

def value : Flag → Settings → Bool
  | json => Settings.json
  | quiet => Settings.quiet
  | verbose => Settings.verbose
  | logJson => Settings.logJson

end Flag

def flagValues (environment : Environment) (file : Fields) (flag : Flag) : List Json :=
  ((environment.lowered.value? (variablePrefixed flag.name)).map Json.string).toList ++
    (file.lookup flag.name).toList

/-- The value that a flag should have: true with its option, or else the one given for it. -/
def FlagRule (options : List ToolOption) (environment : Environment) (file : Fields) (flag : Flag)
    (value : Bool) : Prop :=
  if flag.option ∈ options then value = true
  else Chosen boolean false (flagValues environment file flag) value

/-- The fields of the settings file in use; there are none without one. -/
def fileInUse (files : Files.FileSystem) (environment : Environment) (options : List ToolOption) :
    Except Settings.Problem Fields :=
  match locate files environment (givenFile? options) none with
  | some path => fileFields files path
  | none => pure []

variable {files : Files.FileSystem} {environment : Environment} {options : List ToolOption}
  {file : Fields}

theorem validate_layers {fields : Fields} (hvalid : GivenValues environment file)
    (hfields : environmentFields environment = .ok fields) (options : List ToolOption)
    (path : Option Path) :
    ∃ settings : Settings,
      Settings.validate (overlay file (overlay fields
          (("config_path", .ofOption (fun path => .string (Path.text path)) path) ::
            givenFields options))) = .valid settings ∧
      (∀ flag : Flag, flag.value settings = options.contains flag.option) ∧
      SourceRule environment file settings.source := by
  obtain ⟨_, hsame, hnodup, hknown, hsource⟩ := environmentFields_eq hvalid
  rw [hfields] at hsame
  cases hsame
  generalize hgiven : ("config_path", Json.ofOption (fun path => .string (Path.text path)) path) ::
    givenFields options = given
  have hnames : given.map Prod.fst = "config_path" :: flagNames := by
    rw [← hgiven]
    rfl
  have hdistinct : (given.map Prod.fst).Nodup := by
    rw [hnames]
    decide
  have habove : ((overlay fields given).map Prod.fst).Nodup := nodup_overlay hnodup
  have hlookup {name : String} {value : Json} (hvalue : given.lookup name = some value)
      (hplain : ∀ fields, value ≠ .object fields) :
      (overlay file (overlay fields given)).lookup name = some value := by
    rw [lookup_overlay habove, lookup_overlay hdistinct, hvalue]
    simp only [overlayValue_of_ne hplain]
  have hflag {name : String} {value : Bool} (hvalue : given.lookup name = some (.boolean value)) :
      (overlay file (overlay fields given)).lookup name = some (.boolean value) :=
    hlookup hvalue fun _ => nofun
  have hkeys : ∀ key ∈ (overlay file (overlay fields given)).map Prod.fst,
      key ∈ "config_path" :: "source" :: flagNames := by
    intro key hkey
    rcases mem_keys_overlay hkey with hfile | hkey
    · obtain ⟨field, hfield, rfl⟩ := List.mem_map.mp hfile
      exact hvalid.known field hfield
    · rcases mem_keys_overlay hkey with hfields | hgiven
      · obtain ⟨field, hfield, rfl⟩ := List.mem_map.mp hfields
        exact hknown field hfield
      · rw [hnames] at hgiven
        rcases List.mem_cons.mp hgiven with rfl | hflag <;> simp [*]
  obtain ⟨source, hoptional, hlayers⟩ := source_eq_valid hvalid habove (by
    rw [lookup_overlay hdistinct, ← hgiven]
    exact hsource)
  subst hgiven
  have hsettings := validate_eq_valid (hlookup rfl (by cases path <;> exact fun _ => nofun))
    (hflag rfl) (hflag rfl) (hflag rfl) (hflag rfl) hoptional hkeys
  exact ⟨_, hsettings, fun flag => by cases flag <;> rfl, hlayers⟩

/-- Valid layers make settings, each flag of which is given by its option alone. -/
theorem exists_settings (hfile : fileInUse files environment options = .ok file)
    (hvalid : GivenValues environment file) :
    ∃ settings, settingsOf files environment options = .ok settings ∧
      (∀ flag : Flag, flag.value settings = options.contains flag.option) ∧
      SourceRule environment file settings.source := by
  obtain ⟨fields, hfields, -⟩ := environmentFields_eq hvalid
  obtain ⟨settings, hsettings, hrules⟩ := validate_layers hvalid hfields options
    (locate files environment (givenFile? options) none)
  refine ⟨settings, ?_, hrules⟩
  unfold settingsOf Settings.load
  unfold fileInUse at hfile
  cases hpath : locate files environment (givenFile? options) none with
  | none =>
      rw [hpath] at hfile hsettings
      cases hfile
      simp only [hfields, pure_bind, ok_bind, hsettings]
      rfl
  | some path =>
      rw [hpath] at hfile hsettings
      simp only at hfile
      simp only [hfile, hfields, ok_bind, hsettings]
      rfl

/-- **Which layer a setting comes from.** If the settings file in use can be read and all values in
it and in the environment are valid, there are settings for any options. Each field of `source`
comes from its own variable, or else from the JSON of the variable for all of them, the settings
file or its default; only if the JSON has the field under its name and again in another case, it
comes from the latter. Each flag tells whether its option was given. So a flag has the value that it
should have if its option was given or if false is what the environment and the settings file give
for it, and otherwise it has not. -/
theorem settingsOf_layers (hfile : fileInUse files environment options = .ok file)
    (hvalid : GivenValues environment file) :
    ∃ settings, settingsOf files environment options = .ok settings ∧
      (∀ flag : Flag, flag.value settings = options.contains flag.option ∧
        (FlagRule options environment file flag (flag.value settings) ↔
          flag.option ∈ options ∨ Chosen boolean false (flagValues environment file flag) false)) ∧
      SourceRule environment file settings.source := by
  obtain ⟨settings, hsettings, hflags, hsource⟩ := exists_settings hfile hvalid
  refine ⟨settings, hsettings, fun flag => ⟨hflags flag, ?_⟩, hsource⟩
  rw [hflags, FlagRule]
  by_cases hoption : flag.option ∈ options <;> simp [hoption]

/-- An option, two variables for fields of `source` and a settings file. -/
theorem settingsOf_layers_mixed :
    let files : Files.FileSystem := ⟨.directory [("proxyconf.toml", .file
      ("source.encoding = 'ascii'".toList.map fun c => c.toNat.toUInt8))], []⟩
    let environment : Environment := [("PROXYCONF_SOURCE", "\x7b\"Recursive\": true\x7d"),
      ("PROXYCONF_SOURCE__EXTENSION", ".conf"), ("PROXYCONF_QUIET", "no")]
    ∃ settings, settingsOf files environment [.json] = .ok settings ∧ settings.json = true ∧
      settings.quiet = false ∧ settings.source = ⟨".conf", true, "ascii"⟩ := by
  intro files environment
  let file : Fields := [("source", .object [("encoding", .string "ascii")])]
  have hfile : fileInUse files environment [.json] = .ok file := by cbv
  have hlowered : environment.lowered = [("proxyconf_source", "\x7b\"Recursive\": true\x7d"),
      ("proxyconf_source__extension", ".conf"), ("proxyconf_quiet", "no")] := by
    have hsource : lowerCase "PROXYCONF_SOURCE" = "proxyconf_source" :=
      lowerCase_eq (by decide +kernel)
    have hextension : lowerCase "PROXYCONF_SOURCE__EXTENSION" = "proxyconf_source__extension" :=
      lowerCase_eq (by decide +kernel)
    have hquiet : lowerCase "PROXYCONF_QUIET" = "proxyconf_quiet" :=
      lowerCase_eq (by decide +kernel)
    simp only [environment, Environment.lowered, List.map_cons, List.map_nil, hsource, hextension,
      hquiet]
  have hparsed : Json.parse? "\x7b\"Recursive\": true\x7d" =
      some (.object [("Recursive", .boolean true)]) := by cbv
  have hvalue : environment.lowered.value? (variablePrefixed "source") =
      some "\x7b\"Recursive\": true\x7d" := by
    rw [hlowered]
    rfl
  have hrecord : sourceRecord environment = [("Recursive", .boolean true)] := by
    rw [sourceRecord, hvalue, Option.bind_some, hparsed]
  have hspelled : lowerCase "Recursive" = "recursive" := lowerCase_eq (by decide +kernel)
  have hextension : sourceValues environment file "extension" = [.string ".conf"] := by
    rw [sourceValues, ownValue?, hlowered, hrecord, lastSpelling?, spellings_cons, hspelled]
    rfl
  have hrecursive : sourceValues environment file "recursive" = [.boolean true] := by
    rw [sourceValues, ownValue?, hlowered, hrecord, lastSpelling?, spellings_cons, hspelled]
    rfl
  have hencoding : sourceValues environment file "encoding" = [.string "ascii"] := by
    rw [sourceValues, ownValue?, hlowered, hrecord, lastSpelling?, spellings_cons, hspelled]
    rfl
  have hvalid : GivenValues environment file := by
    constructor
    · decide
    · rintro value ⟨⟩
      exact ⟨_, rfl⟩
    · intro text htext
      rw [hvalue] at htext
      cases htext
      exact ⟨_, hparsed⟩
    · intro name hname _ pair hpair
      rw [hlowered] at hpair
      revert pair
      revert name
      decide +kernel
    · rw [hextension]
      exact List.forall_mem_singleton.mpr ⟨_, rfl⟩
    · rw [hrecursive]
      exact List.forall_mem_singleton.mpr ⟨_, rfl⟩
    · rw [hencoding]
      exact List.forall_mem_singleton.mpr ⟨_, rfl⟩
  obtain ⟨settings, hsettings, hflags, hsource⟩ := settingsOf_layers hfile hvalid
  refine ⟨settings, hsettings, (hflags .json).1, (hflags .quiet).1, ?_⟩
  have hnone {name : String} (hname : (sourceRecord environment).lookup name = none) :
      respelled? environment name = none := by
    rw [respelled?, hname]
    cases lastSpelling? name (sourceRecord environment) <;> simp
  generalize settings.source = source at hsource
  obtain ⟨extension, recursive, encoding⟩ := source
  obtain ⟨hfirst, hsecond, hthird⟩ := hsource
  rw [hnone (by rw [hrecord]; rfl), hextension] at hfirst
  rw [hnone (by rw [hrecord]; rfl), hrecursive] at hsecond
  rw [hnone (by rw [hrecord]; rfl), hencoding] at hthird
  cases hfirst
  cases hsecond
  cases hthird
  rfl

/-- A variable for a flag whose option is not given has no effect. -/
theorem settingsOf_ignores_variable :
    let files : Files.FileSystem := ⟨.directory [], []⟩
    let environment : Environment := [("PROXYCONF_QUIET", "true")]
    ∃ settings, settingsOf files environment [] = .ok settings ∧ settings.quiet = false ∧
      ¬FlagRule [] environment [] .quiet settings.quiet := by
  intro files environment
  have hfile : fileInUse files environment [] = .ok [] := by
    have hnone : locate files environment (givenFile? []) none = none := by decide +kernel
    rw [fileInUse, hnone]
    rfl
  have hlowered : environment.lowered = [("proxyconf_quiet", "true")] := by
    have hlower : lowerCase "PROXYCONF_QUIET" = "proxyconf_quiet" :=
      lowerCase_eq (by decide +kernel)
    change [(lowerCase "PROXYCONF_QUIET", "true")] = _
    rw [hlower]
  have hrecord : environment.lowered.value? (variablePrefixed "source") = none := by
    rw [hlowered]
    rfl
  have hvalues : ∀ name ∈ sourceFieldNames, sourceValues environment [] name = [] := by
    intro name hname
    have hown : ∀ name ∈ sourceFieldNames,
        Environment.value? [("proxyconf_quiet", "true")] (ownVariable "source" name) = none := by
      decide +kernel
    rw [sourceValues, ownValue?, sourceRecord, hrecord, hlowered, hown name hname]
    rfl
  have hvalid : GivenValues environment [] := by
    constructor
    · nofun
    · nofun
    · intro text htext
      rw [hrecord] at htext
      cases htext
    · intro name hname _ pair hpair
      rw [hlowered] at hpair
      revert pair
      revert name
      decide +kernel
    · rw [hvalues "extension" (by decide)]
      nofun
    · rw [hvalues "recursive" (by decide)]
      nofun
    · rw [hvalues "encoding" (by decide)]
      nofun
  obtain ⟨settings, hsettings, hflags, -⟩ := exists_settings hfile hvalid
  have hoff : settings.quiet = false := hflags .quiet
  refine ⟨settings, hsettings, hoff, ?_⟩
  have hquiet : flagValues environment [] .quiet = [.string "true"] := by
    rw [flagValues, hlowered]
    rfl
  have htrue : boolean (.string "true") = .valid true := by
    have hlower : lowerCase "true" = "true" := lowerCase_eq (by decide +kernel)
    change ofWord (booleanWords.lookup (lowerCase "true")) = _
    rw [hlower]
    rfl
  rw [FlagRule, if_neg List.not_mem_nil, hquiet, Chosen, htrue, hoff]
  nofun

end ReverseProxy.CommandLine
