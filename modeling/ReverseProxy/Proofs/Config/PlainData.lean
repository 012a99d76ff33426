import ReverseProxy.Proofs.Config.Invariants

/-!
# Plain data of a bundle is valid

The plain data of a bundle whose addresses and names are canonical is validated as the bundle
itself: no field is missing, and none is read as anything else.
-/

namespace ReverseProxy

theorem Dictionary.foldl_insert {α : Type} (pairs : List (String × α)) (dictionary : Dictionary α)
    (hnodup : (dictionary.keys ++ pairs.map Prod.fst).Nodup) :
    (pairs.foldl (fun found pair => found.insert pair.1 pair.2) dictionary).entries =
      dictionary.entries ++ pairs := by
  induction pairs generalizing dictionary with
  | nil => exact (List.append_nil _).symm
  | cons pair pairs ih =>
      have hnew : pair.1 ∉ dictionary.keys := fun hmem =>
        (List.nodup_append.mp hnodup).2.2 _ hmem _ List.mem_cons_self rfl
      have hinsert : dictionary.insert pair.1 pair.2 = dictionary.push pair.1 pair.2 hnew :=
        dif_pos hnew
      rw [List.foldl_cons, hinsert, ih _ (by rw [keys_push]; simpa using hnodup), entries_push]
      simp

/-- Entries with different keys stay as they are. -/
theorem Dictionary.entries_ofList {α : Type} {pairs : List (String × α)}
    (hnodup : (pairs.map Prod.fst).Nodup) : (Dictionary.ofList pairs).entries = pairs :=
  foldl_insert pairs ∅ hnodup

theorem Dictionary.ofList_entries {α : Type} (dictionary : Dictionary α) :
    Dictionary.ofList dictionary.entries = dictionary :=
  eq_of_entries (entries_ofList dictionary.nodup)

namespace Validated

variable {α β : Type} {fields : List (String × Json)} {name : String} {value : Json} {result : α}

theorem map_eq_valid {f : α → β} {first : Validated α} (hfirst : first = .valid result) :
    f <$> first = .valid (f result) := by
  rw [hfirst]
  rfl

/-- A further field of a record. -/
theorem seq_eq_valid {first : Validated (α → β)} {second : Validated α} {f : α → β}
    (hfirst : first = .valid f) (hsecond : second = .valid result) :
    first <*> second = .valid (f result) := by
  rw [hfirst, hsecond]
  rfl

/-- A field that is there is validated like its value. -/
theorem required_eq_valid {validate : Json → Validated α} (hfield : fields.lookup name = some value)
    (hvalid : validate value = .valid result) :
    Validated.required fields name validate = .valid result := by
  simp only [Validated.required, hfield, hvalid, under]

theorem optional_eq_valid {default : α} {validate : Json → Validated α}
    (hfield : fields.lookup name = some value) (hvalid : validate value = .valid result) :
    Validated.optional fields name default validate = .valid result := by
  simp only [Validated.optional, hfield, hvalid, under]

section Written

variable {write : α → Json} {validate : Json → Validated α}

theorem items_map {values : List α}
    (hvalid : ∀ value ∈ values, validate (write value) = .valid value) (position : Nat) :
    items validate position (values.map write) = .valid values := by
  induction values generalizing position with
  | nil => rfl
  | cons value values ih =>
      obtain ⟨hvalue, hothers⟩ := List.forall_mem_cons.mp hvalid
      exact seq_eq_valid (map_eq_valid (by rw [hvalue, under])) (ih hothers (position + 1))

/-- A list of valid items is a valid list. -/
theorem list_ofList {values : List α}
    (hvalid : ∀ value ∈ values, validate (write value) = .valid value) :
    list validate (.ofList write values) = .valid values :=
  items_map hvalid 0

theorem values_map {entries : List (String × α)}
    (hvalid : ∀ entry ∈ entries, validate (write entry.2) = .valid entry.2) :
    values validate (entries.map fun (key, value) => (key, write value)) = .valid entries := by
  induction entries with
  | nil => rfl
  | cons entry entries ih =>
      obtain ⟨hentry, hothers⟩ := List.forall_mem_cons.mp hvalid
      exact seq_eq_valid (map_eq_valid (by rw [hentry, under, map])) (ih hothers)

/-- A dictionary of valid values is a valid dictionary. -/
theorem dictionary_ofDictionary {entries : Dictionary α}
    (hvalid : ∀ entry ∈ entries.entries, validate (write entry.2) = .valid entry.2) :
    dictionary validate (.ofDictionary write entries) = .valid entries := by
  simp only [Json.ofDictionary, dictionary, values_map hvalid, map, Dictionary.ofList_entries]

/-- A value that may be missing is valid if no value is written as null. -/
theorem nullable_ofOption {value : Option α} (hsome : ∀ value, write value ≠ .null)
    (hvalid : ∀ found ∈ value, validate (write found) = .valid found) :
    nullable validate (.ofOption write value) = .valid value := by
  cases value with
  | none => rfl
  | some value =>
      have hnullable : nullable validate (write value) = some <$> validate (write value) := by
        unfold nullable
        split
        · next hnull => exact absurd hnull (hsome value)
        · rfl
      rw [Json.ofOption, hnullable, map_eq_valid (hvalid value rfl)]

end Written

theorem string_text (text : String) : string (.string text) = .valid text := rfl

theorem nullable_string (text : Option String) :
    nullable string (.ofOption .string text) = .valid text :=
  nullable_ofOption (fun _ => nofun) fun _ _ => rfl

theorem dictionary_string (texts : Dictionary String) :
    dictionary string (.ofDictionary .string texts) = .valid texts :=
  dictionary_ofDictionary fun _ _ => rfl

/-- The text of a path is read as that path. -/
theorem path_text (path : Path) : Validated.path (.string path.text) = .valid path :=
  congrArg valid (Path.parse_text path)

theorem socketAddress_text (address : SocketAddress) :
    socketAddress (.string address.text) = .valid address := by
  simp only [socketAddress, SocketAddress.parse_text, ofExcept]

end Validated

namespace Config

open Validated

theorem Tls.validate_toJson (tls : Tls) : Tls.validate tls.toJson = .valid tls := by
  rw [validate, toJson, record]
  exact seq_eq_valid (map_eq_valid (required_eq_valid rfl (path_text tls.certificate)))
    (required_eq_valid rfl (path_text tls.key))

/-- The plain data of a listener is validated as that listener. -/
theorem Listener.validate_toJson (listener : Listener) :
    Listener.validate listener.toJson = .valid listener := by
  rw [validate, toJson, record]
  refine required_eq_valid rfl ?_
  have htls : nullable Tls.validate (.ofOption Tls.toJson listener.tls) = .valid listener.tls :=
    nullable_ofOption (fun _ => nofun) fun tls _ => tls.validate_toJson
  rw [record]
  exact seq_eq_valid
    (seq_eq_valid (map_eq_valid (required_eq_valid rfl (socketAddress_text listener.address)))
      (optional_eq_valid rfl htls))
    (optional_eq_valid rfl rfl)

theorem Listeners.validate_toJson (listeners : Listeners) :
    Listeners.validate listeners.toJson = .valid listeners := by
  rw [validate, toJson, record]
  exact map_eq_valid
    (optional_eq_valid rfl (list_ofList fun listener _ => listener.validate_toJson))

theorem Upstream.validate_toJson (upstream : Upstream) :
    Upstream.validate upstream.toJson = .valid upstream := by
  have hprotocol : choice (Protocol.all.map Protocol.name) Protocol.ofName?
      (.string upstream.protocol.name) = .valid upstream.protocol := by
    cases upstream.protocol <;> rfl
  rw [validate, toJson, record]
  exact seq_eq_valid
    (seq_eq_valid (map_eq_valid (required_eq_valid rfl (socketAddress_text upstream.address)))
      (optional_eq_valid rfl (nullable_string upstream.serverName)))
    (optional_eq_valid rfl hprotocol)

theorem LoadBalance.validate_toJson (balance : LoadBalance) :
    LoadBalance.validate balance.toJson = .valid balance := by
  have hselection : choice (Selection.all.map Selection.name) Selection.ofName?
      (.string balance.selection.name) = .valid balance.selection := by
    cases balance.selection <;> rfl
  rw [validate, toJson, record]
  exact seq_eq_valid (map_eq_valid (optional_eq_valid rfl hselection))
    (optional_eq_valid rfl (nullable_string balance.key))

/-- The plain data of connectors is validated as these connectors. -/
theorem Connectors.validate_toJson (connectors : Connectors) :
    Connectors.validate connectors.toJson = .valid connectors := by
  have hbalance : nullable LoadBalance.validate
      (.ofOption LoadBalance.toJson connectors.loadBalance) = .valid connectors.loadBalance :=
    nullable_ofOption (fun _ => nofun) fun balance _ => balance.validate_toJson
  rw [validate, toJson, record]
  exact seq_eq_valid
    (map_eq_valid (optional_eq_valid rfl (list_ofList fun upstream _ => upstream.validate_toJson)))
    (optional_eq_valid rfl hbalance)

theorem Service.validate_toJson (service : Service) :
    Service.validate service.toJson = .valid service := by
  rw [validate, toJson, record]
  exact seq_eq_valid
    (seq_eq_valid (map_eq_valid (required_eq_valid rfl (string_text _)))
      (required_eq_valid rfl service.listeners.validate_toJson))
    (required_eq_valid rfl service.connectors.validate_toJson)

/-- The name of a filter is validated by parsing it again. -/
theorem Filter.validate_toJson {filter : Filter}
    (hname : Fqdn.parse filter.name.text = .ok filter.name) :
    Filter.validate filter.toJson = .valid filter := by
  have hfqdn : fqdn (.string filter.name.text) = .valid filter.name := by
    simp only [fqdn, hname, Validated.ofExcept]
  rw [validate, toJson, record]
  exact seq_eq_valid (map_eq_valid (required_eq_valid rfl hfqdn))
    (optional_eq_valid rfl (dictionary_string filter.arguments))

theorem Chain.validate_toJson {chain : Chain}
    (hnames : ∀ filter ∈ chain.filters, Fqdn.parse filter.name.text = .ok filter.name) :
    Chain.validate chain.toJson = .valid chain := by
  rw [validate, toJson, record]
  exact map_eq_valid (optional_eq_valid rfl
    (list_ofList fun filter hfilter => Filter.validate_toJson (hnames filter hfilter)))

theorem HashAlgorithm.validate_toJson (algorithm : HashAlgorithm) :
    HashAlgorithm.validate algorithm.toJson = .valid algorithm := by
  rw [validate, toJson, record]
  exact seq_eq_valid (map_eq_valid (optional_eq_valid rfl (string_text _)))
    (optional_eq_valid rfl (nullable_string algorithm.seed))

theorem Transform.validate_toJson (transform : Transform) :
    Transform.validate transform.toJson = .valid transform := by
  rw [validate, toJson, record]
  exact seq_eq_valid (map_eq_valid (required_eq_valid rfl (string_text _)))
    (optional_eq_valid rfl (dictionary_string transform.parameters))

theorem KeyProfile.validate_toJson (profile : KeyProfile) :
    KeyProfile.validate profile.toJson = .valid profile := by
  have htransforms : list Transform.validate (.ofList Transform.toJson profile.transforms) =
      .valid profile.transforms := list_ofList fun transform _ => transform.validate_toJson
  rw [validate, toJson, record]
  exact seq_eq_valid
    (seq_eq_valid
      (seq_eq_valid (map_eq_valid (required_eq_valid rfl (string_text _)))
        (optional_eq_valid rfl (nullable_string profile.fallback)))
      (optional_eq_valid rfl profile.algorithm.validate_toJson))
    (optional_eq_valid rfl htransforms)

/-- The plain data of a canonical bundle is validated as that bundle. -/
theorem Bundle.validate_toJson {bundle : Bundle} (hcanonical : bundle.IsCanonical) :
    Bundle.validate bundle.toJson = .valid bundle := by
  have hservices : list Service.validate (.ofList Service.toJson bundle.services) =
      .valid bundle.services := list_ofList fun service _ => service.validate_toJson
  have hprofiles : dictionary KeyProfile.validate
      (.ofDictionary KeyProfile.toJson bundle.keyProfiles) = .valid bundle.keyProfiles :=
    dictionary_ofDictionary fun entry _ => entry.2.validate_toJson
  have hchains : dictionary Chain.validate (.ofDictionary Chain.toJson bundle.chains) =
      .valid bundle.chains :=
    dictionary_ofDictionary fun entry hentry => Chain.validate_toJson (hcanonical.2 entry hentry)
  rw [validate, toJson, record]
  exact seq_eq_valid
    (seq_eq_valid
      (seq_eq_valid (map_eq_valid (required_eq_valid rfl (string_text _)))
        (optional_eq_valid rfl hservices))
      (optional_eq_valid rfl hchains))
    (optional_eq_valid rfl hprofiles)

end Config

end ReverseProxy
