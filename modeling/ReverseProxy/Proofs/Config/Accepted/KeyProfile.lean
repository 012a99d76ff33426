import ReverseProxy.Proofs.Config.Accepted.Chain
import ReverseProxy.Proofs.Config.KeyProfile

/-!
# Which blocks are key profiles

A block is read as a profile exactly if it has one directive for the key and at most one for the
algorithm and for the order of the transforms, each in order. The template of the key is its first
entry whether or not it has a key, and only what is behind it is searched for the fallback; entries
without a key are passed over everywhere. So not every profile uses all that was written for it.
-/

namespace ReverseProxy.Config

open Kdl Schema

namespace HashAlgorithm

structure IsReadFrom (node : Node) (algorithm : HashAlgorithm) : Prop where
  keys : ∀ entry ∈ node.entries, ∀ key ∈ entry.key, key = "name" ∨ key = "seed"
  name : ∃ name, Focus.SaysFirst node.entries "name" name ∧
    algorithm.name = name.getD defaultName
  seed : Focus.SaysFirst node.entries "seed" algorithm.seed

/-- An algorithm is read as the first values of its keys. -/
theorem read_iff {node : Node} {algorithm : HashAlgorithm} :
    HashAlgorithm.read (.node node) = .ok algorithm ↔ IsReadFrom node algorithm := by
  have hread (texts : Dictionary String) :
      (Focus.node node).allowedTexts 0 none ["name", "seed"] = .ok texts ↔
        Focus.collectTexts node.entries ∅ = .ok texts ∧
          ∀ entry ∈ node.entries, ∀ key ∈ entry.key, key = "name" ∨ key = "seed" := by
    simpa using Focus.allowedTexts_eq_ok node 0 ["name", "seed"] texts
  rw [HashAlgorithm.read, bind_eq_ok]
  simp only [hread, pure_eq_ok]
  constructor
  · rintro ⟨texts, ⟨htexts, hkeys⟩, ⟨⟩⟩
    have hfirsts := Focus.saysFirst_of_collectTexts htexts
    exact ⟨hkeys, ⟨texts.get? "name", hfirsts "name", rfl⟩, hfirsts "seed"⟩
  · rintro ⟨hkeys, ⟨name, hname, hsame⟩, hseed⟩
    obtain ⟨texts, htexts⟩ := Focus.exists_collectTexts_of_saysFirst fun entry hentry key hkey => by
      rcases hkeys entry hentry key hkey with rfl | rfl
      · exact ⟨name, hname⟩
      · exact ⟨algorithm.seed, hseed⟩
    have hfirsts := Focus.saysFirst_of_collectTexts htexts
    refine ⟨texts, ⟨htexts, hkeys⟩, ?_⟩
    rw [(hfirsts "name").unique hname, (hfirsts "seed").unique hseed, ← hsame]

/-- All entries are used exactly if each of them has a key. -/
theorem IsReadFrom.named_iff {node : Node} {algorithm : HashAlgorithm}
    (hread : IsReadFrom node algorithm) :
    (∀ entry ∈ node.entries, entry.key = some "name" ∨ entry.key = some "seed") ↔
      ∀ entry ∈ node.entries, entry.key ≠ none := by
  refine forall₂_congr fun entry hentry => ?_
  cases hkey : entry.key with
  | none => simp
  | some key => simpa using hread.keys entry hentry key hkey

end HashAlgorithm

namespace Transform

/-- The transform has the name of the node and the keys of its entries, each with the text of its
first value. -/
structure IsReadFrom (node : Node) (transform : Transform) : Prop where
  name : transform.name = node.name
  keys : transform.parameters.keys = node.firstKeys
  parameters : ∀ pair ∈ transform.parameters.entries, ∃ value,
    node.value? pair.1 = some value ∧ value.plainText = .ok (some pair.2)

/-- A transform is read as its name and the text of each of its keys. -/
theorem read_iff {node : Node} {transform : Transform} :
    Transform.read node = .ok transform ↔ IsReadFrom node transform := by
  rw [Transform.read, bind_eq_ok]
  simp only [Focus.texts_eq_ok, pure_eq_ok]
  constructor
  · rintro ⟨texts, ⟨hkeys, hall⟩, ⟨⟩⟩
    exact ⟨rfl, hkeys, hall⟩
  · rintro ⟨hname, hkeys, hall⟩
    exact ⟨transform.parameters, ⟨hkeys, hall⟩, by rw [← hname]⟩

theorem IsReadFrom.named_iff {node : Node} {transform : Transform}
    (hread : IsReadFrom node transform) :
    (∀ entry ∈ node.entries, ∃ key ∈ transform.parameters.keys, entry.key = some key) ↔
      ∀ entry ∈ node.entries, entry.key ≠ none := by
  refine forall₂_congr fun entry hentry => ?_
  cases hkey : entry.key with
  | none => simp
  | some key =>
      have hmem : key ∈ transform.parameters.keys :=
        hread.keys ▸ Node.mem_firstKeys.mpr ⟨entry, hentry, hkey⟩
      simpa using hmem

/-- Every node of the block is a transform. -/
theorem readAll_iff {node : Node} {transforms : List Transform} :
    Transform.readAll (.node node) = .ok transforms ↔
      ∃ block, node.children = some block ∧
        List.Forall₂ IsReadFrom block.nodes transforms := by
  rw [Transform.readAll]
  cases hchildren : node.children with
  | none => simp [Focus.children, hchildren, Focus.reject, reject]
  | some block =>
      simp only [Focus.children, hchildren, ok_bind, mapM_eq_ok, read_iff, Option.some.injEq,
        exists_eq_left']

end Transform

theorem ofFocus_eq_ok {focus : Focus} {claims : Claims} :
    Claims.ofFocus focus = .ok claims ↔
      ∃ block, focus.block? = some block ∧ claims = ⟨.document block, block.nodes, false⟩ := by
  cases focus with
  | document block => simp [Claims.ofFocus_document, Focus.block?]
  | node parent => exact Claims.ofFocus_node

namespace KeyProfile

/-- The template is the first entry, and behind it there are no keys but that of the fallback. -/
structure ReadsKey (node : Node) (source : String) (fallback : Option String)
    (first : Entry) (options : List Entry) : Prop where
  entries : node.entries = first :: options
  source : first.value = .string source
  keys : ∀ entry ∈ options, ∀ key ∈ entry.key, key = "fallback"
  fallback : Focus.SaysFirst options "fallback" fallback

/-- The key of a profile is read from its first entry and the options behind it. -/
theorem readKey_iff {node : Node} {source : String} {fallback : Option String} :
    KeyProfile.readKey (.node node) = .ok (source, fallback) ↔
      ∃ first options, ReadsKey node source fallback first options := by
  cases hentries : node.entries with
  | nil =>
      refine iff_of_false (fun hread => ?_) fun ⟨_, _, hkey⟩ => ?_
      · simp [KeyProfile.readKey, Focus.firstEntry, Focus.entries_node, hentries, Focus.reject,
          Schema.reject] at hread
      · cases hentries.symm.trans hkey.entries
  | cons first options =>
      have hfirst : (Focus.node node).firstEntry = .ok first := by
        simp [Focus.firstEntry, Focus.entries_node, hentries]
      have hread (texts : Dictionary String) :
          (Focus.node node).allowedTexts 1 none ["fallback"] = .ok texts ↔
            Focus.collectTexts options ∅ = .ok texts ∧
              ∀ entry ∈ options, ∀ key ∈ entry.key, key = "fallback" := by
        have hdrop : node.entries.drop 1 = options := by
          rw [hentries, List.drop_one, List.tail_cons]
        have hlength : 1 ≤ node.entries.length := by simp [hentries]
        simpa [hdrop, hlength] using Focus.allowedTexts_eq_ok node 1 ["fallback"] texts
      rw [KeyProfile.readKey]
      simp only [hfirst, ok_bind, bind_eq_ok, Entry.readsString.eq_ok_iff, hread, pure_eq_ok]
      constructor
      · rintro ⟨_, hsource, texts, ⟨htexts, hkeys⟩, ⟨⟩⟩
        exact ⟨first, options, hentries, hsource, hkeys, Focus.saysFirst_of_collectTexts htexts _⟩
      · rintro ⟨_, _, hsame, hsource, hkeys, hfallback⟩
        obtain ⟨rfl, rfl⟩ := List.cons.inj (hentries.symm.trans hsame)
        obtain ⟨texts, htexts⟩ := Focus.exists_collectTexts_of_saysFirst
          fun entry hentry key hkey => ⟨fallback, hkeys entry hentry key hkey ▸ hfallback⟩
        have hfirsts := Focus.saysFirst_of_collectTexts htexts "fallback"
        exact ⟨source, hsource, texts, ⟨htexts, hkeys⟩, by rw [hfirsts.unique hfallback]⟩

structure Directives (nodes : List Node) where
  key : Node
  algorithm : Option Node
  order : Option Node
  key_eq : nodesNamed "key" nodes = [key]
  algorithm_eq : nodesNamed "algorithm" nodes = algorithm.toList
  order_eq : nodesNamed "transforms-order" nodes = order.toList
  names : ∀ node ∈ nodes, node.name ∈ ["key", "algorithm", "transforms-order"]

namespace Directives

variable {nodes : List Node}

def steps (directives : Directives nodes) : List Node :=
  ((directives.order.bind Node.children).map Block.nodes).getD []

/-- What the three directives of a profile take is every node of its block. -/
theorem takesAll_iff {key : Node} {algorithm order : Option Node} :
    Claims.TakesAll [("key", some key), ("algorithm", algorithm), ("transforms-order", order)]
        nodes ↔
      ∃ directives : Directives nodes, directives.key = key ∧ directives.algorithm = algorithm ∧
        directives.order = order := by
  rw [Claims.takesAll_iff (by simp)]
  simp only [List.forall_mem_cons]
  constructor
  · rintro ⟨⟨hkey, halgorithm, horder, -⟩, hnames⟩
    exact ⟨⟨key, algorithm, order, hkey, halgorithm, horder, hnames⟩, rfl, rfl, rfl⟩
  · rintro ⟨directives, rfl, rfl, rfl⟩
    exact ⟨⟨directives.key_eq, directives.algorithm_eq, directives.order_eq,
      List.forall_mem_nil _⟩, directives.names⟩

variable {directives : Directives nodes} {profile : KeyProfile}

structure IsReadAs (directives : Directives nodes) (profile : KeyProfile) : Prop where
  key : ∃ first options, ReadsKey directives.key profile.source profile.fallback first options
  algorithm : ∃ algorithm : Option HashAlgorithm,
    Option.Rel HashAlgorithm.IsReadFrom directives.algorithm algorithm ∧
      profile.algorithm = algorithm.getD .default
  block : ∀ node ∈ directives.order, node.children ≠ none
  transforms : List.Forall₂ Transform.IsReadFrom directives.steps profile.transforms

/-- The transforms are those of the steps, of which there are none without an order. -/
theorem forall₂_steps_iff {transforms : List Transform} :
    (∃ found : Option (List Transform),
        Option.Rel (fun node found => ∃ block, node.children = some block ∧
          List.Forall₂ Transform.IsReadFrom block.nodes found) directives.order found ∧
        transforms = found.getD []) ↔
      (∀ node ∈ directives.order, node.children ≠ none) ∧
        List.Forall₂ Transform.IsReadFrom directives.steps transforms := by
  unfold steps
  cases directives.order with
  | none =>
      constructor
      · rintro ⟨_, ⟨⟩, rfl⟩
        exact ⟨nofun, .nil⟩
      · rintro ⟨-, hall⟩
        exact ⟨none, .none, List.forall₂_nil_left_iff.mp hall⟩
  | some node =>
      constructor
      · rintro ⟨_, ⟨block, hblock, hall⟩, rfl⟩
        refine ⟨?_, by simpa [hblock] using hall⟩
        rintro _ ⟨⟩ hnone
        cases hblock.symm.trans hnone
      · rintro ⟨hblocks, hall⟩
        obtain ⟨block, hblock⟩ := Option.ne_none_iff_exists'.mp (hblocks node rfl)
        rw [Option.bind_some, hblock] at hall
        exact ⟨some transforms, .some ⟨block, hblock, hall⟩, rfl⟩

end Directives

/-- A profile is read from the directives that its block splits into. -/
theorem read_iff {focus : Focus} {profile : KeyProfile} :
    (KeyProfile.read focus).result = .ok profile ↔
      ∃ block, focus.block? = some block ∧
        ∃ directives : Directives block.nodes, directives.IsReadAs profile := by
  rw [KeyProfile.read]
  simp only [bind_eq_ok, Claiming.result_run, ofFocus_eq_ok, Claiming.outcome_bind]
  constructor
  · rintro ⟨_, left, ⟨block, hblock, rfl⟩, ⟨⟨source, fallback⟩, _⟩, hstep₁, ⟨algorithm, _⟩, hstep₂,
      ⟨transforms, _⟩, hstep₃, ⟨⟨⟩, _⟩, hfinish, hdone⟩
    obtain ⟨key, others, hkey, hreadKey, rfl⟩ := (Claiming.required_eq_ok rfl).mp hstep₁
    obtain ⟨node, rest, halgorithm, hreadAlgorithm, rfl⟩ :=
      (Claiming.optional_eq_ok rfl).mp hstep₂
    obtain ⟨order, last, horder, hreadAll, rfl⟩ := (Claiming.optional_eq_ok rfl).mp hstep₃
    obtain ⟨hlast, -⟩ := (Claiming.finish_eq_ok rfl).mp hfinish
    obtain rfl : last = [] := hlast
    cases hdone
    obtain ⟨directives, rfl, rfl, rfl⟩ :=
      Directives.takesAll_iff.mp (.step (.first hkey) (.step halgorithm (.step horder .done)))
    simp only [Logged.result_lift, readKey_iff, HashAlgorithm.read_iff, Transform.readAll_iff]
      at hreadKey hreadAlgorithm hreadAll
    obtain ⟨hblocks, hall⟩ := Directives.forall₂_steps_iff.mp ⟨transforms, hreadAll, rfl⟩
    exact ⟨block, hblock, directives, hreadKey, ⟨algorithm, hreadAlgorithm, rfl⟩, hblocks, hall⟩
  · rintro ⟨block, hblock, directives, hreadKey, ⟨algorithm, hreadAlgorithm, hsame⟩, hblocks, hall⟩
    obtain _ | ⟨_ | hkey, _ | ⟨halgorithm, _ | ⟨horder, ⟨⟩⟩⟩⟩ :=
      Directives.takesAll_iff.mpr ⟨directives, rfl, rfl, rfl⟩
    obtain ⟨transforms, hreadAll, hsame'⟩ := Directives.forall₂_steps_iff.mpr ⟨hblocks, hall⟩
    have hreadAlgorithm : Option.Rel (fun node algorithm =>
        HashAlgorithm.read (.node node) = .ok algorithm) directives.algorithm algorithm := by
      simpa only [HashAlgorithm.read_iff] using hreadAlgorithm
    simp only [← readKey_iff, ← Transform.readAll_iff] at hreadKey hreadAll
    refine ⟨_, ⟨.document block, [], true⟩, ⟨block, hblock, rfl⟩,
      (_, ⟨.document block, _, false⟩),
      (Claiming.required_eq_ok rfl).mpr ⟨_, _, hkey, hreadKey, rfl⟩,
      (algorithm, ⟨.document block, _, false⟩),
      (Claiming.optional_eq_ok rfl).mpr ⟨_, _, halgorithm, hreadAlgorithm, rfl⟩,
      (transforms, ⟨.document block, [], false⟩),
      (Claiming.optional_eq_ok rfl).mpr ⟨_, _, horder, hreadAll, rfl⟩,
      _, (Claiming.finish_eq_ok rfl).mpr ⟨rfl, rfl⟩, ?_⟩
    rw [← hsame, ← hsame']
    rfl

/-! ### What is used

Of the entries of a key only the first and the options behind it are read, whatever the first one
is. So a key with the fallback in front of its template is read as something else than it says, and
only the order of the entries tells which.
-/

/-- The template is what has no key, and the fallback is what the key first says it is. -/
structure UsesKey (entries : List Entry) (source : String) (fallback : Option String) : Prop where
  source : ∃ entry, entries.filter Entry.isPositional = [entry] ∧ entry.value = .string source
  keys : ∀ entry ∈ entries, ∀ key ∈ entry.key, key = "fallback"
  fallback : Focus.SaysFirst entries "fallback" fallback

/-- The first entry has no key, and all behind it have one. -/
def TemplateFirst : List Entry → Prop
  | [] => False
  | first :: options => first.key = none ∧ ∀ entry ∈ options, entry.key ≠ none

/-- The fallback comes first, and behind it its text is said again with the key and without. -/
def TemplateRepeated : List Entry → Prop
  | [] => False
  | first :: options => first.key = some "fallback" ∧ ∃ text again,
      first.value = .string text ∧ options.filter Entry.isPositional = [again] ∧
        again.value = .string text ∧ Focus.SaysFirst options "fallback" (some text)

theorem filter_isPositional_eq_nil {entries : List Entry} :
    entries.filter Entry.isPositional = [] ↔ ∀ entry ∈ entries, entry.key ≠ none := by
  rw [List.filter_eq_nil_iff]
  exact forall₂_congr fun entry _ => by simp [Entry.isPositional]

section Key

variable {node : Node} {source : String} {fallback : Option String} {first : Entry}
  {options : List Entry} (hread : ReadsKey node source fallback first options)

include hread

theorem ReadsKey.usesKey_of_none (hfirst : first.key = none) :
    UsesKey (first :: options) source fallback ↔ ∀ entry ∈ options, entry.key ≠ none := by
  have hpositional : (first :: options).filter Entry.isPositional =
      first :: options.filter Entry.isPositional :=
    List.filter_cons_of_pos (by simp [Entry.isPositional, hfirst])
  constructor
  · rintro ⟨⟨entry, hentry, -⟩, -, -⟩
    obtain ⟨rfl, hnil⟩ := List.cons.inj (hpositional.symm.trans hentry)
    exact filter_isPositional_eq_nil.mp hnil
  · intro hnamed
    refine ⟨⟨first, ?_, hread.source⟩, ?_, ?_⟩
    · rw [hpositional, filter_isPositional_eq_nil.mpr hnamed]
    · exact List.forall_mem_cons.mpr ⟨by simp [hfirst], hread.keys⟩
    · rw [Focus.saysFirst_cons_of_ne (by simp [hfirst])]
      exact hread.fallback

/-- A template with the key of the fallback is the fallback too. -/
theorem ReadsKey.usesKey_of_fallback (hfirst : first.key = some "fallback") :
    UsesKey (first :: options) source fallback ↔ TemplateRepeated (first :: options) := by
  have htext : first.value.plainText = .ok (some source) := by
    rw [hread.source]
    rfl
  have hpositional : (first :: options).filter Entry.isPositional =
      options.filter Entry.isPositional :=
    List.filter_cons_of_neg (by simp [Entry.isPositional, hfirst])
  constructor
  · rintro ⟨⟨again, hagain, hvalue⟩, -, hfallback⟩
    rw [hpositional] at hagain
    obtain ⟨raw, rfl, hraw⟩ := (Focus.saysFirst_cons_of_eq hfirst).mp hfallback
    obtain rfl : source = raw := by simpa using htext.symm.trans hraw
    exact ⟨hfirst, source, again, hread.source, hagain, hvalue, hread.fallback⟩
  · rintro ⟨-, text, again, hvalue, hagain, hsame, hfallback⟩
    obtain rfl : source = text := by simpa using hread.source.symm.trans hvalue
    obtain rfl : fallback = some source := hread.fallback.unique hfallback
    refine ⟨⟨again, hpositional.trans hagain, hsame⟩, ?_, ?_⟩
    · exact List.forall_mem_cons.mpr ⟨by simp [hfirst], hread.keys⟩
    · exact (Focus.saysFirst_cons_of_eq hfirst).mpr ⟨source, rfl, htext⟩

/-- A key is used as a whole exactly if its template comes first or is said twice. -/
theorem ReadsKey.usesKey_iff :
    UsesKey node.entries source fallback ↔
      TemplateFirst node.entries ∨ TemplateRepeated node.entries := by
  rw [hread.entries]
  by_cases hnone : first.key = none
  · rw [hread.usesKey_of_none hnone]
    simp [TemplateFirst, TemplateRepeated, hnone]
  by_cases hfirst : first.key = some "fallback"
  · rw [hread.usesKey_of_fallback hfirst]
    simp [TemplateFirst, hfirst]
  · obtain ⟨key, hkey⟩ := Option.ne_none_iff_exists'.mp hnone
    have hother : ¬UsesKey (first :: options) source fallback := fun huses =>
      hfirst (huses.keys first List.mem_cons_self key hkey ▸ hkey)
    simp [TemplateFirst, TemplateRepeated, hnone, hfirst, hother]

end Key

namespace Directives

variable {nodes : List Node} {directives : Directives nodes} {profile : KeyProfile}

/-- All that the directives say is in the profile. -/
structure UsesAll (directives : Directives nodes) (profile : KeyProfile) : Prop where
  key : UsesKey directives.key.entries profile.source profile.fallback
  algorithm : ∀ node ∈ directives.algorithm, ∀ entry ∈ node.entries,
    entry.key = some "name" ∨ entry.key = some "seed"
  steps : List.Forall₂ (fun node transform => ∀ entry ∈ node.entries,
    ∃ key ∈ transform.parameters.keys, entry.key = some key) directives.steps profile.transforms

structure OthersNamed (directives : Directives nodes) : Prop where
  algorithm : ∀ node ∈ directives.algorithm, ∀ entry ∈ node.entries, entry.key ≠ none
  steps : ∀ node ∈ directives.steps, ∀ entry ∈ node.entries, entry.key ≠ none

/-- All entries of a profile are used exactly if those of its key are and no other lacks a name. -/
theorem IsReadAs.usesAll_iff (hread : directives.IsReadAs profile) :
    directives.UsesAll profile ↔
      (TemplateFirst directives.key.entries ∨ TemplateRepeated directives.key.entries) ∧
        directives.OthersNamed := by
  obtain ⟨first, options, hkey⟩ := hread.key
  obtain ⟨algorithm, hrel, -⟩ := hread.algorithm
  have halgorithm : ∀ node ∈ directives.algorithm,
      (∀ entry ∈ node.entries, entry.key = some "name" ∨ entry.key = some "seed") ↔
        ∀ entry ∈ node.entries, entry.key ≠ none := by
    intro node hnode
    rw [Option.mem_def.mp hnode] at hrel
    cases hrel with
    | some hfrom => exact hfrom.named_iff
  have hsteps := forall₂_iff_forall hread.transforms fun _ _ => Transform.IsReadFrom.named_iff
  constructor
  · rintro ⟨huses, hall, hused⟩
    exact ⟨hkey.usesKey_iff.mp huses,
      fun node hnode => (halgorithm node hnode).mp (hall node hnode), hsteps.mp hused⟩
  · rintro ⟨htemplate, hall, hnamed⟩
    exact ⟨hkey.usesKey_iff.mpr htemplate,
      fun node hnode => (halgorithm node hnode).mpr (hall node hnode), hsteps.mpr hnamed⟩

end Directives

/-- What is read from the directives of a block, and when all that they say is used: only the
template has no key, and it comes first unless the fallback does and says the same. -/
theorem profile_uses_all_iff {focus : Focus} {profile : KeyProfile}
    (hread : (KeyProfile.read focus).result = .ok profile) :
    ∃ block, focus.block? = some block ∧ ∃ directives : Directives block.nodes,
      directives.IsReadAs profile ∧
        (directives.UsesAll profile ↔
          (TemplateFirst directives.key.entries ∨ TemplateRepeated directives.key.entries) ∧
            directives.OthersNamed) := by
  obtain ⟨block, hblock, directives, hdirectives⟩ := read_iff.mp hread
  exact ⟨block, hblock, directives, hdirectives, hdirectives.usesAll_iff⟩

/-- A fallback may stand behind the template, and more than once. -/
theorem profile_uses_all_repeated :
    let entry (key : Option String) (value : Scalar) : Entry := ⟨key, value, ⟨0, 1⟩⟩
    let node (name : String) (entries : List Entry) (block : Option (Block Node)) : Node :=
      ⟨name, ⟨0, 1⟩, ⟨0, 1⟩, entries, block⟩
    let key := node "key" [entry none (.string "s"), entry (some "fallback") (.string "f"),
      entry (some "fallback") (.integer 7)] none
    let step := node "truncate" [entry (some "length") (.integer 256)] none
    let block : Block Node := ⟨[key, node "algorithm" [entry (some "seed") (.integer 7)] none,
      node "transforms-order" [] (some ⟨[step], ⟨0, 1⟩⟩)], ⟨0, 1⟩⟩
    let profile : KeyProfile := ⟨"s", some "f", ⟨HashAlgorithm.defaultName, some "7"⟩,
      [⟨"truncate", ⟨[("length", "256")], by decide⟩⟩]⟩
    (KeyProfile.read (.document block)).result = .ok profile ∧
      ∃ directives : Directives block.nodes, directives.UsesAll profile := by
  intro entry node key step block profile
  have hread : (KeyProfile.read (.document block)).result = .ok profile := rfl
  obtain ⟨_, ⟨⟩, directives, -, huses⟩ := profile_uses_all_iff hread
  obtain ⟨hkey, -⟩ := List.cons.inj directives.key_eq
  have halgorithm : directives.algorithm = some (block.nodes[1]) :=
    Option.toList_eq_singleton_iff.mp directives.algorithm_eq.symm
  have horder : directives.order = some (block.nodes[2]) :=
    Option.toList_eq_singleton_iff.mp directives.order_eq.symm
  refine ⟨hread, directives, huses.mpr ⟨.inl ?_, ?_, ?_⟩⟩
  · rw [← hkey]
    simp [TemplateFirst, key, node, entry]
  · rw [halgorithm]
    simp [block, node, entry]
  · rw [Directives.steps, horder]
    simp [block, node, entry, step]

/-- A fallback in front of the template is taken for the template, which is then passed over. -/
theorem profile_misreads_template :
    let entry (key : Option String) (value : Scalar) : Entry := ⟨key, value, ⟨0, 1⟩⟩
    let key : Node := ⟨"key", ⟨0, 1⟩, ⟨0, 1⟩,
      [entry (some "fallback") (.string "f"), entry none (.string "s")], none⟩
    (KeyProfile.read (.document ⟨[key], ⟨0, 1⟩⟩)).result = .ok ⟨"f", none, .default, []⟩ ∧
      ¬UsesKey key.entries "f" none := by
  intro entry key
  refine ⟨rfl, fun huses => ?_⟩
  obtain ⟨template, htemplate, hvalue⟩ := huses.source
  obtain ⟨rfl, -⟩ := List.cons.inj htemplate
  simp [entry] at hvalue

end KeyProfile

end ReverseProxy.Config
