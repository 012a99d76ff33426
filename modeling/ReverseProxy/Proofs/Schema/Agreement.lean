import ReverseProxy.Proofs.Schema.Directives

/-!
# Checks of two documents

Two checks agree if both yield values that are related or both fail. With `strict`, failures have to
say the same, though not of the same place; without it they may differ, as they do where directives
stand in another order. Steps that agree make up checks that agree.
-/

namespace ReverseProxy

open Decimal Kdl

def Kdl.Failure.cause {Problem : Type} : Failure Problem → Problem ⊕ DigitLimit
  | .located problem _ => .inl problem
  | .digits limit => .inr limit

/-- The nodes say the same, but for their blocks, which are only related. -/
structure Kdl.Node.Like (inside : List Node → List Node → Prop) (node other : Node) : Prop where
  name : node.name = other.name
  data : node.data = other.data
  children : Option.Rel (fun block block' => inside block.nodes block'.nodes)
    node.children other.children

theorem Kdl.Node.like_of_shape {inside : List Node → List Node → Prop} {node other : Node}
    (hshape : node.shape = other.shape)
    (hinside : ∀ nodes others : List Node, nodes.map Node.shape = others.map Node.shape →
      inside nodes others) : node.Like inside other := by
  obtain ⟨hname, hdata, hchildren⟩ := Node.shape_eq_mk.mp (hshape.trans other.shape_eq)
  refine ⟨hname, hdata, ?_⟩
  cases hblock : node.children <;> cases hblock' : other.children <;>
    simp only [hblock, hblock', Option.map_none, Option.map_some, reduceCtorEq, Option.some.injEq]
      at hchildren
  · exact .none
  · refine .some (hinside _ _ ?_)
    rw [← shapes_eq_map, ← shapes_eq_map]
    exact hchildren

theorem Kdl.Node.Like.blocks {inside : List Node → List Node → Prop} {node other : Node}
    (hlike : node.Like inside other) :
    (node.children = none ∧ other.children = none) ∨
      ∃ block block', node.children = some block ∧ other.children = some block' ∧
        inside block.nodes block'.nodes := by
  obtain ⟨-, -, hchildren⟩ := hlike
  generalize node.children = children at hchildren
  generalize other.children = children' at hchildren
  cases hchildren with
  | none => exact .inl ⟨rfl, rfl⟩
  | some hinside => exact .inr ⟨_, _, rfl, rfl, hinside⟩

/-- Related lists have related first members that pass a test. -/
theorem find?_forall₂ {α β : Type} {related : α → β → Prop} {passes : α → Bool} {passes' : β → Bool}
    {values : List α} {others : List β} (hvalues : List.Forall₂ related values others)
    (hpasses : ∀ value other, related value other → passes value = passes' other) :
    Option.Rel related (values.find? passes) (others.find? passes') := by
  induction hvalues with
  | nil => exact .none
  | cons hfirst _ ih =>
      rw [List.find?_cons, List.find?_cons, hpasses _ _ hfirst]
      split
      · exact .some hfirst
      · exact ih

namespace Schema

inductive Agree (strict : Prop) {α β : Type} (related : α → β → Prop) :
    Checked α → Checked β → Prop
  | ok {value : α} {other : β} (hrelated : related value other) :
      Agree strict related (.ok value) (.ok other)
  | error {failure other : Failure Problem} (hcause : strict → failure.cause = other.cause) :
      Agree strict related (.error failure) (.error other)

namespace Agree

variable {strict : Prop} {α β α' β' : Type} {related : α → β → Prop} {target : α' → β' → Prop}
  {first : Checked α} {second : Checked β}

/-- Steps that agree in turn agree as a whole. -/
theorem bind {next : α → Checked α'} {next' : β → Checked β'}
    (hagree : Agree strict related first second)
    (hnext : ∀ value other, related value other → Agree strict target (next value) (next' other)) :
    Agree strict target (first >>= next) (second >>= next') := by
  cases hagree with
  | ok hrelated => exact hnext _ _ hrelated
  | error hcause => exact .error hcause

theorem map {f : α → α'} {g : β → β'} (hagree : Agree strict related first second)
    (hmap : ∀ value other, related value other → target (f value) (g other)) :
    Agree strict target (f <$> first) (g <$> second) := by
  cases hagree with
  | ok hrelated => exact .ok (hmap _ _ hrelated)
  | error hcause => exact .error hcause

theorem reject {problem : Problem} (span span' : Span) :
    Agree strict related (Schema.reject problem span) (Schema.reject problem span') :=
  .error fun _ => rfl

theorem rejectAt {problem : Problem} (focus focus' : Focus) :
    Agree strict related (focus.reject problem) (focus'.reject problem) :=
  reject focus.span focus'.span

theorem eq_ok {result result' : Checked α} (hagree : Agree strict Eq result result') {value : α} :
    result = .ok value ↔ result' = .ok value := by
  cases hagree with
  | ok hsame => rw [hsame]
  | error _ => exact iff_of_false nofun nofun

section Lists

variable {γ δ : Type} {alike : γ → δ → Prop} {values : List γ} {others : List δ}

/-- Like values are read alike, one after the other. -/
theorem mapM {read : γ → Checked α} {read' : δ → Checked β}
    (hvalues : List.Forall₂ alike values others)
    (hread : ∀ value other, alike value other → Agree strict related (read value) (read' other)) :
    Agree strict (List.Forall₂ related) (values.mapM read) (others.mapM read') := by
  induction hvalues with
  | nil => exact .ok .nil
  | cons hfirst _ ih =>
      rw [List.mapM_cons, List.mapM_cons]
      apply (hread _ _ hfirst).bind
      intro _ _ hresult
      apply ih.bind
      intro _ _ hresults
      exact .ok (.cons hresult hresults)

theorem forM {check : γ → Checked Unit} {check' : δ → Checked Unit}
    (hvalues : List.Forall₂ alike values others)
    (hcheck : ∀ value other, alike value other → Agree strict Eq (check value) (check' other)) :
    Agree strict Eq (values.forM check) (others.forM check') := by
  induction hvalues with
  | nil => exact .ok rfl
  | cons hfirst _ ih =>
      apply (hcheck _ _ hfirst).bind
      intro _ _ _
      exact ih

theorem optional {value : Option γ} {other : Option δ} {read : γ → Checked α}
    {read' : δ → Checked α}
    (hvalue : Option.Rel alike value other)
    (hread : ∀ value other, alike value other → Agree strict Eq (read value) (read' other)) :
    Agree strict Eq (value.mapM read) (other.mapM read') := by
  cases hvalue with
  | none => exact .ok rfl
  | some hsome => exact (hread _ _ hsome).map fun _ _ hsame => congrArg some hsame

end Lists

end Agree

section Entries

variable {strict : Prop} {α : Type} {entry other : Entry} (hdatum : entry.datum = other.datum)

include hdatum

theorem mismatch_agree (wanted : Wanted) :
    Agree strict (Eq (α := α)) (entry.mismatch wanted) (other.mismatch wanted) := by
  have hvalue : entry.value = other.value := congrArg Datum.value hdatum
  unfold Entry.mismatch
  rw [hvalue]
  split
  · split
    · exact .reject ..
    · exact .error fun _ => rfl
  · exact .reject ..

/-- Entries with equal data are read alike. -/
theorem readsKind_agree {read : Entry → Checked α} {scalar : α → Scalar} {wanted : Wanted}
    (hkind : Entry.ReadsKind read scalar wanted) : Agree strict Eq (read entry) (read other) := by
  have hvalue : entry.value = other.value := congrArg Datum.value hdatum
  obtain ⟨value, hfound, hread⟩ | ⟨hnone, hread⟩ := hkind.cases entry
  · rw [hread, hkind.kind other value (hvalue ▸ hfound)]
    exact .ok rfl
  · rw [hread, hkind.other other fun value => hvalue ▸ hnone value]
    exact mismatch_agree hdatum wanted

theorem asText_agree : Agree strict Eq entry.asText other.asText := by
  have hvalue : entry.value = other.value := congrArg Datum.value hdatum
  unfold Entry.asText
  rw [hvalue]
  split
  · exact .ok rfl
  · exact .reject ..
  · exact .error fun _ => rfl

theorem parseAs_agree (type : TextType α) :
    Agree strict Eq (entry.parseAs type) (other.parseAs type) := by
  apply (asText_agree hdatum).bind
  rintro raw _ rfl
  split
  · exact .ok rfl
  · exact .reject ..

end Entries

namespace Focus

variable {strict : Prop} {α : Type} {inside : List Node → List Node → Prop} {node other : Node}

section Nodes

variable (hlike : node.Like inside other)

include hlike

theorem children_agree :
    Agree strict inside (Focus.node node).children (Focus.node other).children := by
  unfold children
  dsimp only
  rcases hlike.blocks with ⟨hnone, hnone'⟩ | ⟨block, block', hblock, hblock', hinside⟩
  · rw [hnone, hnone']
    exact .rejectAt ..
  · rw [hblock, hblock']
    exact .ok hinside

theorem nonemptyChildren_agree
    (hlength : ∀ nodes others, inside nodes others → nodes.length = others.length) :
    Agree strict inside (Focus.node node).nonemptyChildren (Focus.node other).nonemptyChildren := by
  apply (children_agree hlike).bind
  intro nodes others hinside
  have hsize := hlength nodes others hinside
  rcases nodes with _ | ⟨first, nodes⟩ <;> rcases others with _ | ⟨first', others⟩
  · refine .error fun _ => ?_
    rw [hlike.name]
    rfl
  · cases hsize
  · cases hsize
  · exact .ok hinside

theorem expectName_agree {expected : String} :
    Agree strict Eq ((Focus.node node).expectName expected)
      ((Focus.node other).expectName expected) := by
  unfold expectName
  dsimp only
  rw [hlike.name]
  split
  · exact .ok rfl
  · exact .rejectAt ..

theorem parseName_agree {type : TextType α} :
    Agree strict Eq ((Focus.node node).parseName type) ((Focus.node other).parseName type) := by
  have hdatum : Entry.datum ⟨none, .string node.name, node.nameSpan⟩ =
      Entry.datum ⟨none, .string other.name, other.nameSpan⟩ := by
    rw [hlike.name]
    rfl
  exact parseAs_agree hdatum type

end Nodes

theorem isPositional_congr {entry entry' : Entry} (hdatum : entry.datum = entry'.datum) :
    entry.isPositional = entry'.isPositional :=
  congrArg Option.isNone (congrArg Datum.key hdatum)

theorem checkKey_agree (allowed : Dictionary ScalarKind) {entry entry' : Entry}
    (hdatum : entry.datum = entry'.datum) :
    Agree strict Eq (checkKey allowed entry) (checkKey allowed entry') := by
  have hkey : entry.key = entry'.key := congrArg Datum.key hdatum
  have hvalue : entry.value = entry'.value := congrArg Datum.value hdatum
  unfold checkKey
  rw [hkey, hvalue]
  split
  · exact .ok rfl
  · split
    · exact .reject ..
    · split
      · exact .ok rfl
      · exact .reject ..

/-- Like nodes break the same rules, and are refused with the same message. -/
theorem check_agree (hlike : node.Like inside other) (rule : Rule) :
    Agree strict Eq ((Focus.node node).check rule) ((Focus.node other).check rule) := by
  have hentries := forall₂_of_map_eq hlike.data
  cases rule with
  | noBlock =>
      change Agree strict Eq (if node.children.isSome = true then _ else _)
        (if other.children.isSome = true then _ else _)
      rcases hlike.blocks with ⟨hnone, hnone'⟩ | ⟨block, block', hblock, hblock', -⟩
      · rw [hnone, hnone']
        exact .ok rfl
      · rw [hblock, hblock']
        refine .error fun _ => ?_
        rw [hlike.name]
        rfl
  | noPositional =>
      have hfound := find?_forall₂ hentries fun _ _ => isPositional_congr
      rw [check, check, entries_node, entries_node, ok_bind, ok_bind]
      generalize node.entries.find? Entry.isPositional = found at hfound ⊢
      generalize other.entries.find? Entry.isPositional = found' at hfound ⊢
      cases hfound with
      | none => exact .ok rfl
      | some _ =>
        refine .error fun _ => ?_
        rw [hlike.name]
        rfl
  | onlyKeys allowed =>
      rw [check, check, entries_node, entries_node, ok_bind, ok_bind]
      exact Agree.forM hentries fun _ _ => checkKey_agree allowed
  | nameIs test =>
      change Agree strict Eq (if test.accepts node.name = true then _ else _)
        (if test.accepts other.name = true then _ else _)
      rw [hlike.name]
      split
      · exact .ok rfl
      · exact .rejectAt ..

theorem validate_agree (hlike : node.Like inside other) {rules : List Rule} :
    Agree strict Eq ((Focus.node node).validate rules) ((Focus.node other).validate rules) :=
  Agree.forM (List.forall₂_same.mpr fun _ _ => rfl) fun rule _ hsame =>
    hsame ▸ check_agree hlike rule

/-- Entries with equal data give the same texts. -/
theorem collectTexts_agree {entries others : List Entry}
    (hentries : List.Forall₂ (fun entry other => entry.datum = other.datum) entries others)
    (texts : Dictionary String) :
    Agree strict Eq (collectTexts entries texts) (collectTexts others texts) := by
  induction hentries generalizing texts with
  | nil => exact .ok rfl
  | @cons entry entry' _ _ hdatum _ ih =>
      have hkey : entry.key = entry'.key := congrArg Datum.key hdatum
      rw [collectTexts, collectTexts, hkey]
      split
      · exact ih texts
      · split
        · apply (asText_agree hdatum).bind
          rintro text _ rfl
          exact ih _
        · exact ih texts

section Entries

variable (hlike : node.Like inside other)

include hlike

theorem property?_related (key : String) :
    Option.Rel (fun entry other => entry.datum = other.datum)
      (node.entries.find? fun entry => entry.key = some key)
      (other.entries.find? fun entry => entry.key = some key) := by
  apply find?_forall₂ (forall₂_of_map_eq hlike.data)
  intro entry entry' hdatum
  rw [show entry.key = entry'.key from congrArg Datum.key hdatum]

theorem readsKind_agree {α : Type} {read : Entry → Checked α} {scalar : α → Scalar}
    {wanted : Wanted}
    (hkind : Entry.ReadsKind read scalar wanted) (key : String) :
    Agree strict Eq ((node.entries.find? fun entry => entry.key = some key).mapM read)
      ((other.entries.find? fun entry => entry.key = some key).mapM read) :=
  .optional (property?_related hlike key) fun _ _ hdatum => Schema.readsKind_agree hdatum hkind

theorem property_agree (key : String) :
    Agree strict (fun entry other => entry.datum = other.datum) ((Focus.node node).property key)
      ((Focus.node other).property key) := by
  have hfound := property?_related hlike key
  rw [property, property, property?_node, property?_node, ok_bind, ok_bind]
  generalize (node.entries.find? fun entry => entry.key = some key) = found at hfound ⊢
  generalize (other.entries.find? fun entry => entry.key = some key) = found' at hfound ⊢
  cases hfound with
  | none => exact .rejectAt ..
  | some hdatum => exact .ok hdatum

theorem firstEntry_agree :
    Agree strict (fun entry other => entry.datum = other.datum) (Focus.node node).firstEntry
      (Focus.node other).firstEntry := by
  have hentries := forall₂_of_map_eq hlike.data
  rw [firstEntry, firstEntry, entries_node, entries_node, ok_bind, ok_bind]
  generalize node.entries = entries at hentries ⊢
  generalize other.entries = entries' at hentries ⊢
  cases hentries with
  | nil => exact .rejectAt ..
  | cons hdatum _ => exact .ok hdatum

theorem positionals_related :
    List.Forall₂ (fun entry other => entry.datum = other.datum)
      (node.entries.filter Entry.isPositional) (other.entries.filter Entry.isPositional) := by
  refine List.rel_filter ?_ (forall₂_of_map_eq hlike.data)
  intro entry entry' hdatum
  exact Bool.eq_iff_iff.mp (isPositional_congr hdatum)

theorem positional_agree (position : Int) :
    Agree strict (fun entry other => entry.datum = other.datum)
      ((Focus.node node).positional position) ((Focus.node other).positional position) := by
  have hdropped := List.forall₂_drop position.toNat (positionals_related hlike)
  rw [positional, positional, entries_node, entries_node, ok_bind, ok_bind]
  by_cases hposition : 0 ≤ position
  · simp only [if_pos hposition, ← List.head?_drop]
    generalize (node.entries.filter Entry.isPositional).drop position.toNat = found at hdropped ⊢
    generalize (other.entries.filter Entry.isPositional).drop position.toNat = found' at hdropped ⊢
    cases hdropped with
    | nil => exact .rejectAt ..
    | cons hdatum _ => exact .ok hdatum
  · simp only [if_neg hposition]
    exact .rejectAt ..

theorem textsBetween_agree (start : Int) (stop : Option Int) :
    Agree strict Eq ((Focus.node node).textsBetween start stop)
      ((Focus.node other).textsBetween start stop) := by
  have hentries := forall₂_of_map_eq hlike.data
  rw [textsBetween, textsBetween, entries_node, entries_node, ok_bind, ok_bind, hentries.length_eq]
  dsimp only
  split
  · exact collectTexts_agree (List.forall₂_drop _ (List.forall₂_take _ hentries)) ∅
  · exact .rejectAt ..

theorem allowedTexts_agree (start : Int) (stop : Option Int) (allowed : List String) :
    Agree strict Eq ((Focus.node node).allowedTexts start stop allowed)
      ((Focus.node other).allowedTexts start stop allowed) := by
  apply (textsBetween_agree hlike start stop).bind
  rintro texts _ rfl
  split
  · exact .rejectAt ..
  · exact .ok rfl

end Entries

end Focus

/-! ### Directives of a block

Steps on two blocks that say the same leave blocks that say the same, where the order of directives
of different names may differ. So it suffices to look at one kind of step at a time.
-/

/-- The directives of each name are related, in order. If `strict`, all names come in one order. -/
structure SameNames (strict : Prop) (below : String → Node → Node → Prop)
    (nodes others : List Node) : Prop where
  named : ∀ name, List.Forall₂ (below name) (nodesNamed name nodes) (nodesNamed name others)
  names : strict → nodes.map Node.name = others.map Node.name

namespace SameNames

variable {strict : Prop} {below : String → Node → Node → Prop} {nodes others : List Node}

theorem nodesNamed_eq_nil_iff {name : String} :
    nodesNamed name nodes = [] ↔ Claims.takeFirst? name nodes = none := by
  rw [Claims.takeFirst?_eq_none, nodesNamed_eq_nil]

/-- The first directive of a name is in both blocks or in neither. -/
theorem takeFirst? (hsame : SameNames strict below nodes others) (name : String) :
    Option.Rel (fun found found' => below name found.1 found'.1 ∧
        SameNames strict below found.2 found'.2)
      (Claims.takeFirst? name nodes) (Claims.takeFirst? name others) := by
  have hall := hsame.named name
  cases hfound : Claims.takeFirst? name nodes with
  | none =>
      rw [nodesNamed_eq_nil_iff.mpr hfound, List.forall₂_nil_left_iff,
        nodesNamed_eq_nil_iff] at hall
      rw [hall]
      exact .none
  | some found =>
      obtain ⟨node, left⟩ := found
      obtain ⟨hnamed, hother, -⟩ := Claims.nodesNamed_of_takeFirst? hfound
      rw [hnamed, List.forall₂_cons_left_iff] at hall
      obtain ⟨node', rest, hnode, hrest, hnamed'⟩ := hall
      obtain ⟨left', hfound', rfl⟩ := Claims.takeFirst?_of_nodesNamed hnamed'
      obtain ⟨-, hother', -⟩ := Claims.nodesNamed_of_takeFirst? hfound'
      rw [hfound']
      -- The directives of the name lose their first one, and those of other names stay.
      refine .some ⟨hnode, fun other => ?_, fun hstrict => ?_⟩
      · by_cases hname : other = name
        · rw [hname]
          exact hrest
        · rw [← hother other hname, ← hother' other hname]
          exact hsame.named other
      · rw [Claims.names_of_takeFirst? hfound, Claims.names_of_takeFirst? hfound',
          hsame.names hstrict]

/-- Without the directives of one name the others are still the same. -/
theorem erase (hsame : SameNames strict below nodes others) (name : String) :
    SameNames strict below (nodes.filter fun node => node.name ≠ name)
      (others.filter fun node => node.name ≠ name) := by
  have hnamed (other : String) (nodes : List Node) :
      nodesNamed other (nodes.filter fun node => node.name ≠ name) =
        if other = name then [] else nodesNamed other nodes := by
    rw [nodesNamed, List.filter_filter]
    split
    · next hother =>
      rw [hother]
      simp
    · next hother =>
      refine List.filter_congr fun node _ => ?_
      by_cases hnode : node.name = other <;> simp [hnode, hother]
  refine ⟨fun other => ?_, fun hstrict => ?_⟩
  · rw [hnamed, hnamed]
    split
    · exact .nil
    · exact hsame.named other
  · have hfilter := congrArg (List.filter (· ≠ name)) (hsame.names hstrict)
    rw [List.filter_map, List.filter_map] at hfilter
    exact hfilter

theorem eq_nil_iff (hsame : SameNames strict below nodes others) : nodes = [] ↔ others = [] := by
  have hnil (nodes : List Node) : nodes = [] ↔ ∀ name, nodesNamed name nodes = [] := by
    refine ⟨fun hnil _ => by rw [hnil]; rfl,
      fun hnone => List.eq_nil_iff_forall_not_mem.mpr ?_⟩
    intro node hnode
    have hmem : node ∈ nodesNamed node.name nodes := mem_nodesNamed.mpr ⟨hnode, rfl⟩
    rw [hnone] at hmem
    cases hmem
  rw [hnil, hnil]
  refine forall_congr' fun name => ?_
  rw [← List.length_eq_zero_iff, ← List.length_eq_zero_iff, (hsame.named name).length_eq]

end SameNames

structure Claims.Like (strict : Prop) (below : String → Node → Node → Prop)
    (claims other : Claims) : Prop where
  pending : SameNames strict below claims.pending other.pending
  ended : claims.ended = other.ended

namespace Claiming

/-- The steps agree on like claims, and leave like claims. -/
def AgreeOn (strict : Prop) (below : String → Node → Node → Prop) {α β : Type}
    (related : α → β → Prop) (step : Claiming α) (step' : Claiming β) : Prop :=
  ∀ claims claims' : Claims, claims.Like strict below claims' →
    Agree strict (fun found found' => related found.1 found'.1 ∧ found.2.Like strict below found'.2)
      (outcome step claims) (outcome step' claims')

variable {strict : Prop} {below : String → Node → Node → Prop} {α β α' β' : Type}
  {related : α → β → Prop} {target : α' → β' → Prop}

namespace AgreeOn

theorem pure {value : α} {other : β} (hrelated : related value other) :
    AgreeOn strict below related (Pure.pure value) (Pure.pure other) :=
  fun _ _ hclaims => .ok ⟨hrelated, hclaims⟩

theorem bind {first : Claiming α} {first' : Claiming β} {next : α → Claiming α'}
    {next' : β → Claiming β'} (hfirst : AgreeOn strict below related first first')
    (hnext : ∀ value other, related value other →
      AgreeOn strict below target (next value) (next' other)) :
    AgreeOn strict below target (first >>= next) (first' >>= next') := by
  intro claims claims' hclaims
  rw [outcome_bind, outcome_bind]
  apply (hfirst claims claims' hclaims).bind
  rintro ⟨value, left⟩ ⟨other, left'⟩ ⟨hrelated, hleft⟩
  exact hnext value other hrelated left left' hleft

theorem lift {check : Checked α} {check' : Checked β} (hcheck : Agree strict related check check') :
    AgreeOn strict below related (Claiming.lift check) (Claiming.lift check') := by
  intro claims claims' hclaims
  exact hcheck.map fun _ _ hrelated => ⟨hrelated, hclaims⟩

theorem note (event event' : Event) :
    AgreeOn strict below Eq (Claiming.note event) (Claiming.note event') :=
  fun _ _ hclaims => .ok ⟨rfl, hclaims⟩

theorem fail (problem : Problem) :
    AgreeOn strict below (Eq (α := α)) (Claiming.fail problem) (Claiming.fail problem) :=
  fun _ _ _ => .error fun _ => rfl

theorem unlessEnded {problem : Problem} {step : Claims → Check α × Claims}
    {step' : Claims → Check β × Claims} (hstep : AgreeOn strict below related step step') :
    AgreeOn strict below related (Claiming.unlessEnded problem step)
      (Claiming.unlessEnded problem step') := by
  intro claims claims' hclaims
  cases hended : claims.ended with
  | true =>
      have hended' : claims'.ended = true := hclaims.ended.symm.trans hended
      simp only [outcome, Claiming.unlessEnded, hended, hended', if_true]
      exact .error fun _ => rfl
  | false =>
      have hended' : claims'.ended = false := hclaims.ended.symm.trans hended
      simp only [outcome, Claiming.unlessEnded, hended, hended', Bool.false_eq_true, if_false]
      exact hstep claims claims' hclaims

section Extract

variable {name : String} {extract : Focus → Check α} {extract' : Focus → Check β}
  (hextract : ∀ node node', below name node node' →
    Agree strict related (extract (.node node)).result (extract' (.node node')).result)

include hextract

theorem required : AgreeOn strict below related (Claiming.required name extract)
    (Claiming.required name extract') := by
  apply unlessEnded
  intro claims claims' hclaims
  have hfound := hclaims.pending.takeFirst? name
  unfold outcome
  dsimp only
  generalize Claims.takeFirst? name claims.pending = found at hfound ⊢
  generalize Claims.takeFirst? name claims'.pending = found' at hfound ⊢
  cases hfound with
  | none => exact .error fun _ => rfl
  | some hfound =>
    exact (hextract _ _ hfound.1).map fun _ _ hrelated => ⟨hrelated, hfound.2, hclaims.ended⟩

theorem repeated : AgreeOn strict below (List.Forall₂ related) (Claiming.repeated name extract)
    (Claiming.repeated name extract') := by
  apply unlessEnded
  intro claims claims' hclaims
  have hread : Agree strict (List.Forall₂ related) _ _ :=
    Agree.mapM (hclaims.pending.named name) hextract
  have hleft := hclaims.pending.erase name
  have hfound := takeEach_eq name extract claims.pending
  have hfound' := takeEach_eq name extract' claims'.pending
  unfold outcome
  dsimp only
  generalize takeEach name extract claims.pending = taken at hfound ⊢
  generalize takeEach name extract' claims'.pending = taken' at hfound' ⊢
  generalize
    (nodesNamed name claims.pending).mapM (fun node => (extract (.node node)).result) = read
    at hread hfound
  generalize (nodesNamed name claims'.pending).mapM
    (fun node => (extract' (.node node)).result) = read' at hread hfound'
  obtain ⟨⟨log, result⟩, left⟩ := taken
  obtain ⟨⟨log', result'⟩, left'⟩ := taken'
  cases hread with
  | ok hrelated =>
      obtain ⟨_, rfl, hpair⟩ := except_map_eq_ok.mp hfound
      obtain ⟨_, rfl, hpair'⟩ := except_map_eq_ok.mp hfound'
      cases hpair
      cases hpair'
      exact .ok ⟨hrelated, hleft, hclaims.ended⟩
  | error hcause =>
      cases result <;> cases hfound
      cases result' <;> cases hfound'
      exact .error hcause

omit hextract

theorem optional {extract extract' : Focus → Check α}
    (hextract : ∀ node node', below name node node' →
      Agree strict Eq (extract (.node node)).result (extract' (.node node')).result) :
    AgreeOn strict below Eq (Claiming.optional name extract) (Claiming.optional name extract') := by
  apply unlessEnded
  intro claims claims' hclaims
  have hfound := hclaims.pending.takeFirst? name
  unfold outcome
  dsimp only
  generalize Claims.takeFirst? name claims.pending = found at hfound ⊢
  generalize Claims.takeFirst? name claims'.pending = found' at hfound ⊢
  cases hfound with
  | none => exact .ok ⟨rfl, hclaims⟩
  | some hfound =>
    dsimp only
    rw [Logged.result_map, Logged.result_map]
    have hread : Agree strict Eq _ _ :=
      (hextract _ _ hfound.1).map fun _ _ hsame => congrArg some hsame
    exact hread.map fun _ _ hsame => ⟨hsame, hfound.2, hclaims.ended⟩

theorem finish : AgreeOn strict below Eq Claiming.finish Claiming.finish := by
  apply unlessEnded
  intro claims claims' hclaims
  have hnil := hclaims.pending.eq_nil_iff
  have hnames := hclaims.pending.names
  unfold outcome
  dsimp only
  rcases hpending : claims.pending with _ | ⟨node, nodes⟩ <;>
    rcases hpending' : claims'.pending with _ | ⟨node', nodes'⟩ <;>
    rw [hpending, hpending'] at hnil hnames
  · refine .ok ⟨rfl, ?_, rfl⟩
    have hpending := hclaims.pending
    simp_all
  · exact absurd (hnil.mp rfl) nofun
  · exact absurd (hnil.mpr rfl) nofun
  · refine .error fun hstrict => ?_
    rw [(List.cons.inj (hnames hstrict)).1]
    rfl

end Extract

end AgreeOn

/-- Steps that agree have the same outcome. -/
theorem AgreeOn.result {steps : Claiming α} {steps' : Claiming β} {claims claims' : Claims}
    (hsteps : AgreeOn strict below related steps steps')
    (hclaims : claims.Like strict below claims') :
    Agree strict related (steps claims).1.result (steps' claims').1.result := by
  have hvalue {γ : Type} (steps : Claiming γ) (claims : Claims) :
      Prod.fst <$> outcome steps claims = (steps claims).1.result := by
    unfold outcome
    cases (steps claims).1.result <;> rfl
  rw [← hvalue, ← hvalue]
  exact (hsteps claims claims' hclaims).map fun _ _ hfound => hfound.1

/-- Documents that say the same are taken apart alike. -/
theorem runDocument_agree {block block' : Block Node}
    (hnodes : SameNames strict below block.nodes block'.nodes) {steps : Claiming α}
    {steps' : Claiming β} (hsteps : AgreeOn strict below related steps steps') :
    Agree strict related (run (.document block) steps).result
      (run (.document block') steps').result := by
  rw [run, run, Logged.result_bind, Logged.result_bind, Logged.result_lift, Logged.result_lift,
    Claims.ofFocus_document.mpr rfl, Claims.ofFocus_document.mpr rfl, ok_bind, ok_bind]
  exact hsteps.result ⟨hnodes, rfl⟩

/-- Like nodes are taken apart alike. -/
theorem runNode_agree {inside : List Node → List Node → Prop} {node node' : Node}
    (hlike : node.Like inside node')
    (hinside : ∀ nodes nodes', inside nodes nodes' → SameNames strict below nodes nodes')
    {steps : Claiming α} {steps' : Claiming β}
      (hsteps : AgreeOn strict below related steps steps') :
    Agree strict related (run (.node node) steps).result (run (.node node') steps').result := by
  rw [run, run, Logged.result_bind, Logged.result_bind, Logged.result_lift, Logged.result_lift]
  rcases hlike.blocks with ⟨hnone, hnone'⟩ | ⟨block, block', hblock, hblock', hnodes⟩
  · simp only [Claims.ofFocus, Focus.enterBlock, hnone, hnone']
    exact .error fun _ => rfl
  · rw [Claims.ofFocus_node.mpr ⟨block, hblock, rfl⟩,
      Claims.ofFocus_node.mpr ⟨block', hblock', rfl⟩,
      ok_bind, ok_bind]
    exact hsteps.result ⟨hinside _ _ hnodes, rfl⟩

end Claiming

end Schema

end ReverseProxy
