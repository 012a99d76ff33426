import ReverseProxy.Proofs.Schema.Directives

/-!
# Why checking fails

A check of a node fails because of a problem that points at the node or at something in it: a name,
an entry or a block at any depth. Otherwise there is an entry, at any depth, whose value has too
many digits to be written.
-/

namespace ReverseProxy.Schema

open Kdl Decimal

inductive HasEntry : Node → Entry → Prop
  | own {node : Node} {entry : Entry} (hentry : entry ∈ node.entries) : HasEntry node entry
  | inBlock {node child : Node} {block : Block Node} {entry : Entry}
      (hblock : node.children = some block) (hchild : child ∈ block.nodes)
      (hentry : HasEntry child entry) : HasEntry node entry

def HasLongValue (node : Node) (limit : DigitLimit) : Prop :=
  ∃ entry, HasEntry node entry ∧ entry.value.plainText = .error limit

/-- A failure that an entry accounts for. -/
def IsEntryFault (entry : Entry) : Failure Problem → Prop
  | .located _ span => span = entry.span
  | .digits limit => entry.value.plainText = .error limit

def IsNodeFault (node : Node) : Failure Problem → Prop
  | .located _ span => ∃ held, node.Holds held ∧ held.HasSpan span
  | .digits limit => HasLongValue node limit

/-- A failure that a block accounts for. -/
def IsBlockFault (block : Block Node) : Failure Problem → Prop
  | .located _ span => block.HasSpan span
  | .digits limit => ∃ node ∈ block.nodes, HasLongValue node limit

section Parts

variable {node : Node} {block : Block Node} {failure : Failure Problem}

theorem IsEntryFault.ofNode {entry : Entry} (hfault : IsEntryFault entry failure)
    (hentry : entry ∈ node.entries) : IsNodeFault node failure := by
  cases failure with
  | located problem span =>
      cases hfault
      exact ⟨node, .self, .entry hentry⟩
  | digits limit => exact ⟨entry, .own hentry, hfault⟩

theorem IsNodeFault.ofBlock (hfault : IsNodeFault node failure) (hnode : node ∈ block.nodes) :
    IsBlockFault block failure := by
  cases failure with
  | located problem span =>
      obtain ⟨held, hheld, hspan⟩ := hfault
      exact .inr ⟨held, ⟨node, hnode, hheld⟩, hspan⟩
  | digits limit => exact ⟨node, hnode, hfault⟩

/-- What is wrong with a block is wrong with its node. -/
theorem IsBlockFault.ofNode (hfault : IsBlockFault block failure)
    (hblock : node.children = some block) : IsNodeFault node failure := by
  cases failure with
  | located problem span =>
      obtain rfl | ⟨held, ⟨child, hchild, hheld⟩, hspan⟩ := hfault
      · exact ⟨node, .self, .block hblock⟩
      · exact ⟨held, .inBlock hblock hchild hheld, hspan⟩
  | digits limit =>
      obtain ⟨child, hchild, entry, hentry, hvalue⟩ := hfault
      exact ⟨entry, .inBlock hblock hchild hentry, hvalue⟩

theorem rejectNode_failsBy {α : Type} {problem : Problem} :
    FailsBy (IsNodeFault node) ((Focus.node node).reject problem : Checked α) :=
  .error ⟨node, .self, .whole⟩

theorem rejectEntry_failsBy {α : Type} {problem : Problem} {entry : Entry}
    (hentry : entry ∈ node.entries) :
    FailsBy (IsNodeFault node) (reject problem entry.span : Checked α) :=
  .error ⟨node, .self, .entry hentry⟩

theorem rejectBlock_failsBy {α : Type} {problem : Problem} :
    FailsBy (IsBlockFault block) ((Focus.document block).reject problem : Checked α) :=
  .error (.inl rfl)

end Parts

section Values

variable {α : Type} (entry : Entry)

theorem mismatch_failsBy (wanted : Wanted) :
    FailsBy (IsEntryFault entry) (entry.mismatch wanted : Checked α) := by
  unfold Entry.mismatch
  split
  · next value hvalue =>
    split
    · exact .error rfl
    · next limit hlimit =>
      refine .error ?_
      rw [IsEntryFault, hvalue, Scalar.plainText, hlimit]
      rfl
  · exact .error rfl

theorem readsKind_failsBy {read : Entry → Checked α} {scalar : α → Scalar} {wanted : Wanted}
    (hkind : Entry.ReadsKind read scalar wanted) (entry : Entry) :
    FailsBy (IsEntryFault entry) (read entry) := by
  obtain ⟨value, -, hread⟩ | ⟨-, hread⟩ := hkind.cases entry
  · rw [hread]
    exact .ok
  · rw [hread]
    exact mismatch_failsBy entry wanted

theorem asText_failsBy : FailsBy (IsEntryFault entry) entry.asText := by
  unfold Entry.asText
  split
  · exact .ok
  · exact .error rfl
  · next limit hlimit => exact .error hlimit

/-- An entry that is not read as a value of a type accounts for that. -/
theorem parseAs_failsBy (type : TextType α) :
    FailsBy (IsEntryFault entry) (entry.parseAs type) := by
  apply (asText_failsBy entry).bind
  intro raw _
  split
  · exact .ok
  · exact .error rfl

end Values

namespace Focus

variable {α : Type} {node : Node}

theorem children_failsBy : FailsBy (IsNodeFault node) (Focus.node node).children := by
  unfold children
  dsimp only
  split
  · exact rejectNode_failsBy
  · exact .ok

theorem expectName_failsBy {expected : String} :
    FailsBy (IsNodeFault node) ((Focus.node node).expectName expected) := by
  unfold expectName
  dsimp only
  split
  · exact .ok
  · exact rejectNode_failsBy

theorem parseName_failsBy {type : TextType α} :
    FailsBy (IsNodeFault node) ((Focus.node node).parseName type) := by
  apply (parseAs_failsBy ⟨none, .string node.name, node.nameSpan⟩ type).mono
  rintro (⟨problem, span⟩ | limit) hfault
  · cases hfault
    exact ⟨node, .self, .name⟩
  · cases hfault

/-- The children of a node are what is read from it. -/
theorem bindNonempty_failsBy {read : List Node → Checked α}
    (hread : ∀ block, node.children = some block →
      FailsBy (IsBlockFault block) (read block.nodes)) :
    FailsBy (IsNodeFault node) ((Focus.node node).nonemptyChildren >>= read) := by
  have hnonempty : FailsBy (IsNodeFault node) (Focus.node node).nonemptyChildren := by
    apply children_failsBy.bind
    intro nodes _
    split
    · exact rejectNode_failsBy
    · exact .ok
  apply hnonempty.bind
  intro nodes hnodes
  obtain ⟨block, hblock, -, rfl⟩ := nonemptyChildren_node.mp hnodes
  exact (hread block hblock).mono fun _ hfault => hfault.ofNode hblock

/-- A rule that does not hold is the fault of the node or of an entry. -/
theorem check_failsBy (rule : Rule) :
    FailsBy (IsNodeFault node) ((Focus.node node).check rule) := by
  cases rule with
  | noBlock =>
      change FailsBy _ (if node.children.isSome = true then _ else _)
      split
      · exact rejectNode_failsBy
      · exact .ok
  | noPositional =>
      rw [check, entries_node, ok_bind]
      split
      · next entry hfound => exact rejectEntry_failsBy (List.mem_of_find?_eq_some hfound)
      · exact .ok
  | onlyKeys allowed =>
      rw [check, entries_node, ok_bind]
      apply FailsBy.forM
      intro entry hentry
      unfold checkKey
      split
      · exact .ok
      · split
        · exact rejectEntry_failsBy hentry
        · split
          · exact .ok
          · exact rejectEntry_failsBy hentry
  | nameIs test =>
      change FailsBy _ (if test.accepts node.name = true then _ else _)
      split
      · exact .ok
      · exact rejectNode_failsBy

theorem validate_failsBy {rules : List Rule} :
    FailsBy (IsNodeFault node) ((Focus.node node).validate rules) :=
  FailsBy.forM fun rule _ => check_failsBy rule

end Focus

section Entries

variable {α : Type} {node : Node}

/-- An entry of the node is found and read. -/
theorem bindEntry_failsBy {found : Checked Entry} {read : Entry → Checked α}
    (hfound : FailsBy (IsNodeFault node) found)
    (hmem : ∀ entry, found = .ok entry → entry ∈ node.entries)
    (hread : ∀ entry, FailsBy (IsEntryFault entry) (read entry)) :
    FailsBy (IsNodeFault node) (found >>= read) := by
  apply hfound.bind
  intro entry hentry
  exact (hread entry).mono fun _ hfault => hfault.ofNode (hmem entry hentry)

theorem optional_failsBy {key : String} {read : Entry → Checked α}
    (hread : ∀ entry, FailsBy (IsEntryFault entry) (read entry)) :
    FailsBy (IsNodeFault node)
      ((node.entries.find? fun entry => entry.key = some key).mapM read) := by
  cases hfound : node.entries.find? fun entry => entry.key = some key with
  | none => exact .ok
  | some found =>
      apply FailsBy.map
      exact (hread found).mono fun _ hfault => hfault.ofNode (List.mem_of_find?_eq_some hfound)

theorem property_failsBy {key : String} {read : Entry → Checked α}
    (hread : ∀ entry, FailsBy (IsEntryFault entry) (read entry)) :
    FailsBy (IsNodeFault node) ((Focus.node node).property key >>= read) := by
  refine bindEntry_failsBy ?_ (fun entry hentry => ?_) hread
  · rw [Focus.property, Focus.property?_node, ok_bind]
    split
    · exact .ok
    · exact rejectNode_failsBy
  · exact List.mem_of_find?_eq_some (Focus.property_eq_ok.mp hentry)

theorem firstEntry_failsBy {read : Entry → Checked α}
    (hread : ∀ entry, FailsBy (IsEntryFault entry) (read entry)) :
    FailsBy (IsNodeFault node) ((Focus.node node).firstEntry >>= read) := by
  rw [Focus.firstEntry, Focus.entries_node, ok_bind]
  refine bindEntry_failsBy ?_ (fun entry hentry => ?_) hread
  · split
    · exact rejectNode_failsBy
    · exact .ok
  · split at hentry
    · cases hentry
    · next first others hentries =>
      cases hentry
      rw [hentries]
      exact List.mem_cons_self

theorem positional_failsBy {position : Int} {read : Entry → Checked α}
    (hread : ∀ entry, FailsBy (IsEntryFault entry) (read entry)) :
    FailsBy (IsNodeFault node) ((Focus.node node).positional position >>= read) := by
  rw [Focus.positional, Focus.entries_node, ok_bind]
  dsimp only
  refine bindEntry_failsBy ?_ (fun entry hentry => ?_) hread
  · split
    · exact .ok
    · exact rejectNode_failsBy
  · split at hentry
    · next found hfound =>
      cases hentry
      split at hfound
      · exact List.mem_of_mem_filter (List.mem_of_getElem? hfound)
      · cases hfound
    · cases hentry

theorem collectTexts_failsBy (entries : List Entry) (texts : Dictionary String) :
    FailsBy (fun failure => ∃ entry ∈ entries, IsEntryFault entry failure)
      (Focus.collectTexts entries texts) := by
  induction entries generalizing texts with
  | nil => exact .ok
  | cons entry entries ih =>
      have hothers (texts : Dictionary String) :
          FailsBy (fun failure => ∃ found ∈ entry :: entries, IsEntryFault found failure)
            (Focus.collectTexts entries texts) := by
        apply (ih texts).mono
        rintro failure ⟨other, hother, hfault⟩
        exact ⟨other, List.mem_cons_of_mem entry hother, hfault⟩
      rw [Focus.collectTexts]
      split
      · exact hothers texts
      · split
        · apply ((asText_failsBy entry).mono
            fun failure hfault => ⟨entry, List.mem_cons_self, hfault⟩).bind
          intro text _
          exact hothers _
        · exact hothers texts

/-- Texts are refused because of an entry, or because of the range. -/
theorem textsBetween_failsBy {start : Int} {stop : Option Int} :
    FailsBy (IsNodeFault node) ((Focus.node node).textsBetween start stop) := by
  rw [Focus.textsBetween, Focus.entries_node, ok_bind]
  dsimp only
  split
  · apply (collectTexts_failsBy _ ∅).mono
    rintro failure ⟨entry, hentry, hfault⟩
    exact hfault.ofNode (List.mem_of_mem_take (List.mem_of_mem_drop hentry))
  · exact rejectNode_failsBy

theorem allowedTexts_failsBy {start : Int} {stop : Option Int} {allowed : List String} :
    FailsBy (IsNodeFault node) ((Focus.node node).allowedTexts start stop allowed) := by
  apply textsBetween_failsBy.bind
  intro texts _
  split
  · exact rejectNode_failsBy
  · exact .ok

end Entries

/-! ### Directives of a block

Every step that takes a block apart can fail only by what is wrong with a node in it or with the
block. Claims are on some of its directives throughout, which is what the steps preserve.
-/

def Claims.AreOf (claims : Claims) (block : Block Node) : Prop :=
  claims.focus = .document block ∧ claims.pending ⊆ block.nodes

namespace Claiming

variable {α β : Type} {block : Block Node}

/-- A step of taking the block apart fails because of the block or of something in it. -/
structure FailsIn (block : Block Node) (step : Claiming α) : Prop where
  result : ∀ claims : Claims, claims.AreOf block →
    FailsBy (IsBlockFault block) (step claims).1.result
  claims : ∀ claims : Claims, claims.AreOf block → (step claims).2.AreOf block

namespace FailsIn

theorem pure {value : α} : FailsIn block (Pure.pure value) :=
  ⟨fun _ _ => .ok, fun _ hclaims => hclaims⟩

/-- Steps in turn fail by what either of them fails by. -/
theorem bind {first : Claiming α} {next : α → Claiming β} (hfirst : FailsIn block first)
    (hnext : ∀ value, (∃ claims : Claims, claims.AreOf block ∧
      (first claims).1.result = .ok value) → FailsIn block (next value)) :
    FailsIn block (first >>= next) := by
  have hstep (claims : Claims) (hclaims : claims.AreOf block) :
      FailsBy (IsBlockFault block) ((first >>= next) claims).1.result ∧
        ((first >>= next) claims).2.AreOf block := by
    have hfails := hfirst.result claims hclaims
    have hleft := hfirst.claims claims hclaims
    simp only [Bind.bind]
    rcases hstop : first claims with ⟨⟨log, failure | value⟩, after⟩
    · rw [hstop] at hfails hleft
      exact ⟨.error (hfails.reason_of_eq failure rfl), hleft⟩
    · have hvalue := hnext value ⟨claims, hclaims, by rw [hstop]⟩
      rw [hstop] at hleft
      exact ⟨hvalue.result after hleft, hvalue.claims after hleft⟩
  exact ⟨fun claims hclaims => (hstep claims hclaims).1,
    fun claims hclaims => (hstep claims hclaims).2⟩

theorem rejected {claims : Claims} (hclaims : claims.AreOf block) {problem : Problem} :
    FailsBy (IsBlockFault block) (claims.focus.reject problem : Checked α) := by
  rw [hclaims.1]
  exact rejectBlock_failsBy

theorem unlessEnded {problem : Problem} {step : Claims → Check α × Claims}
    (hstep : ∀ claims : Claims, claims.AreOf block →
      FailsBy (IsBlockFault block) (step claims).1.result ∧ (step claims).2.AreOf block) :
    FailsIn block (Claiming.unlessEnded problem step) := by
  constructor
  · intro claims hclaims
    unfold Claiming.unlessEnded
    split
    · exact rejected hclaims
    · exact (hstep claims hclaims).1
  · intro claims hclaims
    unfold Claiming.unlessEnded
    split
    · exact hclaims
    · exact (hstep claims hclaims).2

variable {name : String} {extract : Focus → Check α}
  (hextract : ∀ node, FailsBy (IsNodeFault node) (extract (.node node)).result)

include hextract

theorem extracted {node : Node} (hnode : node ∈ block.nodes) :
    FailsBy (IsBlockFault block) (extract (.node node)).result :=
  (hextract node).mono fun _ hfault => hfault.ofBlock hnode

theorem required : FailsIn block (Claiming.required name extract) := by
  apply unlessEnded
  intro claims hclaims
  split
  · next node others hfound =>
    obtain ⟨hnode, hothers⟩ := Claims.takeFirst?_subset hfound
    exact ⟨extracted hextract (hclaims.2 hnode), hclaims.1, List.Subset.trans hothers hclaims.2⟩
  · exact ⟨rejected hclaims, hclaims⟩

theorem optional : FailsIn block (Claiming.optional name extract) := by
  apply unlessEnded
  intro claims hclaims
  split
  · next node others hfound =>
    obtain ⟨hnode, hothers⟩ := Claims.takeFirst?_subset hfound
    rw [Logged.result_map]
    exact ⟨(extracted hextract (hclaims.2 hnode)).map, hclaims.1,
      List.Subset.trans hothers hclaims.2⟩
  · exact ⟨.ok, hclaims⟩

/-- Each directive that is read may fail, and what is left are others. -/
theorem takeEach (pending : List Node) (hpending : pending ⊆ block.nodes) :
    FailsBy (IsBlockFault block) (Claiming.takeEach name extract pending).1.result ∧
      (Claiming.takeEach name extract pending).2 ⊆ pending := by
  induction pending with
  | nil => exact ⟨.ok, List.Subset.refl _⟩
  | cons node pending ih =>
      obtain ⟨hnode, hothers⟩ := List.cons_subset.mp hpending
      obtain ⟨hrest, hleft⟩ := ih hothers
      have hskipped := List.Subset.trans hleft (List.subset_cons_self node pending)
      rw [Claiming.takeEach]
      split
      · have hfails := extracted hextract hnode
        rcases hfound : extract (.node node) with ⟨log, failure | value⟩
        · rw [hfound] at hfails
          exact ⟨.error (hfails.reason_of_eq failure rfl), List.subset_cons_self node pending⟩
        · exact ⟨hrest.map, hskipped⟩
      · exact ⟨hrest, List.cons_subset_cons node hleft⟩

theorem repeated : FailsIn block (Claiming.repeated name extract) := by
  apply unlessEnded
  intro claims hclaims
  obtain ⟨hfails, hleft⟩ := takeEach hextract claims.pending hclaims.2
  exact ⟨hfails, hclaims.1, List.Subset.trans hleft hclaims.2⟩

omit hextract

/-- What is claimed repeatedly comes from the block. -/
theorem exists_node_of_repeated {claims : Claims} {values : List α} (hclaims : claims.AreOf block)
    (hvalues : (Claiming.repeated name extract claims).1.result = .ok values) :
    ∀ value ∈ values, ∃ node ∈ block.nodes, (extract (.node node)).result = .ok value := by
  have hopen : claims.ended = false := by
    by_contra hended
    have hended : claims.ended = true := by simpa using hended
    simp only [Claiming.repeated, Claiming.unlessEnded, if_pos hended] at hvalues
    cases hvalues
  obtain ⟨hall, -⟩ := (repeated_eq_ok hopen).mp (outcome_eq_ok.mpr ⟨hvalues, rfl⟩)
  have hblock := (List.forall₂_and_left _ _).mpr
    ⟨fun node hnode => hclaims.2 (List.mem_of_mem_filter hnode), hall⟩
  exact forall_of_forall₂ hblock fun node value hread => ⟨node, hread⟩

theorem finish : FailsIn block Claiming.finish := by
  apply unlessEnded
  intro claims hclaims
  split
  · exact ⟨.ok, hclaims⟩
  · next node others hpending =>
    have hnode : node ∈ block.nodes := hclaims.2 (by rw [hpending]; exact List.mem_cons_self)
    exact ⟨rejectNode_failsBy.mono fun _ hfault => hfault.ofBlock hnode, hclaims⟩

theorem fail {problem : Problem} : FailsIn block (Claiming.fail problem : Claiming α) :=
  ⟨fun _ hclaims => rejected hclaims, fun _ hclaims => hclaims⟩

theorem lift {check : Checked α} (hcheck : FailsBy (IsBlockFault block) check) :
    FailsIn block (Claiming.lift check) :=
  ⟨fun _ _ => hcheck, fun _ hclaims => hclaims⟩

theorem note {event : Event} : FailsIn block (Claiming.note event) :=
  ⟨fun _ _ => .ok, fun _ hclaims => hclaims⟩

end FailsIn

/-- Taking a document apart fails by something in it. -/
theorem runDocument_failsBy {steps : Claiming α} (hsteps : FailsIn block steps) :
    FailsBy (IsBlockFault block) (run (.document block) steps).result := by
  rw [run, Logged.result_bind, Logged.result_lift]
  exact hsteps.result ⟨.document block, block.nodes, false⟩ ⟨rfl, List.Subset.refl _⟩

/-- Taking the block of a node apart fails by something in the node. -/
theorem runNode_failsBy {node : Node} {steps : Claiming α}
    (hsteps : ∀ block, FailsIn block steps) :
    FailsBy (IsNodeFault node) (run (.node node) steps).result := by
  rw [run, Logged.result_bind, Logged.result_lift]
  cases hblock : node.children with
  | none =>
      simp only [Claims.ofFocus, Focus.enterBlock, hblock]
      exact .error ⟨node, .self, .whole⟩
  | some block =>
      rw [Claims.ofFocus_node.mpr ⟨block, hblock, rfl⟩, ok_bind]
      apply ((hsteps block).result _ ⟨rfl, List.Subset.refl _⟩).mono
      intro failure hfault
      exact hfault.ofNode hblock

end Claiming

end ReverseProxy.Schema
