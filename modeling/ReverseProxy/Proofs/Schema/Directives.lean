import ReverseProxy.Proofs.Schema.Entries
import ReverseProxy.Schema.Claims

/-!
# Taking a block apart

When the steps that claim the directives of a block succeed, and which directives they leave.
-/

namespace ReverseProxy

open Kdl

def nodesNamed (name : String) (nodes : List Node) : List Node :=
  nodes.filter fun node => node.name = name

theorem nodesNamed_append (name : String) (before after : List Node) :
    nodesNamed name (before ++ after) = nodesNamed name before ++ nodesNamed name after :=
  List.filter_append ..

theorem nodesNamed_cons (name : String) (node : Node) (nodes : List Node) :
    nodesNamed name (node :: nodes) =
      if node.name = name then node :: nodesNamed name nodes else nodesNamed name nodes := by
  simp [nodesNamed, List.filter_cons]

theorem mem_nodesNamed {name : String} {nodes : List Node} {node : Node} :
    node ∈ nodesNamed name nodes ↔ node ∈ nodes ∧ node.name = name := by
  rw [nodesNamed, List.mem_filter, decide_eq_true_iff]

theorem nodesNamed_eq_nil {name : String} {nodes : List Node} :
    nodesNamed name nodes = [] ↔ ∀ node ∈ nodes, node.name ≠ name := by
  rw [nodesNamed, List.filter_eq_nil_iff]
  exact forall₂_congr fun node _ => by simp

namespace Schema

/-! ### Claims

Directives are taken by name, the first one of several. What is left keeps its order, so that
nothing depends on when another name is asked for.
-/

/-- Only the block of a node can be taken apart. -/
theorem Claims.ofFocus_node {node : Node} {claims : Claims} :
    Claims.ofFocus (.node node) = .ok claims ↔
      ∃ block, node.children = some block ∧ claims = ⟨.document block, block.nodes, false⟩ := by
  cases hchildren : node.children with
  | none => simp [Claims.ofFocus, Focus.enterBlock, Focus.reject, reject, hchildren]
  | some block => simp [Claims.ofFocus, Focus.enterBlock, Focus.children, hchildren, eq_comm]

theorem Claims.ofFocus_document {block : Block Node} {claims : Claims} :
    Claims.ofFocus (.document block) = .ok claims ↔
      claims = ⟨.document block, block.nodes, false⟩ := by
  simp [Claims.ofFocus, Focus.children, eq_comm]

theorem Claims.takeFirst?_cons {node : Node} {name : String} (hname : node.name = name)
    (nodes : List Node) : Claims.takeFirst? name (node :: nodes) = some (node, nodes) := by
  rw [takeFirst?, if_pos hname]

/-- The node that is found is the first of its name, and the others keep their order. -/
theorem Claims.takeFirst?_eq_some {name : String} {pending others : List Node} {node : Node} :
    Claims.takeFirst? name pending = some (node, others) ↔
      node.name = name ∧ ∃ before after, pending = before ++ node :: after ∧
        others = before ++ after ∧ ∀ other ∈ before, other.name ≠ name := by
  induction pending generalizing others with
  | nil => simp [takeFirst?]
  | cons first pending ih =>
      rw [takeFirst?]
      split
      · next hfirst =>
        constructor
        · rintro ⟨⟩
          exact ⟨hfirst, [], pending, rfl, rfl, nofun⟩
        · rintro ⟨-, before, after, hpending, rfl, hbefore⟩
          cases before with
          | nil =>
              obtain ⟨rfl, rfl⟩ := List.cons.inj hpending
              rfl
          | cons other before =>
              obtain ⟨rfl, -⟩ := List.cons.inj hpending
              exact absurd hfirst (hbefore first List.mem_cons_self)
      · next hfirst =>
        rw [Option.map_eq_some_iff]
        constructor
        · rintro ⟨⟨found, rest⟩, hrest, ⟨⟩⟩
          obtain ⟨hname, before, after, rfl, rfl, hbefore⟩ := ih.mp hrest
          exact ⟨hname, first :: before, after, rfl, rfl,
            List.forall_mem_cons.mpr ⟨hfirst, hbefore⟩⟩
        · rintro ⟨hname, before, after, hpending, rfl, hbefore⟩
          cases before with
          | nil =>
              obtain ⟨rfl, rfl⟩ := List.cons.inj hpending
              exact absurd hname hfirst
          | cons other before =>
              obtain ⟨rfl, rfl⟩ := List.cons.inj hpending
              have hothers := (List.forall_mem_cons.mp hbefore).2
              exact ⟨(node, before ++ after),
                ih.mpr ⟨hname, before, after, rfl, rfl, hothers⟩, rfl⟩

theorem Claims.takeFirst?_subset {name : String} {pending others : List Node} {node : Node}
    (hfound : Claims.takeFirst? name pending = some (node, others)) :
    node ∈ pending ∧ others ⊆ pending := by
  obtain ⟨-, before, after, rfl, rfl, -⟩ := takeFirst?_eq_some.mp hfound
  exact ⟨List.mem_append_right before List.mem_cons_self,
    ((List.sublist_cons_self node after).append_left before).subset⟩

theorem Claims.takeFirst?_eq_none {name : String} {nodes : List Node} :
    Claims.takeFirst? name nodes = none ↔ ∀ node ∈ nodes, node.name ≠ name := by
  induction nodes with
  | nil => simp [takeFirst?]
  | cons node nodes ih =>
      by_cases hname : node.name = name
      · simp [takeFirst?, hname]
      · simp [takeFirst?, hname, ih]

/-- Taking the first node of a name away leaves the nodes of other names as they were. -/
theorem Claims.nodesNamed_of_takeFirst? {name : String} {nodes others : List Node}
    {node : Node} (hfound : Claims.takeFirst? name nodes = some (node, others)) :
    nodesNamed name nodes = node :: nodesNamed name others ∧
      (∀ other, other ≠ name → nodesNamed other nodes = nodesNamed other others) ∧
      nodes.Perm (node :: others) := by
  obtain ⟨hname, before, after, rfl, rfl, hbefore⟩ := takeFirst?_eq_some.mp hfound
  have hnone : nodesNamed name before = [] := nodesNamed_eq_nil.mpr hbefore
  refine ⟨?_, fun other hother => ?_, List.perm_middle⟩
  · rw [nodesNamed_append, nodesNamed_append, nodesNamed_cons, if_pos hname, hnone,
      List.nil_append, List.nil_append]
  · rw [nodesNamed_append, nodesNamed_append, nodesNamed_cons,
      if_neg fun hsame => hother (hsame.symm.trans hname)]

theorem Claims.names_of_takeFirst? {name : String} {nodes others : List Node} {node : Node}
    (hfound : Claims.takeFirst? name nodes = some (node, others)) :
    others.map Node.name = (nodes.map Node.name).erase name := by
  obtain ⟨rfl, before, after, rfl, rfl, hbefore⟩ := takeFirst?_eq_some.mp hfound
  have habsent : node.name ∉ before.map Node.name := by
    intro hmem
    obtain ⟨other, hother, hname⟩ := List.mem_map.mp hmem
    exact hbefore other hother hname
  rw [List.map_append, List.map_append, List.map_cons, List.erase_append_right _ habsent,
    List.erase_cons_head]

theorem Claims.takeFirst?_of_nodesNamed {name : String} {nodes rest : List Node} {node : Node}
    (hnamed : nodesNamed name nodes = node :: rest) :
    ∃ others, takeFirst? name nodes = some (node, others) ∧ nodesNamed name others = rest := by
  cases hfound : takeFirst? name nodes with
  | none =>
      have hmem : node ∈ nodesNamed name nodes := hnamed ▸ List.mem_cons_self
      obtain ⟨hnode, hname⟩ := mem_nodesNamed.mp hmem
      exact absurd hname (takeFirst?_eq_none.mp hfound node hnode)
  | some found =>
      obtain ⟨first, others⟩ := found
      obtain ⟨hfirst, -, -⟩ := nodesNamed_of_takeFirst? hfound
      obtain ⟨rfl, hothers⟩ := List.cons.inj (hfirst.symm.trans hnamed)
      exact ⟨others, rfl, hothers⟩

inductive Claims.Takes (name : String) (nodes : List Node) : Option Node → List Node → Prop
  | nothing (hnone : takeFirst? name nodes = none) : Takes name nodes none nodes
  | first {node : Node} {others : List Node}
      (hfound : takeFirst? name nodes = some (node, others)) : Takes name nodes (some node) others

section Takes

variable {name : String} {nodes others : List Node} {found : Option Node}

theorem Claims.Takes.name_eq (htakes : Takes name nodes found others) :
    ∀ node ∈ found, node.name = name := by
  cases htakes with
  | nothing => nofun
  | first hfound =>
      rintro node ⟨⟩
      exact (takeFirst?_eq_some.mp hfound).1

theorem Claims.Takes.nodesNamed (htakes : Takes name nodes found others) :
    nodesNamed name nodes = found.toList ++ nodesNamed name others := by
  cases htakes with
  | nothing => rfl
  | first hfound => exact (nodesNamed_of_takeFirst? hfound).1

/-- Taking a node of one name leaves those of the others alone. -/
theorem Claims.Takes.nodesNamed_of_ne (htakes : Takes name nodes found others) {other : String}
    (hother : other ≠ name) :
    ReverseProxy.nodesNamed other nodes = ReverseProxy.nodesNamed other others := by
  cases htakes with
  | nothing => rfl
  | first hfound => exact (nodesNamed_of_takeFirst? hfound).2.1 other hother

theorem Claims.Takes.mem_iff (htakes : Takes name nodes found others) {node : Node} :
    node ∈ nodes ↔ node ∈ found ∨ node ∈ others := by
  cases htakes with
  | nothing => simp
  | first hfound =>
      rw [(nodesNamed_of_takeFirst? hfound).2.2.mem_iff, List.mem_cons, Option.mem_some_iff,
        eq_comm]

/-- A name that at most one node has is gone once that node is taken. -/
theorem Claims.exists_takes (hnamed : ReverseProxy.nodesNamed name nodes = found.toList) :
    ∃ others, Takes name nodes found others ∧ ReverseProxy.nodesNamed name others = [] := by
  cases found with
  | none =>
      exact ⟨nodes, .nothing (takeFirst?_eq_none.mpr (nodesNamed_eq_nil.mp hnamed)), hnamed⟩
  | some node =>
      obtain ⟨others, hfound, hrest⟩ := takeFirst?_of_nodesNamed hnamed
      exact ⟨others, .first hfound, hrest⟩

end Takes

/-- Each name in turn takes its node, if it has one, and in the end nothing is left. -/
inductive Claims.TakesAll : List (String × Option Node) → List Node → Prop
  | done : TakesAll [] []
  | step {name : String} {found : Option Node} {wanted : List (String × Option Node)}
      {nodes others : List Node} (htakes : Takes name nodes found others)
      (hrest : TakesAll wanted others) : TakesAll ((name, found) :: wanted) nodes

/-- Distinct names use up the nodes exactly if each node has one of them and no two the same. -/
theorem Claims.takesAll_iff {wanted : List (String × Option Node)} {nodes : List Node}
    (hnodup : (wanted.map Prod.fst).Nodup) :
    TakesAll wanted nodes ↔
      (∀ pair ∈ wanted, ReverseProxy.nodesNamed pair.1 nodes = pair.2.toList) ∧
        ∀ node ∈ nodes, node.name ∈ wanted.map Prod.fst := by
  induction wanted generalizing nodes with
  | nil =>
      constructor
      · rintro ⟨⟩
        exact ⟨nofun, nofun⟩
      · rintro ⟨-, hnone⟩
        obtain rfl : nodes = [] := List.eq_nil_iff_forall_not_mem.mpr fun node hnode =>
          List.not_mem_nil (hnone node hnode)
        exact .done
  | cons pair wanted ih =>
      obtain ⟨name, found⟩ := pair
      obtain ⟨hnew, hnodup⟩ : name ∉ wanted.map Prod.fst ∧ (wanted.map Prod.fst).Nodup :=
        List.nodup_cons.mp hnodup
      have hother : ∀ pair ∈ wanted, pair.1 ≠ name := by
        rintro pair hpair rfl
        exact hnew (List.mem_map_of_mem (f := Prod.fst) hpair)
      rw [List.forall_mem_cons]
      constructor
      · rintro (_ | ⟨htakes, hrest⟩)
        obtain ⟨hnamed, hnames⟩ := (ih hnodup).mp hrest
        refine ⟨⟨?_, fun pair hpair => ?_⟩, fun node hnode => ?_⟩
        -- Once the name has taken its node, what is left has other names.
        · have hnone : ReverseProxy.nodesNamed name _ = [] := nodesNamed_eq_nil.mpr
            fun node hnode (hname : node.name = name) => hnew (hname ▸ hnames node hnode)
          rw [htakes.nodesNamed, hnone, List.append_nil]
        · rw [htakes.nodesNamed_of_ne (hother pair hpair), hnamed pair hpair]
        · rcases htakes.mem_iff.mp hnode with hfound | hnode
          · exact htakes.name_eq node hfound ▸ List.mem_cons_self
          · exact List.mem_cons_of_mem _ (hnames node hnode)
      · rintro ⟨⟨hfound, hnamed⟩, hnames⟩
        obtain ⟨others, htakes, hnone⟩ := exists_takes hfound
        refine .step htakes ((ih hnodup).mpr ⟨fun pair hpair => ?_, fun node hnode => ?_⟩)
        · rw [← htakes.nodesNamed_of_ne (hother pair hpair), hnamed pair hpair]
        · have hname := hnames node (htakes.mem_iff.mpr (.inr hnode))
          exact (List.mem_cons.mp hname).resolve_left (nodesNamed_eq_nil.mp hnone node hnode)

theorem filter_other_eq_nil {name : String} {nodes : List Node} :
    nodes.filter (fun node => node.name ≠ name) = [] ↔ ∀ node ∈ nodes, node.name = name := by
  rw [List.filter_eq_nil_iff]
  exact forall₂_congr fun node _ => by simp

theorem filter_named_eq_self {name : String} {nodes : List Node}
    (hnames : ∀ node ∈ nodes, node.name = name) :
    nodes.filter (fun node => node.name = name) = nodes :=
  List.filter_eq_self.mpr fun node hnode => decide_eq_true (hnames node hnode)

namespace Claiming

variable {α β : Type} {claims left : Claims}

def outcome (step : Claiming α) (claims : Claims) : Checked (α × Claims) :=
  (step claims).1.result.map fun value => (value, (step claims).2)

@[simp]
theorem outcome_pure (value : α) : outcome (pure value) claims = .ok (value, claims) := rfl

/-- Steps in turn work on the claims that are left. -/
@[simp]
theorem outcome_bind (first : Claiming α) (next : α → Claiming β) :
    outcome (first >>= next) claims =
      outcome first claims >>= fun found => outcome (next found.1) found.2 := by
  rcases hfirst : first claims with ⟨⟨log, failure | value⟩, after⟩
  · have hstep : (first >>= next) claims = (⟨log, .error failure⟩, after) := by
      simp only [bind, hfirst]
    rw [outcome, outcome, hstep, hfirst]
    rfl
  · have hstep : (first >>= next) claims =
        (⟨log ++ (next value after).1.log, (next value after).1.result⟩, (next value after).2) := by
      simp only [bind, hfirst]
    rw [outcome, outcome, hstep, hfirst]
    rfl

theorem outcome_eq_ok {step : Claiming α} {value : α} :
    outcome step claims = .ok (value, left) ↔
      (step claims).1.result = .ok value ∧ (step claims).2 = left := by
  unfold outcome
  cases (step claims).1.result with
  | error failure => simp [Except.map]
  | ok found => simp [Except.map]

theorem outcome_lift {check : Checked α} {value : α} :
    outcome (lift check) claims = .ok (value, left) ↔ check = .ok value ∧ left = claims := by
  rw [outcome_eq_ok, lift, Logged.result_lift, eq_comm (a := claims)]

@[simp]
theorem outcome_note (event : Event) : outcome (note event) claims = .ok ((), claims) := rfl

/-- A block is taken apart from all of its directives on. -/
theorem result_run {focus : Focus} {steps : Claiming α} {value : α} :
    (run focus steps).result = .ok value ↔
      ∃ claims left, Claims.ofFocus focus = .ok claims ∧
        outcome steps claims = .ok (value, left) := by
  rw [run, Logged.result_bind, Logged.result_lift, bind_eq_ok]
  refine exists_congr fun claims => ?_
  constructor
  · rintro ⟨hclaims, hvalue⟩
    exact ⟨_, hclaims, outcome_eq_ok.mpr ⟨hvalue, rfl⟩⟩
  · rintro ⟨left, hclaims, hsteps⟩
    exact ⟨hclaims, (outcome_eq_ok.mp hsteps).1⟩

/-- The block of a node is taken apart as a document of its own would be. -/
theorem result_run_node {node : Node} {steps : Claiming α} {value : α} :
    (run (.node node) steps).result = .ok value ↔
      ∃ block, node.children = some block ∧ (run (.document block) steps).result = .ok value := by
  simp only [result_run, Claims.ofFocus_node, Claims.ofFocus_document]
  constructor
  · rintro ⟨claims, left, ⟨block, hblock, hclaims⟩, hsteps⟩
    exact ⟨block, hblock, claims, left, hclaims, hsteps⟩
  · rintro ⟨block, hblock, claims, left, hclaims, hsteps⟩
    exact ⟨claims, left, ⟨block, hblock, hclaims⟩, hsteps⟩

section Open

variable {name : String} {extract : Focus → Check α} (hopen : claims.ended = false)

include hopen

theorem unlessEnded_eq_ok {problem : Problem} {step : Claims → Check α × Claims} {value : α} :
    outcome (unlessEnded problem step) claims = .ok (value, left) ↔
      (step claims).1.result = .ok value ∧ (step claims).2 = left := by
  have hstep : unlessEnded problem step claims = step claims := if_neg (by simp [hopen])
  rw [outcome_eq_ok, hstep]

/-- A required directive is there, and is read. -/
theorem required_eq_ok {value : α} :
    outcome (required name extract) claims = .ok (value, left) ↔
      ∃ node others, Claims.takeFirst? name claims.pending = some (node, others) ∧
        (extract (.node node)).result = .ok value ∧ left = { claims with pending := others } := by
  refine (unlessEnded_eq_ok hopen).trans ?_
  cases Claims.takeFirst? name claims.pending with
  | none => simp [Focus.reject, reject]
  | some found =>
      obtain ⟨node, others⟩ := found
      constructor
      · rintro ⟨hvalue, rfl⟩
        exact ⟨node, others, rfl, hvalue, rfl⟩
      · rintro ⟨_, _, ⟨⟩, hvalue, rfl⟩
        exact ⟨hvalue, rfl⟩

/-- An optional directive is read if it is there. -/
theorem optional_eq_ok {value : Option α} :
    outcome (optional name extract) claims = .ok (value, left) ↔
      ∃ node others, Claims.Takes name claims.pending node others ∧
        Option.Rel (fun node value => (extract (.node node)).result = .ok value) node value ∧
        left = { claims with pending := others } := by
  refine (unlessEnded_eq_ok hopen).trans ?_
  cases htaken : Claims.takeFirst? name claims.pending with
  | none =>
      constructor
      · rintro ⟨⟨⟩, rfl⟩
        exact ⟨none, _, .nothing htaken, .none, rfl⟩
      · rintro ⟨_, _, _ | hfound, hread, rfl⟩
        · cases hread
          exact ⟨rfl, rfl⟩
        · cases htaken.symm.trans hfound
  | some taken =>
      obtain ⟨node, others⟩ := taken
      constructor
      · rintro ⟨hvalue, rfl⟩
        obtain ⟨found, hread, rfl⟩ := map_eq_ok.mp ((Logged.result_map _ _).symm.trans hvalue)
        exact ⟨some node, others, .first htaken, .some hread, rfl⟩
      · rintro ⟨_, _, hnone | hfound, hread, rfl⟩
        · cases htaken.symm.trans hnone
        · cases htaken.symm.trans hfound
          cases hread with
          | some hread =>
          exact ⟨(Logged.result_map _ _).trans (map_eq_ok.mpr ⟨_, hread, rfl⟩), rfl⟩

omit hopen in
/-- The directives of a name are read in order, and the others are left. -/
theorem takeEach_eq (name : String) (extract : Focus → Check α) (nodes : List Node) :
    (takeEach name extract nodes).1.result.map
        (fun values => (values, (takeEach name extract nodes).2)) =
      ((nodesNamed name nodes).mapM fun node => (extract (.node node)).result).map
        fun values => (values, nodes.filter fun node => node.name ≠ name) := by
  induction nodes with
  | nil => rfl
  | cons node nodes ih =>
      rcases htaken : takeEach name extract nodes with ⟨⟨log, result⟩, left⟩
      rcases hfirst : extract (.node node) with ⟨firstLog, first⟩
      generalize hread :
        (nodesNamed name nodes).mapM (fun node => (extract (.node node)).result) = read
        at ih
      rw [htaken] at ih
      by_cases hname : node.name = name
      · simp only [takeEach, nodesNamed_cons, hname, if_true, htaken, hfirst]
        cases first <;> cases result <;> cases read <;> cases ih <;>
          simp [hfirst, hread, hname, Except.map]
      · simp only [takeEach, nodesNamed_cons, hname, if_false, htaken, hread]
        cases result <;> cases read <;> cases ih <;> simp [hname, Except.map]

omit hopen in
theorem takeEach_eq_ok {nodes others : List Node} {values : List α} :
    (takeEach name extract nodes).1.result = .ok values ∧
        (takeEach name extract nodes).2 = others ↔
      List.Forall₂ (fun node value => (extract (.node node)).result = .ok value)
          (nodes.filter fun node => node.name = name) values ∧
        others = nodes.filter fun node => node.name ≠ name := by
  have hpair : (takeEach name extract nodes).1.result = .ok values ∧
      (takeEach name extract nodes).2 = others ↔
        (takeEach name extract nodes).1.result.map
          (fun values => (values, (takeEach name extract nodes).2)) = .ok (values, others) := by
    simp [except_map_eq_ok]
  rw [hpair, takeEach_eq name extract, except_map_eq_ok]
  simp only [mapM_eq_ok, Prod.mk.injEq]
  constructor
  · rintro ⟨_, hall, rfl, rfl⟩
    exact ⟨hall, rfl⟩
  · rintro ⟨hall, rfl⟩
    exact ⟨values, hall, rfl, rfl⟩

/-- All directives of a name are read, in order. -/
theorem repeated_eq_ok {values : List α} :
    outcome (repeated name extract) claims = .ok (values, left) ↔
      List.Forall₂ (fun node value => (extract (.node node)).result = .ok value)
          (claims.pending.filter fun node => node.name = name) values ∧
        left = { claims with pending := claims.pending.filter fun node => node.name ≠ name } := by
  refine (unlessEnded_eq_ok hopen).trans ?_
  dsimp only
  constructor
  · rintro ⟨hvalues, rfl⟩
    obtain ⟨hall, hleft⟩ := takeEach_eq_ok.mp ⟨hvalues, rfl⟩
    exact ⟨hall, by rw [hleft]⟩
  · rintro ⟨hall, rfl⟩
    obtain ⟨hvalues, hleft⟩ := takeEach_eq_ok.mpr ⟨hall, rfl⟩
    exact ⟨hvalues, by rw [hleft]⟩

/-- A block ends well exactly if nothing in it is left. -/
theorem finish_eq_ok :
    outcome finish claims = .ok ((), left) ↔
      claims.pending = [] ∧ left = { claims with ended := true } := by
  refine (unlessEnded_eq_ok hopen).trans ?_
  cases claims.pending with
  | nil => simp [eq_comm]
  | cons node nodes => simp [Focus.reject, reject]

end Open

end Claiming

end Schema

end ReverseProxy
