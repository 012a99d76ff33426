import ReverseProxy.Proofs.Schema.Directives

/-!
# No directive is lost

Whatever is called on a block, in whatever order and whichever extractor fails, each directive of
the block is either pending or was handed to an extractor, once. The invariant says so name by name:
what was handed out under a name, followed by what is pending under it, are the directives of that
name as they stand in the block. A call keeps it because it moves directives from the front of the
second list to the end of the first.
-/

namespace ReverseProxy.Schema

open Kdl

/-- A call on a block. An extractor may yield values of any type, and it may fail. -/
inductive Call : Type 1 where
  | required {α : Type} (name : String) (extract : Focus → Check α)
  | optional {α : Type} (name : String) (extract : Focus → Check α)
  | repeated {α : Type} (name : String) (extract : Focus → Check α)
  | finish

namespace Call

def forget {α : Type} (step : Claiming α) : Claiming Unit := fun claims =>
  ((fun _ => ()) <$> (step claims).1, (step claims).2)

def step : Call → Claiming Unit
  | required name extract => forget (Claiming.required name extract)
  | optional name extract => forget (Claiming.optional name extract)
  | repeated name extract => forget (Claiming.repeated name extract)
  | finish => Claiming.finish

def uptoFailure {α : Type} (extract : Focus → Check α) : List Node → List Node
  | [] => []
  | node :: nodes =>
      node :: if (extract (.node node)).result.isOk then uptoFailure extract nodes else []

def wanted (pending : List Node) : Call → List Node
  | required name _ => (nodesNamed name pending).take 1
  | optional name _ => (nodesNamed name pending).take 1
  | repeated name extract => uptoFailure extract (nodesNamed name pending)
  | finish => []

/-- The directives that the call hands to its extractor, in order. -/
def handed (claims : Claims) (call : Call) : List Node :=
  if claims.ended then [] else call.wanted claims.pending

def attempt : Call → Node → Check Unit
  | required _ extract, node => (fun _ => ()) <$> extract (.node node)
  | optional _ extract, node => (fun _ => ()) <$> extract (.node node)
  | repeated _ extract, node => (fun _ => ()) <$> extract (.node node)
  | finish, _ => pure ()

def IsServed (claims : Claims) : Call → Prop
  | required name _ => claims.ended = false ∧ ∃ node ∈ claims.pending, node.name = name
  | optional _ _ => claims.ended = false
  | repeated _ _ => claims.ended = false
  | finish => False

end Call

/-- The claims on a block, and the directives that were handed out so far. -/
structure Ledger where
  claims : Claims
  handed : List Node

namespace Ledger

/-- A call leaves its mark whether it fails or not. -/
def call (ledger : Ledger) (call : Call) : Ledger :=
  ⟨(call.step ledger.claims).2, ledger.handed ++ call.handed ledger.claims⟩

def run (claims : Claims) (calls : List Call) : Ledger := calls.foldl Ledger.call ⟨claims, []⟩

end Ledger

/-- The directives of a block, divided into some that were handed out and those that are left. -/
structure Divides (whole handed left : List Node) : Prop where
  left_sublist : left.Sublist whole
  perm : (handed ++ left).Perm whole
  ordered : ∀ name, nodesNamed name handed ++ nodesNamed name left = nodesNamed name whole

namespace Divides

variable {whole middle left first second : List Node}

theorem refl (whole : List Node) : Divides whole [] whole :=
  ⟨List.Sublist.refl whole, List.Perm.refl whole, fun _ => rfl⟩

/-- What is handed out in two goes is handed out. -/
theorem trans (hfirst : Divides whole first middle) (hsecond : Divides middle second left) :
    Divides whole (first ++ second) left where
  left_sublist := hsecond.left_sublist.trans hfirst.left_sublist
  perm := by
    rw [List.append_assoc]
    exact (hsecond.perm.append_left first).trans hfirst.perm
  ordered name := by
    rw [nodesNamed_append, List.append_assoc, hsecond.ordered, hfirst.ordered]

theorem head (node : Node) (nodes : List Node) : Divides (node :: nodes) [node] nodes where
  left_sublist := List.sublist_cons_self node nodes
  perm := List.Perm.refl _
  ordered name := (nodesNamed_append name [node] nodes).symm

/-- A node of another name is passed over. -/
theorem skip {handed : List Node} {node : Node} (hdivides : Divides whole handed left)
    (hother : ∀ taken ∈ handed, taken.name ≠ node.name) :
    Divides (node :: whole) handed (node :: left) where
  left_sublist := hdivides.left_sublist.cons_cons node
  perm := List.perm_middle.trans (hdivides.perm.cons node)
  ordered name := by
    rw [nodesNamed_cons, nodesNamed_cons, ← hdivides.ordered name]
    by_cases hname : node.name = name
    · have hnone : nodesNamed name handed = [] := nodesNamed_eq_nil.mpr (hname ▸ hother)
      rw [if_pos hname, if_pos hname, hnone, List.nil_append, List.nil_append]
    · rw [if_neg hname, if_neg hname]

/-- Taking the first node of a name divides a block. -/
theorem takeFirst {name : String} {node : Node}
    (hfound : Claims.takeFirst? name whole = some (node, left)) : Divides whole [node] left := by
  obtain ⟨hnamed, hothers, hperm⟩ := Claims.nodesNamed_of_takeFirst? hfound
  obtain ⟨hname, before, after, hwhole, hleft, -⟩ := Claims.takeFirst?_eq_some.mp hfound
  refine ⟨?_, hperm.symm, fun other => ?_⟩
  · rw [hwhole, hleft]
    exact (List.sublist_cons_self node after).append_left before
  · rw [nodesNamed_cons]
    by_cases hother : node.name = other
    · rw [if_pos hother, ← hother, hname, hnamed]
      rfl
    · rw [if_neg hother, hothers other fun hsame => hother (hname.trans hsame.symm)]
      rfl

end Divides

/-! ### What a call does

A call hands out some of the pending directives and leaves the others, or fails and leaves all of
them; this is said once for each kind of call, and once for all of them in `step_divides`.
-/

theorem Claims.ofFocus_of_children {focus : Focus} {children : List Node}
    (hchildren : focus.children = .ok children) :
    ∃ claims, Claims.ofFocus focus = .ok claims ∧ claims.ended = false ∧
      claims.pending = children := by
  cases focus with
  | document block =>
      cases hchildren
      exact ⟨_, Claims.ofFocus_document.mpr rfl, rfl, rfl⟩
  | node node =>
      obtain ⟨block, hblock, rfl⟩ := Focus.children_node.mp hchildren
      exact ⟨_, Claims.ofFocus_node.mpr ⟨block, hblock, rfl⟩, rfl, rfl⟩

section Calls

variable {α : Type} {claims : Claims} {name : String} {extract : Focus → Check α}

theorem mem_of_mem_uptoFailure {nodes : List Node} {node : Node}
    (hnode : node ∈ Call.uptoFailure extract nodes) : node ∈ nodes := by
  induction nodes with
  | nil => exact hnode
  | cons first nodes ih =>
      rw [Call.uptoFailure] at hnode
      rcases List.mem_cons.mp hnode with rfl | hrest
      · exact List.mem_cons_self
      · split at hrest
        · exact List.mem_cons_of_mem first (ih hrest)
        · exact (List.not_mem_nil hrest).elim

/-- Only the last of them may be one that cannot be read. -/
theorem read_of_mem_dropLast_uptoFailure {nodes : List Node} {node : Node}
    (hnode : node ∈ (Call.uptoFailure extract nodes).dropLast) :
    ∃ value, (extract (.node node)).result = .ok value := by
  induction nodes with
  | nil => exact (List.not_mem_nil hnode).elim
  | cons first nodes ih =>
      rw [Call.uptoFailure] at hnode
      split at hnode
      · next hread =>
        cases hrest : Call.uptoFailure extract nodes with
        | nil =>
            rw [hrest] at hnode
            exact (List.not_mem_nil hnode).elim
        | cons second others =>
            rw [hrest] at hnode ih
            rcases List.mem_cons.mp hnode with rfl | hlater
            · exact exists_of_isOk hread
            · exact ih hlater
      · exact (List.not_mem_nil hnode).elim

/-- Reading each node of a name divides a block, and stops at the first that cannot be read. -/
theorem takeEach_divides (name : String) (extract : Focus → Check α) (nodes : List Node) :
    Divides nodes (Call.uptoFailure extract (nodesNamed name nodes))
      (Claiming.takeEach name extract nodes).2 := by
  induction nodes with
  | nil => exact .refl []
  | cons node nodes ih =>
      rw [nodesNamed_cons, Claiming.takeEach]
      by_cases hname : node.name = name
      · rw [if_pos hname, if_pos hname, Call.uptoFailure]
        rcases hread : extract (.node node) with ⟨log, failure | value⟩
        · exact .head node nodes
        · exact (Divides.head node nodes).trans ih
      · rw [if_neg hname, if_neg hname]
        refine ih.skip fun taken htaken hsame => hname ?_
        have hnamed := (mem_nodesNamed.mp (mem_of_mem_uptoFailure htaken)).2
        exact hsame.symm.trans hnamed

theorem forget_takeEach (name : String) (extract : Focus → Check α) (nodes : List Node) :
    (fun _ => ()) <$> (Claiming.takeEach name extract nodes).1 =
      (Call.uptoFailure extract (nodesNamed name nodes)).forM fun node =>
        (fun _ => ()) <$> extract (.node node) := by
  induction nodes with
  | nil => rfl
  | cons node nodes ih =>
      rw [nodesNamed_cons, Claiming.takeEach]
      by_cases hname : node.name = name
      · rw [if_pos hname, if_pos hname, Call.uptoFailure]
        change _ = (((fun _ => ()) <$> extract (.node node)) >>= fun _ => List.forM _ _)
        rcases extract (.node node) with ⟨log, failure | value⟩
        · rfl
        · change _ = _ >>= fun _ => (Call.uptoFailure extract (nodesNamed name nodes)).forM _
          rw [← ih, bind_map_left]
          rcases Claiming.takeEach name extract nodes with ⟨⟨restLog, failure | values⟩, left⟩
          · rfl
          · change (⟨(log ++ restLog) ++ [], .ok ()⟩ : Check Unit) =
              ⟨log ++ (restLog ++ []), .ok ()⟩
            rw [List.append_assoc]
      · rw [if_neg hname, if_neg hname]
        exact ih

theorem unlessEnded_of_ended {problem : Problem} {step : Claims → Check α × Claims}
    (hended : claims.ended = true) :
    Claiming.unlessEnded problem step claims =
      (⟨[], .error (.located problem claims.focus.span)⟩, claims) :=
  if_pos hended

theorem unlessEnded_of_open {problem : Problem} {step : Claims → Check α × Claims}
    (hopen : claims.ended = false) : Claiming.unlessEnded problem step claims = step claims :=
  if_neg (by simp [hopen])

section Open

variable (hopen : claims.ended = false)

include hopen

theorem required_of_found {node : Node} {others : List Node}
    (hfound : Claims.takeFirst? name claims.pending = some (node, others)) :
    Claiming.required name extract claims =
      (extract (.node node), { claims with pending := others }) := by
  refine (unlessEnded_of_open hopen).trans ?_
  simp only [hfound]

theorem required_of_absent (habsent : Claims.takeFirst? name claims.pending = none) :
    Claiming.required name extract claims =
      (⟨[], .error (.located (.noDirective name) claims.focus.span)⟩, claims) := by
  refine (unlessEnded_of_open hopen).trans ?_
  simp only [habsent]
  rfl

omit hopen in
/-- Whether the block has ended or not. -/
theorem required_of_missing (habsent : ∀ node ∈ claims.pending, node.name ≠ name) :
    (∃ failure, (Claiming.required name extract claims).1.result = .error failure) ∧
      (Claiming.required name extract claims).2 = claims := by
  have hstep : ∃ failure,
      Claiming.required name extract claims = (⟨[], .error failure⟩, claims) := by
    cases hended : claims.ended with
    | true => exact ⟨_, unlessEnded_of_ended hended⟩
    | false => exact ⟨_, required_of_absent hended (Claims.takeFirst?_eq_none.mpr habsent)⟩
  obtain ⟨failure, hstep⟩ := hstep
  rw [hstep]
  exact ⟨⟨failure, rfl⟩, rfl⟩

theorem optional_of_found {node : Node} {others : List Node}
    (hfound : Claims.takeFirst? name claims.pending = some (node, others)) :
    Claiming.optional name extract claims =
      (some <$> extract (.node node), { claims with pending := others }) := by
  refine (unlessEnded_of_open hopen).trans ?_
  simp only [hfound]

theorem optional_of_absent (habsent : Claims.takeFirst? name claims.pending = none) :
    Claiming.optional name extract claims = (pure none, claims) := by
  refine (unlessEnded_of_open hopen).trans ?_
  simp only [habsent]

theorem repeated_of_open :
    Claiming.repeated name extract claims =
      ((Claiming.takeEach name extract claims.pending).1,
        { claims with pending := (Claiming.takeEach name extract claims.pending).2 }) :=
  unlessEnded_of_open hopen

theorem finish_of_nil (hnil : claims.pending = []) :
    Claiming.finish claims = (Logged.note .blockDone, { claims with ended := true }) := by
  refine (unlessEnded_of_open hopen).trans ?_
  simp only [hnil]

theorem finish_of_cons {node : Node} {others : List Node}
    (hcons : claims.pending = node :: others) :
    Claiming.finish claims =
      (⟨[], .error (.located (.unknownDirective node.name) node.span)⟩,
        { claims with ended := true }) := by
  refine (unlessEnded_of_open hopen).trans ?_
  simp only [hcons]
  rfl

end Open

end Calls

namespace Call

variable {α : Type} {claims left : Claims} {name : String} {extract : Focus → Check α}

theorem forget_eq {step : Claiming α} {check : Check α} (hstep : step claims = (check, left)) :
    forget step claims = ((fun _ => ()) <$> check, left) := by
  rw [forget, hstep]

/-- Once the block has ended every call fails, and nothing changes. -/
theorem step_of_ended (hended : claims.ended = true) (call : Call) :
    (∃ failure, (call.step claims).1.result = .error failure) ∧ (call.step claims).2 = claims ∧
      call.handed claims = [] := by
  have hstep : ∃ failure, call.step claims = (⟨[], .error failure⟩, claims) := by
    cases call with
    | required name extract => exact ⟨_, forget_eq (unlessEnded_of_ended hended)⟩
    | optional name extract => exact ⟨_, forget_eq (unlessEnded_of_ended hended)⟩
    | repeated name extract => exact ⟨_, forget_eq (unlessEnded_of_ended hended)⟩
    | finish => exact ⟨_, (unlessEnded_of_ended hended : Claiming.finish claims = _)⟩
  obtain ⟨failure, hstep⟩ := hstep
  rw [hstep]
  exact ⟨⟨failure, rfl⟩, rfl, if_pos hended⟩

theorem take_nodesNamed_of_found {node : Node} {nodes others : List Node}
    (hfound : Claims.takeFirst? name nodes = some (node, others)) :
    (nodesNamed name nodes).take 1 = [node] := by
  rw [(Claims.nodesNamed_of_takeFirst? hfound).1]
  rfl

theorem nodesNamed_of_absent {nodes : List Node}
    (habsent : Claims.takeFirst? name nodes = none) : nodesNamed name nodes = [] :=
  nodesNamed_eq_nil.mpr (Claims.takeFirst?_eq_none.mp habsent)

theorem handed_of_open (hopen : claims.ended = false) (call : Call) :
    call.handed claims = call.wanted claims.pending :=
  if_neg (by simp [hopen])

/-- While the block is open, only its end does not divide what is pending. -/
theorem step_of_open (hopen : claims.ended = false) (call : Call) :
    (call = .finish ∧ (call.step claims).2 = { claims with ended := true }) ∨
      (call ≠ .finish ∧ ∃ left, (call.step claims).2 = { claims with pending := left } ∧
        Divides claims.pending (call.wanted claims.pending) left) := by
  cases call with
  | required name extract =>
      refine .inr ⟨nofun, ?_⟩
      cases hfound : Claims.takeFirst? name claims.pending with
      | none =>
          rw [step, forget_eq (required_of_absent hopen hfound), wanted,
            nodesNamed_of_absent hfound]
          exact ⟨claims.pending, rfl, .refl claims.pending⟩
      | some found =>
          rw [step, forget_eq (required_of_found hopen hfound), wanted,
            take_nodesNamed_of_found hfound]
          exact ⟨found.2, rfl, .takeFirst hfound⟩
  | optional name extract =>
      refine .inr ⟨nofun, ?_⟩
      cases hfound : Claims.takeFirst? name claims.pending with
      | none =>
          rw [step, forget_eq (optional_of_absent hopen hfound), wanted,
            nodesNamed_of_absent hfound]
          exact ⟨claims.pending, rfl, .refl claims.pending⟩
      | some found =>
          rw [step, forget_eq (optional_of_found hopen hfound), wanted,
            take_nodesNamed_of_found hfound]
          exact ⟨found.2, rfl, .takeFirst hfound⟩
  | repeated name extract =>
      rw [step, forget_eq (repeated_of_open hopen)]
      exact .inr ⟨nofun, _, rfl, takeEach_divides name extract claims.pending⟩
  | finish =>
      refine .inl ⟨rfl, ?_⟩
      cases hpending : claims.pending with
      | nil => rw [step, finish_of_nil hopen hpending, hpending]
      | cons node others => rw [step, finish_of_cons hopen hpending, hpending]

/-- A call divides what was pending into what it hands out and what it leaves. -/
theorem step_divides (call : Call) (claims : Claims) :
    Divides claims.pending (call.handed claims) (call.step claims).2.pending := by
  cases hended : claims.ended with
  | true =>
      obtain ⟨-, hsame, hhanded⟩ := step_of_ended hended call
      rw [hsame, hhanded]
      exact .refl claims.pending
  | false =>
      rw [handed_of_open hended]
      rcases step_of_open hended call with ⟨rfl, hleft⟩ | ⟨-, left, hleft, hdivides⟩
      · rw [hleft]
        exact .refl claims.pending
      · rw [hleft]
        exact hdivides

/-- Only the end of a block ends it, and for good. -/
theorem ended_step (call : Call) (claims : Claims) :
    (call.step claims).2.ended = true ↔ claims.ended = true ∨ call = .finish := by
  cases hended : claims.ended with
  | true => simp [(step_of_ended hended call).2.1, hended]
  | false =>
      rcases step_of_open hended call with ⟨hfinish, hleft⟩ | ⟨hother, left, hleft, -⟩
      · rw [hleft]
        simp [hfinish]
      · rw [hleft]
        simp [hended, hother]

/-- A call that is served ends as its extractor does on what it is handed, one after the other. -/
theorem step_of_served {call : Call} (hserved : call.IsServed claims) :
    (call.step claims).1 = (call.handed claims).forM call.attempt := by
  cases call with
  | required name extract =>
      obtain ⟨hopen, node, hnode, hname⟩ := hserved
      cases hfound : Claims.takeFirst? name claims.pending with
      | none => exact absurd hname (Claims.takeFirst?_eq_none.mp hfound node hnode)
      | some found =>
          rw [handed_of_open hopen, wanted, take_nodesNamed_of_found hfound, step,
            forget_eq (required_of_found hopen hfound)]
          exact (bind_pure _).symm
  | optional name extract =>
      have hopen : claims.ended = false := hserved
      cases hfound : Claims.takeFirst? name claims.pending with
      | none =>
          rw [handed_of_open hopen, wanted, nodesNamed_of_absent hfound, step,
            forget_eq (optional_of_absent hopen hfound)]
          rfl
      | some found =>
          rw [handed_of_open hopen, wanted, take_nodesNamed_of_found hfound, step,
            forget_eq (optional_of_found hopen hfound), Functor.map_map]
          exact (bind_pure _).symm
  | repeated name extract =>
      have hopen : claims.ended = false := hserved
      rw [handed_of_open hopen, wanted, step, forget_eq (repeated_of_open hopen)]
      exact forget_takeEach name extract claims.pending
  | finish => exact hserved.elim

/-- All that was handed out was read, except perhaps the last. -/
theorem attempt_of_mem_dropLast {call : Call} {node : Node}
    (hnode : node ∈ (call.handed claims).dropLast) : (call.attempt node).result = .ok () := by
  have hshort {named : List Node} (hmem : node ∈ (named.take 1).dropLast) : False := by
    cases named <;> exact List.not_mem_nil hmem
  unfold handed at hnode
  split at hnode
  · exact (List.not_mem_nil hnode).elim
  · cases call with
    | required name extract => exact (hshort hnode).elim
    | optional name extract => exact (hshort hnode).elim
    | repeated name extract =>
        obtain ⟨value, hvalue⟩ := read_of_mem_dropLast_uptoFailure hnode
        rw [attempt, Logged.result_map, hvalue]
        rfl
    | finish => exact (List.not_mem_nil hnode).elim

end Call

namespace Ledger

/-- Calls keep the directives divided, whatever they are and however they end. -/
theorem foldl_call_divides {children : List Node} (calls : List Call) {ledger : Ledger}
    (hdivides : Divides children ledger.handed ledger.claims.pending) :
    Divides children (calls.foldl Ledger.call ledger).handed
      (calls.foldl Ledger.call ledger).claims.pending := by
  induction calls generalizing ledger with
  | nil => exact hdivides
  | cons call calls ih => exact ih (hdivides.trans (call.step_divides ledger.claims))

theorem ended_foldl_call (calls : List Call) (ledger : Ledger) :
    (calls.foldl Ledger.call ledger).claims.ended = true ↔
      ledger.claims.ended = true ∨ Call.finish ∈ calls := by
  induction calls generalizing ledger with
  | nil => simp
  | cons call calls ih =>
      rw [List.foldl_cons, ih, List.mem_cons, ← or_assoc, eq_comm (a := Call.finish)]
      exact or_congr_left (call.ended_step ledger.claims)

/-- **No directive is lost or read twice.** After any calls on a block, in whatever order and
whichever of them failed, its directives are those that were handed out, those of one name in the
order of the block, and those that are pending, in the order of the block. What the next call hands
out decides how it ends; one that needs a directive that is not there leaves everything as it was.
The first end of the block succeeds exactly if nothing is pending, and else points at the first
directive that is; from then on every call fails and changes nothing. -/
theorem run_conserves {focus : Focus} {children : List Node}
    (hchildren : focus.children = .ok children) :
    ∃ claims, Claims.ofFocus focus = .ok claims ∧ ∀ calls : List Call,
      let ledger := run claims calls
      let now := ledger.claims
      now.pending.Sublist children ∧ (ledger.handed ++ now.pending).Perm children ∧
        (∀ name, nodesNamed name ledger.handed ++ nodesNamed name now.pending =
          nodesNamed name children) ∧
        (∀ call : Call, call.IsServed now →
          (call.step now).1 = (call.handed now).forM call.attempt ∧
            ∀ node ∈ (call.handed now).dropLast, (call.attempt node).result = .ok ()) ∧
        (∀ (α : Type) (name : String) (extract : Focus → Check α),
          (∀ node ∈ now.pending, node.name ≠ name) →
            (∃ failure, (Claiming.required name extract now).1.result = .error failure) ∧
              (Claiming.required name extract now).2 = now) ∧
        ((Claiming.finish now).1.result = .ok () ↔ Call.finish ∉ calls ∧ now.pending = []) ∧
        (Call.finish ∉ calls → ∀ node others, now.pending = node :: others →
          (Claiming.finish now).1.result =
            .error (.located (.unknownDirective node.name) node.span)) ∧
        (Call.finish ∈ calls → ∀ call : Call,
          (∃ failure, (call.step now).1.result = .error failure) ∧ (call.step now).2 = now ∧
            call.handed now = []) := by
  obtain ⟨claims, hclaims, hopen, hpending⟩ := Claims.ofFocus_of_children hchildren
  refine ⟨claims, hclaims, fun calls => ?_⟩
  intro ledger now
  have hdivides : Divides children ledger.handed now.pending :=
    foldl_call_divides calls (hpending ▸ .refl claims.pending)
  -- Whether the block has ended is a matter of the calls alone.
  have hended : now.ended = true ↔ Call.finish ∈ calls := by
    refine (ended_foldl_call calls ⟨claims, []⟩).trans ?_
    simp [hopen]
  refine ⟨hdivides.left_sublist, hdivides.perm, hdivides.ordered,
    fun call hserved => ⟨Call.step_of_served hserved, fun _ => Call.attempt_of_mem_dropLast⟩,
    fun α name extract habsent => required_of_missing habsent, ?_, ?_,
    fun hfinish call => Call.step_of_ended (hended.mpr hfinish) call⟩
  · constructor
    · intro hdone
      cases hnow : now.ended with
      | true =>
          obtain ⟨⟨failure, hfails⟩, -⟩ := Call.step_of_ended hnow .finish
          cases hfails.symm.trans hdone
      | false =>
          refine ⟨fun hfinish => ?_, ?_⟩
          · cases hnow.symm.trans (hended.mpr hfinish)
          · exact ((Claiming.finish_eq_ok hnow).mp (Claiming.outcome_eq_ok.mpr ⟨hdone, rfl⟩)).1
    · rintro ⟨hfirst, hnil⟩
      have hnow : now.ended = false := Bool.eq_false_iff.mpr fun hnow => hfirst (hended.mp hnow)
      rw [finish_of_nil hnow hnil]
      rfl
  · intro hfirst node others hcons
    have hnow : now.ended = false := Bool.eq_false_iff.mpr fun hnow => hfirst (hended.mp hnow)
    rw [finish_of_cons hnow hcons]

/-- Of three directives of one name the second cannot be read; the third stays pending, even when
the block is ended. -/
theorem run_conserves_interrupted :
    let node (name : String) (entries : List Entry) (offset : Nat) : Node :=
      ⟨name, ⟨offset, 1⟩, ⟨offset, 1⟩, entries, none⟩
    let first := node "a" [] 0
    let other := node "b" [] 2
    let second := node "a" [⟨none, .null, ⟨5, 1⟩⟩] 4
    let third := node "a" [] 7
    let focus : Focus := .document ⟨[first, other, second, third], ⟨0, 8⟩⟩
    let extract (focus : Focus) : Check Unit := liftM (focus.validate [.noPositional])
    let calls : List Call := [.repeated "a" extract, .required "c" extract, .finish]
    focus.children = .ok [first, other, second, third] ∧
      ∃ claims, Claims.ofFocus focus = .ok claims ∧
        let ledger := run claims calls
        ledger.handed = [first, second] ∧ ledger.claims.pending = [other, third] ∧
          ([first, second] ++ [other, third]).Perm [first, other, second, third] ∧
          ∀ call : Call, (call.step ledger.claims).2 = ledger.claims := by
  intro node first other second third focus extract calls
  have hchildren : focus.children = .ok [first, other, second, third] := rfl
  obtain ⟨claims, hclaims, hcalls⟩ := run_conserves hchildren
  refine ⟨hchildren, claims, hclaims, ?_⟩
  obtain ⟨-, hperm, -, -, -, -, -, hended⟩ := hcalls calls
  obtain rfl : claims = ⟨focus, [first, other, second, third], false⟩ :=
    (Except.ok.inj hclaims).symm
  exact ⟨rfl, rfl, hperm, fun call => (hended (by simp [calls]) call).2.1⟩

end Ledger

end ReverseProxy.Schema
