import ReverseProxy.Log
import ReverseProxy.Schema.Focus

/-!
# Directives of a block

A block is taken apart by claiming its directives by name. What is left when the block is ended is
unknown, so that a misspelled directive is never passed over. A directive counts as claimed even if
reading it fails, and after a block has ended nothing more can be claimed.
-/

namespace ReverseProxy.Schema

open Kdl

abbrev Check := Logged (Failure Problem)

/-- The block in focus, its directives that nobody has claimed, and whether it has ended. -/
structure Claims where
  focus : Focus
  pending : List Node
  ended : Bool

namespace Claims

def ofFocus (focus : Focus) : Checked Claims := do
  let focus ← match focus with
    | .document _ => pure focus
    | .node _ => focus.enterBlock
  return ⟨focus, ← focus.children, false⟩

def pendingNames (claims : Claims) : List String := claims.pending.map Node.name

def takeFirst? (name : String) : List Node → Option (Node × List Node)
  | [] => none
  | node :: nodes =>
      if node.name = name then some (node, nodes)
      else (takeFirst? name nodes).map fun (found, others) => (found, node :: others)

end Claims

/-- A step of taking a block apart. It leaves the claims changed even if it fails. -/
def Claiming (α : Type) := Claims → Check α × Claims

namespace Claiming

variable {α β : Type}

instance : Monad Claiming where
  pure value claims := (pure value, claims)
  bind first next claims :=
    match first claims with
    | (⟨log, .ok value⟩, claims) =>
        let (check, claims) := next value claims
        (⟨log ++ check.log, check.result⟩, claims)
    | (⟨log, .error failure⟩, claims) => (⟨log, .error failure⟩, claims)

def unlessEnded (problem : Problem) (step : Claiming α) : Claiming α := fun claims =>
  if claims.ended then (liftM (claims.focus.reject (α := α) problem), claims) else step claims

def required (name : String) (extract : Focus → Check α) : Claiming α :=
  unlessEnded (.claimAfterEnd name) fun claims =>
    match Claims.takeFirst? name claims.pending with
    | some (node, pending) => (extract (.node node), { claims with pending })
    | none => (liftM (claims.focus.reject (α := α) (.noDirective name)), claims)

def optional (name : String) (extract : Focus → Check α) : Claiming (Option α) :=
  unlessEnded (.claimAfterEnd name) fun claims =>
    match Claims.takeFirst? name claims.pending with
    | some (node, pending) => (some <$> extract (.node node), { claims with pending })
    | none => (pure none, claims)

/-- Reads the nodes of a name one after the other, and which nodes are left. -/
def takeEach (name : String) (extract : Focus → Check α) : List Node → Check (List α) × List Node
  | [] => (pure [], [])
  | node :: nodes =>
      if node.name = name then
        match extract (.node node) with
        | ⟨log, .error failure⟩ => (⟨log, .error failure⟩, nodes)
        | ⟨log, .ok value⟩ =>
            let (check, left) := takeEach name extract nodes
            (⟨log ++ check.log, check.result.map (value :: ·)⟩, left)
      else
        let (check, left) := takeEach name extract nodes
        (check, node :: left)

def repeated (name : String) (extract : Focus → Check α) : Claiming (List α) :=
  unlessEnded (.claimAfterEnd name) fun claims =>
    let (check, pending) := takeEach name extract claims.pending
    (check, { claims with pending })

def finish : Claiming Unit :=
  unlessEnded .secondEnd fun claims =>
    match claims.pending with
    | [] => (Logged.note .blockDone, { claims with ended := true })
    | node :: _ =>
        (liftM ((Focus.node node).reject (α := Unit) (.unknownDirective node.name)),
          { claims with ended := true })

def fail (problem : Problem) : Claiming α := fun claims =>
  (liftM (claims.focus.reject (α := α) problem), claims)

def lift (check : Checked α) : Claiming α := fun claims => (liftM check, claims)

def note (event : Event) : Claiming Unit := fun claims => (Logged.note event, claims)

def run (focus : Focus) (steps : Claiming α) : Check α := do
  let claims ← liftM (Claims.ofFocus focus)
  (steps claims).1

end Claiming

end ReverseProxy.Schema
