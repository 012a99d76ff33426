import ReverseProxy.Schema.Focus

/-!
# Rules for nodes

Conditions on a node that are checked before anything is read from it. The first rule that does not
hold ends the check.
-/

namespace ReverseProxy.Schema

open Kdl

inductive Rule where
  | noBlock
  | noPositional
  /-- Named entries have one of these keys and a value of its kind. -/
  | onlyKeys (allowed : Dictionary ScalarKind)
  | nameIs (test : NameTest)

def NameTest.accepts (test : NameTest) (name : String) : Bool :=
  match test with
  | .socketAddress => (SocketAddress.parse name).isOk
  | .qualifiedName => (Fqdn.parse name).isOk

namespace Focus

def checkKey (allowed : Dictionary ScalarKind) (entry : Entry) : Checked Unit :=
  match entry.key with
  | none => .ok ()
  | some key =>
      match allowed.get? key with
      | none => Schema.reject (.keyNotAllowed key allowed.keys) entry.span
      | some expected =>
          if entry.value.kind = expected then .ok ()
          else Schema.reject (.keyKind key expected entry.value.kind) entry.span

def check (focus : Focus) : Rule → Checked Unit
  | .noBlock => do
      if ← focus.hasBlock then focus.reject (.hasBlock (← focus.name))
  | .noPositional => do
      match (← focus.entries).find? Entry.isPositional with
      | some entry => Schema.reject (.hasPositional (← focus.name)) entry.span
      | none => return ()
  | .onlyKeys allowed => do (← focus.entries).forM (checkKey allowed)
  | .nameIs test => do
      let name ← focus.name
      if test.accepts name then return () else focus.reject (.badName name test)

def validate (focus : Focus) (rules : List Rule) : Checked Unit := rules.forM focus.check

end Focus

end ReverseProxy.Schema
