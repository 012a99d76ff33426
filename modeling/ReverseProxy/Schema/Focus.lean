import ReverseProxy.Dictionary
import ReverseProxy.Schema.Value

/-!
# Places in a document

A focus is either a list of nodes, the document or a block, or a single node. What only a node has
is refused for a list of nodes; unless it concerns a certain entry, a problem points at what is in
focus.
-/

namespace ReverseProxy.Schema

open Kdl

inductive Focus where
  | document (block : Block Node)
  | node (node : Node)

namespace Focus

def span : Focus → Span
  | .document block => block.span
  | .node current => current.span

def reject {α : Type} (focus : Focus) (problem : Problem) : Checked α :=
  Schema.reject problem focus.span

def theNode (focus : Focus) : Checked Node :=
  match focus with
  | .document _ => focus.reject .notANode
  | .node current => .ok current

def name (focus : Focus) : Checked String := do return (← focus.theNode).name

def enterBlock (focus : Focus) : Checked Focus :=
  match focus with
  | .document _ => focus.reject .enterDocument
  | .node current =>
      match current.children with
      | none => focus.reject .enterMissing
      | some block => .ok (.document block)

def children (focus : Focus) : Checked (List Node) :=
  match focus with
  | .document block => .ok block.nodes
  | .node current =>
      match current.children with
      | none => focus.reject .noBlock
      | some block => .ok block.nodes

def nonemptyChildren (focus : Focus) : Checked (List Node) := do
  match ← focus.children with
  | [] => focus.reject (.emptyBlock (← focus.name))
  | nodes => return nodes

def expectName (focus : Focus) (expected : String) : Checked Unit :=
  match focus with
  | .document _ => focus.reject (.notTheNode expected)
  | .node current =>
      if current.name = expected then .ok () else focus.reject (.wrongName expected current.name)

def hasBlock (focus : Focus) : Checked Bool := do return (← focus.theNode).children.isSome

/-- The name read as a value; a problem with it points at the name. -/
def parseName {α : Type} (focus : Focus) (type : TextType α) : Checked α := do
  let node ← focus.theNode
  Entry.parseAs ⟨none, .string node.name, node.nameSpan⟩ type

def entries (focus : Focus) : Checked (List Entry) := do return (← focus.theNode).entries

/-- The text of each key, its first occurrence counting. A repeated key is not read again. -/
def collectTexts : List Entry → Dictionary String → Checked (Dictionary String)
  | [], texts => .ok texts
  | entry :: rest, texts =>
      match entry.key with
      | none => collectTexts rest texts
      | some key =>
          if isNew : key ∉ texts.keys then do
            let text ← entry.asText
            collectTexts rest (texts.push key text isNew)
          else collectTexts rest texts

def textsBetween (focus : Focus) (start : Int) (stop : Option Int) :
    Checked (Dictionary String) := do
  let entries ← focus.entries
  let stop := stop.getD entries.length
  if 0 ≤ start ∧ start ≤ stop ∧ stop ≤ entries.length then
    collectTexts ((entries.take stop.toNat).drop start.toNat) ∅
  else focus.reject .range

def texts (focus : Focus) : Checked (Dictionary String) := focus.textsBetween 0 none

/-- The texts of the named entries in a range, all of which have an allowed key. -/
def allowedTexts (focus : Focus) (start : Int) (stop : Option Int) (allowed : List String) :
    Checked (Dictionary String) := do
  let texts ← focus.textsBetween start stop
  match texts.keys.find? fun key => !allowed.contains key with
  | some key => focus.reject (.keyNotAllowed key allowed)
  | none => return texts

def firstEntry (focus : Focus) : Checked Entry := do
  match ← focus.entries with
  | [] => focus.reject .noFirst
  | entry :: _ => return entry

def positional (focus : Focus) (position : Int) : Checked Entry := do
  let found := (← focus.entries).filter Entry.isPositional
  match if 0 ≤ position then found[position.toNat]? else none with
  | some entry => return entry
  | none => focus.reject (.noPositional position)

def property? (focus : Focus) (key : String) : Checked (Option Entry) := do
  return (← focus.entries).find? fun entry => entry.key = some key

def property (focus : Focus) (key : String) : Checked Entry := do
  match ← focus.property? key with
  | some entry => return entry
  | none => focus.reject (.noProperty key)

end Focus

end ReverseProxy.Schema
