import ReverseProxy.Decimal.Binary64

/-!
# Documents

A document is an ordered list of nodes. A node has a name, an ordered list of entries, each
positional or with a key, and possibly a block of further nodes; no block and an empty block are
different things. Every element carries the span of text it was read from.
-/

namespace ReverseProxy.Kdl

open Decimal

/-- The characters from `offset` on, `length` of them. -/
structure Span where
  offset : Nat
  length : Nat
  deriving DecidableEq, Repr

def Span.finish (span : Span) : Nat := span.offset + span.length

def Span.shift (span : Span) (distance : Nat) : Span :=
  { span with offset := span.offset + distance }

inductive Scalar where
  | string (text : String)
  | integer (value : Int)
  | float (value : Binary64)
  | boolean (value : Bool)
  | null
  deriving DecidableEq, Repr

inductive ScalarKind where
  | string
  | integer
  | float
  | boolean
  | null
  deriving DecidableEq, Repr

def ScalarKind.name : ScalarKind → String
  | .string => "String"
  | .integer => "Integer"
  | .float => "Float"
  | .boolean => "Boolean"
  | .null => "Null"

def Scalar.kind : Scalar → ScalarKind
  | .string _ => .string
  | .integer _ => .integer
  | .float _ => .float
  | .boolean _ => .boolean
  | .null => .null

/-- One scalar of a node; without a key it is positional. -/
structure Entry where
  key : Option String
  value : Scalar
  span : Span
  deriving DecidableEq, Repr

def Entry.isPositional (entry : Entry) : Bool := entry.key.isNone

/-- An ordered list of nodes and the text that holds them, braces included. -/
structure Block (Node : Type) where
  nodes : List Node
  span : Span

/-- The span of the name covers its token as written, quotes included. -/
structure Node where
  name : String
  nameSpan : Span
  span : Span
  entries : List Entry
  children : Option (Block Node)

/-- A whole text is a block whose span is the text. -/
abbrev Document := Block Node

theorem Node.induction {motive : Node → Prop}
    (step : ∀ node : Node,
      (∀ block, node.children = some block → ∀ child ∈ block.nodes, motive child) → motive node)
    (node : Node) : motive node := by
  refine @Node.rec motive
    (fun children => ∀ block, children = some block → ∀ child ∈ block.nodes, motive child)
    (fun block => ∀ child ∈ block.nodes, motive child)
    (fun nodes => ∀ child ∈ nodes, motive child) ?_ ?_ ?_ ?_ ?_ ?_ node
  · intro name nameSpan span entries children below
    exact step _ below
  · intro block isSome
    cases isSome
  · intro block below found isSome
    cases isSome
    exact below
  · intro nodes span below
    exact below
  · intro child member
    cases member
  · intro head tail ofHead ofTail child member
    rcases List.mem_cons.mp member with rfl | inTail
    · exact ofHead
    · exact ofTail child inTail

end ReverseProxy.Kdl
