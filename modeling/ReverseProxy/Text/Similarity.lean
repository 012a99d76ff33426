/-!
# Similar texts

Two texts are similar if much of them is in common: their longest common block, and what they have
in common before it and after it in turn. Of several names, the most similar ones are good guesses
for a name that was misspelled.
-/

namespace ReverseProxy.Text

structure Block where
  left : Nat
  right : Nat
  length : Nat
  deriving DecidableEq, Repr

def commonStart : List Char → List Char → Nat
  | c :: left, d :: right => if c = d then commonStart left right + 1 else 0
  | _, _ => 0

def ends : List Char → List (List Char)
  | [] => [[]]
  | c :: rest => (c :: rest) :: ends rest

/-- The longest common block; of several, the first one in the left text and then in the right. -/
def longestBlock (left right : List Char) : Block :=
  let starts := (ends left).zipIdx.flatMap fun (left, i) =>
    (ends right).zipIdx.map fun (right, j) => Block.mk i j (commonStart left right)
  starts.foldl (fun best block => if best.length < block.length then block else best) ⟨0, 0, 0⟩

/-- The number of characters in common blocks. Each block shortens the texts, so that the length of
a text bounds the number of blocks. -/
def inCommon : (count : Nat) → List Char → List Char → Nat
  | 0, _, _ => 0
  | count + 1, left, right =>
      let block := longestBlock left right
      if block.length = 0 then 0
      else
        inCommon count (left.take block.left) (right.take block.right) + block.length +
          inCommon count (left.drop (block.left + block.length))
            (right.drop (block.right + block.length))

structure Likeness where
  text : String
  shared : Nat
  total : Nat
  deriving DecidableEq, Repr

def likeness (text other : String) : Likeness :=
  ⟨other, inCommon other.length other.toList text.toList, other.length + text.length⟩

def Likeness.isClose (likeness : Likeness) : Bool := 3 * likeness.total ≤ 10 * likeness.shared

def Likeness.before (first second : Likeness) : Bool :=
  let one := first.shared * second.total
  let other := second.shared * first.total
  if one = other then decide (second.text ≤ first.text) else decide (other < one)

/-- Up to three texts that are most similar to one, in the order of the alphabet. -/
def closest (text : String) (candidates : List String) : List String :=
  let close := (candidates.map (likeness text)).filter Likeness.isClose
  (((close.mergeSort Likeness.before).take 3).map Likeness.text).mergeSort (· ≤ ·)

end ReverseProxy.Text
