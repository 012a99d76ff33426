/-!
# Sets of characters given by ranges of code points

A property of characters that no formula describes is a list of closed ranges, in increasing order.
-/

namespace ReverseProxy.Text

def inRanges (ranges : List (Nat × Nat)) (c : Char) : Bool :=
  ranges.any fun range => range.1 ≤ c.toNat && c.toNat ≤ range.2

end ReverseProxy.Text
