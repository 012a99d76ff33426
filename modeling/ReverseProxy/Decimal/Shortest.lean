import ReverseProxy.Decimal.Binary64

/-!
# The fewest digits that read back

The reals that round to a finite value form an interval, its ends included if the significand is
even. The text of the value is the point nearest to it on the coarsest decimal grid that has a point
in that interval.
-/

namespace ReverseProxy.Decimal

structure Point where
  digits : Nat
  power : Int
  deriving DecidableEq, Repr

/-- The interval that rounds to a value, in quarters of the unit of its significand. -/
structure Rounding where
  low : Nat
  value : Nat
  high : Nat
  closed : Bool
  exponent : Int
  deriving Repr

/-- Below a power of two the neighbouring values lie half as far apart. -/
def Rounding.of (significand : Nat) (exponent : Int) : Rounding where
  low := if significand = Binary64.leastNormal ∧ Binary64.minExponent < exponent
    then 4 * significand - 1 else 4 * significand - 2
  value := 4 * significand
  high := 4 * significand + 2
  closed := significand % 2 = 0
  exponent := exponent - 2

def Rounding.onGrid? (rounding : Rounding) (power : Int) : Option Point :=
  let (scale, unit) := Binary64.scaled 1 2 rounding.exponent
  let (step, fine) := Binary64.scaled 1 10 power
  let ofQuarters (quarters : Nat) := quarters * scale * fine
  let ofGrid (digits : Nat) := digits * step * unit
  let below := ofQuarters rounding.value / (step * unit)
  let holds (digits : Nat) : Bool :=
    if rounding.closed then
      ofQuarters rounding.low ≤ ofGrid digits && ofGrid digits ≤ ofQuarters rounding.high
    else
      ofQuarters rounding.low < ofGrid digits && ofGrid digits < ofQuarters rounding.high
  let distanceBelow := ofQuarters rounding.value - ofGrid below
  let distanceAbove := ofGrid (below + 1) - ofQuarters rounding.value
  let nearer :=
    if distanceBelow < distanceAbove then below
    else if distanceAbove < distanceBelow then below + 1
    else below + below % 2
  if holds below && holds (below + 1) then some ⟨nearer, power⟩
  else if holds below then some ⟨below, power⟩
  else if holds (below + 1) then some ⟨below + 1, power⟩
  else none

def Rounding.firstHit (rounding : Rounding) : (count : Nat) → (power : Int) → Point
  | 0, power => ⟨0, power⟩
  | count + 1, power =>
      match rounding.onGrid? power with
      | some point => point
      | none => rounding.firstHit count (power - 1)

/-- The shortest decimal number that rounds to a positive finite value. The search starts two
places above the leading digit, and seventeen digits always suffice. -/
def shortest (significand : Nat) (exponent : Int) : Point :=
  let magnitude := (Nat.log2 significand + exponent) * 30103 / 100000
  (Rounding.of significand exponent).firstHit 24 (magnitude + 2)

end ReverseProxy.Decimal
