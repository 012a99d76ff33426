import ReverseProxy.Decimal.Integer

/-!
# Binary floating point of 64 bits

A finite value is a sign, a significand below `2 ^ 53` and a power of two from `2 ^ (-1074)` on. It
is in standard form if the significand is at least `2 ^ 52` or the power is the least one. Decimal
numbers are rounded to the nearest value, a tie to the even significand.
-/

namespace ReverseProxy.Decimal

namespace Binary64

def minExponent : Int := -1074

def maxExponent : Int := 971

def leastNormal : Nat := Nat.pow 2 52

def Fits (significand : Nat) (exponent : Int) : Prop :=
  significand < 2 * leastNormal ∧ minExponent ≤ exponent ∧ exponent ≤ maxExponent

instance (significand : Nat) (exponent : Int) : Decidable (Fits significand exponent) :=
  inferInstanceAs (Decidable (_ ∧ _ ∧ _))

end Binary64

inductive Binary64 where
  | finite (negative : Bool) (significand : Nat) (exponent : Int)
      (fits : Binary64.Fits significand exponent)
  | infinite (negative : Bool)
  | nan
  deriving DecidableEq, Repr

namespace Binary64

def zero (negative : Bool) : Binary64 := .finite negative 0 minExponent (by decide)

/-- `numerator / denominator` to the nearest integer, a tie to the even one. -/
def roundQuotient (numerator denominator : Nat) : Nat :=
  let quotient := numerator / denominator
  let twice := 2 * (numerator % denominator)
  if twice < denominator then quotient
  else if denominator < twice then quotient + 1
  else quotient + quotient % 2

def scaled (value base : Nat) (power : Int) : Nat × Nat :=
  if 0 ≤ power then (value * Nat.pow base power.toNat, 1) else (value, Nat.pow base (-power).toNat)

def binaryMagnitude (numerator denominator : Nat) : Int :=
  let estimate : Int := Nat.log2 numerator - Nat.log2 denominator
  let (one, unit) := scaled 1 2 estimate
  if one * denominator ≤ numerator * unit then estimate else estimate - 1

/-- The significand and the exponent of the nearest value to a positive quotient, if there were no
greatest value. -/
def rounded (numerator denominator : Nat) : Nat × Int :=
  let exponent := max minExponent (binaryMagnitude numerator denominator - 52)
  let (scale, unit) := scaled 1 2 (-exponent)
  let significand := roundQuotient (numerator * scale) (denominator * unit)
  if significand = 2 * leastNormal then (leastNormal, exponent + 1) else (significand, exponent)

def ofQuotient (negative : Bool) (numerator denominator : Nat) : Binary64 :=
  let (significand, exponent) := rounded numerator denominator
  if fits : Fits significand exponent then .finite negative significand exponent fits
  else .infinite negative

/-- The nearest value to the number spelled by `digits`, times `10 ^ power`. Zeros in front count
for nothing, and two tests settle what is out of range before any large power is computed. -/
def ofDecimal (negative : Bool) (digits : List Char) (power : Int) : Binary64 :=
  let significant := digits.dropWhile fun c => c = '0'
  let width := significant.length
  if width = 0 then zero negative
  else if 400 < width + power then .infinite negative
  else if width + power < -400 then zero negative
  else
    let (numerator, denominator) := scaled (natOfDigits significant) 10 power
    ofQuotient negative numerator denominator

def isZero : Binary64 → Bool
  | .finite _ significand _ _ => significand = 0
  | _ => false

def isIntegral : Binary64 → Bool
  | .finite _ significand exponent _ =>
      let (numerator, denominator) := scaled significand 2 exponent
      numerator % denominator = 0
  | _ => false

def toInt : Binary64 → Int
  | .finite negative significand exponent _ =>
      let (numerator, denominator) := scaled significand 2 exponent
      let magnitude : Int := (numerator / denominator : Nat)
      if negative then -magnitude else magnitude
  | _ => 0

end Binary64

end ReverseProxy.Decimal
