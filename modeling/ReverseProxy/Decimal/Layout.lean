import ReverseProxy.Decimal.Shortest

/-!
# The written form of a floating-point number

A layout settles where positional notation ends and how an exponent and the special values are
spelled; the digits are always the fewest that read back.
-/

namespace ReverseProxy.Decimal

structure Layout where
  /-- The first position of the point, counted from the leading digit, that is written out. -/
  firstPoint : Int
  /-- The last one. -/
  lastPoint : Int
  /-- The sign of a positive exponent. -/
  positiveSign : String
  /-- The least number of digits of an exponent. -/
  exponentWidth : Nat
  infinity : String
  negativeInfinity : String
  notANumber : String

/-- Positional from `0.0001` to `9999999999999998.0`, and exponents of at least two digits. -/
def Layout.standard : Layout := ⟨-3, 16, "+", 2, "inf", "-inf", "nan"⟩

/-- Positional from `0.00001` on, exponents of as few digits as they have, and no special values. -/
def Layout.json : Layout := ⟨-4, 16, "+", 1, "null", "null", "null"⟩

def zeros (count : Nat) : List Char := List.replicate count '0'

def positionalText (digits : List Char) (point : Int) : List Char :=
  if point ≤ 0 then '0' :: '.' :: (zeros (-point).toNat ++ digits)
  else if digits.length ≤ point.toNat then
    digits ++ zeros (point.toNat - digits.length) ++ ['.', '0']
  else digits.take point.toNat ++ '.' :: digits.drop point.toNat

def Layout.exponentText (layout : Layout) (exponent : Int) : List Char :=
  let digits := Nat.toDigits 10 exponent.natAbs
  let sign := if exponent < 0 then ['-'] else layout.positiveSign.toList
  'e' :: (sign ++ zeros (layout.exponentWidth - digits.length) ++ digits)

def significantDigits (value : Nat) : List Char :=
  ((Nat.toDigits 10 value).reverse.dropWhile (· == '0')).reverse

def Layout.point (layout : Layout) (point : Point) : List Char :=
  let width := (Nat.toDigits 10 point.digits).length
  let digits := significantDigits point.digits
  let position : Int := width + point.power
  if layout.firstPoint ≤ position ∧ position ≤ layout.lastPoint then
    positionalText digits position
  else
    match digits with
    | [] => []
    | [digit] => digit :: layout.exponentText (position - 1)
    | digit :: rest => digit :: '.' :: (rest ++ layout.exponentText (position - 1))

def Layout.write (layout : Layout) : Binary64 → String
  | .nan => layout.notANumber
  | .infinite false => layout.infinity
  | .infinite true => layout.negativeInfinity
  | .finite negative significand exponent _ =>
      let magnitude :=
        if significand = 0 then ['0', '.', '0']
        else layout.point (shortest significand exponent)
      String.ofList (if negative then '-' :: magnitude else magnitude)

end ReverseProxy.Decimal
