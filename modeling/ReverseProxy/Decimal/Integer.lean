/-!
# Integers in decimal

Integers are unbounded, but their decimal text is not: neither reading nor writing goes beyond
`maxDigits` digits. The sign does not count, leading zeros do.
-/

namespace ReverseProxy.Decimal

def maxDigits : Nat := 4300

/-- Why an integer and its decimal text were not converted into each other. -/
inductive DigitLimit where
  | reading (digits : Nat)
  | writing
  deriving DecidableEq, Repr

def DigitLimit.message : DigitLimit → String
  | .reading digits =>
      s!"Exceeds the limit ({maxDigits} digits) for integer string conversion: " ++
        s!"value has {digits} digits; use sys.set_int_max_str_digits() to increase the limit"
  | .writing =>
      s!"Exceeds the limit ({maxDigits} digits) for integer string conversion; " ++
        "use sys.set_int_max_str_digits() to increase the limit"

def positional (base : Nat) (digits : List Nat) : Nat :=
  digits.foldl (fun value digit => value * base + digit) 0

/-- The value of an ASCII digit; meaningless for other characters. -/
def digitValue (c : Char) : Nat := c.toNat - 48

def natOfDigits (digits : List Char) : Nat :=
  positional 10 (digits.map digitValue)

def readDigits (digits : List Char) : Except DigitLimit Nat :=
  if digits.length ≤ maxDigits then .ok (natOfDigits digits) else .error (.reading digits.length)

def text (value : Int) : String :=
  if value < 0 then "-" ++ Nat.repr value.natAbs else Nat.repr value.natAbs

def writeInt (value : Int) : Except DigitLimit String :=
  if (Nat.repr value.natAbs).length ≤ maxDigits then .ok (text value) else .error .writing

end ReverseProxy.Decimal
