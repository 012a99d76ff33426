import ReverseProxy.Kdl.Cursor
import ReverseProxy.Text.Digit
import ReverseProxy.Text.Hex

/-!
# Bare values

A bare token is a keyword, an integer with a radix mark, a decimal number or, if it does not look
like a number or a keyword, a string. Underscores may stand anywhere after the first digit of a run
of digits.
-/

namespace ReverseProxy.Kdl

open Decimal

def splitSign : List Char → Bool × List Char
  | '+' :: rest => (false, rest)
  | '-' :: rest => (true, rest)
  | token => (false, token)

def applySign (negative : Bool) (magnitude : Nat) : Int :=
  if negative then -magnitude else magnitude

/-- A run of digits and underscores that starts with a digit: the digits, and what follows the
run. -/
def digitRun? (isDigit : Char → Bool) : List Char → Option (List Char × List Char)
  | [] => none
  | c :: rest =>
      if isDigit c then
        let inRun (d : Char) : Bool := isDigit d || d = '_'
        some ((c :: rest.takeWhile inRun).filter (· ≠ '_'), rest.dropWhile inRun)
      else none

def keyword? (token : List Char) : Option Scalar :=
  match String.ofList token with
  | "true" => some (.boolean true)
  | "false" => some (.boolean false)
  | "null" => some .null
  | "#true" => some (.boolean true)
  | "#false" => some (.boolean false)
  | "#null" => some .null
  | "#inf" => some (.float (.infinite false))
  | "#-inf" => some (.float (.infinite true))
  | "#nan" => some (.float .nan)
  | _ => none

def radixOfMark? : Char → Option Nat
  | 'x' => some 16
  | 'o' => some 8
  | 'b' => some 2
  | _ => none

/-- Hexadecimal digits of a radix that may be too small for them. -/
structure RadixToken where
  negative : Bool
  base : Nat
  digits : List Char
  deriving DecidableEq, Repr

def radixToken? (token : List Char) : Option RadixToken :=
  let (negative, unsigned) := splitSign token
  match unsigned with
  | '0' :: mark :: rest =>
      match radixOfMark? mark, digitRun? (fun c => (Text.hexValue? c).isSome) rest with
      | some base, some (digits, []) => some ⟨negative, base, digits⟩
      | _, _ => none
  | _ => none

/-- Base two accepts its mark once more in front of the digits. -/
def dropBinaryMark (base : Nat) : List Char → List Char
  | '0' :: mark :: rest =>
      if base = 2 ∧ (mark = 'b' ∨ mark = 'B') then rest else '0' :: mark :: rest
  | digits => digits

def digitValues? (base : Nat) (digits : List Char) : Option (List Nat) :=
  if digits = [] then none
  else digits.mapM fun c => (Text.hexValue? c).filter (· < base)

def RadixToken.value? (token : RadixToken) : Option Int :=
  (digitValues? token.base (dropBinaryMark token.base token.digits)).map fun values =>
    applySign token.negative (positional token.base values)

structure DecimalToken where
  negative : Bool
  whole : List Char
  fraction : Option (List Char)
  exponent : Option (Bool × List Char)
  deriving DecidableEq, Repr

def fractionPart? : List Char → Option (Option (List Char) × List Char)
  | '.' :: rest => (digitRun? Char.isDigit rest).map fun (digits, rest) => (some digits, rest)
  | rest => some (none, rest)

def exponentPart? : List Char → Option (Option (Bool × List Char) × List Char)
  | c :: rest =>
      if c = 'e' ∨ c = 'E' then
        let (negative, unsigned) := splitSign rest
        (digitRun? Char.isDigit unsigned).map fun (digits, rest) => (some (negative, digits), rest)
      else some (none, c :: rest)
  | [] => some (none, [])

def decimalToken? (token : List Char) : Option DecimalToken := do
  let (negative, unsigned) := splitSign token
  let (whole, rest) ← digitRun? Char.isDigit unsigned
  let (fraction, rest) ← fractionPart? rest
  let (exponent, rest) ← exponentPart? rest
  if rest = [] then some ⟨negative, whole, fraction, exponent⟩ else none

/-- A whole number stays an integer; with a fraction or an exponent it is rounded. -/
def DecimalToken.value (token : DecimalToken) : Except DigitLimit Scalar :=
  match token.fraction, token.exponent with
  | none, none => do
      let magnitude ← readDigits token.whole
      return .integer (applySign token.negative magnitude)
  | fraction, exponent =>
      let digits := token.whole ++ fraction.getD []
      let written : Int := match exponent with
        | none => 0
        | some (negative, digits) => applySign negative (natOfDigits digits)
      .ok (.float (Binary64.ofDecimal token.negative digits
        (written - (fraction.getD []).length)))

/-- A token that starts like a number has to be one. -/
def looksNumeric : List Char → Bool
  | [] => false
  | c :: rest =>
      Text.isDigit c || ((c = '+' || c = '-' || c = '.') && rest.head?.any Text.isDigit)

/-- The scalar that a bare token at the cursor stands for. -/
def interpret (token : List Char) (start : Cursor) : Reading Scalar :=
  let span : Span := ⟨start.offset, token.length⟩
  match keyword? token with
  | some value => .ok value
  | none =>
    match radixToken? token with
    | some radix =>
        match radix.value? with
        | some value => .ok (.integer value)
        | none => refuse (.badNumber (String.ofList token)) span
    | none =>
      match decimalToken? token with
      | some decimal => decimal.value.mapError .digits
      | none =>
          if looksNumeric token then refuse (.badNumber (String.ofList token)) span
          else if token.head? = some '#' then refuse (.unknownKeyword (String.ofList token)) span
          else .ok (.string (String.ofList token))

end ReverseProxy.Kdl
