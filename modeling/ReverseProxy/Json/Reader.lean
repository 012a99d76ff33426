import ReverseProxy.Decimal.Integer
import ReverseProxy.Json.Value
import ReverseProxy.Text.Hex

/-!
# Reading JSON

Numbers without a fraction and an exponent are integers, of any sign and up to the limit on digits.
Of several fields with one key the last counts. Infinity and not-a-number are accepted by name.
-/

namespace ReverseProxy.Json

open Decimal

def isSpace (c : Char) : Bool := c = ' ' || c = '\t' || c = '\n' || c = '\r'

def skipSpace (text : List Char) : List Char := text.dropWhile isSpace

def readUnit? : List Char → Option (Nat × List Char)
  | a :: b :: c :: d :: rest => do
      let digits ← [a, b, c, d].mapM Text.hexValue?
      return (positional 16 digits, rest)
  | _ => none

def readUnicode? (text : List Char) : Option (Char × List Char) := do
  let (unit, rest) ← readUnit? text
  if 0xd800 ≤ unit ∧ unit < 0xdc00 then
    match rest with
    | '\\' :: 'u' :: rest =>
        let (low, rest) ← readUnit? rest
        if 0xdc00 ≤ low ∧ low < 0xe000 then
          return (Char.ofNat (0x10000 + (unit - 0xd800) * 0x400 + (low - 0xdc00)), rest)
        else none
    | _ => none
  else if 0xdc00 ≤ unit ∧ unit < 0xe000 then none
  else return (Char.ofNat unit, rest)

def unescape? : Char → Option Char
  | '"' => some '"'
  | '\\' => some '\\'
  | '/' => some '/'
  | 'b' => some '\x08'
  | 'f' => some '\x0c'
  | 'n' => some '\n'
  | 'r' => some '\r'
  | 't' => some '\t'
  | _ => none

def readString? : (count : Nat) → (read : List Char) → List Char → Option (String × List Char)
  | 0, _, _ => none
  | _ + 1, _, [] => none
  | count + 1, read, c :: rest =>
      if c = '"' then some (String.ofList read.reverse, rest)
      else if c = '\\' then
        match rest with
        | 'u' :: rest => do
            let (decoded, rest) ← readUnicode? rest
            readString? count (decoded :: read) rest
        | escape :: rest => do readString? count ((← unescape? escape) :: read) rest
        | [] => none
      else if c.toNat < 0x20 then none
      else readString? count (c :: read) rest

def readWhole? (text : List Char) : Option (List Char × List Char) :=
  match text with
  | '0' :: rest => some (['0'], rest)
  | _ =>
      let digits := text.takeWhile Char.isDigit
      if digits = [] then none else some (digits, text.dropWhile Char.isDigit)

def readFraction (text : List Char) : List Char × List Char :=
  match text with
  | '.' :: rest =>
      let digits := rest.takeWhile Char.isDigit
      if digits = [] then ([], text) else (digits, rest.dropWhile Char.isDigit)
  | _ => ([], text)

def readExponent (text : List Char) : Option Int × List Char :=
  match text with
  | mark :: rest =>
      if mark = 'e' ∨ mark = 'E' then
        let (negative, unsigned) : Bool × List Char := match rest with
          | '-' :: rest => (true, rest)
          | '+' :: rest => (false, rest)
          | rest => (false, rest)
        let digits := unsigned.takeWhile Char.isDigit
        if digits = [] then (none, text)
        else
          let magnitude : Int := natOfDigits digits
          (some (if negative then -magnitude else magnitude), unsigned.dropWhile Char.isDigit)
      else (none, text)
  | [] => (none, text)

def readNumber? (negative : Bool) (text : List Char) : Option (Json × List Char) := do
  let (whole, rest) ← readWhole? text
  let (fraction, rest) := readFraction rest
  let (exponent, rest) := readExponent rest
  if fraction = [] ∧ exponent = none then
    let magnitude ← (readDigits whole).toOption
    return (.integer (if negative then -(magnitude : Int) else magnitude), rest)
  else
    let digits := whole ++ fraction
    let value := Binary64.ofDecimal negative digits
      (exponent.getD 0 - fraction.length)
    return (.float value, rest)

def afterWord? (word : String) (text : List Char) : Option (List Char) :=
  if word.toList.isPrefixOf text then some (text.drop word.length) else none

def readWord? (text : List Char) : Option (Json × List Char) :=
  [("null", Json.null), ("true", .boolean true), ("false", .boolean false),
    ("NaN", .float .nan), ("Infinity", .float (.infinite false)),
    ("-Infinity", .float (.infinite true))].findSome? fun (word, value) =>
      (afterWord? word text).map fun rest => (value, rest)

mutual

/-- A value at the start of the text, and what follows it. Each step takes a character, so that the
length of the text bounds the number of steps. -/
def readValue? : (count : Nat) → List Char → Option (Json × List Char)
  | 0, _ => none
  | count + 1, text =>
      match text with
      | '"' :: rest =>
          (readString? (rest.length + 1) [] rest).map fun (text, rest) => (.string text, rest)
      | '[' :: rest =>
          match skipSpace rest with
          | ']' :: rest => some (.array [], rest)
          | rest => (readItems? count rest).map fun (items, rest) => (.array items, rest)
      | '\x7b' :: rest =>
          match skipSpace rest with
          | '\x7d' :: rest => some (.object [], rest)
          | rest => (readFields? count rest).map fun (fields, rest) => (ofFields fields, rest)
      | text =>
          match readWord? text with
          | some found => some found
          | none =>
              match text with
              | '-' :: rest => readNumber? true rest
              | rest => readNumber? false rest

def readItems? : (count : Nat) → List Char → Option (List Json × List Char)
  | 0, _ => none
  | count + 1, text => do
      let (item, rest) ← readValue? count text
      match skipSpace rest with
      | ']' :: rest => return ([item], rest)
      | ',' :: rest =>
          let (items, rest) ← readItems? count (skipSpace rest)
          return (item :: items, rest)
      | _ => none

def readFields? : (count : Nat) → List Char → Option (List (String × Json) × List Char)
  | 0, _ => none
  | count + 1, text => do
      match text with
      | '"' :: rest =>
          let (key, rest) ← readString? (rest.length + 1) [] rest
          match skipSpace rest with
          | ':' :: rest =>
              let (value, rest) ← readValue? count (skipSpace rest)
              match skipSpace rest with
              | '\x7d' :: rest => return ([(key, value)], rest)
              | ',' :: rest =>
                  let (fields, rest) ← readFields? count (skipSpace rest)
                  return ((key, value) :: fields, rest)
              | _ => none
          | _ => none
      | _ => none

end

def parse? (text : String) : Option Json := do
  let chars := skipSpace text.toList
  let (value, rest) ← readValue? (2 * chars.length + 2) chars
  if skipSpace rest = [] then some value else none

end ReverseProxy.Json
