import ReverseProxy.Decimal.Binary64
import ReverseProxy.Decimal.Integer
import ReverseProxy.Json.Value
import ReverseProxy.Text.Hex

/-!
# Strings, numbers and dates of TOML

Each reader takes the longest text that fits from the start of what is left and yields the value and
the rest.
-/

namespace ReverseProxy.Toml

open Decimal

inductive Failure where
  | malformed
  | digits (limit : DigitLimit)
  deriving DecidableEq, Repr

abbrev Reading := Except Failure

def isSpace (c : Char) : Bool := c = ' ' || c = '\t'

def isSpaceOrNewline (c : Char) : Bool := isSpace c || c = '\n'

def skipSpace (text : List Char) : List Char := text.dropWhile isSpace

def isControl (c : Char) : Bool := (c.toNat < 0x20 && c ≠ '\t') || c.toNat = 0x7f

def escaped? : Char → Option Char
  | 'b' => some '\x08'
  | 't' => some '\t'
  | 'n' => some '\n'
  | 'f' => some '\x0c'
  | 'r' => some '\r'
  | '"' => some '"'
  | '\\' => some '\\'
  | _ => none

def readCode? (length : Nat) (text : List Char) : Option (Char × List Char) := do
  let digits := text.take length
  if digits.length ≠ length then none
  else
    let code := positional 16 (← digits.mapM Text.hexValue?)
    if code.isValidChar then some (Char.ofNat code, text.drop length) else none

/-- Past the blanks after a backslash at the end of a line of a text of several lines. -/
def skipLineEnd? (text : List Char) : Option (List Char) :=
  match skipSpace text with
  | [] => some []
  | '\n' :: rest => some (rest.dropWhile isSpaceOrNewline)
  | _ => none

def readBasic? (multiline : Bool) : (count : Nat) → List Char → Option (List Char × List Char)
  | 0, _ => none
  | _ + 1, [] => none
  | count + 1, '"' :: rest =>
      if !multiline then some ([], rest)
      else
        match rest with
        | '"' :: '"' :: rest => some ([], rest)
        | rest => (readBasic? multiline count rest).map fun (text, rest) => ('"' :: text, rest)
  | count + 1, '\\' :: rest =>
      let push (found : Char × List Char) : Option (List Char × List Char) :=
        (readBasic? multiline count found.2).map fun (text, rest) => (found.1 :: text, rest)
      match rest with
      | 'u' :: rest => readCode? 4 rest >>= push
      | 'U' :: rest => readCode? 8 rest >>= push
      | c :: rest =>
          if multiline && isSpaceOrNewline c then
            skipLineEnd? (c :: rest) >>= readBasic? multiline count
          else (escaped? c).map (·, rest) >>= push
      | [] => none
  | count + 1, c :: rest =>
      if isControl c && !(multiline && c = '\n') then none
      else (readBasic? multiline count rest).map fun (text, rest) => (c :: text, rest)

def readLiteral? : List Char → Option (List Char × List Char)
  | [] => none
  | c :: rest =>
      if c = '\'' then some ([], rest)
      else if isControl c then none
      else (readLiteral? rest).map fun (text, rest) => (c :: text, rest)

def readLiteralLines? : List Char → Option (List Char × List Char)
  | [] => none
  | '\'' :: '\'' :: '\'' :: rest => some ([], rest)
  | c :: rest =>
      if isControl c && c ≠ '\n' then none
      else (readLiteralLines? rest).map fun (text, rest) => (c :: text, rest)

/-- Up to two more marks after the closing ones belong to the text. -/
def takeMarks (mark : Char) : List Char × List Char → List Char × List Char
  | (text, a :: b :: rest) =>
      if a ≠ mark then (text, a :: b :: rest)
      else if b ≠ mark then (text ++ [mark], b :: rest)
      else (text ++ [mark, mark], rest)
  | (text, [a]) => if a = mark then (text ++ [mark], []) else (text, [a])
  | (text, []) => (text, [])

def dropFirstNewline : List Char → List Char
  | '\n' :: rest => rest
  | text => text

def readString? (severalLines : Bool) (text : List Char) : Option (List Char × List Char) :=
  match text with
  | '"' :: '"' :: '"' :: rest =>
      if severalLines then
        let rest := dropFirstNewline rest
        (readBasic? true (rest.length + 1) rest).map (takeMarks '"')
      else some ([], '"' :: rest)
  | '\'' :: '\'' :: '\'' :: rest =>
      if severalLines then (readLiteralLines? (dropFirstNewline rest)).map (takeMarks '\'')
      else some ([], '\'' :: rest)
  | '"' :: rest => readBasic? false (rest.length + 1) rest
  | '\'' :: rest => readLiteral? rest
  | _ => none

def readDigits? (isDigit : Char → Bool) : List Char → Option (List Char × List Char)
  | [] => none
  | [c] => if isDigit c then some ([c], []) else none
  | c :: d :: rest =>
      if !isDigit c then none
      else if d = '_' then
        match readDigits? isDigit rest with
        | some (digits, rest) => some (c :: digits, rest)
        | none => some ([c], d :: rest)
      else
        match readDigits? isDigit (d :: rest) with
        | some (digits, rest) => some (c :: digits, rest)
        | none => some ([c], d :: rest)

def readRadix? (text : List Char) : Option (Json × List Char) :=
  match text with
  | '0' :: mark :: rest =>
      let base := match mark with
        | 'x' => 16
        | 'o' => 8
        | 'b' => 2
        | _ => 0
      (readDigits? (fun c => (Text.hexValue? c).any (· < base)) rest).map fun (digits, rest) =>
        (.integer (positional base (digits.filterMap Text.hexValue?)), rest)
  | _ => none

def readFraction (text : List Char) : List Char × List Char :=
  match text with
  | '.' :: rest => (readDigits? Char.isDigit rest).getD ([], text)
  | _ => ([], text)

def splitSign (text : List Char) : Bool × List Char :=
  match text with
  | '-' :: rest => (true, rest)
  | '+' :: rest => (false, rest)
  | rest => (false, rest)

def readExponent (text : List Char) : Option Int × List Char :=
  match text with
  | mark :: rest =>
      if mark = 'e' ∨ mark = 'E' then
        let (negative, unsigned) := splitSign rest
        match readDigits? Char.isDigit unsigned with
        | some (digits, rest) =>
            let magnitude : Int := natOfDigits digits
            (some (if negative then -magnitude else magnitude), rest)
        | none => (none, text)
      else (none, text)
  | [] => (none, text)

def readDecimal (text : List Char) : Reading (Json × List Char) := do
  let (negative, unsigned) := splitSign text
  let whole := match unsigned with
    | '0' :: rest => some (['0'], rest)
    | _ => readDigits? Char.isDigit unsigned
  match whole with
  | none => .error .malformed
  | some (whole, rest) =>
      let (fraction, rest) := readFraction rest
      let (exponent, rest) := readExponent rest
      if fraction = [] ∧ exponent = none then
        let magnitude : Int := ← (readDigits whole).mapError .digits
        return (.integer (if negative then -magnitude else magnitude), rest)
      else
        let digits := whole ++ fraction
        return (.float (Binary64.ofDecimal negative digits
          (exponent.getD 0 - fraction.length)), rest)

def readField? (length low high : Nat) (text : List Char) : Option (Nat × List Char) :=
  let digits := text.take length
  let value := natOfDigits digits
  if digits.length = length ∧ digits.all Char.isDigit ∧ low ≤ value ∧ value ≤ high then
    some (value, text.drop length)
  else none

def after? (c : Char) : List Char → Option (List Char)
  | d :: rest => if d = c then some rest else none
  | [] => none

def readTime? (text : List Char) : Option (List Char) := do
  let (_, rest) ← readField? 2 0 23 text
  let (_, rest) ← readField? 2 0 59 (← after? ':' rest)
  let (_, rest) ← readField? 2 0 59 (← after? ':' rest)
  match rest with
  | '.' :: c :: next => if c.isDigit then some (next.dropWhile Char.isDigit) else some rest
  | _ => some rest

def skipOffset (text : List Char) : List Char :=
  match text with
  | c :: rest =>
      if c = 'Z' ∨ c = 'z' then rest
      else if c = '+' ∨ c = '-' then
        let offset := do
          let (_, rest) ← readField? 2 0 23 rest
          let (_, rest) ← readField? 2 0 59 (← after? ':' rest)
          return rest
        offset.getD text
      else text
  | [] => text

def isLeapYear (year : Nat) : Bool := year % 4 = 0 && (year % 100 ≠ 0 || year % 400 = 0)

def daysIn (year month : Nat) : Nat :=
  if month = 2 then (if isLeapYear year then 29 else 28)
  else if month = 4 ∨ month = 6 ∨ month = 9 ∨ month = 11 then 30
  else 31

/-- A date that looks like one: whether it is in the calendar, and the rest. -/
def readDate? (text : List Char) : Option (Bool × List Char) := do
  let (year, rest) ← readField? 4 0 9999 text
  let (month, rest) ← readField? 2 1 12 (← after? '-' rest)
  let (day, rest) ← readField? 2 1 31 (← after? '-' rest)
  return (1 ≤ year && day ≤ daysIn year month, rest)

def skipTime (text : List Char) : List Char :=
  match text with
  | c :: rest =>
      if c = 'T' ∨ c = 't' ∨ c = ' ' then ((readTime? rest).map skipOffset).getD text else text
  | [] => text

def readPart (text rest : List Char) : Json :=
  .moment (String.ofList (text.take (text.length - rest.length)))

def readMoment? (text : List Char) : Option (Reading (Json × List Char)) :=
  match readDate? text with
  | some (true, rest) =>
      let rest := skipTime rest
      some (.ok (readPart text rest, rest))
  | some (false, _) => some (.error .malformed)
  | none => (readTime? text).map fun rest => .ok (readPart text rest, rest)

def wordValues : List (String × Json) :=
  [("true", .boolean true), ("false", .boolean false), ("inf", .float (.infinite false)),
    ("+inf", .float (.infinite false)), ("-inf", .float (.infinite true)), ("nan", .float .nan),
    ("+nan", .float .nan), ("-nan", .float .nan)]

def readWord? (text : List Char) : Option (Json × List Char) :=
  wordValues.findSome? fun (word, value) =>
    if word.toList.isPrefixOf text then some (value, text.drop word.length) else none

def readPlain (text : List Char) : Reading (Json × List Char) :=
  match readWord? text with
  | some found => .ok found
  | none =>
    match readMoment? text with
    | some reading => reading
    | none =>
      match readRadix? text with
      | some found => .ok found
      | none => readDecimal text

end ReverseProxy.Toml
