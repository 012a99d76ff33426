import ReverseProxy.Names.Fqdn
import ReverseProxy.Names.SocketAddress
import ReverseProxy.Schema.Problem
import ReverseProxy.Text.Digit

/-!
# Values of entries

An entry is read as a string, a boolean, a number that is not negative, as text whatever its kind,
or as a value of a type with a text form. A problem with an entry points at the entry.
-/

namespace ReverseProxy

open Decimal Schema

/-- A scalar as it would be written in a document, without quotation marks. A float without a
fraction is written as an integer; null has no text. -/
def Kdl.Scalar.plainText : Kdl.Scalar → Except DigitLimit (Option String)
  | .string text => .ok (some text)
  | .integer value => some <$> writeInt value
  | .float value =>
      if value.isIntegral then some <$> writeInt value.toInt
      else .ok (some (Layout.standard.write value))
  | .boolean value => .ok (some (if value then "true" else "false"))
  | .null => .ok none

/-- A type that is read from text; the reason why a text is refused is part of the message. -/
structure TextType (α : Type) where
  name : String
  parse : String → Except String α

namespace TextType

def fqdn : TextType Fqdn := ⟨"FQDN", fun text => (Fqdn.parse text).mapError FqdnProblem.message⟩

def socketAddress : TextType SocketAddress :=
  ⟨"SocketAddress", fun text => (SocketAddress.parse text).mapError SocketProblem.message⟩

def string : TextType String := ⟨"str", .ok⟩

/-- White space around a number; the separators of the ASCII range do not count. -/
def isNumberSpace (c : Char) : Bool :=
  Text.isBlank c && !(0x1c ≤ c.toNat && c.toNat ≤ 0x1f)

/-- Decimal digits of any script with single underscores between them: their values, and what
follows them. Nothing if the run starts with an underscore or one of them is not followed by a
digit. -/
def digitGroups? : List Char → Option (List Nat × List Char)
  | [] => some ([], [])
  | c :: rest =>
      match Text.decimalValue? c, rest with
      | none, _ => if c = '_' then none else some ([], c :: rest)
      | some digit, '_' :: next => do
          let (digits, after) ← digitGroups? next
          if digits = [] then none else some (digit :: digits, after)
      | some digit, rest => do
          let (digits, after) ← digitGroups? rest
          some (digit :: digits, after)

def badInteger (text : String) : String :=
  "invalid literal for int() with base 10: " ++
    String.ofList ((Text.literal text).toList.take 200)

def integer : TextType Int := ⟨"int", fun text =>
  let trimmed := text.toList.dropWhile isNumberSpace
  let (negative, unsigned) : Bool × List Char := match trimmed with
    | '-' :: rest => (true, rest)
    | '+' :: rest => (false, rest)
    | rest => (false, rest)
  match digitGroups? unsigned with
  | some (digits, after) =>
      if digits = [] then .error (badInteger text)
      else if maxDigits < digits.length then
        .error (DigitLimit.message (.reading digits.length))
      else if after.all isNumberSpace then
        let magnitude : Int := positional 10 digits
        .ok (if negative then -magnitude else magnitude)
      else .error (badInteger text)
  | none => .error (badInteger text)⟩

end TextType

namespace Kdl.Entry

def mismatch {α : Type} (entry : Kdl.Entry) (wanted : Wanted) : Checked α :=
  match entry.value with
  | .integer value =>
      match writeInt value with
      | .ok _ => reject (.mismatch wanted entry.value) entry.span
      | .error limit => .error (.digits limit)
  | _ => reject (.mismatch wanted entry.value) entry.span

def asString (entry : Kdl.Entry) : Checked String :=
  match entry.value with
  | .string text => .ok text
  | _ => entry.mismatch .string

def asBool (entry : Kdl.Entry) : Checked Bool :=
  match entry.value with
  | .boolean value => .ok value
  | _ => entry.mismatch .boolean

def asNat (entry : Kdl.Entry) : Checked Nat :=
  match entry.value with
  | .integer (.ofNat value) => .ok value
  | _ => entry.mismatch .positive

def asText (entry : Kdl.Entry) : Checked String :=
  match entry.value.plainText with
  | .ok (some text) => .ok text
  | .ok none => reject .nullText entry.span
  | .error limit => .error (.digits limit)

def parseAs {α : Type} (entry : Kdl.Entry) (type : TextType α) : Checked α := do
  let raw ← entry.asText
  match type.parse raw with
  | .ok value => return value
  | .error reason => reject (.badText type.name raw reason) entry.span

end Kdl.Entry

end ReverseProxy
