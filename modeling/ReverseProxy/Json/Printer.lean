import ReverseProxy.Decimal.Integer
import ReverseProxy.Decimal.Layout
import ReverseProxy.Json.Value
import ReverseProxy.Text.Hex

/-!
# Writing JSON

A style settles what is escaped, how values are separated and whether they stand on lines of their
own. Empty arrays and objects never take more than two characters.
-/

namespace ReverseProxy.Json

open Decimal

structure Style where
  /-- Whether every character outside of ASCII, and the delete character, is escaped. -/
  ascii : Bool
  /-- The indentation of one level, if values stand on lines of their own. -/
  indent : Option Nat
  itemSeparator : String
  keySeparator : String
  floats : Layout

def namedFloats : Layout :=
  { Layout.standard with
    infinity := "Infinity", negativeInfinity := "-Infinity", notANumber := "NaN" }

def Style.result : Style := ⟨false, some 2, ",", ": ", Layout.json⟩

def Style.asciiLines : Style := ⟨true, some 2, ",", ": ", namedFloats⟩

def Style.compact : Style := ⟨true, none, ",", ":", namedFloats⟩

def Style.line : Style := ⟨true, none, ", ", ": ", namedFloats⟩

def unicodeEscape (unit : Nat) : List Char := '\\' :: 'u' :: Text.hexPadded 4 unit

/-- A character by its UTF-16 units. -/
def escapeUnits (c : Char) : List Char :=
  if c.toNat < 0x10000 then unicodeEscape c.toNat
  else
    let offset := c.toNat - 0x10000
    unicodeEscape (0xd800 + offset / 0x400) ++ unicodeEscape (0xdc00 + offset % 0x400)

def escapeChar (ascii : Bool) (c : Char) : List Char :=
  match c with
  | '"' => ['\\', '"']
  | '\\' => ['\\', '\\']
  | '\n' => ['\\', 'n']
  | '\r' => ['\\', 'r']
  | '\t' => ['\\', 't']
  | '\x08' => ['\\', 'b']
  | '\x0c' => ['\\', 'f']
  | c => if c.toNat < 0x20 ∨ (ascii ∧ 0x7f ≤ c.toNat) then escapeUnits c else [c]

def Style.string (style : Style) (text : String) : String :=
  String.ofList ('"' :: (text.toList.flatMap (escapeChar style.ascii) ++ ['"']))

def Style.lineBreak (style : Style) (level : Nat) : String :=
  match style.indent with
  | none => ""
  | some width => "\n" ++ String.ofList (List.replicate (width * level) ' ')

def Style.enclose (style : Style) (level : Nat) (opening closing : String) (members : List String) :
    String :=
  if members.isEmpty then opening ++ closing
  else
    let separator := style.itemSeparator ++ style.lineBreak (level + 1)
    opening ++ style.lineBreak (level + 1) ++ separator.intercalate members ++
      style.lineBreak level ++ closing

mutual

def Style.value (style : Style) (level : Nat) : Json → String
  | .null => "null"
  | .boolean value => if value then "true" else "false"
  | .integer value => Decimal.text value
  | .float value => style.floats.write value
  | .string text | .moment text => style.string text
  | .array items => style.enclose level "[" "]" (style.items (level + 1) items)
  | .object fields => style.enclose level "\x7b" "\x7d" (style.fields (level + 1) fields)

def Style.items (style : Style) (level : Nat) : List Json → List String
  | [] => []
  | item :: items => style.value level item :: style.items level items

def Style.fields (style : Style) (level : Nat) : List (String × Json) → List String
  | [] => []
  | (key, value) :: fields =>
      (style.string key ++ style.keySeparator ++ style.value level value) ::
        style.fields level fields

end

def Style.write (style : Style) (value : Json) : String := style.value 0 value

end ReverseProxy.Json
