import ReverseProxy.Text.Hex

/-!
# Bytes as text

The encodings a file may have. Bytes that do not spell a character are refused with their place: the
longest part of a character that could still be continued is at fault, or a single byte that starts
none. Whatever ends the lines of a file, the text has line feeds.
-/

namespace ReverseProxy.Files

inductive Encoding where
  | utf8
  | ascii
  | latin1
  deriving DecidableEq, Repr

def Encoding.name : Encoding → String
  | .utf8 => "utf-8"
  | .ascii => "ascii"
  | .latin1 => "latin-1"

/-- A name in lower case, with one underscore for each run of characters that are neither letters
nor digits nor points, and none at its ends. -/
def plainName (started separated : Bool) : List Char → List Char
  | [] => []
  | c :: rest =>
      if c.isAlphanum || c = '.' then
        let written := c.toLower :: plainName true false rest
        if started && separated then '_' :: written else written
      else plainName started true rest

def Encoding.names : Encoding → List String
  | .utf8 => ["cp65001", "u8", "utf", "utf8", "utf8_ucs2", "utf8_ucs4"]
  | .ascii =>
      ["646", "ansi_x3.4_1968", "ansi_x3.4_1986", "ansi_x3_4_1968", "cp367", "csascii", "ibm367",
        "iso646_us", "iso_646.irv_1991", "iso_ir_6", "us", "us_ascii"]
  | .latin1 =>
      ["8859", "cp819", "csisolatin1", "ibm819", "iso8859", "iso8859_1", "iso_8859_1",
        "iso_8859_1_1987", "iso_ir_100", "l1", "latin", "latin1"]

def Encoding.properName : Encoding → String
  | .utf8 => "utf_8"
  | .ascii => "ascii"
  | .latin1 => "latin_1"

/-- An encoding has several names, in which underscores may be points; its proper name stands for
itself. -/
def Encoding.hasName (name : String) (encoding : Encoding) : Bool :=
  encoding.names.contains name ||
    encoding.names.contains (name.map fun c => if c = '.' then '_' else c) ||
    name = encoding.properName

def Encoding.all : List Encoding := [.utf8, .ascii, .latin1]

def Encoding.ofName? (name : String) : Option Encoding :=
  Encoding.all.find? (Encoding.hasName (String.ofList (plainName false false name.toList)))

inductive DecodeFault where
  | startByte
  | continuation
  | truncated
  | notAscii
  deriving DecidableEq, Repr

def DecodeFault.message : DecodeFault → String
  | .startByte => "invalid start byte"
  | .continuation => "invalid continuation byte"
  | .truncated => "unexpected end of data"
  | .notAscii => "ordinal not in range(128)"

/-- Bytes from a position on that could not be decoded; `first` is the first of them. -/
structure DecodeProblem where
  encoding : Encoding
  position : Nat
  length : Nat
  first : UInt8
  fault : DecodeFault
  deriving DecidableEq, Repr

def DecodeProblem.message (problem : DecodeProblem) : String :=
  let place :=
    if problem.length = 1 then
      "byte 0x" ++ String.ofList (Text.hexPadded 2 problem.first.toNat) ++
        s!" in position {problem.position}"
    else s!"bytes in position {problem.position}-{problem.position + problem.length - 1}"
  s!"'{problem.encoding.name}' codec can't decode {place}: {problem.fault.message}"

def utf8Start? (byte : UInt8) : Option (Nat × List (UInt8 × UInt8)) :=
  if byte < 0x80 then some (byte.toNat, [])
  else if byte < 0xc2 then none
  else if byte < 0xe0 then some (byte.toNat - 0xc0, [(0x80, 0xbf)])
  else if byte < 0xf0 then
    let second : UInt8 × UInt8 :=
      if byte = 0xe0 then (0xa0, 0xbf) else if byte = 0xed then (0x80, 0x9f) else (0x80, 0xbf)
    some (byte.toNat - 0xe0, [second, (0x80, 0xbf)])
  else if byte < 0xf5 then
    let second : UInt8 × UInt8 :=
      if byte = 0xf0 then (0x90, 0xbf) else if byte = 0xf4 then (0x80, 0x8f) else (0x80, 0xbf)
    some (byte.toNat - 0xf0, [second, (0x80, 0xbf), (0x80, 0xbf)])
  else none

/-- A character of which `length` bytes from `first` on were read and others are awaited. -/
structure Utf8State where
  first : UInt8
  length : Nat
  value : Nat
  awaited : List (UInt8 × UInt8)

def decodeUtf8 (position : Nat) (state : Option Utf8State) :
    List UInt8 → Except DecodeProblem (List Char)
  | [] =>
      match state with
      | none => .ok []
      | some ⟨first, length, _, _⟩ =>
          .error ⟨.utf8, position - length, length, first, .truncated⟩
  | byte :: bytes =>
      match state with
      | none =>
          match utf8Start? byte with
          | none => .error ⟨.utf8, position, 1, byte, .startByte⟩
          | some (value, []) => (decodeUtf8 (position + 1) none bytes).map (Char.ofNat value :: ·)
          | some (value, awaited) =>
            decodeUtf8 (position + 1) (some ⟨byte, 1, value, awaited⟩) bytes
      | some ⟨first, length, _, []⟩ =>
          .error ⟨.utf8, position - length, length, first, .continuation⟩
      | some ⟨first, length, value, (low, high) :: awaited⟩ =>
          if low ≤ byte ∧ byte ≤ high then
            let value := value * 64 + (byte.toNat - 0x80)
            match awaited with
            | [] => (decodeUtf8 (position + 1) none bytes).map (Char.ofNat value :: ·)
            | _ => decodeUtf8 (position + 1) (some ⟨first, length + 1, value, awaited⟩) bytes
          else .error ⟨.utf8, position - length, length, first, .continuation⟩

def decodeAscii (position : Nat) : List UInt8 → Except DecodeProblem (List Char)
  | [] => .ok []
  | byte :: bytes =>
      if byte < 0x80 then (decodeAscii (position + 1) bytes).map (Char.ofNat byte.toNat :: ·)
      else .error ⟨.ascii, position, 1, byte, .notAscii⟩

def Encoding.decode : Encoding → List UInt8 → Except DecodeProblem (List Char)
  | .utf8, bytes => decodeUtf8 0 none bytes
  | .ascii, bytes => decodeAscii 0 bytes
  | .latin1, bytes => .ok (bytes.map fun byte => Char.ofNat byte.toNat)

/-- A carriage return, with or without a line feed after it, becomes a line feed. -/
def normalizeLines : List Char → List Char
  | '\r' :: '\n' :: rest => '\n' :: normalizeLines rest
  | '\r' :: rest => '\n' :: normalizeLines rest
  | c :: rest => c :: normalizeLines rest
  | [] => []

def Encoding.text (encoding : Encoding) (bytes : List UInt8) : Except DecodeProblem (List Char) :=
  (encoding.decode bytes).map normalizeLines

end ReverseProxy.Files
