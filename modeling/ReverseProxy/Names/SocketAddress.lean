import ReverseProxy.Names.Ip

/-!
# Socket addresses

An IP address and a port, the address in brackets if it is of version 6. However it was spelled, an
address is written in one way.
-/

namespace ReverseProxy

structure SocketAddress where
  ip : IpAddress
  port : Fin 65536
  deriving DecidableEq, Repr

inductive SocketProblem where
  | badAddress
  | badPort
  | portRange
  | digits (limit : Decimal.DigitLimit)
  deriving DecidableEq, Repr

def SocketProblem.message : SocketProblem → String
  | .badAddress => "invalid socket address syntax"
  | .badPort => "invalid port"
  | .portRange => "port out of range"
  | .digits limit => limit.message

namespace SocketAddress

def parsePort (text : List Char) : Except SocketProblem (Fin 65536) := do
  if text = [] ∨ text.all Char.isDigit = false then .error .badPort
  else
    let value ← (Decimal.readDigits text).mapError .digits
    if h : value < 65536 then .ok ⟨value, h⟩ else .error .portRange

def unbracket? (text : List Char) : Option (List Char) :=
  if 2 ≤ text.length ∧ text.head? = some '[' ∧ text.getLast? = some ']' then
    some text.tail.dropLast
  else none

def parseHost (text : List Char) : Except SocketProblem IpAddress :=
  match unbracket? text with
  | some inside =>
      match IpAddress.parse? inside with
      | some (.v6 address) => .ok (.v6 address)
      | _ => .error .badAddress
  | none =>
      match IpAddress.parse? text with
      | some (.v4 address) => .ok (.v4 address)
      | _ => .error .badAddress

/-- The port is judged before the address. -/
def parse (text : String) : Except SocketProblem SocketAddress := do
  match Text.splitLast? ':' text.toList with
  | none => .error .badAddress
  | some (host, port) =>
      if host = [] then .error .badAddress
      else
        let port ← parsePort port
        let ip ← parseHost host
        return ⟨ip, port⟩

def writeHost : IpAddress → List Char
  | .v4 address => address.write
  | .v6 address => '[' :: (address.write ++ [']'])

def chars (address : SocketAddress) : List Char :=
  writeHost address.ip ++ ':' :: Nat.toDigits 10 address.port.val

def text (address : SocketAddress) : String := String.ofList address.chars

def isBracket (c : Char) : Bool := c = '[' || c = ']'

/-- A text without any brackets at either end. -/
def stripBrackets (text : List Char) : List Char :=
  ((text.dropWhile isBracket).reverse.dropWhile isBracket).reverse

/-- The written address before the last colon, stripped of brackets. -/
def host (address : SocketAddress) : String :=
  String.ofList (stripBrackets (((Text.splitLast? ':' address.chars).map Prod.fst).getD []))

def writtenPort (address : SocketAddress) : Except Decimal.DigitLimit Nat :=
  Decimal.readDigits (((Text.splitLast? ':' address.chars).map Prod.snd).getD address.chars)

end SocketAddress

end ReverseProxy
