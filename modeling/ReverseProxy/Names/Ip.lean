import ReverseProxy.Decimal.Integer
import ReverseProxy.Text.Hex
import ReverseProxy.Text.Split

/-!
# IP addresses

An IPv4 address is written as four octets without leading zeros. An IPv6 address has eight groups in
hexadecimal, the last two of which may be given as an IPv4 address, and a double colon may stand for
one or more groups of zero; it may carry a scope. Written, its longest run of two or more zero
groups becomes the double colon, the first of several longest ones.
-/

namespace ReverseProxy

structure Ipv4 where
  octets : List (Fin 256)
  length_octets : octets.length = 4
  deriving DecidableEq, Repr

namespace Ipv4

def octet? (text : List Char) : Option (Fin 256) :=
  if text ≠ [] ∧ text.all Char.isDigit ∧ text.length ≤ 3 ∧
    (text = ['0'] ∨ text.head? ≠ some '0') then
    if h : Decimal.natOfDigits text < 256 then some ⟨_, h⟩ else none
  else none

def parse? (text : List Char) : Option Ipv4 :=
  match (Text.splitAll '.' text).mapM octet? with
  | some octets => if h : octets.length = 4 then some ⟨octets, h⟩ else none
  | none => none

def write (address : Ipv4) : List Char :=
  Text.join '.' (address.octets.map fun octet => Nat.toDigits 10 octet.val)

end Ipv4

abbrev Hextet := Fin 65536

/-- The zone of a link-local address. -/
structure Scope where
  text : List Char
  ne_nil : text ≠ []
  percent_not_mem : '%' ∉ text
  slash_not_mem : '/' ∉ text
  deriving DecidableEq, Repr

structure Ipv6 where
  groups : List Hextet
  length_groups : groups.length = 8
  scope : Option Scope
  deriving DecidableEq, Repr

namespace Ipv6

def hextet? (text : List Char) : Option Hextet :=
  if text ≠ [] ∧ text.length ≤ 4 then
    match text.mapM Text.hexValue? with
    | some digits =>
        if h : Decimal.positional 16 digits < 65536 then some ⟨_, h⟩ else none
    | none => none
  else none

def groupsOfIpv4 (address : Ipv4) : List Hextet :=
  match address.octets with
  | [a, b, c, d] => [Fin.ofNat 65536 (a.val * 256 + b.val), Fin.ofNat 65536 (c.val * 256 + d.val)]
  | _ => []

def finalGroups? : List (List Char) → Option (List Hextet)
  | [] => some []
  | [part] =>
      if part.contains '.' then (Ipv4.parse? part).map groupsOfIpv4
      else (hextet? part).map ([·])
  | part :: parts => do return (← hextet? part) :: (← finalGroups? parts)

/-- The parts after a double colon: none if the address ends there, otherwise none is empty. -/
def partsAfterGap? (parts : List (List Char)) : Option (List (List Char)) :=
  if parts = [[]] then some []
  else if parts ≠ [] ∧ parts.all (· ≠ []) then some parts
  else none

/-- Zero groups between those written before and after a double colon, at least one. -/
def fillGap? (before after : List Hextet) : Option (List Hextet) :=
  let written := before.length + after.length
  if written ≤ 7 then some (before ++ List.replicate (8 - written) 0 ++ after) else none

def groupsOfParts? (parts : List (List Char)) : Option (List Hextet) :=
  let before := parts.takeWhile (· ≠ [])
  match parts.dropWhile (· ≠ []) with
  | [] => finalGroups? parts
  | _ :: rest => do
      let after ←
        if before = [] then
          match rest with
          | [] :: rest => partsAfterGap? rest
          | _ => none
        else partsAfterGap? rest
      fillGap? (← before.mapM hextet?) (← finalGroups? after)

def splitScope? (text : List Char) : Option (List Char × Option Scope) :=
  match Text.splitFirst? '%' text with
  | none => some (text, none)
  | some (address, zone) =>
      if h : zone ≠ [] ∧ '%' ∉ zone ∧ '/' ∉ zone then
        some (address, some ⟨zone, h.1, h.2.1, h.2.2⟩)
      else none

def parse? (text : List Char) : Option Ipv6 := do
  let (address, scope) ← splitScope? text
  let groups ← groupsOfParts? (Text.splitAll ':' address)
  if h : groups.length = 8 then some ⟨groups, h, scope⟩ else none

def zeroRun (groups : List Hextet) : Nat := (groups.takeWhile (· = 0)).length

def longestZeroRun : List Hextet → Nat
  | [] => 0
  | group :: groups => max (zeroRun (group :: groups)) (longestZeroRun groups)

def writeGroup (group : Hextet) : List Char := Nat.toDigits 16 group.val

def writeGroups (groups : List Hextet) : List Char := Text.join ':' (groups.map writeGroup)

/-- The groups before and after the first run of `length` zero groups. -/
def splitRun (length : Nat) : List Hextet → List Hextet × List Hextet
  | [] => ([], [])
  | group :: groups =>
      if zeroRun (group :: groups) = length then ([], (group :: groups).drop length)
      else
        let (before, after) := splitRun length groups
        (group :: before, after)

def write (address : Ipv6) : List Char :=
  let length := longestZeroRun address.groups
  let written :=
    if length ≤ 1 then writeGroups address.groups
    else
      let (before, after) := splitRun length address.groups
      writeGroups before ++ ':' :: ':' :: writeGroups after
  match address.scope with
  | none => written
  | some scope => written ++ '%' :: scope.text

end Ipv6

inductive IpAddress where
  | v4 (address : Ipv4)
  | v6 (address : Ipv6)
  deriving DecidableEq, Repr

def IpAddress.parse? (text : List Char) : Option IpAddress :=
  match Ipv4.parse? text with
  | some address => some (.v4 address)
  | none => (Ipv6.parse? text).map .v6

def IpAddress.write : IpAddress → List Char
  | .v4 address => address.write
  | .v6 address => address.write

end ReverseProxy
