import ReverseProxy.Proofs.Names.Canonical

/-!
# Which texts are socket addresses

A socket address is spelled by a host, a colon and a port, where zeros in front of the port and the
spelling of the address are free. What is written for it depends on the number of the address, on
its scope and on the port alone, and tells them apart.
-/

namespace ReverseProxy

namespace IpAddress

def version : IpAddress → Nat
  | .v4 _ => 4
  | .v6 _ => 6

/-- The octets or the groups as digits of one number, which has 32 or 128 bits. -/
def number : IpAddress → Nat
  | .v4 address => Decimal.positional 256 (address.octets.map Fin.val)
  | .v6 address => Decimal.positional 65536 (address.groups.map Fin.val)

def scope : IpAddress → Option Scope
  | .v4 _ => none
  | .v6 address => address.scope

theorem eq_iff {left right : IpAddress} :
    left = right ↔ left.version = right.version ∧ left.number = right.number ∧
      left.scope = right.scope := by
  refine ⟨fun hsame => hsame ▸ ⟨rfl, rfl, rfl⟩, ?_⟩
  rintro ⟨hversion, hnumber, hscope⟩
  rcases left with ⟨octets, hlength⟩ | ⟨groups, hlength, zone⟩ <;>
    rcases right with ⟨octets', hlength'⟩ | ⟨groups', hlength', zone'⟩
  · obtain rfl : octets = octets' :=
      (Decimal.positional_val_inj (by decide) (hlength.trans hlength'.symm)).mp hnumber
    rfl
  · cases hversion
  · cases hversion
  · obtain rfl : groups = groups' :=
      (Decimal.positional_val_inj (by decide) (hlength.trans hlength'.symm)).mp hnumber
    obtain rfl : zone = zone' := hscope
    rfl

end IpAddress

namespace SocketAddress

structure SpellsPort (digits : List Char) (port : Fin 65536) : Prop where
  ne_nil : digits ≠ []
  isDigit : ∀ c ∈ digits, c.isDigit = true
  length_le : digits.length ≤ Decimal.maxDigits
  value : Decimal.natOfDigits digits = port.val

/-- An address of version 4 stands alone, and one of version 6 in brackets. -/
inductive SpellsHost : List Char → IpAddress → Prop
  | v4 {host : List Char} {address : Ipv4} (hread : Ipv4.parse? host = some address) :
      SpellsHost host (.v4 address)
  | v6 {inside : List Char} {address : Ipv6} (hread : Ipv6.parse? inside = some address) :
      SpellsHost ('[' :: (inside ++ [']'])) (.v6 address)

def Spells (text : String) (address : SocketAddress) : Prop :=
  ∃ host digits, text.toList = host ++ ':' :: digits ∧ SpellsHost host address.ip ∧
    SpellsPort digits address.port

theorem SpellsPort.colon_not_mem {digits : List Char} {port : Fin 65536}
    (hport : SpellsPort digits port) : ':' ∉ digits := fun hcolon =>
  absurd (hport.isDigit ':' hcolon) (by decide)

/-- A port is read exactly from its digits, zeros in front included. -/
theorem parsePort_eq_ok {digits : List Char} {port : Fin 65536} :
    parsePort digits = .ok port ↔ SpellsPort digits port := by
  have hshape : SpellsPort digits port ↔ ¬(digits = [] ∨ digits.all Char.isDigit = false) ∧
      digits.length ≤ Decimal.maxDigits ∧ Decimal.natOfDigits digits = port.val := by
    rw [not_or, Bool.not_eq_false, List.all_eq_true]
    constructor
    · rintro ⟨hne, hall, hlength, hvalue⟩
      exact ⟨⟨hne, hall⟩, hlength, hvalue⟩
    · rintro ⟨⟨hne, hall⟩, hlength, hvalue⟩
      exact ⟨hne, hall, hlength, hvalue⟩
  rw [hshape, parsePort]
  by_cases hother : digits = [] ∨ digits.all Char.isDigit = false
  · rw [if_pos hother]
    exact iff_of_false (by simp) fun hspelled => hspelled.1 hother
  rw [if_neg hother, and_iff_right hother, Decimal.readDigits]
  by_cases hlength : digits.length ≤ Decimal.maxDigits
  · rw [if_pos hlength]
    by_cases hlt : Decimal.natOfDigits digits < 65536
    · simp [Except.mapError, hlength, hlt, Fin.ext_iff]
    · have hne : Decimal.natOfDigits digits ≠ port.val := fun hvalue => hlt (hvalue ▸ port.isLt)
      simp [Except.mapError, hlt, hne]
  · rw [if_neg hlength]
    exact iff_of_false (by simp [Except.mapError]) fun hspelled => hlength hspelled.1

theorem unbracket?_eq_some {host inside : List Char} :
    unbracket? host = some inside ↔ host = '[' :: (inside ++ [']']) := by
  refine ⟨fun hinside => ?_, fun hhost => hhost ▸ unbracket?_brackets inside⟩
  unfold unbracket? at hinside
  split at hinside
  · next hbrackets =>
    obtain ⟨hlength, hfirst, hlast⟩ := hbrackets
    obtain ⟨rest, rfl⟩ := List.head?_eq_some_iff.mp hfirst
    obtain rfl : rest.dropLast = inside := Option.some.inj hinside
    have hne : rest ≠ [] := by
      rintro rfl
      exact absurd hlength (by decide)
    have hend : rest.getLast? = some ']' := by
      rwa [List.getLast?_cons_of_ne_nil hne] at hlast
    obtain ⟨front, rfl⟩ := List.getLast?_eq_some_iff.mp hend
    rw [List.dropLast_concat]
  · cases hinside

/-- A host is read exactly from an address of version 4 or one of version 6 in brackets. -/
theorem parseHost_eq_ok {host : List Char} {ip : IpAddress} :
    parseHost host = .ok ip ↔ SpellsHost host ip := by
  constructor
  · intro hread
    unfold parseHost at hread
    split at hread
    · next inside hinside =>
      split at hread
      · next address haddress =>
        cases hread
        rw [unbracket?_eq_some.mp hinside]
        exact .v6 (IpAddress.parse?_eq_v6.mp haddress)
      · cases hread
    · split at hread
      · next address haddress =>
        cases hread
        exact .v4 (IpAddress.parse?_eq_v4.mp haddress)
      · cases hread
  · rintro (⟨hread⟩ | ⟨hread⟩)
    · have hbare : unbracket? host = none := by
        by_contra hbrackets
        obtain ⟨inside, hinside⟩ := Option.ne_none_iff_exists'.mp hbrackets
        have hbracket : '[' ∈ host := unbracket?_eq_some.mp hinside ▸ List.mem_cons_self
        rcases Ipv4.digit_or_point_of_parse? hread hbracket with hdigit | hpoint
        · exact absurd hdigit (by decide)
        · exact absurd hpoint (by decide)
      rw [parseHost, hbare]
      simp only [IpAddress.parse?_eq_v4.mpr hread]
    · rw [parseHost, unbracket?_brackets]
      simp only [IpAddress.parse?_eq_v6.mpr hread]

theorem SpellsHost.ne_nil {host : List Char} {ip : IpAddress} (hhost : SpellsHost host ip) :
    host ≠ [] := by
  rcases hhost with ⟨hread⟩ | _
  · rintro rfl
    cases hread
  · exact List.cons_ne_nil _ _

/-- The port is behind the last colon, since it has none. -/
theorem splitLast?_of_spells {text : List Char} {host digits : List Char} {port : Fin 65536}
    (htext : text = host ++ ':' :: digits) (hport : SpellsPort digits port) :
    Text.splitLast? ':' text = some (host, digits) := by
  rw [htext, Text.splitLast?_append hport.colon_not_mem]

/-- An address is read exactly from a host and a port with a colon between them. -/
theorem parse_eq_ok {text : String} {address : SocketAddress} :
    parse text = .ok address ↔ Spells text address := by
  constructor
  · intro hparse
    unfold parse at hparse
    split at hparse
    · cases hparse
    · next host digits hsplit =>
      split at hparse
      · cases hparse
      · obtain ⟨port, hport, hparse⟩ := bind_eq_ok.mp hparse
        obtain ⟨ip, hip, hparse⟩ := bind_eq_ok.mp hparse
        cases hparse
        exact ⟨host, digits, (Text.splitLast?_eq_some hsplit).1, parseHost_eq_ok.mp hip,
          parsePort_eq_ok.mp hport⟩
  · rintro ⟨host, digits, htext, hhost, hport⟩
    rw [parse, splitLast?_of_spells htext hport]
    simp only [if_neg hhost.ne_nil, parsePort_eq_ok.mpr hport, parseHost_eq_ok.mpr hhost, ok_bind,
      pure_eq_ok]

/-- Different addresses are written differently. -/
theorem text_inj {left right : SocketAddress} : left.text = right.text ↔ left = right := by
  refine ⟨fun hsame => ?_, fun hsame => hsame ▸ rfl⟩
  have hread := parse_text left
  rw [hsame, parse_text right] at hread
  exact (Except.ok.inj hread).symm

theorem eq_iff {left right : SocketAddress} :
    left = right ↔ left.ip.version = right.ip.version ∧ left.ip.number = right.ip.number ∧
      left.ip.scope = right.ip.scope ∧ left.port = right.port := by
  rw [← and_assoc (a := left.ip.number = _), ← and_assoc, ← IpAddress.eq_iff]
  cases left
  cases right
  rw [mk.injEq]

/-- **Which texts are socket addresses.** They are read as what they spell. What is written for two
of them is the same exactly if they agree in version, number, scope and port, and a written form is
read as the address that it was written for. -/
theorem socket_addresses_canonical :
    (∀ text address, parse text = .ok address ↔ Spells text address) ∧
      (∀ first second left right, Spells first left → Spells second right →
        ((parse first).map SocketAddress.text = (parse second).map SocketAddress.text ↔
          left.ip.version = right.ip.version ∧ left.ip.number = right.ip.number ∧
            left.ip.scope = right.ip.scope ∧ left.port = right.port)) ∧
      ∀ text address, parse text = .ok address → parse address.text = .ok address := by
  refine ⟨fun _ _ => parse_eq_ok, ?_, fun _ address _ => parse_text address⟩
  intro first second left right hfirst hsecond
  rw [parse_eq_ok.mpr hfirst, parse_eq_ok.mpr hsecond, ← eq_iff, ← text_inj]
  exact ⟨fun hsame => Except.ok.inj hsame, fun hsame => congrArg Except.ok hsame⟩

/-- Two spellings of one address, with a scope, an uncompressed run of zeros and a zero in front of
the port, and an address with another scope. -/
theorem socket_addresses_scoped :
    ∃ address other, Spells "[0:0::1%en0]:0443" address ∧ Spells "[::1%en0]:443" address ∧
      Spells "[::1%en1]:443" other ∧ address.text = "[::1%en0]:443" ∧
      parse address.text = .ok address ∧
      (parse "[0:0::1%en0]:0443").map text = (parse "[::1%en0]:443").map text ∧
      (parse "[::1%en0]:443").map text ≠ (parse "[::1%en1]:443").map text := by
  obtain ⟨hspells, hsame, hagain⟩ := socket_addresses_canonical
  obtain ⟨address, haddress⟩ := exists_of_isOk (show (parse "[0:0::1%en0]:0443").isOk by decide)
  obtain ⟨other, hother⟩ := exists_of_isOk (show (parse "[::1%en1]:443").isOk by decide)
  have htext : (parse "[0:0::1%en0]:0443").map text = .ok "[::1%en0]:443" := by decide
  rw [haddress] at htext
  have hcanonical : address.text = "[::1%en0]:443" := Except.ok.inj htext
  have hread : parse "[::1%en0]:443" = .ok address := hcanonical ▸ hagain _ address haddress
  have hscope : address.ip.scope ≠ other.ip.scope := by
    have hscopes : (parse "[::1%en0]:443").map (·.ip.scope) ≠
        (parse "[::1%en1]:443").map (·.ip.scope) := by decide
    rw [hread, hother] at hscopes
    exact fun heq => hscopes (congrArg Except.ok heq)
  have hfirst := (hspells _ _).mp haddress
  have hsecond := (hspells _ _).mp hread
  have hthird := (hspells _ _).mp hother
  refine ⟨address, other, hfirst, hsecond, hthird, hcanonical, hagain _ address haddress, ?_, ?_⟩
  · exact (hsame _ _ _ _ hfirst hsecond).mpr ⟨rfl, rfl, rfl, rfl⟩
  · exact fun heq => hscope ((hsame _ _ _ _ hsecond hthird).mp heq).2.2.1

end SocketAddress

end ReverseProxy
