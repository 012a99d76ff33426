import Mathlib.Data.List.DropRight
import ReverseProxy.Proofs.Names.SocketAddress

/-!
# The parts of a written socket address

Host and port are looked up in the written form, on either side of its last colon. The port is
always found. The host loses all brackets at its ends, not only the two that stand around an address
of version 6, so that it is not found if the scope ends with a bracket.
-/

namespace ReverseProxy.SocketAddress

/-- The scope ends with a bracket of either kind. -/
def EndsInBracket (ip : IpAddress) : Prop :=
  ∃ scope c, ip.scope = some scope ∧ scope.text.getLast? = some c ∧ isBracket c = true

def assemble (version : Nat) (host : String) (port : Nat) : String :=
  String.ofList ((if version = 6 then '[' :: (host.toList ++ [']']) else host.toList) ++
    ':' :: Nat.toDigits 10 port)

theorem isBracket_eq_true {c : Char} : isBracket c = true ↔ c = '[' ∨ c = ']' := by
  simp [isBracket]

theorem not_bracket_of_mem_v4 {address : Ipv4} {c : Char} (hc : c ∈ address.write) :
    ¬isBracket c = true := by
  rw [isBracket_eq_true]
  rcases Ipv4.digit_or_point_of_parse? address.parse?_write hc with hdigit | rfl
  · rintro (rfl | rfl) <;> exact absurd hdigit (by decide)
  · decide

/-- No address has a bracket in it, though a scope may. -/
theorem not_bracket_of_mem_v6 {groups : List Hextet} {c : Char}
    (hc : c ∈ Ipv6.writeAddress groups) : ¬isBracket c = true := by
  rw [isBracket_eq_true]
  rcases Ipv6.mem_writeAddress hc with rfl | hdigit
  · decide
  · rintro (rfl | rfl) <;> exact absurd hdigit (by decide)

theorem writeAddress_ne_nil {groups : List Hextet} (hlength : groups.length = 8) :
    Ipv6.writeAddress groups ≠ [] :=
  List.ne_nil_of_mem (Ipv6.colon_mem_of_parse? (Ipv6.parse?_write ⟨groups, hlength, none⟩))

theorem exists_write_eq_cons (ip : IpAddress) :
    ∃ c rest, ip.write = c :: rest ∧ ¬isBracket c = true := by
  cases ip with
  | v4 address =>
      have hne : address.write ≠ [] := by
        intro hnil
        have hread := address.parse?_write
        rw [hnil] at hread
        cases hread
      obtain ⟨c, rest, hwrite⟩ := List.exists_cons_of_ne_nil hne
      exact ⟨c, rest, hwrite, not_bracket_of_mem_v4 (hwrite ▸ List.mem_cons_self)⟩
  | v6 address =>
      obtain ⟨c, rest, hwrite⟩ :=
        List.exists_cons_of_ne_nil (writeAddress_ne_nil address.length_groups)
      have hc : c ∈ Ipv6.writeAddress address.groups := hwrite ▸ List.mem_cons_self
      exact ⟨c, _, by rw [IpAddress.write, Ipv6.write_eq, hwrite, List.cons_append],
        not_bracket_of_mem_v6 hc⟩

/-- Only a scope can end an address with a bracket. -/
theorem endsInBracket_iff {ip : IpAddress} :
    EndsInBracket ip ↔ ∃ c, ip.write.getLast? = some c ∧ isBracket c = true := by
  rcases ip with address | ⟨groups, hlength, _ | scope⟩
  · refine iff_of_false nofun ?_
    rintro ⟨c, hlast, hbracket⟩
    exact not_bracket_of_mem_v4 (List.mem_of_getLast? hlast) hbracket
  · refine iff_of_false nofun ?_
    rintro ⟨c, hlast, hbracket⟩
    exact not_bracket_of_mem_v6 (List.mem_of_getLast? hlast) hbracket
  · have hlast : (IpAddress.v6 ⟨groups, hlength, some scope⟩).write.getLast? =
        scope.text.getLast? := by
      rw [IpAddress.write, Ipv6.write_eq]
      dsimp only
      rw [List.getLast?_append_of_ne_nil _ (List.cons_ne_nil _ _),
        List.getLast?_cons_of_ne_nil scope.ne_nil]
    rw [hlast]
    constructor
    · rintro ⟨own, c, ⟨⟩, hlast, hbracket⟩
      exact ⟨c, hlast, hbracket⟩
    · rintro ⟨c, hlast, hbracket⟩
      exact ⟨scope, c, rfl, hlast, hbracket⟩

/-- The port is always recovered. -/
theorem writtenPort_eq (address : SocketAddress) : address.writtenPort = .ok address.port.val := by
  rw [writtenPort, splitLast?_chars]
  exact readDigits_toDigits address.port

/-- What is taken off in front is the one bracket around an address of version 6; at the end it may
be more. -/
theorem toList_host (address : SocketAddress) :
    address.host.toList = address.ip.write.rdropWhile isBracket := by
  obtain ⟨c, rest, hwrite, hc⟩ := exists_write_eq_cons address.ip
  have hstrip : address.host.toList = stripBrackets (writeHost address.ip) := by
    rw [host, splitLast?_chars, String.toList_ofList]
    rfl
  rw [hstrip]
  change ((writeHost address.ip).dropWhile isBracket).rdropWhile isBracket = _
  cases hip : address.ip with
  | v4 own =>
      rw [hip, IpAddress.write] at hwrite
      rw [writeHost, IpAddress.write, hwrite, List.dropWhile_cons_of_neg hc]
  | v6 own =>
      rw [hip, IpAddress.write] at hwrite
      rw [writeHost, IpAddress.write, List.dropWhile_cons_of_pos rfl, hwrite, List.cons_append,
        List.dropWhile_cons_of_neg hc, ← List.cons_append, List.rdropWhile_concat_pos _ _ _ rfl]

/-- The host is recovered exactly if its address does not end with a bracket. -/
theorem toList_host_eq_write_iff (address : SocketAddress) :
    address.host.toList = address.ip.write ↔ ¬EndsInBracket address.ip := by
  obtain ⟨c, rest, hwrite, -⟩ := exists_write_eq_cons address.ip
  have hne : address.ip.write ≠ [] := by
    rw [hwrite]
    exact List.cons_ne_nil c rest
  rw [toList_host, List.rdropWhile_eq_self_iff, endsInBracket_iff]
  simp [hne, List.getLast?_eq_some_getLast hne]

/-- Host and port make up the address again exactly if the host was recovered. -/
theorem assemble_eq_text_iff (address : SocketAddress) :
    assemble address.ip.version address.host address.port.val = address.text ↔
      address.host.toList = address.ip.write := by
  rw [assemble, text, String.ofList_inj, chars, List.append_cancel_right_eq]
  cases hip : address.ip with
  | v4 own => simp [IpAddress.version, writeHost, IpAddress.write]
  | v6 own => simp [IpAddress.version, writeHost, IpAddress.write]

/-- **The parts of a socket address.** The port is the number behind the last colon of the text that
was read. The host is the written address without the brackets at its end; it is the whole of it,
and makes up the written form again together with the port, exactly if the scope does not end with a
bracket. -/
theorem components_recovered {text : String} {address : SocketAddress}
    (hparse : parse text = .ok address) :
    ∃ front digits port, text.toList = front ++ ':' :: digits ∧ ':' ∉ digits ∧
      SpellsHost front address.ip ∧ Decimal.natOfDigits digits = port ∧
      address.writtenPort = .ok port ∧
      address.host.toList = address.ip.write.rdropWhile isBracket ∧
      (address.host.toList = address.ip.write ↔ ¬EndsInBracket address.ip) ∧
      (assemble address.ip.version address.host port = address.text ↔
        ¬EndsInBracket address.ip) := by
  obtain ⟨front, digits, htext, hhost, hport⟩ := parse_eq_ok.mp hparse
  refine ⟨front, digits, address.port.val, htext, hport.colon_not_mem, hhost, hport.value,
    writtenPort_eq address, toList_host address, toList_host_eq_write_iff address, ?_⟩
  rw [assemble_eq_text_iff, toList_host_eq_write_iff]

/-- Brackets inside a scope do no harm. -/
theorem components_recovered_scope :
    ∃ address, parse "[0:0::1%e[]0]:0443" = .ok address ∧ address.host = "::1%e[]0" ∧
      address.writtenPort = .ok 443 ∧
      assemble address.ip.version address.host 443 = address.text := by
  let zone : Scope := ⟨"e[]0".toList, by decide, by decide, by decide⟩
  have hparse : parse "[0:0::1%e[]0]:0443" =
      .ok ⟨.v6 ⟨[0, 0, 0, 0, 0, 0, 0, 1], rfl, some zone⟩, 443⟩ := by decide
  obtain ⟨_, _, port, -, -, -, -, hport, -, hhost, hwhole⟩ := components_recovered hparse
  obtain rfl : port = 443 := Except.ok.inj (hport.symm.trans (by decide))
  have hends : ¬EndsInBracket (.v6 ⟨[0, 0, 0, 0, 0, 0, 0, 1], rfl, some zone⟩) := by
    rintro ⟨_, c, ⟨⟩, ⟨⟩, hbracket⟩
    cases hbracket
  exact ⟨_, hparse, String.toList_injective (hhost.mpr hends), hport, hwhole.mpr hends⟩

/-- A bracket at the end of a scope is lost. -/
theorem components_lose_bracket :
    ∃ address, parse "[fe80::1%eth]]:80" = .ok address ∧
      address.ip.write = "fe80::1%eth]".toList ∧ address.host = "fe80::1%eth" ∧
      address.writtenPort = .ok 80 ∧
      assemble address.ip.version address.host 80 ≠ address.text := by
  refine ⟨⟨.v6 ⟨[65152, 0, 0, 0, 0, 0, 0, 1], rfl,
    some ⟨"eth]".toList, by decide, by decide, by decide⟩⟩, 80⟩, ?_⟩
  decide

end ReverseProxy.SocketAddress
