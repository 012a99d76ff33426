import ReverseProxy.Names.Fqdn
import ReverseProxy.Names.SocketAddress
import ReverseProxy.Path
import ReverseProxy.Proofs.Names.Ip

/-!
# Canonical texts

Socket addresses and paths have one text each, which is read as the value it was written for. The
text of a qualified name is read as the same name again.
-/

namespace ReverseProxy

namespace SocketAddress

theorem readDigits_toDigits (port : Fin 65536) :
    Decimal.readDigits (Nat.toDigits 10 port.val) = .ok port.val := by
  have hshort : (Nat.toDigits 10 port.val).length ≤ 5 :=
    (Nat.length_toDigits_le_iff (by decide) (by decide)).mpr (by omega)
  rw [Decimal.readDigits, if_pos (hshort.trans (by decide)), Decimal.natOfDigits_toDigits]

/-- A port is read back. -/
theorem parsePort_toDigits (port : Fin 65536) :
    parsePort (Nat.toDigits 10 port.val) = .ok port := by
  have hdigits : (Nat.toDigits 10 port.val).all Char.isDigit = true :=
    List.all_eq_true.mpr fun c hc => Decimal.isDigit_of_mem_decimal hc
  rw [parsePort, if_neg (by simp [hdigits]), readDigits_toDigits]
  simp [Except.mapError]

theorem unbracket?_brackets (text : List Char) :
    unbracket? ('[' :: (text ++ [']'])) = some text := by
  rw [unbracket?, if_pos]
  · simp
  · exact ⟨by simp, rfl, by rw [← List.cons_append, List.getLast?_concat]⟩

/-- A host is read back, with its brackets if it is of version 6. -/
theorem parseHost_writeHost (ip : IpAddress) : parseHost (writeHost ip) = .ok ip := by
  cases ip with
  | v4 address =>
      have hbare : unbracket? address.write = none := by
        rw [unbracket?, if_neg]
        rintro ⟨-, hhead, -⟩
        rcases Ipv4.digit_or_point_of_parse? address.parse?_write (List.mem_of_head? hhead) with
          hdigit | hpoint
        · exact absurd hdigit (by decide)
        · exact absurd hpoint (by decide)
      have hread : IpAddress.parse? address.write = some (.v4 address) :=
        IpAddress.parse?_write (.v4 address)
      rw [writeHost, parseHost, hbare]
      simp only [hread]
  | v6 address =>
      have hread : IpAddress.parse? address.write = some (.v6 address) :=
        IpAddress.parse?_write (.v6 address)
      rw [writeHost, parseHost, unbracket?_brackets]
      simp only [hread]

theorem writeHost_ne_nil (ip : IpAddress) : writeHost ip ≠ [] := by
  intro hnil
  have hread := parseHost_writeHost ip
  rw [hnil] at hread
  cases hread

theorem splitLast?_chars (address : SocketAddress) :
    Text.splitLast? ':' address.chars =
      some (writeHost address.ip, Nat.toDigits 10 address.port.val) := by
  have hport : ':' ∉ Nat.toDigits 10 address.port.val := fun hcolon =>
    absurd (Decimal.isDigit_of_mem_decimal hcolon) (by decide)
  rw [chars, Text.splitLast?_append hport]

theorem parse_text (address : SocketAddress) : parse address.text = .ok address := by
  rw [parse, text, String.toList_ofList, splitLast?_chars]
  simp only [if_neg (writeHost_ne_nil address.ip), parsePort_toDigits, parseHost_writeHost, ok_bind,
    pure_eq_ok]

end SocketAddress

namespace Path

def joinParts (parts : List String) : List Char := Text.join '/' (parts.map String.toList)

theorem toList_intercalate_slash (parts : List String) :
    ("/".intercalate parts).toList = joinParts parts := by
  rw [joinParts, ← Text.intercalate_eq_join, String.toList_intercalate]
  rfl

section Parts

variable {parts : List String} (hvalid : ∀ part ∈ parts, IsPathPart part)

include hvalid

theorem keepParts_joinParts :
    keepParts ((Text.splitAll '/' (joinParts parts)).map String.ofList) = parts := by
  cases parts with
  | nil => decide
  | cons part others =>
      have hslash : ∀ text ∈ (part :: others).map String.toList, '/' ∉ text := by
        intro text htext
        obtain ⟨name, hname, rfl⟩ := List.mem_map.mp htext
        exact (hvalid name hname).2.2
      have hnames : ((part :: others).map String.toList).map String.ofList = part :: others := by
        simp [Function.comp_def]
      rw [joinParts, Text.splitAll_join (by simp) hslash, hnames]
      exact List.filter_eq_self.mpr fun name hname => decide_eq_true (hvalid name hname)

/-- No slash stands in front of the names. -/
theorem takeWhile_joinParts : (joinParts parts).takeWhile (· = '/') = [] := by
  cases parts with
  | nil => rfl
  | cons part others =>
      obtain ⟨hempty, -, hslash⟩ := hvalid part List.mem_cons_self
      have hne : part.toList ≠ [] := by simpa using hempty
      obtain ⟨c, rest, hpart⟩ := List.exists_cons_of_ne_nil hne
      have hc : c ≠ '/' := by
        rintro rfl
        exact hslash (by simp [hpart])
      cases others <;> simp [joinParts, Text.join, hpart, hc]

end Parts

theorem parse_text (path : Path) : parse path.text = path := by
  rcases path with ⟨root, parts, hvalid⟩
  have hkeep := keepParts_joinParts hvalid
  have hroot := takeWhile_joinParts hvalid
  have hslash (rest : List Char) :
      Text.splitAll '/' ('/' :: rest) = [] :: Text.splitAll '/' rest := by
    rw [Text.splitAll, if_pos rfl]
  have hdrop (names : List String) : keepParts ("" :: names) = keepParts names := rfl
  rw [parse, mk.injEq]
  cases root with
  | relative =>
      cases parts with
      | nil =>
          have htext : text ⟨.relative, [], hvalid⟩ = "." := rfl
          rw [htext]
          decide
      | cons part others =>
          have htext : (text ⟨.relative, part :: others, hvalid⟩).toList =
              joinParts (part :: others) := by
            simp only [text, Root.text, String.empty_append, toList_intercalate_slash]
          rw [htext]
          exact ⟨by rw [rootOf, hroot]; rfl, hkeep⟩
  | absolute =>
      have htext : (text ⟨.absolute, parts, hvalid⟩).toList = '/' :: joinParts parts := by
        simp only [text, Root.text, String.toList_append, toList_intercalate_slash]
        rfl
      rw [htext, hslash, List.map_cons, String.ofList_nil, hdrop]
      exact ⟨by rw [rootOf, List.takeWhile_cons_of_pos (by decide), hroot]; rfl, hkeep⟩
  | doubled =>
      have htext : (text ⟨.doubled, parts, hvalid⟩).toList = '/' :: '/' :: joinParts parts := by
        simp only [text, Root.text, String.toList_append, toList_intercalate_slash]
        rfl
      rw [htext, hslash, hslash, List.map_cons, List.map_cons, String.ofList_nil, hdrop, hdrop]
      refine ⟨?_, hkeep⟩
      rw [rootOf, List.takeWhile_cons_of_pos (by decide), List.takeWhile_cons_of_pos (by decide),
        hroot]
      rfl

end Path

namespace Fqdn

/-- A name that was checked does not end with a dot. -/
theorem dropFinalDot_of_checked {name : List Char}
    (hlabels : ∀ label ∈ Text.splitAll '.' name, checkLabel label = .ok ()) :
    dropFinalDot name = name := by
  rw [dropFinalDot, if_neg]
  rintro ⟨-, hlast⟩
  obtain ⟨front, rfl⟩ := List.getLast?_eq_some_iff.mp hlast
  have hempty := hlabels [] (List.mem_of_mem_tail (Text.nil_mem_tail_splitAll front))
  cases hempty

/-- What a text has to be for a qualified name. -/
theorem parse_eq_ok {text : String} {name : Fqdn} :
    parse text = .ok name ↔
      (dropFinalDot text.toList ≠ [] ∧ (dropFinalDot text.toList).length ≤ maxLength ∧
        ∀ label ∈ Text.splitAll '.' (dropFinalDot text.toList), checkLabel label = .ok ()) ∧
      name = ⟨String.ofList (dropFinalDot text.toList)⟩ := by
  unfold parse
  dsimp only
  split
  · next hnil => simp [hnil]
  · next hne =>
    split
    · next hlong => simp [Nat.not_le.mpr hlong]
    · next hshort =>
      rw [bind_eq_ok]
      constructor
      · rintro ⟨⟨⟩, hlabels, hname⟩
        cases hname
        exact ⟨⟨hne, Nat.le_of_not_lt hshort, forM_eq_ok.mp hlabels⟩, rfl⟩
      · rintro ⟨⟨-, -, hlabels⟩, rfl⟩
        exact ⟨(), forM_eq_ok.mpr hlabels, rfl⟩

/-- The text of a qualified name stands for the name. -/
theorem parse_text {text : String} {name : Fqdn} (hparse : parse text = .ok name) :
    parse name.text = .ok name := by
  obtain ⟨⟨hne, hlength, hlabels⟩, rfl⟩ := parse_eq_ok.mp hparse
  refine parse_eq_ok.mpr ?_
  simp only [String.toList_ofList, dropFinalDot_of_checked hlabels]
  exact ⟨⟨hne, hlength, hlabels⟩, trivial⟩

end Fqdn

end ReverseProxy
