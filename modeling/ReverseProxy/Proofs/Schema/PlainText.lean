import ReverseProxy.Proofs.Decimal.Range
import ReverseProxy.Proofs.Schema.Entries

/-!
# The text of a scalar

No number is written with a colon, so that only a string spells a socket address. A float without a
fraction is written as an integer, which it never has too many digits for.
-/

namespace ReverseProxy

open Decimal Kdl Schema

namespace Decimal

theorem colon_not_mem_toDigits (n : Nat) : ':' ∉ Nat.toDigits 10 n := fun hcolon =>
  absurd (isDigit_of_mem_decimal hcolon) (by decide)

theorem colon_not_mem_text (value : Int) : ':' ∉ (Decimal.text value).toList := by
  rw [toList_text]
  split <;> simp [colon_not_mem_toDigits]

theorem colon_not_mem_significantDigits (value : Nat) : ':' ∉ significantDigits value := by
  intro hcolon
  have hdigits := (List.dropWhile_sublist _).subset (List.mem_reverse.mp hcolon)
  exact colon_not_mem_toDigits value (List.mem_reverse.mp hdigits)

theorem colon_not_mem_positionalText {digits : List Char} (hdigits : ':' ∉ digits) (point : Int) :
    ':' ∉ positionalText digits point := by
  have htake : ':' ∉ digits.take point.toNat := fun hcolon => hdigits (List.mem_of_mem_take hcolon)
  have hdrop : ':' ∉ digits.drop point.toNat := fun hcolon => hdigits (List.mem_of_mem_drop hcolon)
  unfold positionalText
  split
  · simp [zeros, hdigits]
  · split
    · simp [zeros, hdigits]
    · simp [htake, hdrop]

theorem Layout.colon_not_mem_exponentText (exponent : Int) :
    ':' ∉ Layout.standard.exponentText exponent := by
  have hdigits := colon_not_mem_toDigits exponent.natAbs
  have hsign : ':' ∉ if exponent < 0 then ['-'] else Layout.standard.positiveSign.toList := by
    split <;> decide
  simp [exponentText, zeros, hdigits, hsign]

theorem Layout.colon_not_mem_point (point : Point) : ':' ∉ Layout.standard.point point := by
  have hdigits := colon_not_mem_significantDigits point.digits
  unfold Layout.point
  dsimp only
  split
  · exact colon_not_mem_positionalText hdigits _
  · split
    · exact List.not_mem_nil
    · next hone => simp_all [colon_not_mem_exponentText]
    · next hseveral => simp_all [colon_not_mem_exponentText]

/-- No number is written with a colon. -/
theorem Layout.colon_not_mem_write (value : Binary64) :
    ':' ∉ (Layout.standard.write value).toList := by
  unfold Layout.write
  split
  · decide
  · decide
  · decide
  · next negative significand exponent _ =>
    have hmagnitude : ':' ∉ if significand = 0 then ['0', '.', '0']
        else Layout.standard.point (shortest significand exponent) := by
      split
      · decide
      · exact colon_not_mem_point _
    cases negative <;> simpa using hmagnitude

end Decimal

/-- An integer is written if it has no more digits than the limit. -/
theorem writeInt_eq_ok {value : Int} {text : String} :
    writeInt value = .ok text ↔
      (Nat.repr value.natAbs).length ≤ maxDigits ∧ Decimal.text value = text := by
  unfold writeInt
  split <;> simp_all

/-- Only a string has a text with a colon. -/
theorem Kdl.Scalar.eq_string_of_colon {value : Scalar} {text : String}
    (htext : value.plainText = .ok (some text)) (hcolon : ':' ∈ text.toList) :
    value = .string text := by
  have hinteger (number : Int) (hwritten : some <$> writeInt number = .ok (some text)) : False := by
    obtain ⟨written, hwritten, ⟨⟩⟩ := map_eq_ok.mp hwritten
    obtain ⟨-, rfl⟩ := writeInt_eq_ok.mp hwritten
    exact colon_not_mem_text number hcolon
  cases value with
  | string content =>
      cases htext
      rfl
  | integer number => exact (hinteger number htext).elim
  | float number =>
      rw [plainText] at htext
      split at htext
      · exact (hinteger number.toInt htext).elim
      · cases htext
        exact absurd hcolon (Layout.colon_not_mem_write number)
  | boolean flag =>
      cases htext
      cases flag <;> exact absurd hcolon (by decide)
  | null => cases htext

/-- An address has a colon in front of its port. -/
theorem SocketAddress.colon_mem_of_parse {text : String} {address : SocketAddress}
    (hparse : SocketAddress.parse text = .ok address) : ':' ∈ text.toList := by
  unfold SocketAddress.parse at hparse
  split at hparse
  · cases hparse
  · next host port hsplit =>
    rw [(Text.splitLast?_eq_some hsplit).1]
    exact List.mem_append_right host List.mem_cons_self

/-- An entry is read as a socket address only if it holds a string. -/
theorem Kdl.Entry.parseAs_socketAddress {entry : Entry} {address : SocketAddress} :
    entry.parseAs TextType.socketAddress = .ok address ↔
      ∃ text, entry.value = .string text ∧ SocketAddress.parse text = .ok address := by
  constructor
  · intro hparse
    obtain ⟨raw, hraw, hparse⟩ := parseAs_eq_ok.mp hparse
    have haddress := mapError_eq_ok.mp hparse
    exact ⟨raw, Scalar.eq_string_of_colon (asText_eq_ok.mp hraw)
      (SocketAddress.colon_mem_of_parse haddress), haddress⟩
  · rintro ⟨text, hvalue, haddress⟩
    exact (parseAs_of_string hvalue).mpr (mapError_eq_ok.mpr haddress)

/-- An integer has no more digits than are written. -/
def Kdl.Scalar.IsBounded : Scalar → Prop
  | .integer value => (Nat.repr value.natAbs).length ≤ maxDigits
  | _ => True

/-- Every value that is bounded has a text, but for null. -/
theorem Kdl.Scalar.exists_plainText {value : Scalar} (hbounded : value.IsBounded)
    (hvalue : value ≠ .null) : ∃ text, value.plainText = .ok (some text) := by
  cases value with
  | string text => exact ⟨text, rfl⟩
  | integer number =>
      exact ⟨Decimal.text number, by rw [plainText, writeInt_eq_ok.mpr ⟨hbounded, rfl⟩]; rfl⟩
  | float number =>
      rw [plainText]
      split
      · have hlength : (Nat.repr number.toInt.natAbs).length ≤ maxDigits :=
          Nat.repr_length _ _ (by decide) number.natAbs_toInt_lt
        exact ⟨Decimal.text number.toInt, by rw [writeInt_eq_ok.mpr ⟨hlength, rfl⟩]; rfl⟩
      · exact ⟨_, rfl⟩
  | boolean flag => exact ⟨_, rfl⟩
  | null => exact absurd rfl hvalue

end ReverseProxy
