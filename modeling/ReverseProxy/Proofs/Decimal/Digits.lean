import Mathlib.Data.Nat.Digits.Defs
import ReverseProxy.Decimal.Integer
import ReverseProxy.Text.Hex

/-!
# Digits of a number

The digits of a number in base ten and in base sixteen read back as the number. In any base, digits
of one length that stand for the same number are the same.
-/

namespace ReverseProxy.Decimal

theorem positional_concat (base : Nat) (digits : List Nat) (digit : Nat) :
    positional base (digits ++ [digit]) = positional base digits * base + digit := by
  simp [positional]

/-- The value of digits, as the library has it. -/
theorem positional_eq_ofDigits (base : Nat) (digits : List Nat) :
    positional base digits = Nat.ofDigits base digits.reverse := by
  rw [positional, Nat.ofDigits_eq_foldr, List.foldr_reverse]
  simp [Nat.mul_comm, Nat.add_comm]

/-- Digits of one length are determined by their value. -/
theorem positional_val_inj {base : Nat} (hbase : 1 < base) {left right : List (Fin base)}
    (hlength : left.length = right.length) :
    positional base (left.map Fin.val) = positional base (right.map Fin.val) ↔ left = right := by
  refine ⟨fun hvalue => ?_, fun hsame => hsame ▸ rfl⟩
  have hlt (digits : List (Fin base)) : ∀ digit ∈ (digits.map Fin.val).reverse, digit < base := by
    intro digit hdigit
    obtain ⟨own, -, rfl⟩ := List.mem_map.mp (List.mem_reverse.mp hdigit)
    exact own.isLt
  rw [positional_eq_ofDigits, positional_eq_ofDigits] at hvalue
  have hdigits : left.map Fin.val = right.map Fin.val :=
    List.reverse_inj.mp (Nat.ofDigits_inj_of_len_eq hbase (by simpa using hlength) (hlt left)
      (hlt right) hvalue)
  exact (List.map_inj_right fun _ _ => Fin.ext).mp hdigits

/-- A number is read back from its decimal digits. -/
theorem natOfDigits_toDigits (n : Nat) : natOfDigits (Nat.toDigits 10 n) = n := by
  have hfold : natOfDigits (Nat.toDigits 10 n) = Nat.ofDigitChars 10 (Nat.toDigits 10 n) 0 := by
    rw [natOfDigits, positional, List.foldl_map, Nat.ofDigitChars_eq_foldl]
    simp only [digitValue, Nat.mul_comm]
    rfl
  rw [hfold, Nat.ofDigitChars_ten_toDigits]

theorem isDigit_of_mem_decimal {n : Nat} {c : Char} (hc : c ∈ Nat.toDigits 10 n) :
    c.isDigit = true :=
  Nat.isDigit_of_mem_toDigits (by decide) (by decide) hc

theorem digitChar_head? : ∀ digit < 10,
    [Nat.digitChar digit] = ['0'] ∨ [Nat.digitChar digit].head? ≠ some '0' := by
  decide

/-- Only zero is written with a leading zero. -/
theorem toDigits_head? (n : Nat) :
    Nat.toDigits 10 n = ['0'] ∨ (Nat.toDigits 10 n).head? ≠ some '0' := by
  induction n using Nat.strongRecOn with
  | ind n ih =>
      rw [Nat.toDigits_eq_if (by decide)]
      split
      · next hlt => exact digitChar_head? n hlt
      · next hge =>
        right
        rw [List.head?_append, Option.or_of_isSome (by simp)]
        rcases ih (n / 10) (by omega) with hzero | hhead
        · exfalso
          have hvalue := natOfDigits_toDigits (n / 10)
          rw [hzero] at hvalue
          have : natOfDigits ['0'] = 0 := rfl
          omega
        · exact hhead

open Text

/-- The digits of a number in base sixteen have values, which stand for the number. -/
theorem mapM_hexValue?_toDigits (n : Nat) :
    ∃ digits, (Nat.toDigits 16 n).mapM hexValue? = some digits ∧ positional 16 digits = n := by
  induction n using Nat.strongRecOn with
  | ind n ih =>
      rw [Nat.toDigits_eq_if (by decide)]
      split
      · next hlt =>
        exact ⟨[n], by simp [hexValue?_digitChar n hlt], by simp [positional]⟩
      · next hge =>
        obtain ⟨digits, hdigits, hvalue⟩ := ih (n / 16) (by omega)
        have hlast := hexValue?_digitChar (n % 16) (Nat.mod_lt n (by decide))
        refine ⟨digits ++ [n % 16], ?_, ?_⟩
        · rw [List.mapM_append, hdigits]
          simp [hlast]
        · rw [positional_concat, hvalue]
          omega

theorem hexValue?_isSome_of_mem {n : Nat} {c : Char} (hc : c ∈ Nat.toDigits 16 n) :
    (hexValue? c).isSome = true := by
  induction n using Nat.strongRecOn with
  | ind n ih =>
      rw [Nat.toDigits_eq_if (by decide)] at hc
      split at hc
      · next hlt =>
        rw [List.mem_singleton.mp hc, hexValue?_digitChar n hlt]
        rfl
      · next hge =>
        rcases List.mem_append.mp hc with hfront | hlast
        · exact ih (n / 16) (by omega) hfront
        · rw [List.mem_singleton.mp hlast, hexValue?_digitChar _ (Nat.mod_lt n (by decide))]
          rfl

end ReverseProxy.Decimal
