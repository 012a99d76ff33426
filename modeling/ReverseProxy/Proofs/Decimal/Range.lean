import Mathlib.Algebra.Order.Field.Power
import Mathlib.Data.Nat.Digits.Defs
import Mathlib.Tactic.FieldSimp
import Mathlib.Tactic.Linarith
import ReverseProxy.Decimal.Binary64

/-!
# What 64 bits hold

Rounding gives a significand below `2 ^ 53` and a power of two that is at least the least one, so
only a power that is too great makes a number infinite (`Binary64.ofQuotient_eq_infinite_iff`). A
float without a fraction never has more digits than an integer may have
(`Binary64.natAbs_toInt_lt`).
-/

namespace ReverseProxy.Decimal.Binary64

theorem scaled_pos (value : Nat) {base : Nat} (hbase : 0 < base) (power : Int) :
    0 < (scaled value base power).2 := by
  unfold scaled
  split
  · exact Nat.one_pos
  · exact Nat.pow_pos hbase

/-- The fraction is the number it stands for. -/
theorem scaled_eq (value : Nat) {base : Nat} (hbase : 0 < base) (power : Int) :
    ((scaled value base power).1 : ℚ) = value * base ^ power * (scaled value base power).2 := by
  have hne : (base : ℚ) ≠ 0 := by exact_mod_cast hbase.ne'
  unfold scaled
  split
  · next hpower =>
    lift power to ℕ using hpower
    simp
  · next hpower =>
    obtain ⟨count, rfl⟩ : ∃ count : ℕ, power = -count := ⟨(-power).toNat, by omega⟩
    simp [hne]

theorem lt_estimate (numerator : Nat) {denominator : Nat} (hpos : 0 < denominator) :
    (numerator : ℚ) <
      denominator * 2 ^ ((Nat.log2 numerator - Nat.log2 denominator : Int) + 1) := by
  have hnumerator : (numerator : ℚ) < 2 ^ (Nat.log2 numerator + 1) := by
    exact_mod_cast Nat.lt_log2_self
  have hdenominator : (2 : ℚ) ^ Nat.log2 denominator ≤ denominator := by
    exact_mod_cast Nat.log2_self_le hpos.ne'
  calc (numerator : ℚ)
      < 2 ^ (Nat.log2 numerator + 1) := hnumerator
    _ = 2 ^ Nat.log2 denominator *
          2 ^ ((Nat.log2 numerator - Nat.log2 denominator : Int) + 1) := by
        rw [← zpow_natCast, ← zpow_natCast, ← zpow_add₀ two_ne_zero]
        congr 1
        push_cast
        ring
    _ ≤ denominator * 2 ^ ((Nat.log2 numerator - Nat.log2 denominator : Int) + 1) := by gcongr

/-- A quotient is below twice the power of two that is its magnitude. -/
theorem lt_binaryMagnitude (numerator : Nat) {denominator : Nat} (hpos : 0 < denominator) :
    (numerator : ℚ) < denominator * 2 ^ (binaryMagnitude numerator denominator + 1) := by
  unfold binaryMagnitude
  generalize hestimate : (Nat.log2 numerator - Nat.log2 denominator : Int) = estimate
  dsimp only
  split
  · exact hestimate ▸ lt_estimate numerator hpos
  · next hbelow =>
    have hunit : (0 : ℚ) < (scaled 1 2 estimate).2 := by
      exact_mod_cast scaled_pos 1 two_pos estimate
    have hscaled := scaled_eq 1 two_pos estimate
    have hlt : (numerator : ℚ) * (scaled 1 2 estimate).2 <
        (scaled 1 2 estimate).1 * denominator := by
      exact_mod_cast not_le.mp hbelow
    rw [hscaled] at hlt
    rw [sub_add_cancel]
    refine lt_of_mul_lt_mul_right ?_ hunit.le
    calc (numerator : ℚ) * (scaled 1 2 estimate).2
        < ((1 : ℕ) * (2 : ℕ) ^ estimate * (scaled 1 2 estimate).2) * denominator := hlt
      _ = denominator * 2 ^ estimate * (scaled 1 2 estimate).2 := by push_cast; ring

/-- Rounding does not pass an integer. -/
theorem roundQuotient_le {numerator denominator bound : Nat}
    (hbound : numerator < bound * denominator) : roundQuotient numerator denominator ≤ bound := by
  have hquotient : numerator / denominator < bound := Nat.div_lt_of_lt_mul (by rwa [Nat.mul_comm])
  unfold roundQuotient
  dsimp only
  split
  · omega
  · split <;> omega

/-- On the grid of a quotient its significand is below `2 ^ 53`. -/
theorem significand_lt (numerator : Nat) {denominator : Nat} (hpos : 0 < denominator)
    {exponent : Int} (hexponent : binaryMagnitude numerator denominator - 52 ≤ exponent) :
    numerator * (scaled 1 2 (-exponent)).1 <
      2 * leastNormal * (denominator * (scaled 1 2 (-exponent)).2) := by
  have hunit : (0 : ℚ) < (scaled 1 2 (-exponent)).2 := by
    exact_mod_cast scaled_pos 1 two_pos (-exponent)
  have hscaled := scaled_eq 1 two_pos (-exponent)
  have hleast : ((2 * leastNormal : ℕ) : ℚ) = 2 ^ (53 : ℤ) := by
    change ((2 * 2 ^ 52 : ℕ) : ℚ) = 2 ^ (53 : ℤ)
    norm_num
  have hlt : (numerator : ℚ) * (scaled 1 2 (-exponent)).1 <
      (2 * leastNormal : ℕ) * (denominator * (scaled 1 2 (-exponent)).2) := by
    rw [hscaled, hleast]
    calc (numerator : ℚ) * ((1 : ℕ) * (2 : ℕ) ^ (-exponent) * (scaled 1 2 (-exponent)).2)
        = numerator * 2 ^ (-exponent) * (scaled 1 2 (-exponent)).2 := by push_cast; ring
      _ < (denominator * 2 ^ (binaryMagnitude numerator denominator + 1)) * 2 ^ (-exponent) *
            (scaled 1 2 (-exponent)).2 := by
          gcongr
          exact lt_binaryMagnitude numerator hpos
      _ = denominator * 2 ^ (binaryMagnitude numerator denominator + 1 - exponent) *
            (scaled 1 2 (-exponent)).2 := by
          rw [mul_assoc (denominator : ℚ), ← zpow_add₀ two_ne_zero]
          rfl
      _ ≤ denominator * 2 ^ (53 : ℤ) * (scaled 1 2 (-exponent)).2 := by
          gcongr
          · norm_num
          · omega
      _ = 2 ^ (53 : ℤ) * (denominator * (scaled 1 2 (-exponent)).2) := by ring
  exact_mod_cast hlt

/-- What a positive quotient is rounded to fits in 64 bits unless its power of two is too great. -/
theorem fits_rounded_iff (numerator : Nat) {denominator : Nat} (hpos : 0 < denominator) :
    Fits (rounded numerator denominator).1 (rounded numerator denominator).2 ↔
      (rounded numerator denominator).2 ≤ maxExponent := by
  refine ⟨fun hfits => hfits.2.2, fun hgreatest => ?_⟩
  unfold rounded at hgreatest ⊢
  generalize hexponent : max minExponent (binaryMagnitude numerator denominator - 52) = exponent
    at hgreatest
  have hleast : minExponent ≤ exponent := hexponent ▸ le_max_left ..
  have hrounded : roundQuotient (numerator * (scaled 1 2 (-exponent)).1)
      (denominator * (scaled 1 2 (-exponent)).2) ≤ 2 * leastNormal :=
    roundQuotient_le (significand_lt numerator hpos (hexponent ▸ le_max_right ..))
  dsimp only at hgreatest ⊢
  split at hgreatest
  · next hcarry =>
    have hcarried : leastNormal < 2 * leastNormal := by decide
    rw [if_pos hcarry]
    exact ⟨hcarried, Int.le_add_one hleast, hgreatest⟩
  · next hcarry =>
    rw [if_neg hcarry]
    exact ⟨lt_of_le_of_ne hrounded hcarry, hleast, hgreatest⟩

/-- A number is too large if its rounded exponent is. -/
theorem ofQuotient_eq_infinite_iff (negative : Bool) (numerator : Nat) {denominator : Nat}
    (hpos : 0 < denominator) : ofQuotient negative numerator denominator = .infinite negative ↔
      maxExponent < (rounded numerator denominator).2 := by
  rw [← not_le, ← fits_rounded_iff numerator hpos]
  unfold ofQuotient
  dsimp only
  split
  · next hfits => exact iff_of_false nofun fun hnone => hnone hfits
  · next hnone => exact iff_of_true rfl hnone

/-- A float without a fraction is an integer that is not too long to be written. -/
theorem natAbs_toInt_lt (value : Binary64) : value.toInt.natAbs < 10 ^ maxDigits := by
  cases value with
  | finite negative significand exponent hfits =>
      obtain ⟨hsignificand, -, hexponent⟩ := id hfits
      have hscaled :
          (scaled significand 2 exponent).1 ≤ significand * 2 ^ maxExponent.toNat := by
        unfold scaled
        split
        · exact Nat.mul_le_mul_left _ (Nat.pow_le_pow_right (by decide)
            (Int.toNat_le_toNat hexponent))
        · exact Nat.le_mul_of_pos_right _ (Nat.two_pow_pos _)
      have hmagnitude : (toInt (.finite negative significand exponent hfits)).natAbs =
          (scaled significand 2 exponent).1 / (scaled significand 2 exponent).2 := by
        cases negative
        · exact Int.natAbs_natCast _
        · exact (Int.natAbs_neg _).trans (Int.natAbs_natCast _)
      have hlimit : 53 + maxExponent.toNat ≤ maxDigits := by decide
      generalize maxExponent.toNat = power at hscaled hlimit
      calc (toInt (.finite negative significand exponent hfits)).natAbs
          ≤ (scaled significand 2 exponent).1 := hmagnitude ▸ Nat.div_le_self _ _
        _ ≤ significand * 2 ^ power := hscaled
        _ < 2 ^ 53 * 2 ^ power :=
            Nat.mul_lt_mul_of_pos_right hsignificand (Nat.two_pow_pos _)
        _ = 2 ^ (53 + power) := (Nat.pow_add 2 53 _).symm
        _ ≤ 10 ^ (53 + power) := Nat.pow_le_pow_left (by decide) _
        _ ≤ 10 ^ maxDigits := Nat.pow_le_pow_right (by decide) hlimit
  | infinite => exact Nat.pow_pos (by decide)
  | nan => exact Nat.pow_pos (by decide)

end ReverseProxy.Decimal.Binary64
