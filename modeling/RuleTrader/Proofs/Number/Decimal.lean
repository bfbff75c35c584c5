import RuleTrader.Proofs.Number.Arithmetic
import RuleTrader.Proofs.Number.Digits

/-!
# A decimal is read as the nearest float

The reader of decimals works out a quotient of two integers, but not where the digits alone show that the
number is too large for a float or too small for one. Either way the result is the float that the number is
rounded to (`Number.ofDecimal_nearest`): a number of so few places is rounded to zero
(`Binary64.rounded_eq_zero`), one of so many to an infinity.
-/

namespace RuleTrader

namespace Binary64

theorem read_ofMagnitude_infinityBits (negative : Bool) :
    read (ofMagnitude negative infinityBits) = .infinite negative := by
  have hread := read_pack_infinity negative
  rw [ofMagnitude_infinityBits hread]
  exact hread

/-- What is worked out for a quotient is the float that it is rounded to. -/
theorem nearest_nearest {num den : ℕ} (hden : den ≠ 0) {q : ℚ} (hq : q = num / den) (negative : Bool) :
    Nearest (nearest negative num den) (withSign negative q) := by
  have hnonneg : 0 ≤ q := by
    rw [hq]
    positivity
  have hbits := roundedBits_lt_iff hnonneg
  rw [nearest, nearestBits_eq num hden hq]
  constructor <;> rw [rounded_withSign, abs_withSign, abs_of_nonneg (rounded_nonneg hnonneg)]
  · intro small
    have hread := read_ofMagnitude (canonical_dyadicOf hnonneg negative small)
    rw [negative_dyadicOf, bitsOf_dyadicOf hnonneg] at hread
    rw [Nat.min_eq_left (hbits.2 small).le]
    exact ⟨_, hread, value_dyadicOf hnonneg negative⟩
  · intro large
    rw [Nat.min_eq_right (not_lt.1 (hbits.not.2 (not_lt.2 large))),
      withSign_lt_zero (pos_of_large hnonneg large)]
    exact read_ofMagnitude_infinityBits negative

/-! ## Too small and too large -/

/-- Half of the least number, and all below it, is rounded to zero. -/
theorem rounded_eq_zero {q : ℚ} (h : |q| ≤ 2 ^ (leastExponent - 1)) : rounded q = 0 := by
  have hplace : place q = leastExponent := by
    refine le_antisymm (not_lt.1 fun hlt => ?_) (leastExponent_le_place q)
    have hleading := (place_le_abs hlt).trans h
    have := (zpow_le_zpow_iff_right₀ (one_lt_two (α := ℚ))).1 hleading
    omega
  have hhalf : |q / 2 ^ leastExponent| ≤ 1 / 2 := by
    rw [abs_div, abs_of_pos (by positivity : (0 : ℚ) < 2 ^ leastExponent), div_le_iff₀ (by positivity)]
    rw [zpow_sub_one₀ two_ne_zero, mul_comm] at h
    simpa using h
  -- A half is a tie, and zero is its even neighbour.
  have hzero : nearestInt (q / 2 ^ leastExponent) = 0 :=
    nearestInt_eq (by rwa [Int.cast_zero, zero_sub, abs_neg]) fun _ => rfl
  rw [rounded, hplace, hzero, Int.cast_zero, zero_mul]

/-- Zero is the float that the least numbers are rounded to. -/
theorem nearest_of_rounded_eq_zero {q : ℚ} (hzero : rounded q = 0) (negative : Bool) :
    Nearest (nearest negative 0 1) (withSign negative q) := by
  have hpositive : 0 < limit := by
    rw [limit_eq]
    positivity
  have hrounded : rounded (withSign negative q) = 0 := by rw [rounded_withSign, hzero, withSign_zero]
  have hnearest : Nearest (nearest negative 0 1) 0 := by
    have h : Nearest (nearest negative 0 1) (withSign negative 0) :=
      nearest_nearest one_ne_zero (by norm_num) negative
    rwa [withSign_zero] at h
  have hdenotes := hnearest.small
  rw [rounded_zero, abs_zero] at hdenotes
  constructor <;> rw [hrounded, abs_zero]
  · exact hdenotes
  · exact fun large => absurd large (not_le.2 hpositive)

/-- An infinity is the float that the numbers from the first power of two past the finite ones are rounded
to. -/
theorem nearest_of_limit_le {q : ℚ} (h : limit ≤ q) (negative : Bool) :
    Nearest (ofMagnitude negative infinityBits) (withSign negative q) := by
  have hpositive : 0 < q := by
    rw [limit_eq] at h
    exact lt_of_lt_of_le (by positivity) h
  have hlarge : limit ≤ rounded q := by
    rw [limit_eq] at h ⊢
    exact le_rounded (representable_two_zpow (by decide)) h
  constructor <;> rw [rounded_withSign, abs_withSign, abs_of_nonneg (rounded_nonneg hpositive.le)]
  · exact fun small => absurd small (not_lt.2 hlarge)
  · intro _
    rw [withSign_lt_zero hpositive]
    exact read_ofMagnitude_infinityBits negative

end Binary64

namespace Number

open Shortest
open Binary64 (Nearest limit limit_eq leastExponent)

/-- A decimal is read as the float that it is rounded to. -/
theorem ofDecimal_nearest (negative : Bool) (n : Nat) (exponent : Int) :
    Nearest (ofDecimal negative n exponent) (Binary64.withSign negative (n * 10 ^ exponent)) := by
  have hlimit : placeLimit = 400 := rfl
  have hleast : leastExponent = -1074 := rfl
  have hquotient := Binary64.nearest_nearest (Decimal.ratio_den ⟨n, exponent⟩)
    (Decimal.value_ratio ⟨n, exponent⟩).symm negative
  have hbounds := fun hn : n ≠ 0 => ten_zpow_places hn exponent
  unfold ofDecimal
  dsimp only
  generalize ((Nat.toDigits 10 n).length : Int) + exponent = places at hbounds
  split
  · rename_i hsmall
    refine Binary64.nearest_of_rounded_eq_zero (Binary64.rounded_eq_zero ?_) negative
    rw [abs_of_nonneg (by positivity)]
    rcases eq_or_ne n 0 with rfl | hn
    · rw [Nat.cast_zero, zero_mul]
      positivity
    · calc
        (n : ℚ) * 10 ^ exponent ≤ 10 ^ places := (hbounds hn).2.le
        _ ≤ 2 ^ (leastExponent - 1) := ten_zpow_le (by omega) (by omega)
  · rename_i hplaces
    rw [not_or] at hplaces
    split
    · refine Binary64.nearest_of_limit_le ?_ negative
      calc
        limit = 2 ^ (1024 : ℤ) := limit_eq
        _ ≤ 2 ^ (3 * placeLimit) := zpow_le_zpow_right₀ one_le_two (by omega)
        _ = (2 ^ (3 : ℤ)) ^ placeLimit := zpow_mul 2 3 placeLimit
        _ ≤ 10 ^ placeLimit := zpow_le_zpow_left₀ (by omega) (by norm_num) (by norm_num)
        _ ≤ 10 ^ (places - 1) := zpow_le_zpow_right₀ (by norm_num) (by omega)
        _ ≤ n * 10 ^ exponent := (hbounds hplaces.1).1
    · -- In between the quotient is worked out.
      unfold Decimal.ratio at hquotient
      split
      · rename_i hpos
        rw [if_pos hpos] at hquotient
        exact hquotient
      · rename_i hneg
        rw [if_neg hneg] at hquotient
        exact hquotient

end Number

end RuleTrader
