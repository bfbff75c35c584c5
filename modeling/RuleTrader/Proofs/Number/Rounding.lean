import Mathlib.Algebra.Order.Field.Power
import Mathlib.Data.Rat.Cast.Order
import Mathlib.Tactic.FieldSimp
import Mathlib.Tactic.Linarith
import Mathlib.Tactic.Positivity
import Mathlib.Tactic.Ring
import RuleTrader.Number.Binary64

/-!
# The nearest float of a rational number

`nearestBits` works on a numerator and a denominator. Here it is described by the rational number `q`
that they write: the place where `q` is cut off is that of its leading bit, as far as the fraction goes
(`lastPlace_eq`), and `m` places are the nearest ones when `q` is no further than half a place from them
(`nearestBits_of_place`).
-/

namespace RuleTrader

namespace Binary64

/-! ## Rounding a quotient -/

/-- A quotient is rounded to an integer that is no further away than a half, an even one if it is just as
far. -/
theorem roundQuotient_eq {n d m : Nat} (hd : 0 < d) (least : 2 * m * d ≤ 2 * n + d)
    (greatest : 2 * n ≤ 2 * m * d + d)
    (tie : 2 * m * d = 2 * n + d ∨ 2 * n = 2 * m * d + d → m % 2 = 0) : roundQuotient n d = m := by
  have hdivision : d * (n / d) + n % d = n := Nat.div_add_mod n d
  have hrest : n % d < d := Nat.mod_lt n hd
  -- The integer part is the result, or one less.
  have hcases : n / d = m ∨ n / d + 1 = m := by
    have hquotient : 2 * (n / d) * d = 2 * (d * (n / d)) := by ring
    have hbelow : 2 * (n / d) < 2 * m + 2 := by
      refine Nat.lt_of_mul_lt_mul_right (a := d) ?_
      rw [Nat.add_mul]
      omega
    have habove : 2 * m < 2 * (n / d) + 3 := by
      refine Nat.lt_of_mul_lt_mul_right (a := d) ?_
      rw [Nat.add_mul]
      omega
    omega
  unfold roundQuotient
  rcases hcases with hm | hm
  · -- Rounded down: a tie needs an even result.
    have hproduct : 2 * m * d = 2 * (d * (n / d)) := by rw [hm]; ring
    dsimp only
    split
    · exact hm
    · split
      · omega
      · rw [if_pos (by rw [hm]; exact tie (Or.inr (by omega)))]
        exact hm
  · -- Rounded up: in a tie the integer part is odd.
    have hproduct : 2 * m * d = 2 * (d * (n / d)) + 2 * d := by rw [← hm]; ring
    dsimp only
    split
    · omega
    · split
      · exact hm
      · have heven := tie (Or.inl (by omega))
        rw [if_neg (by omega)]
        exact hm

/-! ## Rational values -/

theorem roundQuotient_of_near {n d m : Nat} (hd : 0 < d) {q : ℚ} (hq : q = n / d)
    (least : (m : ℚ) - 1 / 2 ≤ q) (greatest : q ≤ m + 1 / 2)
    (tie : q = m - 1 / 2 ∨ q = m + 1 / 2 → m % 2 = 0) : roundQuotient n d = m := by
  have hd' : (0 : ℚ) < d := by exact_mod_cast hd
  have hn : (n : ℚ) = q * d := by rw [hq]; field_simp
  refine roundQuotient_eq hd ?_ ?_ ?_
  · have h : 2 * (m : ℚ) * d ≤ 2 * n + d := by rw [hn]; nlinarith
    exact_mod_cast h
  · have h : 2 * (n : ℚ) ≤ 2 * m * d + d := by rw [hn]; nlinarith
    exact_mod_cast h
  · rintro (htie | htie)
    · refine tie (Or.inl ?_)
      have h : 2 * (m : ℚ) * d = 2 * n + d := by exact_mod_cast htie
      rw [hn] at h
      have := mul_right_cancel₀ hd'.ne' (show (2 * (m : ℚ)) * d = (2 * q + 1) * d by linarith)
      linarith
    · refine tie (Or.inr ?_)
      have h : 2 * (n : ℚ) = 2 * m * d + d := by exact_mod_cast htie
      rw [hn] at h
      have := mul_right_cancel₀ hd'.ne' (show (2 * q) * d = (2 * (m : ℚ) + 1) * d by linarith)
      linarith

/-- The bounds of a natural number by its binary logarithm, as powers of two with any exponent. -/
theorem two_zpow_log2 {n : Nat} (hn : n ≠ 0) :
    (2 : ℚ) ^ (n.log2 : Int) ≤ n ∧ (n : ℚ) < 2 ^ ((n.log2 : Int) + 1) := by
  refine ⟨?_, ?_⟩
  · have h := Nat.log2_self_le hn
    exact_mod_cast h
  · have h : n < 2 ^ (n.log2 + 1) := Nat.lt_log2_self
    exact_mod_cast h

theorem twoTo_toNat (e : Int) (he : 0 ≤ e) : ((twoTo e.toNat : Nat) : ℚ) = 2 ^ e := by
  obtain ⟨k, rfl⟩ := Int.eq_ofNat_of_zero_le he
  simp [twoTo]

theorem two_zpow_log2_sub {num den : Nat} (hnum : num ≠ 0) (hden : den ≠ 0) {q : ℚ} (hq : q = num / den) :
    2 ^ ((num.log2 : Int) - den.log2 - 1) < q ∧ q < 2 ^ ((num.log2 : Int) - den.log2 + 1) := by
  have hden' : (0 : ℚ) < den := by exact_mod_cast Nat.pos_of_ne_zero hden
  rcases two_zpow_log2 hnum with ⟨hnum1, hnum2⟩
  rcases two_zpow_log2 hden with ⟨hden1, hden2⟩
  generalize (num.log2 : Int) = a at hnum1 hnum2
  generalize (den.log2 : Int) = b at hden1 hden2
  rw [hq]
  refine ⟨?_, ?_⟩
  · rw [lt_div_iff₀ hden']
    calc
      2 ^ (a - b - 1) * (den : ℚ) < 2 ^ (a - b - 1) * 2 ^ (b + 1) :=
        mul_lt_mul_of_pos_left hden2 (by positivity)
      _ = 2 ^ a := by
        rw [← zpow_add₀ two_ne_zero]
        congr 1
        ring
      _ ≤ num := hnum1
  · rw [div_lt_iff₀ hden']
    calc
      (num : ℚ) < 2 ^ (a + 1) := hnum2
      _ = 2 ^ (a - b + 1) * 2 ^ b := by
        rw [← zpow_add₀ two_ne_zero]
        congr 1
        ring
      _ ≤ 2 ^ (a - b + 1) * den := mul_le_mul_of_nonneg_left hden1 (by positivity)

/-- The place where a quotient is cut off, by the place of its leading bit. -/
theorem lastPlace_eq {num den : Nat} (hnum : num ≠ 0) (hden : den ≠ 0) {q : ℚ} (hq : q = num / den)
    {k : Int} (least : 2 ^ k ≤ q) (greatest : q < 2 ^ (k + 1)) :
    lastPlace num den = max (k - fractionBits) leastExponent := by
  have hden' : (0 : ℚ) < den := by exact_mod_cast Nat.pos_of_ne_zero hden
  rcases two_zpow_log2_sub hnum hden hq with ⟨hlower, hupper⟩
  generalize hguess : (num.log2 : Int) - den.log2 = guess at hlower hupper
  -- The guess is the place of the leading bit, or one more.
  have hk : k < guess + 1 ∧ guess - 1 < k + 1 := by
    refine ⟨?_, ?_⟩
    · exact (zpow_lt_zpow_iff_right₀ one_lt_two).1 (least.trans_lt hupper)
    · exact (zpow_lt_zpow_iff_right₀ one_lt_two).1 (hlower.trans greatest)
  have hbelow : (if 0 ≤ guess then decide (num < den * twoTo guess.toNat)
      else decide (num * twoTo (-guess).toNat < den)) = decide (q < 2 ^ guess) := by
    split
    · rename_i hpos
      refine decide_eq_decide.2 ?_
      rw [hq, div_lt_iff₀ hden', ← twoTo_toNat guess hpos, mul_comm]
      exact_mod_cast Iff.rfl
    · rename_i hneg
      refine decide_eq_decide.2 ?_
      have hcast : num * twoTo (-guess).toNat < den ↔ (num : ℚ) * 2 ^ (-guess) < den := by
        rw [← twoTo_toNat (-guess) (by omega)]
        exact_mod_cast Iff.rfl
      rw [hcast, hq, div_lt_iff₀ hden', zpow_neg, ← div_eq_mul_inv, div_lt_iff₀ (by positivity), mul_comm]
  unfold lastPlace
  dsimp only
  rw [hguess, hbelow]
  -- The comparison tells which of the two it is.
  by_cases hq' : q < 2 ^ guess
  · have : k < guess := (zpow_lt_zpow_iff_right₀ one_lt_two).1 (least.trans_lt hq')
    have : k = guess - 1 := by omega
    simp [hq', this]
  · have : guess < k + 1 := (zpow_lt_zpow_iff_right₀ one_lt_two).1 ((not_lt.1 hq').trans_lt greatest)
    have : k = guess := by omega
    simp [hq', this]

/-- The nearest number by the place where the quotient is cut off. -/
theorem nearestBits_of_place {num den : Nat} (hnum : num ≠ 0) (hden : den ≠ 0) {q : ℚ}
    (hq : q = num / den) {place : Int} (hplace : lastPlace num den = place) {m : Nat}
    (least : ((m : ℚ) - 1 / 2) * 2 ^ place ≤ q) (greatest : q ≤ (m + 1 / 2) * 2 ^ place)
    (tie : q = (m - 1 / 2) * 2 ^ place ∨ q = (m + 1 / 2) * 2 ^ place → m % 2 = 0) :
    nearestBits num den = (place - leastExponent).toNat * twoTo fractionBits + m := by
  have hpower : (0 : ℚ) < 2 ^ place := by positivity
  have hdown {x : ℚ} : q / 2 ^ place = x ↔ q = x * 2 ^ place := div_eq_iff hpower.ne'
  have hleast : (m : ℚ) - 1 / 2 ≤ q / 2 ^ place := (le_div_iff₀ hpower).2 least
  have hgreatest : q / 2 ^ place ≤ m + 1 / 2 := (div_le_iff₀ hpower).2 greatest
  have htie : q / 2 ^ place = m - 1 / 2 ∨ q / 2 ^ place = m + 1 / 2 → m % 2 = 0 := by
    rw [hdown, hdown]
    exact tie
  unfold nearestBits
  rw [if_neg hnum]
  dsimp only
  rw [hplace]
  congr 1
  split
  · -- The power goes to the side where its exponent is not negative.
    rename_i hpos
    refine roundQuotient_of_near (Nat.mul_pos (Nat.pos_of_ne_zero hden) (twoTo_pos _)) ?_ hleast hgreatest htie
    rw [hq, Nat.cast_mul, twoTo_toNat place hpos, div_div]
  · rename_i hneg
    refine roundQuotient_of_near (Nat.pos_of_ne_zero hden) ?_ hleast hgreatest htie
    rw [hq, Nat.cast_mul, twoTo_toNat (-place) (by omega), zpow_neg]
    field_simp

end Binary64

end RuleTrader
