import Mathlib.Data.Int.Log
import Mathlib.Data.Rat.Floor
import RuleTrader.Number.Shortest
import RuleTrader.Proofs.Number.Bits
import RuleTrader.Proofs.Number.Rounding

/-!
# The shortest decimal is rounded to its number

The interval of a number holds the rational numbers that are rounded to it (`nearestBits_of_holds`). The
search for a decimal goes from the place of the leading digit to finer grids. A grid with a point in the
interval has a neighbour of the number in it (`candidate?_isSome`), and after sixteen steps the grid is
finer than the interval is long, so the search ends inside it (`decimal_holds`).
-/

namespace RuleTrader

namespace Shortest

/-! ## The interval of a number -/

/-- The rational number that a ratio stands for. -/
def Ratio.value (r : Ratio) : ℚ := r.num / r.den

theorem Ratio.lt_iff {r s : Ratio} (hr : r.den ≠ 0) (hs : s.den ≠ 0) :
    r.lt s = true ↔ r.value < s.value := by
  have hr' : (0 : ℚ) < r.den := by exact_mod_cast Nat.pos_of_ne_zero hr
  have hs' : (0 : ℚ) < s.den := by exact_mod_cast Nat.pos_of_ne_zero hs
  unfold Ratio.lt Ratio.value
  rw [decide_eq_true_eq, div_lt_div_iff₀ hr' hs']
  exact_mod_cast Iff.rfl

theorem Ratio.scaled_den (m : Nat) (e : Int) : (Ratio.scaled m e).den ≠ 0 := by
  unfold Ratio.scaled
  split
  · exact one_ne_zero
  · exact (twoTo_pos _).ne'

theorem Ratio.value_scaled (m : Nat) (e : Int) : (Ratio.scaled m e).value = m * 2 ^ e := by
  unfold Ratio.scaled Ratio.value
  split
  · rename_i hpos
    rw [Nat.cast_mul, Binary64.twoTo_toNat e hpos, Nat.cast_one, div_one]
  · rename_i hneg
    rw [Binary64.twoTo_toNat (-e) (by omega), zpow_neg]
    field_simp

theorem interval_upper (m : Nat) (e : Int) : (interval m e).upper.value = (m + 1 / 2) * 2 ^ e := by
  have hpower : (2 : ℚ) ^ (e - 1) = 2 ^ e / 2 := by rw [zpow_sub₀ two_ne_zero, zpow_one]
  have hupper : (interval m e).upper = .scaled (2 * m + 1) (e - 1) := rfl
  rw [hupper, Ratio.value_scaled, hpower]
  push_cast
  ring

/-- Below a power of two the interval reaches half as far. -/
theorem interval_lower {m : Nat} (hm : m ≠ 0) (e : Int) :
    (interval m e).lower.value =
      if m = twoTo Binary64.fractionBits ∧ Binary64.leastExponent < e then
        ((m : ℚ) - 1 / 4) * 2 ^ e
      else ((m : ℚ) - 1 / 2) * 2 ^ e := by
  have hone : 1 ≤ m := Nat.one_le_iff_ne_zero.2 hm
  have hlower : (interval m e).lower =
      if m = twoTo Binary64.fractionBits ∧ Binary64.leastExponent < e then
        .scaled (4 * m - 1) (e - 2)
      else .scaled (2 * m - 1) (e - 1) := rfl
  rw [hlower]
  split
  · have hpower : (2 : ℚ) ^ (e - 2) = 2 ^ e / 4 := by
      rw [zpow_sub₀ two_ne_zero]
      norm_num
    rw [Ratio.value_scaled, hpower, Nat.cast_sub (by omega)]
    push_cast
    ring
  · have hpower : (2 : ℚ) ^ (e - 1) = 2 ^ e / 2 := by rw [zpow_sub₀ two_ne_zero, zpow_one]
    rw [Ratio.value_scaled, hpower, Nat.cast_sub (by omega)]
    push_cast
    ring

theorem interval_lower_ge {m : Nat} (hm : m ≠ 0) (e : Int) :
    ((m : ℚ) - 1 / 2) * 2 ^ e ≤ (interval m e).lower.value := by
  have hpower : (0 : ℚ) < 2 ^ e := by positivity
  rw [interval_lower hm]
  split
  · exact mul_le_mul_of_nonneg_right (by linarith) hpower.le
  · exact le_refl _

theorem interval_den (m : Nat) (e : Int) :
    (interval m e).lower.den ≠ 0 ∧ (interval m e).upper.den ≠ 0 := by
  refine ⟨?_, Ratio.scaled_den _ _⟩
  unfold interval
  dsimp only
  split <;> exact Ratio.scaled_den _ _

theorem Interval.holds_iff {m : Nat} {e : Int} {r : Ratio} (hr : r.den ≠ 0) :
    (interval m e).holds r = true ↔
      (interval m e).lower.value ≤ r.value ∧ r.value ≤ (interval m e).upper.value ∧
        (r.value = (interval m e).lower.value ∨ r.value = (interval m e).upper.value → m % 2 = 0) := by
  rcases interval_den m e with ⟨hlower, hupper⟩
  have hclosed : (interval m e).closed = decide (m % 2 = 0) := rfl
  have hlow := Ratio.lt_iff hr hlower
  have hhigh := Ratio.lt_iff hupper hr
  have hlow' := Ratio.lt_iff hlower hr
  have hhigh' := Ratio.lt_iff hr hupper
  unfold Interval.holds
  rw [hclosed]
  by_cases heven : m % 2 = 0
  · simp only [heven, decide_true, if_true, Bool.and_eq_true, Bool.not_eq_true', ← Bool.not_eq_true,
      hlow, hhigh, not_lt, implies_true, and_true]
  · simp only [heven, decide_false, Bool.false_eq_true, if_false, Bool.and_eq_true, hlow', hhigh',
      imp_false, not_or]
    constructor
    · rintro ⟨hl, hu⟩
      exact ⟨hl.le, hu.le, hl.ne', hu.ne⟩
    · rintro ⟨hl, hu, hne, hne'⟩
      exact ⟨lt_of_le_of_ne hl (Ne.symm hne), lt_of_le_of_ne hu hne'⟩

/-! ## Rounding inside the interval -/

/-- Above a power of two, and below the normal numbers, a quotient is cut off at the place of the number. -/
theorem lastPlace_of_bounds {num den : Nat} (hnum : num ≠ 0) (hden : den ≠ 0) {q : ℚ} (hq : q = num / den)
    (hpositive : 0 < q) {e : Int} (hleast : Binary64.leastExponent ≤ e)
    (hbinary : 2 ^ (e + 52) ≤ q ∨ e = Binary64.leastExponent) (htop : q < 2 ^ (e + 53)) :
    Binary64.lastPlace num den = e := by
  have hfraction : ((Binary64.fractionBits : Nat) : Int) = 52 := rfl
  by_cases hnormal : 2 ^ (e + 52) ≤ q
  · have htop' : q < 2 ^ (e + 52 + 1) := by
      rw [add_assoc]
      exact htop
    rw [Binary64.lastPlace_eq hnum hden hq hnormal htop', hfraction]
    omega
  · -- Without a leading bit the place is the least one, wherever the first bit is.
    have hsmall : e = Binary64.leastExponent := hbinary.resolve_left hnormal
    obtain ⟨k, hk, hk'⟩ : ∃ k : Int, (2 : ℚ) ^ k ≤ q ∧ q < 2 ^ (k + 1) :=
      ⟨Int.log 2 q, Int.zpow_log_le_self one_lt_two hpositive, Int.lt_zpow_succ_log_self one_lt_two q⟩
    have hbelow : k < e + 52 :=
      (zpow_lt_zpow_iff_right₀ one_lt_two).1 (hk.trans_lt (not_le.1 hnormal))
    rw [Binary64.lastPlace_eq hnum hden hq hk hk', hfraction]
    omega

/-- Just below a power of two the places are twice as fine, and the significand carries. -/
theorem nearestBits_below_power {num den : Nat} (hnum : num ≠ 0) (hden : den ≠ 0) {q : ℚ}
    (hq : q = num / den) {e : Int} (hleast : Binary64.leastExponent < e) (hbelow : q < 2 ^ (e + 52))
    (hnear : (4503599627370496 - 1 / 4) * 2 ^ e ≤ q) :
    Binary64.nearestBits num den =
      (e - Binary64.leastExponent).toNat * 4503599627370496 + 4503599627370496 := by
  have hfraction : ((Binary64.fractionBits : Nat) : Int) = 52 := rfl
  have hpower : (0 : ℚ) < 2 ^ e := by positivity
  have hbinade (k : Int) : (2 : ℚ) ^ (e + k) = 2 ^ e * 2 ^ k := zpow_add₀ two_ne_zero e k
  have hfiner : (2 : ℚ) ^ (e - 1) = 2 ^ e / 2 := by rw [zpow_sub₀ two_ne_zero, zpow_one]
  -- The number lies in the binade below, where one more bit is kept.
  have hplace : Binary64.lastPlace num den = e - 1 := by
    have hbinary : 2 ^ (e + 51) ≤ q := by
      rw [hbinade]
      norm_num
      linarith
    have hbelow' : q < 2 ^ (e + 51 + 1) := by
      rw [add_assoc]
      exact hbelow
    rw [Binary64.lastPlace_eq hnum hden hq hbinary hbelow', hfraction]
    omega
  rw [Binary64.nearestBits_of_place hnum hden hq hplace (m := 9007199254740992)]
  · rw [Binary64.twoTo_fractionBits]
    omega
  · rw [hfiner]
    push_cast
    linarith
  · rw [hfiner]
    rw [hbinade] at hbelow
    norm_num at hbelow ⊢
    linarith
  · exact fun _ => rfl

/-- Whatever lies in the interval of a number is rounded to this number. -/
theorem nearestBits_of_holds {m : Nat} {e : Int} (hm : m ≠ 0)
    (hshort : m < 2 * twoTo Binary64.fractionBits) (hleast : Binary64.leastExponent ≤ e)
    (hfull : twoTo Binary64.fractionBits ≤ m ∨ e = Binary64.leastExponent) {num den : Nat}
    (hden : den ≠ 0) (h : (interval m e).holds ⟨num, den⟩ = true) :
    Binary64.nearestBits num den =
      (e - Binary64.leastExponent).toNat * twoTo Binary64.fractionBits + m := by
  rcases (Interval.holds_iff hden).1 h with ⟨hlow, hhigh, htie⟩
  generalize hq : Ratio.value ⟨num, den⟩ = q at hlow hhigh htie
  have hq' : q = num / den := hq.symm
  have hpower : (0 : ℚ) < 2 ^ e := by positivity
  have hone : (1 : ℚ) ≤ m := by exact_mod_cast Nat.one_le_iff_ne_zero.2 hm
  have hhalf := interval_lower_ge hm e
  rw [interval_upper] at hhigh htie
  have hpositive : 0 < q := by nlinarith
  have hnum : num ≠ 0 := by
    rintro rfl
    simp [hq'] at hpositive
  have hbinade (k : Int) : (2 : ℚ) ^ (e + k) = 2 ^ e * 2 ^ k := zpow_add₀ two_ne_zero e k
  rw [Binary64.twoTo_fractionBits] at hshort hfull
  have hm' : (m : ℚ) ≤ 9007199254740991 := by exact_mod_cast (by omega : m ≤ 9007199254740991)
  have htop : q < 2 ^ (e + 53) := by
    rw [hbinade]
    norm_num
    nlinarith
  by_cases hbinary : 2 ^ (e + 52) ≤ q ∨ e = Binary64.leastExponent
  · have hplace := lastPlace_of_bounds hnum hden hq' hpositive hleast hbinary htop
    refine Binary64.nearestBits_of_place hnum hden hq' hplace (hhalf.trans hlow) hhigh ?_
    rintro (heq | heq)
    · exact htie (Or.inl (le_antisymm (heq.trans_le hhalf) hlow))
    · exact htie (Or.inr heq)
  · -- Only a power of two has numbers of a smaller exponent in its interval.
    rw [not_or, not_le] at hbinary
    rcases hbinary with ⟨hbelow, hlarge⟩
    have hfull' : 4503599627370496 ≤ m := hfull.resolve_right hlarge
    have hpowerOfTwo : m = 4503599627370496 := by
      by_contra hne
      have hmore : (4503599627370497 : ℚ) ≤ m := by exact_mod_cast (by omega : 4503599627370497 ≤ m)
      rw [hbinade] at hbelow
      norm_num at hbelow
      nlinarith [hhalf.trans hlow]
    have hnear : (4503599627370496 - 1 / 4) * 2 ^ e ≤ q := by
      rw [interval_lower hm, if_pos ⟨by rw [Binary64.twoTo_fractionBits]; exact hpowerOfTwo, by omega⟩,
        hpowerOfTwo] at hlow
      exact_mod_cast hlow
    rw [nearestBits_below_power hnum hden hq' (by omega) hbelow hnear, Binary64.twoTo_fractionBits,
      hpowerOfTwo]

/-! ## Decimal numbers -/

theorem tenTo_toNat (e : Int) (he : 0 ≤ e) : ((tenTo e.toNat : Nat) : ℚ) = 10 ^ e := by
  obtain ⟨k, rfl⟩ := Int.eq_ofNat_of_zero_le he
  simp [tenTo]

theorem Decimal.ratio_den (d : Decimal) : (Decimal.ratio d).den ≠ 0 := by
  unfold Decimal.ratio
  split
  · exact one_ne_zero
  · exact (tenTo_pos _).ne'

theorem Decimal.value_ratio (d : Decimal) : (Decimal.ratio d).value = d.digits * 10 ^ d.exponent := by
  unfold Decimal.ratio Ratio.value
  split
  · rename_i hpos
    rw [Nat.cast_mul, tenTo_toNat d.exponent hpos, Nat.cast_one, div_one]
  · rename_i hneg
    rw [tenTo_toNat (-d.exponent) (by omega), zpow_neg]
    field_simp

theorem ten_zpow_le {k n : Int} (hpos : 0 ≤ n → 196 * k ≤ 59 * n) (hneg : n < 0 → 93 * k ≤ 28 * n) :
    (10 : ℚ) ^ k ≤ 2 ^ n := by
  -- `28 / 93` and `59 / 196` lie just above and just below the decimal logarithm of two.
  rcases lt_or_ge n 0 with hn | hn
  · refine (pow_le_pow_iff_left₀ (by positivity) (by positivity) (by norm_num : (93 : ℕ) ≠ 0)).1 ?_
    calc
      ((10 : ℚ) ^ k) ^ 93 = 10 ^ (93 * k) := by rw [← zpow_natCast, ← zpow_mul, mul_comm]; rfl
      _ ≤ 10 ^ (28 * n) := zpow_le_zpow_right₀ (by norm_num) (hneg hn)
      _ = ((10 ^ 28 : ℚ)⁻¹) ^ (-n) := by rw [inv_zpow', neg_neg, zpow_mul]; norm_num
      _ ≤ ((2 ^ 93 : ℚ)⁻¹) ^ (-n) := zpow_le_zpow_left₀ (by omega) (by positivity) (by norm_num)
      _ = (2 ^ n) ^ 93 := by rw [inv_zpow', neg_neg, ← zpow_natCast, ← zpow_natCast, ← zpow_mul, ← zpow_mul, mul_comm]
  · refine (pow_le_pow_iff_left₀ (by positivity) (by positivity) (by norm_num : (196 : ℕ) ≠ 0)).1 ?_
    calc
      ((10 : ℚ) ^ k) ^ 196 = 10 ^ (196 * k) := by rw [← zpow_natCast, ← zpow_mul, mul_comm]; rfl
      _ ≤ 10 ^ (59 * n) := zpow_le_zpow_right₀ (by norm_num) (hpos hn)
      _ = (10 ^ 59 : ℚ) ^ n := by rw [zpow_mul]; norm_num
      _ ≤ (2 ^ 196 : ℚ) ^ n := zpow_le_zpow_left₀ hn (by positivity) (by norm_num)
      _ = (2 ^ n) ^ 196 := by rw [← zpow_natCast, ← zpow_natCast, ← zpow_mul, ← zpow_mul, mul_comm]

theorem leadingExponent_le {r : Ratio} (hnum : r.num ≠ 0) (hden : r.den ≠ 0)
    (hlow : 2 ^ (-1100 : Int) ≤ r.value) (hhigh : r.value < 2 ^ (1100 : Int)) :
    (10 : ℚ) ^ leadingExponent r ≤ r.value := by
  rcases Binary64.two_zpow_log2_sub hnum hden (q := r.value) rfl with ⟨hlower, hupper⟩
  generalize hguess : (r.num.log2 : Int) - r.den.log2 = guess at hlower hupper
  have hleast : -1100 < guess + 1 := (zpow_lt_zpow_iff_right₀ one_lt_two).1 (hlow.trans_lt hupper)
  have hgreatest : guess - 1 < 1100 := (zpow_lt_zpow_iff_right₀ one_lt_two).1 (hlower.trans hhigh)
  have hatLeast (k : Int) : (!r.lt (Decimal.ratio ⟨1, k⟩)) = true ↔ (10 : ℚ) ^ k ≤ r.value := by
    rw [Bool.not_eq_true', ← Bool.not_eq_true, Ratio.lt_iff hden (Decimal.ratio_den _),
      Decimal.value_ratio, not_lt]
    simp
  unfold leadingExponent
  dsimp only
  rw [hguess]
  split
  · rename_i h
    exact (hatLeast _).1 h
  · split
    · rename_i h
      exact (hatLeast _).1 h
    · split
      · rename_i h
        exact (hatLeast _).1 h
      · -- The last guess is low enough by the logarithms alone.
        exact (ten_zpow_le (by omega) (by omega)).trans hlower.le

/-! ## The search -/

theorem le_gridFloor_iff {r : Ratio} (hden : r.den ≠ 0) (n : Nat) (exponent : Int) :
    n ≤ gridFloor r exponent ↔ (n : ℚ) * 10 ^ exponent ≤ r.value := by
  have hden' : (0 : ℚ) < r.den := by exact_mod_cast Nat.pos_of_ne_zero hden
  unfold gridFloor Ratio.value
  rw [le_div_iff₀ hden']
  split
  · rename_i hpos
    have hpower := Nat.mul_pos (Nat.pos_of_ne_zero hden) (tenTo_pos exponent.toNat)
    rw [Nat.le_div_iff_mul_le hpower, ← tenTo_toNat exponent hpos, mul_assoc, mul_comm (tenTo _ : ℚ)]
    exact_mod_cast Iff.rfl
  · rename_i hneg
    have hpower : (0 : ℚ) < 10 ^ (-exponent) := by positivity
    have hinverse : (10 : ℚ) ^ exponent * 10 ^ (-exponent) = 1 := by
      rw [← zpow_add₀ (by norm_num)]
      simp
    have hcast : n * r.den ≤ r.num * tenTo (-exponent).toNat ↔
        (n : ℚ) * r.den ≤ r.num * 10 ^ (-exponent) := by
      rw [← tenTo_toNat (-exponent) (by omega)]
      exact_mod_cast Iff.rfl
    have hleft : (n : ℚ) * 10 ^ exponent * r.den * 10 ^ (-exponent) = n * r.den := by
      calc
        (n : ℚ) * 10 ^ exponent * r.den * 10 ^ (-exponent) =
            n * r.den * (10 ^ exponent * 10 ^ (-exponent)) := by ring
        _ = n * r.den := by rw [hinverse, mul_one]
    rw [Nat.le_div_iff_mul_le (Nat.pos_of_ne_zero hden), hcast, ← hleft]
    exact mul_le_mul_iff_left₀ hpower

theorem interval_value {m : Nat} (hm : m ≠ 0) (e : Int) :
    (interval m e).lower.value < (interval m e).value.value ∧
      (interval m e).value.value < (interval m e).upper.value ∧
      (interval m e).value.value = m * 2 ^ e := by
  have hpower : (0 : ℚ) < 2 ^ e := by positivity
  have hvalue : (interval m e).value.value = m * 2 ^ e := Ratio.value_scaled m e
  rw [hvalue, interval_upper, interval_lower hm]
  refine ⟨?_, by nlinarith, rfl⟩
  split <;> nlinarith

/-- Between a point of the interval and the number itself there are only points of the interval. -/
theorem Interval.holds_between {m : Nat} (hm : m ≠ 0) {e : Int} {r s : Ratio} (hr : r.den ≠ 0)
    (hs : s.den ≠ 0) (h : (interval m e).holds r = true)
    (between : r.value ≤ s.value ∧ s.value ≤ (interval m e).value.value ∨
      (interval m e).value.value ≤ s.value ∧ s.value ≤ r.value) :
    (interval m e).holds s = true := by
  rcases (Interval.holds_iff hr).1 h with ⟨hlow, hhigh, htie⟩
  rcases interval_value hm e with ⟨hlower, hupper, -⟩
  rw [Interval.holds_iff hs]
  -- At an end that the number does not have, `s` would be `r`.
  rcases between with ⟨hleft, hright⟩ | ⟨hleft, hright⟩
  · refine ⟨hlow.trans hleft, hright.trans hupper.le, ?_⟩
    rintro (heq | heq)
    · exact htie (Or.inl (le_antisymm (hleft.trans heq.le) hlow))
    · exact absurd (heq ▸ hright) (not_le.2 hupper)
  · refine ⟨hlower.le.trans hleft, hright.trans hhigh, ?_⟩
    rintro (heq | heq)
    · exact absurd (heq ▸ hleft) (not_le.2 hlower)
    · exact htie (Or.inr (le_antisymm hhigh (heq.symm.le.trans hright)))

theorem candidate?_holds {i : Interval} {exponent : Int} {d : Decimal}
    (h : candidate? i exponent = some d) : i.holds (Decimal.ratio d) = true ∧ d.digits ≠ 0 := by
  unfold candidate? at h
  dsimp only at h
  split at h
  · rename_i hbelow
    split at h
    · rename_i habove
      cases h
      simp only [Bool.and_eq_true] at habove
      exact ⟨habove.1, Nat.succ_ne_zero _⟩
    · cases h
      exact ⟨hbelow.2, hbelow.1⟩
  · split at h
    · rename_i habove
      cases h
      exact ⟨habove, Nat.succ_ne_zero _⟩
    · cases h

/-- A grid with a point in the interval has a neighbour of the number in it. -/
theorem candidate?_isSome {m : Nat} (hm : m ≠ 0) {e : Int} {n : Nat} (hn : n ≠ 0) {exponent : Int}
    (h : (interval m e).holds (Decimal.ratio ⟨n, exponent⟩) = true) :
    (candidate? (interval m e) exponent).isSome = true := by
  have hden : (interval m e).value.den ≠ 0 := Ratio.scaled_den m e
  have hpower : (0 : ℚ) < 10 ^ exponent := by positivity
  generalize hfloor : gridFloor (interval m e).value exponent = k
  have hmono {a b : Nat} (hab : a ≤ b) : (a : ℚ) * 10 ^ exponent ≤ b * 10 ^ exponent :=
    mul_le_mul_of_nonneg_right (by exact_mod_cast hab) hpower.le
  have hpoint (a : Nat) : (Decimal.ratio ⟨a, exponent⟩).value = a * 10 ^ exponent :=
    Decimal.value_ratio ⟨a, exponent⟩
  rcases Nat.lt_or_ge k n with hlt | hge
  · -- The point lies above the number, so the next one above does as well.
    have habove : (interval m e).holds (Decimal.ratio ⟨k + 1, exponent⟩) = true := by
      refine Interval.holds_between hm (Decimal.ratio_den _) (Decimal.ratio_den _) h (Or.inr ?_)
      rw [hpoint, hpoint]
      refine ⟨?_, hmono hlt⟩
      have hnot := (le_gridFloor_iff hden (k + 1) exponent).not.1 (by omega)
      exact (not_le.1 hnot).le
    unfold candidate?
    simp only [hfloor, habove, Bool.true_and, if_true]
    split
    · split <;> rfl
    · rfl
  · -- The point is not above the number, so the next one below does.
    have hbelow : (interval m e).holds (Decimal.ratio ⟨k, exponent⟩) = true := by
      refine Interval.holds_between hm (Decimal.ratio_den _) (Decimal.ratio_den _) h (Or.inl ?_)
      rw [hpoint, hpoint]
      exact ⟨hmono hge, (le_gridFloor_iff hden k exponent).1 (by omega)⟩
    unfold candidate?
    simp only [hfloor]
    rw [if_pos ⟨by omega, hbelow⟩]
    split <;> rfl

/-- A search that comes to a grid with a point in the interval finds one. -/
theorem search_holds {i : Interval} {fuel k : Nat} (hk : k < fuel) {exponent : Int}
    (h : (candidate? i (exponent - k)).isSome = true) :
    i.holds (Decimal.ratio (search i exponent fuel)) = true ∧ (search i exponent fuel).digits ≠ 0 := by
  induction fuel generalizing k exponent with
  | zero => omega
  | succ fuel ih =>
      rw [search]
      cases hfound : candidate? i exponent with
      | some d => exact candidate?_holds hfound
      | none =>
          cases k with
          | zero =>
              rw [Nat.cast_zero, sub_zero, hfound] at h
              cases h
          | succ k =>
              -- The grid in question is one step nearer.
              refine ih (Nat.lt_of_succ_lt_succ hk) ?_
              have hexponent : exponent - 1 - (k : Int) = exponent - ((k + 1 : Nat) : Int) := by
                push_cast
                ring
              rw [hexponent]
              exact h

/-- A grid with sixteen digits more than the number has leading ones is finer than the interval. -/
theorem interval_wide {m : Nat} (hm : m ≠ 0) (hshort : m < 2 * twoTo Binary64.fractionBits) {e : Int}
    {step : ℚ} (h : step * 10 ^ 16 ≤ m * 2 ^ e) :
    (interval m e).lower.value + step < (interval m e).upper.value := by
  have hpower : (0 : ℚ) < 2 ^ e := by positivity
  have htwo := Binary64.twoTo_fractionBits
  rw [htwo] at hshort
  have hbelow : (m : ℚ) * 2 ^ e < 9007199254740992 * 2 ^ e := by
    refine mul_lt_mul_of_pos_right ?_ hpower
    exact_mod_cast hshort
  rw [interval_upper, interval_lower hm]
  split
  · -- Below a power of two the interval is shorter, and the number has fewer digits.
    rename_i hleading
    have hpowerOfTwo : (m : ℚ) = 4503599627370496 := by rw [hleading.1, htwo]; norm_num
    rw [hpowerOfTwo] at h ⊢
    linarith
  · linarith

/-- A grid that is finer than the interval is long has a point in it. -/
theorem exists_holds {m : Nat} (hm : m ≠ 0) {e exponent : Int}
    (h : (interval m e).lower.value + 10 ^ exponent < (interval m e).upper.value) :
    ∃ n, n ≠ 0 ∧ (interval m e).holds (Decimal.ratio ⟨n, exponent⟩) = true := by
  have hpower : (0 : ℚ) < 2 ^ e := by positivity
  have hone : (1 : ℚ) ≤ m := by exact_mod_cast Nat.one_le_iff_ne_zero.2 hm
  have hstep : (0 : ℚ) < 10 ^ exponent := by positivity
  have hlower : 0 ≤ (interval m e).lower.value := by
    rw [interval_lower hm]
    split <;> exact mul_nonneg (by linarith) hpower.le
  -- The first point above the lower end.
  have hfloor := Nat.floor_le (div_nonneg hlower hstep.le)
  have hceil := Nat.lt_floor_add_one ((interval m e).lower.value / 10 ^ exponent)
  generalize ⌊(interval m e).lower.value / 10 ^ exponent⌋₊ = k at hfloor hceil
  rw [le_div_iff₀ hstep] at hfloor
  rw [div_lt_iff₀ hstep] at hceil
  have hpoint : (Decimal.ratio ⟨k + 1, exponent⟩).value = (k + 1) * 10 ^ exponent := by
    rw [Decimal.value_ratio]
    push_cast
    ring
  refine ⟨k + 1, Nat.succ_ne_zero k, ?_⟩
  rw [Interval.holds_iff (Decimal.ratio_den _), hpoint]
  refine ⟨hceil.le, by linarith, ?_⟩
  rintro (heq | heq) <;> linarith

/-- The search starts at a place that is not above the number. -/
theorem leadingExponent_interval {m : Nat} (hm : m ≠ 0) (hshort : m < 2 * twoTo Binary64.fractionBits)
    {e : Int} (hleast : Binary64.leastExponent ≤ e) (hgreatest : e ≤ 971) :
    (10 : ℚ) ^ leadingExponent (interval m e).value ≤ m * 2 ^ e := by
  have hpower : (0 : ℚ) < 2 ^ e := by positivity
  have hone : (1 : ℚ) ≤ m := by exact_mod_cast Nat.one_le_iff_ne_zero.2 hm
  have hvalue := (interval_value hm e).2.2
  have hleast' : Binary64.leastExponent = -1074 := rfl
  have hm' : (m : ℚ) < 2 ^ (53 : Int) := by
    have htwo : 2 * twoTo Binary64.fractionBits = 2 ^ 53 := rfl
    rw [htwo] at hshort
    exact_mod_cast hshort
  have hnum : (interval m e).value.num ≠ 0 := by
    intro hzero
    have hzero' : (interval m e).value.value = 0 := by simp [Ratio.value, hzero]
    rw [hvalue] at hzero'
    nlinarith
  rw [← hvalue]
  -- No finite number is out of the bounds for which the guess is good.
  refine leadingExponent_le hnum (Ratio.scaled_den m e) ?_ ?_
  · rw [hvalue]
    calc
      (2 : ℚ) ^ (-1100 : Int) ≤ 2 ^ e := zpow_le_zpow_right₀ one_le_two (by omega)
      _ ≤ m * 2 ^ e := le_mul_of_one_le_left hpower.le hone
  · rw [hvalue]
    calc
      (m : ℚ) * 2 ^ e < 2 ^ (53 : Int) * 2 ^ e := mul_lt_mul_of_pos_right hm' hpower
      _ = 2 ^ (53 + e) := (zpow_add₀ two_ne_zero 53 e).symm
      _ ≤ 2 ^ (1100 : Int) := zpow_le_zpow_right₀ one_le_two (by omega)

/-- The decimal of a number is rounded to the number. -/
theorem decimal_holds {m : Nat} {e : Int} (hm : m ≠ 0) (hshort : m < 2 * twoTo Binary64.fractionBits)
    (hleast : Binary64.leastExponent ≤ e) (hgreatest : e ≤ 971) :
    (interval m e).holds (Decimal.ratio (decimal m e)) = true ∧ (decimal m e).digits ≠ 0 := by
  have hlead := leadingExponent_interval hm hshort hleast hgreatest
  unfold decimal
  dsimp only
  generalize leadingExponent (interval m e).value = lead at hlead
  -- The last grid of the search.
  have hfine : (interval m e).lower.value + 10 ^ (lead - (16 : Nat)) < (interval m e).upper.value := by
    refine interval_wide hm hshort ?_
    rw [zpow_sub₀ (by norm_num), zpow_natCast, div_mul_cancel₀ _ (by positivity)]
    exact hlead
  rcases exists_holds hm hfine with ⟨n, hn, hholds⟩
  exact search_holds (k := 16) (by decide) (candidate?_isSome hm hn hholds)

end Shortest

end RuleTrader
