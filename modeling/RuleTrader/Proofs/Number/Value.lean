import RuleTrader.Number.Basic
import RuleTrader.Proofs.Number.Bits
import RuleTrader.Proofs.Number.Nearest
import RuleTrader.Proofs.Number.Rounding

/-!
# The rational number that a float stands for

A finite float stands for the rational number that is read off it (`Denotes`). What is computed on bits
is described here by these rational numbers: the floor of a float is that of its number
(`Denotes.floorFloat`), and the quotient of two integers and the conversion of one stand for the rounded
rational number, or fail when it is too large (`quotient_denotes`, `floatOfInt_denotes`,
`floatOfInt_eq_error`).
-/

namespace RuleTrader

namespace Dyadic

/-- The rational number that a dyadic number is. -/
def value (d : Dyadic) : ℚ := d.signed * 2 ^ d.exponent

theorem floor_eq (d : Dyadic) : d.floor = ⌊d.value⌋ := by
  unfold floor value
  split
  · rename_i hpos
    have hcast : (d.signed : ℚ) * 2 ^ d.exponent = ((d.signed * twoTo d.exponent.toNat : ℤ) : ℚ) := by
      rw [← Binary64.twoTo_toNat d.exponent hpos]
      push_cast
      rfl
    rw [hcast, Int.floor_intCast]
  · rename_i hneg
    have hpower : (2 : ℚ) ^ d.exponent = (twoTo (-d.exponent).toNat : ℚ)⁻¹ := by
      rw [Binary64.twoTo_toNat (-d.exponent) (by omega), zpow_neg, inv_inv]
    rw [hpower, ← div_eq_mul_inv, Rat.floor_intCast_div_natCast]

end Dyadic

namespace Binary64

/-- A rational number with a sign. -/
def withSign (negative : Bool) (q : ℚ) : ℚ := if negative then -q else q

theorem abs_withSign (negative : Bool) (q : ℚ) : |withSign negative q| = |q| := by
  cases negative
  · rfl
  · exact abs_neg q

theorem rounded_withSign (negative : Bool) (q : ℚ) :
    rounded (withSign negative q) = withSign negative (rounded q) := by
  cases negative
  · rfl
  · exact rounded_neg q

theorem value_eq (d : Dyadic) : d.value = withSign d.negative (d.significand * 2 ^ d.exponent) := by
  unfold Dyadic.value Dyadic.signed withSign
  split <;> push_cast <;> ring

/-- `x` is finite and stands for `q`. -/
def Denotes (x : Float) (q : ℚ) : Prop := ∃ d, read x = .finite d ∧ d.value = q

namespace Denotes

variable {x : Float} {q : ℚ}

theorem floorFloat (h : Denotes x q) : Number.floorFloat x = .ok ⌊q⌋ := by
  rcases h with ⟨d, hd, rfl⟩
  have hexact : Number.exact x = .ok d := by rw [Number.exact, hd]
  rw [Number.floorFloat, hexact, ← Dyadic.floor_eq]
  rfl

theorem representable (h : Denotes x q) : Representable q := by
  rcases h with ⟨d, hd, rfl⟩
  rcases canonical_of_read hd with ⟨⟨hshort, hleast, -, -⟩, -⟩
  refine ⟨d.signed, d.exponent, ?_, hleast, rfl⟩
  rw [twoTo_fractionBits] at hshort
  unfold Dyadic.signed
  split
  · rw [abs_neg, Nat.abs_cast]
    omega
  · rw [Nat.abs_cast]
    omega

theorem abs_lt_limit (h : Denotes x q) : |q| < limit := by
  rcases h with ⟨d, hd, rfl⟩
  rcases canonical_of_read hd with ⟨⟨hshort, -, hgreatest, -⟩, -⟩
  have hshort' : (d.significand : ℚ) < 2 ^ (53 : ℤ) := by exact_mod_cast hshort
  rw [value_eq, abs_withSign, abs_of_nonneg (by positivity), limit_eq]
  calc
    (d.significand : ℚ) * 2 ^ d.exponent < 2 ^ (53 : ℤ) * 2 ^ d.exponent :=
      mul_lt_mul_of_pos_right hshort' (by positivity)
    _ = 2 ^ (53 + d.exponent) := (zpow_add₀ two_ne_zero _ _).symm
    _ ≤ 2 ^ (1024 : ℤ) := zpow_le_zpow_right₀ one_le_two (by omega)

end Denotes

/-! ## The bits of the nearest number -/

/-- The magnitude bits of the number that `q` is rounded to. The significand carries into the exponent. -/
def roundedBits (q : ℚ) : ℕ :=
  (place q - leastExponent).toNat * twoTo fractionBits + (nearestInt (q / 2 ^ place q)).toNat

/-- The bounds of the integer number of places. -/
structure Cut (q : ℚ) (m : ℕ) : Prop where
  nearest : nearestInt (q / 2 ^ place q) = m
  short : m ≤ 2 * twoTo fractionBits
  full : twoTo fractionBits ≤ m ∨ place q = leastExponent

theorem exists_cut {q : ℚ} (hq : 0 ≤ q) : ∃ m, Cut q m := by
  have hpower : (0 : ℚ) < 2 ^ place q := by positivity
  have hnonneg : 0 ≤ q / 2 ^ place q := div_nonneg hq hpower.le
  have hnear := abs_le.1 (abs_nearestInt_sub (q / 2 ^ place q))
  -- A number that is not negative has no negative integer nearest to it.
  have hint : 0 ≤ nearestInt (q / 2 ^ place q) := by
    have h : (-1 : ℚ) < nearestInt (q / 2 ^ place q) := by linarith
    have h' : -1 < nearestInt (q / 2 ^ place q) := by exact_mod_cast h
    omega
  obtain ⟨m, hm⟩ := Int.eq_ofNat_of_zero_le hint
  have hshort := abs_nearestInt_le (q := q)
  rw [hm] at hnear hshort
  refine ⟨m, hm, ?_, ?_⟩
  · rw [Nat.abs_cast] at hshort
    rw [twoTo_fractionBits]
    omega
  · rw [twoTo_fractionBits]
    by_cases hplace : leastExponent < place q
    · refine Or.inl ?_
      have hleading : (2 : ℚ) ^ (52 : ℤ) ≤ q / 2 ^ place q := by
        have h := place_le_abs hplace
        rw [abs_of_nonneg hq, zpow_add₀ two_ne_zero, mul_comm] at h
        exact (le_div_iff₀ hpower).2 h
      norm_num at hleading hnear
      have h : (4503599627370495 : ℚ) < m := by linarith
      have h' : 4503599627370495 < m := by exact_mod_cast h
      omega
    · exact Or.inr (le_antisymm (not_lt.1 hplace) (leastExponent_le_place q))

theorem Cut.rounded_eq {q : ℚ} {m : ℕ} (h : Cut q m) : rounded q = m * 2 ^ place q := by
  unfold rounded
  rw [h.nearest, Int.cast_natCast]

theorem Cut.roundedBits_eq {q : ℚ} {m : ℕ} (h : Cut q m) :
    roundedBits q = (place q - leastExponent).toNat * twoTo fractionBits + m := by
  unfold roundedBits
  rw [h.nearest, Int.toNat_natCast]

/-- The bits that are worked out for a quotient are those of the rounded rational number. -/
theorem nearestBits_eq (num : ℕ) {den : ℕ} (hden : den ≠ 0) {q : ℚ} (hq : q = num / den) :
    nearestBits num den = roundedBits q := by
  by_cases hnum : num = 0
  · have hzero : q = 0 := by rw [hq, hnum, Nat.cast_zero, zero_div]
    have hplace : place q = leastExponent := by rw [place, if_pos hzero]
    have hint : nearestInt 0 = 0 := by exact_mod_cast nearestInt_intCast 0
    rw [nearestBits, if_pos hnum, roundedBits, hplace, hzero, zero_div, hint]
    rfl
  · have hpositive : 0 < q := by
      rw [hq]
      exact div_pos (by exact_mod_cast Nat.pos_of_ne_zero hnum) (by exact_mod_cast Nat.pos_of_ne_zero hden)
    -- The place is found from the leading bit, and there the integer is half a unit away at most.
    have hlast : lastPlace num den = place q := by
      rw [lastPlace_eq hnum hden hq (Int.zpow_log_le_self one_lt_two hpositive)
        (Int.lt_zpow_succ_log_self one_lt_two q), place, if_neg hpositive.ne', abs_of_pos hpositive]
    obtain ⟨m, hm⟩ := exists_cut hpositive.le
    have hpower : (0 : ℚ) < 2 ^ place q := by positivity
    have hnear := abs_nearestInt_sub (q / 2 ^ place q)
    have heven : |(nearestInt (q / 2 ^ place q) : ℚ) - q / 2 ^ place q| = 1 / 2 → _ := nearestInt_even
    rw [hm.nearest, Int.cast_natCast] at hnear heven
    have hnear' := abs_le.1 hnear
    rw [hm.roundedBits_eq]
    refine nearestBits_of_place hnum hden hq hlast ?_ ?_ ?_
    · rw [← le_div_iff₀ hpower]
      linarith
    · rw [← div_le_iff₀ hpower]
      linarith
    · rintro (htie | htie)
      · rw [← div_eq_iff hpower.ne'] at htie
        have := heven (by rw [htie, sub_sub_cancel]; norm_num)
        omega
      · rw [← div_eq_iff hpower.ne'] at htie
        have := heven (by rw [htie, sub_add_cancel_left, abs_neg]; norm_num)
        omega

/-- The rounded number with a sign, as it is read off a float. A significand that is one too long is
halved. -/
def dyadicOf (negative : Bool) (q : ℚ) : Dyadic :=
  let m := (nearestInt (q / 2 ^ place q)).toNat
  if m = 2 * twoTo fractionBits then ⟨negative, twoTo fractionBits, place q + 1⟩
  else ⟨negative, m, place q⟩

theorem Cut.dyadicOf_eq {q : ℚ} {m : ℕ} (h : Cut q m) (negative : Bool) :
    dyadicOf negative q =
      if m = 2 * twoTo fractionBits then ⟨negative, twoTo fractionBits, place q + 1⟩
      else ⟨negative, m, place q⟩ := by
  unfold dyadicOf
  rw [h.nearest, Int.toNat_natCast]

@[simp]
theorem negative_dyadicOf (negative : Bool) (q : ℚ) : (dyadicOf negative q).negative = negative := by
  unfold dyadicOf
  dsimp only
  split <;> rfl

section

variable {q : ℚ} (hq : 0 ≤ q) (negative : Bool)
include hq

theorem bitsOf_dyadicOf : bitsOf (dyadicOf negative q) = roundedBits q := by
  obtain ⟨m, hm⟩ := exists_cut hq
  have hleast := leastExponent_le_place q
  rw [hm.dyadicOf_eq, hm.roundedBits_eq, bitsOf, twoTo_fractionBits]
  split
  · rename_i hcarry
    rw [hcarry]
    show (place q + 1 - leastExponent).toNat * 4503599627370496 + 4503599627370496 = _
    omega
  · rfl

theorem value_dyadicOf : (dyadicOf negative q).value = withSign negative (rounded q) := by
  obtain ⟨m, hm⟩ := exists_cut hq
  rw [hm.dyadicOf_eq, hm.rounded_eq, twoTo_fractionBits]
  split
  · rename_i hcarry
    rw [value_eq]
    congr 1
    show ((4503599627370496 : ℕ) : ℚ) * 2 ^ (place q + 1) = m * 2 ^ place q
    rw [zpow_add_one₀ two_ne_zero, hcarry]
    push_cast
    ring
  · exact value_eq _

theorem canonical_dyadicOf (small : rounded q < limit) : Canonical (dyadicOf negative q) := by
  obtain ⟨m, hm⟩ := exists_cut hq
  have hleast := leastExponent_le_place q
  have hpower : (0 : ℚ) < 2 ^ place q := by positivity
  have hleast' : leastExponent = -1074 := rfl
  rw [hm.rounded_eq] at small
  rw [hm.dyadicOf_eq]
  rcases hm with ⟨-, hshort, hfull⟩
  -- A full significand keeps the place below the greatest one.
  have hgreatest (k : ℕ) (hk : 2 ^ k ≤ m) : place q + k < 1024 := by
    refine (zpow_lt_zpow_iff_right₀ (one_lt_two (α := ℚ))).1 (lt_of_le_of_lt ?_ (small.trans_eq limit_eq))
    rw [add_comm, zpow_add₀ two_ne_zero, zpow_natCast]
    exact mul_le_mul_of_nonneg_right (by exact_mod_cast hk) hpower.le
  rw [twoTo_fractionBits] at hshort hfull ⊢
  split
  · have := hgreatest 53 (by omega)
    refine ⟨?_, ?_, ?_, Or.inl ?_⟩ <;> dsimp only
    · rw [twoTo_fractionBits]
      decide
    · omega
    · omega
    · rw [twoTo_fractionBits]
  · refine ⟨?_, hleast, ?_, ?_⟩ <;> dsimp only
    · rw [twoTo_fractionBits]
      omega
    · rcases hfull with h | h
      · have := hgreatest 52 (by omega)
        omega
      · omega
    · rw [twoTo_fractionBits]
      exact hfull

end

theorem roundedBits_lt_iff {q : ℚ} (hq : 0 ≤ q) :
    roundedBits q < infinityBits ↔ rounded q < limit := by
  have hinfinity : infinityBits = 9218868437227405312 := rfl
  have hleast' : leastExponent = -1074 := rfl
  constructor
  · intro h
    obtain ⟨m, hm⟩ := exists_cut hq
    have hleast := leastExponent_le_place q
    rw [hm.roundedBits_eq, twoTo_fractionBits, hinfinity] at h
    rw [hm.rounded_eq, limit_eq]
    rcases hm with ⟨-, hshort, hfull⟩
    rw [twoTo_fractionBits] at hshort hfull
    -- The place is the greatest one at most, and there the significand does not carry.
    have hbound : place q ≤ 970 ∨ place q = 971 ∧ m < 2 ^ 53 := by omega
    rcases hbound with hplace | ⟨hplace, hm⟩
    · have hm' : (m : ℚ) ≤ 2 ^ (53 : ℤ) := by exact_mod_cast hshort
      calc
        (m : ℚ) * 2 ^ place q ≤ 2 ^ (53 : ℤ) * 2 ^ place q :=
          mul_le_mul_of_nonneg_right hm' (by positivity)
        _ = 2 ^ (53 + place q) := (zpow_add₀ two_ne_zero _ _).symm
        _ < 2 ^ (1024 : ℤ) := zpow_lt_zpow_right₀ one_lt_two (by omega)
    · have hm' : (m : ℚ) < 2 ^ (53 : ℤ) := by exact_mod_cast hm
      calc
        (m : ℚ) * 2 ^ place q < 2 ^ (53 : ℤ) * 2 ^ place q :=
          mul_lt_mul_of_pos_right hm' (by positivity)
        _ = 2 ^ (53 + place q) := (zpow_add₀ two_ne_zero _ _).symm
        _ = 2 ^ (1024 : ℤ) := by rw [hplace]; rfl
  · intro h
    rcases canonical_dyadicOf hq false h with ⟨hshort, -, hhigh, -⟩
    rw [← bitsOf_dyadicOf hq false, bitsOf]
    rw [twoTo_fractionBits] at hshort ⊢
    omega

/-- The nearest float of a quotient stands for the rounded rational number, if that is not too large. -/
theorem nearest?_denotes {num den : ℕ} (hden : den ≠ 0) {q : ℚ} (hq : q = num / den)
    (small : rounded q < limit) (negative : Bool) :
    ∃ x, nearest? negative num den = some x ∧ Denotes x (withSign negative (rounded q)) := by
  have hnonneg : 0 ≤ q := by
    rw [hq]
    positivity
  have hread := read_ofMagnitude (canonical_dyadicOf hnonneg negative small)
  rw [negative_dyadicOf, bitsOf_dyadicOf hnonneg] at hread
  refine ⟨ofMagnitude negative (roundedBits q), ?_, _, hread, value_dyadicOf hnonneg negative⟩
  rw [nearest?, nearestBits_eq num hden hq]
  exact if_pos ((roundedBits_lt_iff hnonneg).2 small)

theorem nearest?_eq_none {num den : ℕ} (hden : den ≠ 0) {q : ℚ} (hq : q = num / den)
    (large : limit ≤ rounded q) (negative : Bool) : nearest? negative num den = none := by
  have hnonneg : 0 ≤ q := by
    rw [hq]
    positivity
  rw [nearest?, nearestBits_eq num hden hq]
  exact if_neg fun hlt => absurd ((roundedBits_lt_iff hnonneg).1 hlt) (not_lt.2 large)

/-! ## Quotients and conversions of integers -/

theorem div_eq_withSign (a b : ℤ) :
    (a : ℚ) / b = withSign (decide (a < 0) != decide (b < 0)) ((a.natAbs : ℚ) / b.natAbs) := by
  have hcast (n : ℤ) : (n.natAbs : ℚ) = |(n : ℚ)| := by rw [Nat.cast_natAbs, Int.cast_abs]
  rw [hcast, hcast]
  have hlt (n : ℤ) : n < 0 ↔ (n : ℚ) < 0 := Int.cast_lt_zero.symm
  by_cases ha : a < 0 <;> by_cases hb : b < 0 <;>
    simp only [ha, hb, decide_true, decide_false, bne_self_eq_false, withSign, if_true, if_false,
      Bool.false_eq_true, Bool.true_bne, Bool.false_bne, Bool.not_false] <;>
    rw [hlt] at ha hb
  · rw [abs_of_neg ha, abs_of_neg hb, neg_div_neg_eq]
  · rw [abs_of_neg ha, abs_of_nonneg (not_lt.1 hb), neg_div, neg_neg]
  · rw [abs_of_nonneg (not_lt.1 ha), abs_of_neg hb, div_neg, neg_neg]
  · rw [abs_of_nonneg (not_lt.1 ha), abs_of_nonneg (not_lt.1 hb)]

/-- The quotient of two integers stands for their rounded quotient, if that is not too large. -/
theorem quotient_denotes (a : ℤ) {b : ℤ} (hb : b ≠ 0)
    (small : |rounded ((a : ℚ) / b)| < limit) :
    ∃ x, Number.quotient a b = .ok x ∧ Denotes x (rounded ((a : ℚ) / b)) := by
  have hnonneg : (0 : ℚ) ≤ (a.natAbs : ℚ) / b.natAbs := by positivity
  rw [div_eq_withSign, rounded_withSign] at small ⊢
  rw [abs_withSign, abs_of_nonneg (rounded_nonneg hnonneg)] at small
  obtain ⟨x, hx, hdenotes⟩ := nearest?_denotes (Int.natAbs_ne_zero.2 hb) rfl small
    (decide (a < 0) != decide (b < 0))
  refine ⟨x, ?_, hdenotes⟩
  rw [Number.quotient, if_neg hb, hx]

theorem quotient_eq_error (a : ℤ) {b : ℤ} (hb : b ≠ 0) (large : limit ≤ |rounded ((a : ℚ) / b)|) :
    Number.quotient a b = .error .tooLarge := by
  have hnonneg : (0 : ℚ) ≤ (a.natAbs : ℚ) / b.natAbs := by positivity
  rw [div_eq_withSign, rounded_withSign, abs_withSign, abs_of_nonneg (rounded_nonneg hnonneg)] at large
  rw [Number.quotient, if_neg hb, nearest?_eq_none (Int.natAbs_ne_zero.2 hb) rfl large]

theorem intCast_eq_withSign (n : ℤ) : (n : ℚ) = withSign (n < 0) ((n.natAbs : ℚ) / (1 : ℕ)) := by
  have h := div_eq_withSign n 1
  rw [Int.cast_one, div_one] at h
  exact h.trans (by rw [show decide ((1 : ℤ) < 0) = false from rfl, Bool.bne_false]; rfl)

theorem floatOfInt_denotes {n : ℤ} (small : |rounded n| < limit) :
    ∃ x, Number.floatOfInt n = .ok x ∧ Denotes x (rounded n) := by
  have hnonneg : (0 : ℚ) ≤ (n.natAbs : ℚ) / (1 : ℕ) := by positivity
  rw [intCast_eq_withSign, rounded_withSign] at small ⊢
  rw [abs_withSign, abs_of_nonneg (rounded_nonneg hnonneg)] at small
  obtain ⟨x, hx, hdenotes⟩ := nearest?_denotes one_ne_zero rfl small (n < 0)
  refine ⟨x, ?_, hdenotes⟩
  rw [Number.floatOfInt, ofInt?, hx]

theorem floatOfInt_eq_error {n : ℤ} (large : limit ≤ |rounded n|) :
    Number.floatOfInt n = .error .tooLarge := by
  have hnonneg : (0 : ℚ) ≤ (n.natAbs : ℚ) / (1 : ℕ) := by positivity
  rw [intCast_eq_withSign, rounded_withSign, abs_withSign, abs_of_nonneg (rounded_nonneg hnonneg)] at large
  rw [Number.floatOfInt, ofInt?, nearest?_eq_none one_ne_zero rfl large]

/-- An integer has a binary64 number near to it if and only if it is not too large. -/
theorem isFinite_int_iff (n : ℤ) : (Number.int n).isFinite = .ok true ↔ |rounded n| < limit := by
  show ((fun _ => true) <$> Number.floatOfInt n) = .ok true ↔ _
  by_cases hsmall : |rounded n| < limit
  · obtain ⟨x, hx, -⟩ := floatOfInt_denotes hsmall
    rw [hx]
    exact ⟨fun _ => hsmall, fun _ => rfl⟩
  · rw [floatOfInt_eq_error (not_lt.1 hsmall)]
    constructor
    · intro h
      cases h
    · exact fun h => absurd h hsmall

end Binary64

end RuleTrader
