import RuleTrader.Proofs.Number.Arithmetic

/-!
# Sums of floats

Two floats are added with both mantissas at the smaller exponent, where their sum is exact. The sum is
rounded as any mantissa is, after it has been lengthened so far that no place is missing
(`nearest_round`). So a sum of floats is the float that the sum of their numbers is rounded to
(`Denotes.add_nearest`), and a natural number is made the float that it is rounded to (`nearest_ofNat`).
-/

namespace RuleTrader

namespace Binary64

open Float.Model (Format UnpackedFloat totalExponent)
open Float.Model.UnpackedFloat

/-- Lengthening a mantissa to its place leaves no finer place unused. -/
theorem le_place_of_target {m : ℕ} (hm : m ≠ 0) {e target : ℤ}
    (h : target ≤ Format.binary64.targetExponent (totalExponent m e)) : target ≤ place (m * 2 ^ e) := by
  rw [targetExponent_eq] at h
  refine le_place ((le_max_iff.1 h).imp_left fun h => ?_)
  have hlog : ((2 ^ m.log2 : ℕ) : ℚ) ≤ m := by exact_mod_cast Nat.log2_self_le hm
  rw [abs_of_nonneg (by positivity)]
  calc
    (2 : ℚ) ^ (target + 52) ≤ 2 ^ ((m.log2 : ℤ) + e) := zpow_le_zpow_right₀ one_le_two (by omega)
    _ = ((2 ^ m.log2 : ℕ) : ℚ) * 2 ^ e := by
      rw [zpow_add₀ two_ne_zero, zpow_natCast]
      push_cast
      rfl
    _ ≤ m * 2 ^ e := mul_le_mul_of_nonneg_right hlog (by positivity)

/-- A mantissa with any exponent is rounded to the float of its number. -/
theorem nearest_round {m : ℕ} (hm : m ≠ 0) (e : ℤ) (negative : Bool) :
    Nearest (.ofModel (.pack (round .binary64 (signOf negative) m e))) (withSign negative (m * 2 ^ e)) := by
  unfold UnpackedFloat.round decreaseExponent
  dsimp only
  generalize htarget : Format.binary64.targetExponent (totalExponent m e) = target
  generalize hk : (e - target).toNat = k
  have hexponent : e = k + (e - k) := by ring
  refine nearest_roundWithAccuracy (by positivity) ?_ (le_place_of_target hm ?_) negative
  · show (m : ℚ) * 2 ^ e / 2 ^ (e - (k : ℤ)) = ((m <<< k : ℕ) : ℚ)
    have hpower : (2 : ℚ) ^ e = 2 ^ k * 2 ^ (e - (k : ℤ)) := by
      rw [← zpow_natCast, ← zpow_add₀ two_ne_zero, ← hexponent]
    rw [hpower, Nat.shiftLeft_eq]
    push_cast
    field_simp
  · omega

/-- A signed mantissa with any exponent is rounded to the float of its number. -/
theorem nearest_normalize (m : ℤ) (e : ℤ) :
    Nearest (.ofModel (.pack (normalize .binary64 m e .positive))) (m * 2 ^ e) := by
  have habs (n : ℤ) (hn : 0 < n) : ((n.toNat : ℕ) : ℚ) = n := by exact_mod_cast Int.toNat_of_nonneg hn.le
  unfold UnpackedFloat.normalize
  rcases lt_trichotomy m 0 with h | h | h
  · rw [compare_lt_iff_lt.2 h]
    have hround := nearest_round (m := (-m).toNat) (by omega) e true
    rw [habs (-m) (by omega)] at hround
    simpa [withSign, signOf] using hround
  · rw [compare_eq_iff_eq.2 h, h, Int.cast_zero, zero_mul]
    exact nearest_pack_zero false
  · rw [compare_gt_iff_gt.2 h]
    have hround := nearest_round (m := m.toNat) (by omega) e false
    rw [habs m h] at hround
    exact hround

/-- A mantissa with its sign at a smaller exponent. -/
theorem signed_shiftLeft (d : Dyadic) {e : ℤ} (he : e ≤ d.exponent) :
    (((signOf d.negative).apply (d.significand <<< (d.exponent - e).toNat : ℕ) : ℤ) : ℚ) * 2 ^ e =
      d.value := by
  obtain ⟨k, hk⟩ := Int.eq_ofNat_of_zero_le (sub_nonneg.2 he)
  have hpower : (2 : ℚ) ^ d.exponent = 2 ^ k * 2 ^ e := by
    rw [← zpow_natCast, ← zpow_add₀ two_ne_zero]
    congr 1
    omega
  rw [value_eq, hk, Int.toNat_natCast, Nat.shiftLeft_eq, hpower]
  cases d.negative <;> simp only [signOf, withSign, Sign.apply, if_true, if_false, Bool.false_eq_true] <;>
    push_cast <;> ring

/-- What is put together again from a float that was taken apart. -/
theorem denotes_pack_unpacked {x : Float} {d : Dyadic} (h : read x = .finite d) :
    Denotes (.ofModel (.pack (unpacked d))) d.value :=
  ⟨d, read_pack (canonical_of_read h).1, rfl⟩

/-- The sum of two floats is the float that the sum of their numbers is rounded to. -/
theorem Denotes.add_nearest {x y : Float} {p q : ℚ} (hx : Denotes x p) (hy : Denotes y q) :
    Nearest (x + y) (p + q) := by
  rcases hx with ⟨d, hd, rfl⟩
  rcases hy with ⟨e, he, rfl⟩
  have hsum : x + y =
      .ofModel (.pack (UnpackedFloat.add Format.binary64 (unpacked d) (unpacked e))) := by
    rw [← unpack_of_read hd, ← unpack_of_read he]
    rfl
  have hzero {f : Dyadic} (h : f.significand = 0) : f.value = 0 := by
    rw [value_eq, h, Nat.cast_zero, zero_mul, withSign_zero]
  rw [hsum]
  -- A zero leaves the other number as it is. Otherwise both mantissas are whole at the smaller exponent.
  by_cases hd0 : d.significand = 0
  · rw [hzero hd0, zero_add]
    by_cases he0 : e.significand = 0
    · -- Two zeros of different signs give the positive one.
      rw [hzero he0, unpacked, unpacked, dif_pos hd0, dif_pos he0]
      simp only [UnpackedFloat.add]
      split
      · exact nearest_pack_zero d.negative
      · exact nearest_pack_zero false
    · have hright : UnpackedFloat.add Format.binary64 (unpacked d) (unpacked e) = unpacked e := by
        rw [unpacked, unpacked, dif_pos hd0, dif_neg he0]
        rfl
      rw [hright]
      exact (denotes_pack_unpacked he).nearest
  · by_cases he0 : e.significand = 0
    · have hleft : UnpackedFloat.add Format.binary64 (unpacked d) (unpacked e) = unpacked d := by
        rw [unpacked, unpacked, dif_neg hd0, dif_pos he0]
        rfl
      rw [hleft, hzero he0, add_zero]
      exact (denotes_pack_unpacked hd).nearest
    · rw [unpacked, unpacked, dif_neg hd0, dif_neg he0]
      simp only [UnpackedFloat.add, decreaseExponent]
      rw [← signed_shiftLeft d (min_le_left d.exponent e.exponent),
        ← signed_shiftLeft e (min_le_right d.exponent e.exponent), ← add_mul, ← Int.cast_add]
      exact nearest_normalize _ _

theorem denotes_zero : Denotes 0 0 :=
  ⟨⟨false, 0, leastExponent⟩, by decide +kernel, by norm_num [Dyadic.value, Dyadic.signed]⟩

theorem denotes_one : Denotes 1 1 :=
  ⟨⟨false, 4503599627370496, -52⟩, by decide +kernel, by norm_num [Dyadic.value, Dyadic.signed]⟩

/-! ## Natural numbers -/

section

variable {n : ℕ}

/-- A number of at most 53 bits is made a float as a machine word, and then multiplied by one. -/
theorem ofNat_eq_of_small (h : n < 2 ^ 53) :
    Float.ofNat n = .ofModel (.pack (normalize .binary64 n 0 .positive)) * 1 := by
  have hword : n.toUInt64.toNat = n := UInt64.toNat_ofNat_of_lt' (h.trans (by decide))
  have hone : Float.ofBits 0x3FF0000000000000 = 1 := by decide +kernel
  calc
    Float.ofNat n = n.toUInt64.toFloat * Float.ofBits 0x3FF0000000000000 := dif_pos ⟨h, by decide⟩
    _ = .ofModel (.pack (normalize .binary64 (n.toUInt64.toNat : ℤ) 0 .positive)) * 1 := by
      rw [hone]
      rfl
    _ = .ofModel (.pack (normalize .binary64 n 0 .positive)) * 1 := by rw [hword]

/-- A longer number is lengthened by 53 bits before it is cut. -/
theorem ofNat_eq_of_large (h : ¬n < 2 ^ 53) :
    Float.ofNat n = .ofModel (.pack (roundWithAccuracy .binary64 .positive (n <<< 53) (-53) .exact)) := by
  have hslow : Float.ofNat n = .ofModel (.pack (UnpackedFloat.ofScientific .binary64 n 0)) :=
    dif_neg fun hfast => h hfast.1
  have hnot : ¬(0 : ℤ) < -((2 ^ Format.binary64.exponentBits : ℤ) + n.log2) := by
    have : (0 : ℤ) ≤ 2 ^ Format.binary64.exponentBits := by positivity
    omega
  rw [hslow, UnpackedFloat.ofScientific, dif_neg (by omega), if_neg (by decide), if_neg hnot, if_pos (le_refl 0)]
  simp only [UnpackedFloat.mul]
  show Float.ofModel (.pack (roundWithAccuracy .binary64 .positive (n <<< 53 * 10 ^ 0) (-53 + 0) .exact)) = _
  rw [pow_zero, mul_one, add_zero]

theorem nearest_ofNat_of_small (h : n < 2 ^ 53) : Nearest (Float.ofNat n) n := by
  have hsize : |(n : ℤ)| ≤ 2 ^ 53 := by
    rw [Nat.abs_cast]
    omega
  -- The float of the word stands for the number itself, so the product with one does as well.
  have hnearest := nearest_normalize (n : ℤ) 0
  rw [zpow_zero, mul_one] at hnearest
  have hdenotes := hnearest.denotes_intCast hsize
  rw [Int.cast_natCast] at hdenotes
  have hproduct := hdenotes.mul_nearest denotes_one
  rwa [← ofNat_eq_of_small h, mul_one] at hproduct

theorem nearest_ofNat_of_large (h : ¬n < 2 ^ 53) : Nearest (Float.ofNat n) n := by
  have hdescribes : Describes (.ofMantissaAndAccuracy (n <<< 53) .exact) ((n : ℚ) / 2 ^ (-53 : ℤ)) := by
    show (n : ℚ) / 2 ^ (-53 : ℤ) = ((n <<< 53 : ℕ) : ℚ)
    rw [Nat.shiftLeft_eq, zpow_neg]
    push_cast
    field_simp
  have hplace : (2 : ℚ) ^ (-53 + 52 : ℤ) ≤ |(n : ℚ)| := by
    have hsize : (1 : ℚ) ≤ n := by exact_mod_cast (by omega : 1 ≤ n)
    rw [Nat.abs_cast]
    exact le_trans (by norm_num) hsize
  rw [ofNat_eq_of_large h]
  exact nearest_roundWithAccuracy (Nat.cast_nonneg n) hdescribes (le_place (Or.inl hplace)) false

end

/-- A natural number is made the float that it is rounded to. -/
theorem nearest_ofNat (n : ℕ) : Nearest (Float.ofNat n) n := by
  by_cases h : n < 2 ^ 53
  · exact nearest_ofNat_of_small h
  · exact nearest_ofNat_of_large h

end Binary64

end RuleTrader
