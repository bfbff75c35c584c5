import RuleTrader.Proofs.Number.Value

/-!
# Products and quotients of floats

The operations on floats work on a sign, a mantissa and an exponent, and cut a mantissa that is too long
by single bits, of which the last one and whether there were others are kept. This says which rational
number is cut (`Describes`): one step halves it (`Describes.shiftRightOne`), and a whole cut leaves what
rounding needs (`Describes.roundedMantissa`). So a rounded mantissa is the dyadic number of the rounded
rational number (`roundWithAccuracy_eq`), and a product and a quotient are the floats that the product and
the quotient of the numbers are rounded to, infinities where these are too large (`Denotes.mul_nearest`,
`Denotes.div_nearest`).
-/

namespace RuleTrader

namespace Binary64

open Float.Model (Format totalExponent)
open Float.Model.UnpackedFloat

/-! ## Floats in parts -/

/-- The sign of a number that may be negative. -/
def signOf (negative : Bool) : Sign := if negative then .negative else .positive

/-- A dyadic number in the parts that operations work on. -/
def unpacked (d : Dyadic) : Float.Model.UnpackedFloat :=
  if h : d.significand = 0 then .zero (signOf d.negative)
  else .finite (signOf d.negative) d.significand d.exponent (Nat.pos_of_ne_zero h)

section

variable (n : UInt64)

theorem toNat_unpackMantissa :
    (@unpackMantissa .binary64 n.toBitVec).toNat = n.toNat % twoTo fractionBits := by
  simp [unpackMantissa, BitVec.extractLsb, BitVec.extractLsb', twoTo_fractionBits]

theorem unpackMantissa_eq_zero_iff :
    @unpackMantissa .binary64 n.toBitVec = 0#52 ↔ n.toNat % twoTo fractionBits = 0 := by
  rw [← BitVec.toNat_inj, toNat_unpackMantissa]
  rfl

theorem unpackExponent_eq_zero_iff :
    @unpackExponent .binary64 n.toBitVec = 0#11 ↔ n.toNat / twoTo fractionBits % 2048 = 0 := by
  rw [← BitVec.toNat_inj, toNat_unpackExponent]
  rfl

/-- The mantissa with its leading bit, which is not stored. -/
theorem toNat_lead_unpackMantissa :
    (1#1 ++ @unpackMantissa .binary64 n.toBitVec).toNat =
      n.toNat % twoTo fractionBits + twoTo fractionBits := by
  rw [BitVec.toNat_append, ← Nat.shiftLeft_add_eq_or_of_lt (BitVec.isLt _), toNat_unpackMantissa, Nat.add_comm]
  rfl

theorem ofBitVec_unpackSign :
    Sign.ofBitVec (@unpackSign .binary64 n.toBitVec) = signOf (signBit ≤ n.toNat) := by
  have hlimit : n.toNat < 18446744073709551616 := n.toNat_lt
  have hsign : signBit = 9223372036854775808 := rfl
  have hbit : (@unpackSign .binary64 n.toBitVec).toNat = n.toNat / 9223372036854775808 % 2 := by
    simp [unpackSign, BitVec.extractLsb, BitVec.extractLsb', Nat.shiftRight_eq_div_pow]
  unfold Sign.ofBitVec signOf
  rw [hsign]
  by_cases h : 9223372036854775808 ≤ n.toNat
  · rw [if_neg, if_pos (decide_eq_true h)]
    intro hzero
    rw [hzero] at hbit
    simp at hbit
    omega
  · rw [if_pos, if_neg (by simpa using h)]
    refine BitVec.eq_of_toNat_eq ?_
    rw [hbit]
    simp
    omega

end

theorem signOf_toBitVec (negative : Bool) :
    (signOf negative).toBitVec.toNat * signBit = if negative then signBit else 0 := by
  cases negative <;> rfl

/-- The bits of a sign, an exponent field and a fraction. -/
theorem toNat_packComponents (s : Sign) (field : BitVec 11) (fraction : BitVec 52) :
    (packComponents .binary64 s field fraction).toNat =
      s.toBitVec.toNat * signBit + field.toNat * twoTo fractionBits + fraction.toNat := by
  have hfield := field.isLt
  have hfraction := fraction.isLt
  have happend : (s.toBitVec ++ field).toNat = s.toBitVec.toNat * 2 ^ 11 + field.toNat := by
    rw [BitVec.toNat_append, ← Nat.shiftLeft_add_eq_or_of_lt hfield, Nat.shiftLeft_eq]
  have hsign : signBit = 2 ^ 11 * 2 ^ 52 := rfl
  show (s.toBitVec ++ field ++ fraction).toNat = _
  rw [BitVec.toNat_append, ← Nat.shiftLeft_add_eq_or_of_lt hfraction, Nat.shiftLeft_eq, happend, hsign,
    Nat.add_mul, Nat.mul_assoc]
  rfl

/-- The operations see a finite float as the dyadic number that is read off it. -/
theorem unpack_of_read {x : Float} {d : Dyadic} (h : read x = .finite d) : x.toModel.unpack = unpacked d := by
  have hbias : ((Format.binary64.exponentBias : ℕ) : ℤ) = 1023 := rfl
  have hwidth : ((Format.binary64.mantissaBitsWithoutImplicit : ℕ) : ℤ) = 52 := rfl
  have hleast : leastExponent = -1074 := rfl
  show unpack .binary64 x.toBits.toBitVec = _
  unfold read at h
  unfold unpack
  dsimp only at h ⊢
  split at h
  · split at h <;> cases h
  · rename_i hfield
    rw [if_neg (unpackExponent_ne hfield), ofBitVec_unpackSign]
    -- The cases of the field are the same on both sides, but zero is one of the small numbers in reading.
    split at h
    · rename_i hzero
      cases h
      rw [if_pos ((unpackExponent_eq_zero_iff _).2 hzero)]
      by_cases hfraction : x.toBits.toNat % twoTo fractionBits = 0
      · rw [dif_pos ((unpackMantissa_eq_zero_iff _).2 hfraction), unpacked, dif_pos hfraction]
      · rw [dif_neg ((unpackMantissa_eq_zero_iff _).not.2 hfraction), unpacked, dif_neg hfraction]
        congr 1
        rw [toNat_unpackExponent, hzero, hbias, hwidth, hleast]
        rfl
    · rename_i hnonzero
      cases h
      rw [if_neg ((unpackExponent_eq_zero_iff _).not.2 hnonzero), unpacked,
        dif_neg (Nat.add_pos_right _ (twoTo_pos _)).ne']
      congr 1
      · exact toNat_lead_unpackMantissa _
      · rw [toNat_unpackExponent, hbias, hwidth, hleast]
        show _ = _ - 1 + -1074
        omega

/-- A dyadic number that is put together to a float is read off it again. -/
theorem read_pack {d : Dyadic} (h : Canonical d) : read (.ofModel (.pack (unpacked d))) = .finite d := by
  refine read_of_canonical h ?_
  show (pack .binary64 (unpacked d)).toNat = _
  have hbias : ((Format.binary64.exponentBias : ℕ) : ℤ) = 1023 := rfl
  have hleast : leastExponent = -1074 := rfl
  have hbits (field fraction : ℕ) :
      (if d.negative then signBit else 0) + field * twoTo fractionBits + fraction =
        if d.negative then field * twoTo fractionBits + fraction + signBit
        else field * twoTo fractionBits + fraction := by
    split <;> omega
  rcases h with ⟨hshort, hlow, hhigh, hfull⟩
  rw [twoTo_fractionBits] at hshort hfull
  unfold unpacked bitsOf
  split
  · rename_i hzero
    have hexponent : d.exponent = leastExponent := hfull.resolve_left (by omega)
    show (packComponents .binary64 (signOf d.negative) 0 0).toNat = _
    rw [toNat_packComponents, signOf_toBitVec, hexponent, hzero, ← hbits]
    rfl
  · rename_i hnonzero
    have hbiased : (d.exponent + (1023 : ℤ) + 52).toNat = (d.exponent - leastExponent).toNat + 1 := by omega
    unfold pack
    dsimp only
    rw [hbias]
    show BitVec.toNat (if 2048 ≤ (d.exponent + (1023 : ℤ) + 52).toNat + 1 then _ else _) = _
    rw [if_neg (by omega)]
    -- A leading bit is not stored; without one the exponent is the least.
    split
    · rename_i hlog
      have hlog' : d.significand.log2 = 52 := Nat.succ_injective hlog
      have hlead := Nat.log2_self_le hnonzero
      rw [hlog'] at hlead
      rw [toNat_packComponents, signOf_toBitVec, BitVec.toNat_ofNat, BitVec.toNat_ofNat, ← hbits]
      show _ + ((d.exponent + (1023 : ℤ) + 52).toNat % 2048) * 4503599627370496 + _ % 4503599627370496 =
        _ + _ * 4503599627370496 + _
      rw [hbiased]
      omega
    · rename_i hlog
      have hlog' : d.significand.log2 ≠ 52 := fun h52 => hlog (congrArg (· + 1) h52)
      have hsmall : d.significand < 4503599627370496 := by
        by_contra hlarge
        refine hlog' ((Nat.log2_eq_iff hnonzero).2 ⟨?_, ?_⟩)
        · exact not_lt.1 hlarge
        · exact hshort
      have hexponent : d.exponent = leastExponent := hfull.resolve_left (by omega)
      rw [toNat_packComponents, signOf_toBitVec, BitVec.toNat_ofNat, hexponent, ← hbits]
      show _ + 0 * 4503599627370496 + _ % 4503599627370496 = _ + 0 * 4503599627370496 + _
      omega

/-! ## Cutting a mantissa -/

/-- A mantissa with the bit after it, and whether there are any bits after that, describes a number. -/
def Describes (em : ExtendedMantissa) (x : ℚ) : Prop :=
  match em with
  | ⟨m, false, false⟩ => x = m
  | ⟨m, false, true⟩ => m < x ∧ x < m + 1 / 2
  | ⟨m, true, false⟩ => x = m + 1 / 2
  | ⟨m, true, true⟩ => m + 1 / 2 < x ∧ x < m + 1

namespace Describes

variable {em : ExtendedMantissa} {x : ℚ}

theorem bounds (h : Describes em x) : em.mantissa ≤ x ∧ x < em.mantissa + 1 := by
  rcases em with ⟨m, _ | _, _ | _⟩ <;> simp only [Describes] at h ⊢ <;> constructor <;> linarith

/-- Without its last bit a mantissa describes half the number. -/
theorem shiftRightOne (h : Describes em x) : Describes em.shiftRightOne (x / 2) := by
  rcases em with ⟨m, round, sticky⟩
  have hm : (m : ℚ) = 2 * (m / 2 : ℕ) + (m % 2 : ℕ) := by exact_mod_cast (Nat.div_add_mod m 2).symm
  -- The last bit becomes the bit after the mantissa.
  rcases Nat.mod_two_eq_zero_or_one m with hlast | hlast <;> rw [hlast] at hm <;>
    cases round <;> cases sticky <;>
    simp only [Describes, ExtendedMantissa.shiftRightOne, hlast, bne_self_eq_false, Bool.or_true, Bool.or_false,
      Nat.reduceBNe] at h ⊢ <;>
    rw [hm] at h <;> push_cast at h ⊢
  all_goals first
    | linarith
    | exact ⟨by linarith, by linarith⟩

/-- Without its last `n` bits a mantissa describes the number divided by a power of two. -/
theorem shiftRight (h : Describes em x) (n : ℕ) : Describes (em >>> n) (x / 2 ^ n) := by
  show Describes (n.repeat ExtendedMantissa.shiftRightOne em) _
  induction n with
  | zero =>
      rw [pow_zero, div_one]
      exact h
  | succ n ih =>
      rw [pow_succ, ← div_div]
      exact ih.shiftRightOne

/-- A mantissa is rounded to the integer nearest to the number that it describes. -/
theorem roundedMantissa (h : Describes em x) : nearestInt x = em.roundedMantissa := by
  rcases em with ⟨m, _ | _, _ | _⟩ <;> simp only [Describes] at h
  · rw [h]
    exact nearestInt_intCast m
  · refine nearestInt_eq ?_ ?_
    · show |((m : ℕ) : ℚ) - x| ≤ 1 / 2
      rw [abs_of_neg (by linarith)]
      linarith
    · show |((m : ℕ) : ℚ) - x| = 1 / 2 → _
      rw [abs_of_neg (by linarith)]
      intro htie
      linarith
  · -- Half way between two integers the even one is taken.
    have hodd : ((m + m % 2 : ℕ) : ℚ) = m ∨ ((m + m % 2 : ℕ) : ℚ) = m + 1 := by
      rcases Nat.mod_two_eq_zero_or_one m with hlast | hlast <;> rw [hlast] <;> push_cast
      · exact Or.inl (add_zero _)
      · exact Or.inr rfl
    refine nearestInt_eq ?_ ?_
    · show |((m + m % 2 : ℕ) : ℚ) - x| ≤ 1 / 2
      rw [h]
      rcases hodd with hm | hm <;> rw [hm, abs_le] <;> constructor <;> linarith
    · intro
      show ((m + m % 2 : ℕ) : ℤ) % 2 = 0
      omega
  · refine nearestInt_eq ?_ ?_
    · show |((m + 1 : ℕ) : ℚ) - x| ≤ 1 / 2
      push_cast
      rw [abs_of_pos (by linarith)]
      linarith
    · show |((m + 1 : ℕ) : ℚ) - x| = 1 / 2 → _
      push_cast
      rw [abs_of_pos (by linarith)]
      intro htie
      linarith

end Describes

/-! ## Rounding a mantissa -/

theorem targetExponent_eq (m : ℕ) (e : ℤ) :
    Format.binary64.targetExponent (totalExponent m e) = max (m.log2 + e - 52) leastExponent := by
  show max ((m.log2 : ℤ) + 1 + e - 53) (-1074) = max _ (-1074)
  congr 1
  ring

/-- The place of a number is found from the leading bit of a mantissa that describes it. -/
theorem place_eq_of_describes {m : ℕ} {e : ℤ} {q : ℚ} (hq : 0 ≤ q)
    (bounds : m ≤ q / 2 ^ e ∧ q / 2 ^ e < m + 1) (low : e ≤ place q) :
    Format.binary64.targetExponent (totalExponent m e) = place q := by
  have hpower : (0 : ℚ) < 2 ^ e := by positivity
  have hleast := leastExponent_le_place q
  obtain ⟨k, hk⟩ := Int.eq_ofNat_of_zero_le (sub_nonneg.2 low)
  have hplace : place q = e + k := by omega
  have hbinade (j : ℕ) : (2 : ℚ) ^ (place q + j) = ((2 ^ (k + j) : ℕ) : ℚ) * 2 ^ e := by
    rw [hplace, add_assoc, zpow_add₀ two_ne_zero, mul_comm]
    push_cast
    rw [← zpow_natCast]
    push_cast
    rfl
  -- The number lies below the binade after its place, and so does its mantissa.
  have hupper : m < 2 ^ (k + 53) := by
    have h := abs_lt_place q
    rw [abs_of_nonneg hq, show place q + 53 = place q + (53 : ℕ) from rfl, hbinade, ← div_lt_iff₀ hpower] at h
    exact_mod_cast bounds.1.trans_lt h
  have hlog : m ≠ 0 → m.log2 < k + 53 := fun hm => (Nat.log2_lt hm).2 hupper
  rw [targetExponent_eq]
  by_cases hfull : leastExponent < place q
  · have hlower : 2 ^ (k + 52) ≤ m := by
      have h := place_le_abs hfull
      rw [abs_of_nonneg hq, show place q + 52 = place q + (52 : ℕ) from rfl, hbinade,
        ← le_div_iff₀ hpower] at h
      have h' : ((2 ^ (k + 52) : ℕ) : ℚ) < ((m + 1 : ℕ) : ℚ) := by
        push_cast at h ⊢
        exact h.trans_lt bounds.2
      exact Nat.lt_succ_iff.1 (by exact_mod_cast h')
    have hm : m ≠ 0 := (lt_of_lt_of_le (Nat.two_pow_pos _) hlower).ne'
    have hlog' : k + 52 ≤ m.log2 := (Nat.le_log2 hm).2 hlower
    have := hlog hm
    omega
  · by_cases hm : m = 0
    · rw [hm, Nat.log2_zero]
      omega
    · have := hlog hm
      omega

/-- A rounded mantissa is cut once more only if it is one bit too long. -/
theorem Cut.shiftToTargetExponent_eq {q : ℚ} {m : ℕ} (h : Cut q m) :
    shiftToTargetExponent .binary64 m (place q) .exact =
      if m = 2 * twoTo fractionBits then (⟨twoTo fractionBits, false, false⟩, place q + 1)
      else (⟨m, false, false⟩, place q) := by
  rcases h with ⟨-, hshort, hfull⟩
  have hleast := leastExponent_le_place q
  have htarget := targetExponent_eq m (place q)
  unfold shiftToTargetExponent shiftToExponent
  dsimp only
  rw [htarget]
  split
  · rename_i hcarry
    -- One bit too many: the mantissa is a power of two, and halving it loses nothing.
    have hlog : m.log2 = 53 := by
      rw [hcarry]
      rfl
    have hshift : (max ((m.log2 : ℤ) + place q - 52) leastExponent - place q).toNat = 1 := by
      rw [hlog]
      omega
    rw [hshift, hcarry]
    rfl
  · rename_i hcarry
    rw [twoTo_fractionBits] at hshort hcarry
    have hlog : m.log2 ≤ 52 := by
      by_cases hm : m = 0
      · rw [hm, Nat.log2_zero]
        decide
      · refine Nat.lt_succ_iff.1 ((Nat.log2_lt hm).2 ?_)
        show m < 9007199254740992
        omega
    have hshift : (max ((m.log2 : ℤ) + place q - 52) leastExponent - place q).toNat = 0 := by omega
    rw [hshift]
    show (_, place q + 0) = _
    rw [add_zero]
    rfl

/-- A mantissa that describes a number in places that are fine enough is rounded to the rounded number. -/
theorem roundWithAccuracy_eq {m : ℕ} {e : ℤ} {accuracy : Accuracy} {q : ℚ} (hq : 0 ≤ q)
    (describes : Describes (.ofMantissaAndAccuracy m accuracy) (q / 2 ^ e)) (low : e ≤ place q)
    (negative : Bool) :
    roundWithAccuracy .binary64 (signOf negative) m e accuracy = unpacked (dyadicOf negative q) := by
  have hmantissa : (ExtendedMantissa.ofMantissaAndAccuracy m accuracy).mantissa = m := by
    cases accuracy with
    | exact => rfl
    | inexact order => cases order <;> rfl
  have hbounds := describes.bounds
  rw [hmantissa] at hbounds
  have htarget := place_eq_of_describes hq hbounds low
  obtain ⟨k, hk⟩ := Int.eq_ofNat_of_zero_le (sub_nonneg.2 low)
  have hexponent : e + (k : ℤ) = place q := by omega
  -- The first cut is at the place of the number.
  have hfirst : shiftToTargetExponent .binary64 m e accuracy =
      (ExtendedMantissa.ofMantissaAndAccuracy m accuracy >>> k, place q) := by
    unfold shiftToTargetExponent shiftToExponent
    dsimp only
    rw [htarget, hk]
    show (ExtendedMantissa.ofMantissaAndAccuracy m accuracy >>> k, e + (k : ℤ)) = _
    rw [hexponent]
  have hcut := describes.shiftRight k
  rw [div_div, ← zpow_natCast, ← zpow_add₀ two_ne_zero, hexponent] at hcut
  obtain ⟨r, hr⟩ := exists_cut hq
  have hrounded : (ExtendedMantissa.ofMantissaAndAccuracy m accuracy >>> k).roundedMantissa = r := by
    have h := hcut.roundedMantissa
    rw [hr.nearest] at h
    exact_mod_cast h.symm
  unfold roundWithAccuracy
  rw [hfirst]
  dsimp only
  rw [hrounded, hr.dyadicOf_eq, hr.shiftToTargetExponent_eq]
  split <;> rfl

/-! ## Numbers that are too large -/

/-- What is put together from an infinity is read as one. -/
theorem read_pack_infinity (negative : Bool) :
    read (.ofModel (.pack (.infinity (signOf negative)))) = .infinite negative := by
  cases negative <;> decide +kernel

/-- A rounded number that is too large has an exponent that no float has. -/
theorem large_dyadicOf {q : ℚ} (hq : 0 ≤ q) (large : limit ≤ rounded q) (negative : Bool) :
    (dyadicOf negative q).significand ≠ 0 ∧ 971 < (dyadicOf negative q).exponent := by
  obtain ⟨m, hm⟩ := exists_cut hq
  have hpower : (0 : ℚ) < 2 ^ place q := by positivity
  have hshort := hm.short
  rw [hm.rounded_eq, limit_eq] at large
  rw [hm.dyadicOf_eq]
  rw [twoTo_fractionBits] at hshort ⊢
  -- The significand is below a power of two, so the rest of the size is in the place.
  have hplace (k : ℕ) (hk : m < 2 ^ k) : 1024 < place q + k := by
    refine (zpow_lt_zpow_iff_right₀ (one_lt_two (α := ℚ))).1 (lt_of_le_of_lt large ?_)
    rw [add_comm, zpow_add₀ two_ne_zero, zpow_natCast]
    exact mul_lt_mul_of_pos_right (by exact_mod_cast hk) hpower
  have hm0 : m ≠ 0 := by
    intro hzero
    rw [hzero, Nat.cast_zero, zero_mul] at large
    exact absurd large (not_le.2 (by positivity))
  split
  · have := hplace 54 (by omega)
    exact ⟨(by decide : 4503599627370496 ≠ 0), by dsimp only; omega⟩
  · have := hplace 53 (by omega)
    exact ⟨hm0, by dsimp only; omega⟩

/-- A rounded number that is too large is put together to an infinity. -/
theorem read_pack_of_large {q : ℚ} (hq : 0 ≤ q) (large : limit ≤ rounded q) (negative : Bool) :
    read (.ofModel (.pack (unpacked (dyadicOf negative q)))) = .infinite negative := by
  obtain ⟨hnonzero, hexponent⟩ := large_dyadicOf hq large negative
  rw [← read_pack_infinity, unpacked, dif_neg hnonzero, negative_dyadicOf]
  have hpack : pack .binary64 (.finite (signOf negative) (dyadicOf negative q).significand
      (dyadicOf negative q).exponent (Nat.pos_of_ne_zero hnonzero)) =
      pack .binary64 (.infinity (signOf negative)) := by
    show (if 2048 ≤ ((dyadicOf negative q).exponent + (1023 : ℤ) + 52).toNat + 1 then _ else _) = _
    rw [if_pos (by omega)]
    rfl
  congr 2
  unfold Float.Model.pack
  simp only [hpack]

/-- `x` is the float that `q` is rounded to: it stands for the rounded number, or is an infinity where that
is too large. -/
structure Nearest (x : Float) (q : ℚ) : Prop where
  small : |rounded q| < limit → Denotes x (rounded q)
  large : limit ≤ |rounded q| → read x = .infinite (q < 0)

/-- Such a float is rounded down as the rounded number is; an infinity cannot be. -/
theorem Nearest.floorFloat {x : Float} {q : ℚ} (h : Nearest x q) :
    Number.floorFloat x = if |rounded q| < limit then .ok ⌊rounded q⌋ else .error .infinite := by
  split
  · next small => exact (h.small small).floorFloat
  · next large => rw [Number.floorFloat, Number.exact, h.large (not_lt.1 large)]; rfl

/-- A whole number of no great size is not rounded. -/
theorem Nearest.denotes_intCast {x : Float} {k : ℤ} (h : Nearest x k) (small : |k| ≤ 2 ^ 53) : Denotes x k := by
  have hexact : rounded (k : ℚ) = k := rounded_of_representable (representable_intCast small)
  have hsmall : |(k : ℚ)| < limit :=
    lt_of_le_of_lt (by exact_mod_cast small) (two_pow_lt_limit (n := 53) (by decide))
  have hdenotes := h.small (by rwa [hexact])
  rwa [hexact] at hdenotes

/-- Only a number that is not zero is rounded to one that is too large. -/
theorem pos_of_large {q : ℚ} (hq : 0 ≤ q) (large : limit ≤ rounded q) : 0 < q := by
  refine hq.lt_of_ne ?_
  rintro rfl
  rw [rounded_zero, limit_eq] at large
  exact absurd large (not_le.2 (by positivity))

theorem withSign_lt_zero {q : ℚ} (hq : 0 < q) (negative : Bool) :
    decide (withSign negative q < 0) = negative := by
  cases negative
  · exact decide_eq_false (not_lt.2 hq.le)
  · exact decide_eq_true (neg_neg_of_pos hq)

/-- What is put together from a rounded mantissa is the float that the number is rounded to. -/
theorem nearest_roundWithAccuracy {m : ℕ} {e : ℤ} {accuracy : Accuracy} {q : ℚ} (hq : 0 ≤ q)
    (describes : Describes (.ofMantissaAndAccuracy m accuracy) (q / 2 ^ e)) (low : e ≤ place q)
    (negative : Bool) :
    Nearest (.ofModel (.pack (roundWithAccuracy .binary64 (signOf negative) m e accuracy)))
      (withSign negative q) := by
  rw [roundWithAccuracy_eq hq describes low]
  constructor <;> rw [rounded_withSign, abs_withSign, abs_of_nonneg (rounded_nonneg hq)]
  · intro small
    exact ⟨_, read_pack (canonical_dyadicOf hq negative small), value_dyadicOf hq negative⟩
  · intro large
    rw [withSign_lt_zero (pos_of_large hq large)]
    exact read_pack_of_large hq large negative

/-! ## Products -/

theorem signOf_mul (a b : Bool) : signOf a * signOf b = signOf (a != b) := by
  cases a <;> cases b <;> rfl

theorem signOf_div (a b : Bool) : signOf a / signOf b = signOf (a != b) := by
  cases a <;> cases b <;> rfl

theorem withSign_mul (a b : Bool) (p q : ℚ) : withSign a p * withSign b q = withSign (a != b) (p * q) := by
  cases a <;> cases b <;> simp [withSign]

theorem withSign_div (a b : Bool) (p q : ℚ) : withSign a p / withSign b q = withSign (a != b) (p / q) := by
  cases a <;> cases b <;> simp [withSign, neg_div, div_neg]

/-- A place is fine enough if the number reaches the 53rd one from it, or there are no finer ones. -/
theorem le_place {q : ℚ} {e : ℤ} (h : 2 ^ (e + 52) ≤ |q| ∨ e ≤ leastExponent) : e ≤ place q := by
  rcases h with h | h
  · have := (zpow_lt_zpow_iff_right₀ (one_lt_two (α := ℚ))).1 (h.trans_lt (abs_lt_place q))
    omega
  · exact h.trans (leastExponent_le_place q)

theorem denotes_pack_zero (negative : Bool) : Denotes (.ofModel (.pack (.zero (signOf negative)))) 0 := by
  have hcanonical : Canonical ⟨negative, 0, leastExponent⟩ :=
    ⟨Nat.mul_pos two_pos (twoTo_pos _), le_refl _, (by decide : leastExponent ≤ 971), Or.inr rfl⟩
  refine ⟨_, read_pack hcanonical, ?_⟩
  rw [value_eq, Nat.cast_zero, zero_mul]
  cases negative
  · rfl
  · exact neg_zero

theorem withSign_zero (negative : Bool) : withSign negative 0 = 0 := by
  cases negative
  · rfl
  · exact neg_zero

/-- A number that is a float already is rounded to this float. -/
theorem Denotes.nearest {x : Float} {q : ℚ} (h : Denotes x q) : Nearest x q := by
  have hsmall : |q| < limit := h.abs_lt_limit
  have hexact : rounded q = q := rounded_of_representable h.representable
  constructor <;> rw [hexact]
  · exact fun _ => h
  · exact fun large => absurd hsmall (not_lt.2 large)

theorem nearest_pack_zero (negative : Bool) : Nearest (.ofModel (.pack (.zero (signOf negative)))) 0 :=
  (denotes_pack_zero negative).nearest

/-- The product of two significands is long enough, or its exponent is small enough. -/
theorem le_significands {d e : Dyadic} (hd : Canonical d) (he : Canonical e)
    (hzero : d.significand * e.significand ≠ 0) :
    twoTo fractionBits ≤ d.significand * e.significand ∨ d.exponent + e.exponent ≤ leastExponent := by
  rcases Nat.mul_ne_zero_iff.1 hzero with ⟨hd0, he0⟩
  have hleast : leastExponent = -1074 := rfl
  rcases hd.full with h | h
  · exact Or.inl (h.trans (Nat.le_mul_of_pos_right _ (Nat.pos_of_ne_zero he0)))
  · rcases he.full with h' | h'
    · exact Or.inl (h'.trans (Nat.le_mul_of_pos_left _ (Nat.pos_of_ne_zero hd0)))
    · exact Or.inr (by omega)

/-- The product of two floats is the float that the product of their numbers is rounded to. -/
theorem Denotes.mul_nearest {x y : Float} {p q : ℚ} (hx : Denotes x p) (hy : Denotes y q) :
    Nearest (x * y) (p * q) := by
  rcases hx with ⟨d, hd, rfl⟩
  rcases hy with ⟨e, he, rfl⟩
  have hproduct : x * y =
      .ofModel (.pack (Float.Model.UnpackedFloat.mul Format.binary64 (unpacked d) (unpacked e))) := by
    rw [← unpack_of_read hd, ← unpack_of_read he]
    rfl
  have hvalue : d.value * e.value = withSign (d.negative != e.negative)
      ((d.significand * e.significand : ℕ) * 2 ^ (d.exponent + e.exponent)) := by
    rw [value_eq, value_eq, withSign_mul, zpow_add₀ two_ne_zero]
    push_cast
    congr 1
    ring
  have hnonneg : (0 : ℚ) ≤ (d.significand * e.significand : ℕ) * 2 ^ (d.exponent + e.exponent) := by
    positivity
  rw [hproduct, hvalue]
  unfold unpacked
  by_cases hzero : d.significand * e.significand = 0
  · rw [hzero, Nat.cast_zero, zero_mul, withSign_zero]
    have hsigns := signOf_mul d.negative e.negative
    rcases Nat.mul_eq_zero.1 hzero with h | h
    · rw [dif_pos h]
      split <;> simp only [Float.Model.UnpackedFloat.mul, hsigns] <;> exact nearest_pack_zero _
    · rw [dif_pos h]
      split <;> simp only [Float.Model.UnpackedFloat.mul, hsigns] <;> exact nearest_pack_zero _
  · -- The product of the significands is exact, and long enough to be cut at the place of the result.
    rcases Nat.mul_ne_zero_iff.1 hzero with ⟨hd0, he0⟩
    rw [dif_neg hd0, dif_neg he0]
    simp only [Float.Model.UnpackedFloat.mul, signOf_mul]
    refine nearest_roundWithAccuracy hnonneg ?_ (le_place ?_) _
    · show _ / _ = ((d.significand * e.significand : ℕ) : ℚ)
      rw [mul_div_assoc, div_self (by positivity), mul_one]
    · have hfull := le_significands (canonical_of_read hd).1 (canonical_of_read he).1 hzero
      rw [abs_of_nonneg hnonneg, zpow_add₀ two_ne_zero, mul_comm]
      refine hfull.imp_left fun h => mul_le_mul_of_nonneg_right ?_ (by positivity)
      rw [twoTo_fractionBits] at h
      have h' : ((4503599627370496 : ℕ) : ℚ) ≤ (d.significand * e.significand : ℕ) := by exact_mod_cast h
      norm_num at h' ⊢
      exact h'

/-- The product of two floats stands for the rounded product, if that is not too large. -/
theorem Denotes.mul {x y : Float} {p q : ℚ} (hx : Denotes x p) (hy : Denotes y q)
    (small : |rounded (p * q)| < limit) : Denotes (x * y) (rounded (p * q)) :=
  (hx.mul_nearest hy).small small

/-! ## Quotients -/

/-- What is left of a division of mantissas describes the quotient. -/
theorem describes_division (m : ℕ) {n : ℕ} (hn : n ≠ 0) :
    Describes (.ofMantissaAndAccuracy (m / n) (accuracyOfFraction (m % n) n)) (m / n) := by
  have hn' : (0 : ℚ) < n := by exact_mod_cast Nat.pos_of_ne_zero hn
  have hrest : ((m % n : ℕ) : ℚ) < n := by exact_mod_cast Nat.mod_lt m (Nat.pos_of_ne_zero hn)
  have hquotient : (m : ℚ) / n = (m / n : ℕ) + (m % n : ℕ) / n := by
    have h : (m : ℚ) = n * (m / n : ℕ) + (m % n : ℕ) := by exact_mod_cast (Nat.div_add_mod m n).symm
    rw [h]
    field_simp
  rw [hquotient]
  -- What matters is on which side of one half the rest of the division lies.
  generalize m / n = k
  generalize m % n = r at hrest
  unfold accuracyOfFraction
  by_cases hr : r = 0
  · rw [if_pos hr, hr]
    show (k : ℚ) + ((0 : ℕ) : ℚ) / n = k
    rw [Nat.cast_zero, zero_div, add_zero]
  · rw [if_neg hr]
    have hr' : (0 : ℚ) < r / n := div_pos (by exact_mod_cast Nat.pos_of_ne_zero hr) hn'
    have hone : (r : ℚ) / n < 1 := (div_lt_one hn').2 hrest
    rcases lt_trichotomy (2 * r) n with h | h | h
    · rw [Nat.compare_eq_lt.2 h]
      have hhalf : (r : ℚ) / n < 1 / 2 := by
        rw [div_lt_div_iff₀ hn' two_pos]
        exact_mod_cast (by omega : r * 2 < 1 * n)
      exact ⟨by linarith, by linarith⟩
    · rw [Nat.compare_eq_eq.2 h]
      have hhalf : (r : ℚ) / n = 1 / 2 := by
        rw [div_eq_div_iff hn'.ne' two_ne_zero]
        exact_mod_cast (by omega : r * 2 = 1 * n)
      show (k : ℚ) + r / n = k + 1 / 2
      rw [hhalf]
    · rw [Nat.compare_eq_gt.2 h]
      have hhalf : 1 / 2 < (r : ℚ) / n := by
        rw [div_lt_div_iff₀ two_pos hn']
        exact_mod_cast (by omega : 1 * n < r * 2)
      exact ⟨by linarith, by linarith⟩

/-- The exponent to which a mantissa is divided is small enough. -/
theorem quotient_place {m n : ℕ} (hm : m ≠ 0) (hn : n ≠ 0) (e f : ℤ) {target : ℤ}
    (h : target ≤ Format.binary64.targetExponent (totalExponent m e - totalExponent n f)) :
    2 ^ (target + 52) ≤ (m : ℚ) / n * 2 ^ (e - f) ∨ target ≤ leastExponent := by
  have htarget : target ≤ max ((m.log2 : ℤ) + 1 + e - (n.log2 + 1 + f) - 53) leastExponent := h
  refine (le_max_iff.1 htarget).imp_left fun h => ?_
  calc
    (2 : ℚ) ^ (target + 52) ≤ 2 ^ ((m.log2 : ℤ) - n.log2 - 1 + (e - f)) :=
      zpow_le_zpow_right₀ one_le_two (by omega)
    _ = 2 ^ ((m.log2 : ℤ) - n.log2 - 1) * 2 ^ (e - f) := zpow_add₀ two_ne_zero _ _
    _ ≤ (m : ℚ) / n * 2 ^ (e - f) :=
      mul_le_mul_of_nonneg_right (two_zpow_log2_sub hm hn rfl).1.le (by positivity)

/-- The quotient of two floats is the float that the quotient of their numbers is rounded to. -/
theorem Denotes.div_nearest {x y : Float} {p q : ℚ} (hx : Denotes x p) (hy : Denotes y q) (hq : q ≠ 0) :
    Nearest (x / y) (p / q) := by
  rcases hx with ⟨d, hd, rfl⟩
  rcases hy with ⟨e, he, rfl⟩
  have hquotient : x / y =
      .ofModel (.pack (Float.Model.UnpackedFloat.div Format.binary64 (unpacked d) (unpacked e))) := by
    rw [← unpack_of_read hd, ← unpack_of_read he]
    rfl
  have he0 : e.significand ≠ 0 := by
    intro h
    rw [value_eq, h, Nat.cast_zero, zero_mul, withSign_zero] at hq
    exact hq rfl
  have hvalue : d.value / e.value = withSign (d.negative != e.negative)
      ((d.significand : ℚ) / e.significand * 2 ^ (d.exponent - e.exponent)) := by
    rw [value_eq, value_eq, withSign_div, zpow_sub₀ two_ne_zero, mul_div_mul_comm]
  have hnonneg : (0 : ℚ) ≤ (d.significand : ℚ) / e.significand * 2 ^ (d.exponent - e.exponent) := by
    positivity
  rw [hquotient, hvalue]
  unfold unpacked
  rw [dif_neg he0]
  by_cases hd0 : d.significand = 0
  · rw [dif_pos hd0, hd0, Nat.cast_zero, zero_div, zero_mul, withSign_zero]
    simp only [Float.Model.UnpackedFloat.div, signOf_div]
    exact nearest_pack_zero _
  · rw [dif_neg hd0]
    simp only [Float.Model.UnpackedFloat.div, signOf_div, divCore]
    -- The dividend is shifted until the quotient has more bits than are kept.
    generalize htarget : min (d.exponent - e.exponent) _ = target
    have hgap : target ≤ d.exponent - e.exponent := htarget ▸ min_le_left _ _
    obtain ⟨k, hk⟩ := Int.eq_ofNat_of_zero_le (sub_nonneg.2 hgap)
    have hexponent : d.exponent - e.exponent = k + target := by omega
    refine nearest_roundWithAccuracy hnonneg ?_ (le_place ?_) _
    · have hscaled : (d.significand : ℚ) / e.significand * 2 ^ (d.exponent - e.exponent) / 2 ^ target =
          (d.significand <<< (d.exponent - e.exponent - target).toNat : ℕ) / e.significand := by
        rw [hk, Int.toNat_natCast, Nat.shiftLeft_eq, hexponent, zpow_add₀ two_ne_zero, zpow_natCast]
        push_cast
        field_simp
      rw [hscaled]
      exact describes_division _ he0
    · rw [abs_of_nonneg hnonneg]
      exact quotient_place hd0 he0 d.exponent e.exponent (htarget ▸ min_le_right _ _)

/-- The quotient of two floats stands for the rounded quotient, if that is not too large. -/
theorem Denotes.div {x y : Float} {p q : ℚ} (hx : Denotes x p) (hy : Denotes y q) (hq : q ≠ 0)
    (small : |rounded (p / q)| < limit) : Denotes (x / y) (rounded (p / q)) :=
  (hx.div_nearest hy hq).small small

/-- A float is compared with zero by the number that it stands for. -/
theorem Denotes.beq_zero {x : Float} {q : ℚ} (hx : Denotes x q) : (x == 0) = decide (q = 0) := by
  rcases hx with ⟨d, hd, rfl⟩
  have hread : read 0 = .finite ⟨false, 0, leastExponent⟩ := by decide +kernel
  have hzero : (0 : Float).toModel.unpack = .zero .positive := unpack_of_read hread
  have hequal : (x == 0) = (unpacked d).beq (.zero .positive) := by
    rw [← unpack_of_read hd, ← hzero]
    rfl
  rw [hequal, value_eq]
  unfold unpacked
  by_cases hd0 : d.significand = 0
  · rw [dif_pos hd0, hd0, Nat.cast_zero, zero_mul, withSign_zero, decide_eq_true rfl]
    rfl
  · have hne : withSign d.negative ((d.significand : ℚ) * 2 ^ d.exponent) ≠ 0 := by
      rw [← abs_pos, abs_withSign, abs_pos]
      have : (d.significand : ℚ) ≠ 0 := by exact_mod_cast hd0
      positivity
    rw [dif_neg hd0, decide_eq_false hne]
    cases d.negative <;> rfl

theorem Denotes.divideFloat {x y : Float} {p q : ℚ} (hx : Denotes x p) (hy : Denotes y q) (hq : q ≠ 0)
    (small : |rounded (p / q)| < limit) :
    ∃ z, Number.divideFloat x y = .ok z ∧ Denotes z (rounded (p / q)) := by
  refine ⟨x / y, ?_, hx.div hy hq small⟩
  rw [Number.divideFloat, hy.beq_zero, decide_eq_false hq]
  rfl

end Binary64

end RuleTrader
