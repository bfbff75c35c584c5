import Mathlib
import RuleTrader.Number.Binary64

/-!
# What the bits of a float hold

A float is put together again from its bits (`Float.ofBits_toBits`, which no part of the library imports, only
the whole). So a finite float is determined by the dyadic number that is read off it (`ofMagnitude_bitsOf`), and
an infinite one by its sign (`ofMagnitude_infinityBits`). A dyadic number that is read off a float has a short
significand with a leading bit, unless it has the least exponent (`Canonical`).
-/

namespace RuleTrader

namespace Binary64

/-- The magnitude bits of a finite number. -/
def bitsOf (d : Dyadic) : Nat := (d.exponent - leastExponent).toNat * twoTo fractionBits + d.significand

/-- A dyadic number that is read off a float. -/
structure Canonical (d : Dyadic) : Prop where
  short : d.significand < 2 * twoTo fractionBits
  least : leastExponent ≤ d.exponent
  greatest : d.exponent ≤ 971
  full : twoTo fractionBits ≤ d.significand ∨ d.exponent = leastExponent

theorem twoTo_fractionBits : twoTo fractionBits = 4503599627370496 := rfl

theorem canonical_of_read {x : Float} {d : Dyadic} (h : read x = .finite d) :
    Canonical d ∧ x.toBits.toNat = if d.negative then bitsOf d + signBit else bitsOf d := by
  have hlimit : x.toBits.toNat < 18446744073709551616 := x.toBits.toNat_lt
  have hsign : signBit = 9223372036854775808 := rfl
  have hleast : leastExponent = -1074 := rfl
  unfold read at h
  dsimp only at h
  rw [twoTo_fractionBits] at h
  split at h
  · split at h <;> cases h
  · split at h
    · -- The least exponent, without a leading bit.
      cases h
      refine ⟨⟨?_, ?_, ?_, ?_⟩, ?_⟩ <;> simp only [bitsOf, twoTo_fractionBits, hleast, decide_eq_true_eq]
      · omega
      · omega
      · omega
      · exact Or.inr trivial
      · split <;> omega
    · -- A leading bit that is not stored.
      cases h
      refine ⟨⟨?_, ?_, ?_, ?_⟩, ?_⟩ <;> simp only [bitsOf, twoTo_fractionBits, hleast, decide_eq_true_eq]
      · omega
      · omega
      · omega
      · omega
      · split <;> omega

/-- Such a dyadic number is read off every float with its bits. -/
theorem read_of_canonical {x : Float} {d : Dyadic} (h : Canonical d)
    (bits : x.toBits.toNat = if d.negative then bitsOf d + signBit else bitsOf d) :
    read x = .finite d := by
  have hsign : signBit = 9223372036854775808 := rfl
  have hleast : leastExponent = -1074 := rfl
  rcases h with ⟨hshort, hlow, hhigh, hfull⟩
  rcases d with ⟨negative, significand, exponent⟩
  simp only [bitsOf, twoTo_fractionBits, hsign, hleast] at hshort hlow hhigh hfull bits
  have hnegative : decide (signBit ≤ x.toBits.toNat) = negative := by
    rw [hsign]
    cases negative <;> simp only [if_true, Bool.false_eq_true, if_false] at bits <;>
      simp only [decide_eq_true_eq, decide_eq_false_iff_not] <;> omega
  unfold read
  simp only [hnegative, twoTo_fractionBits, hleast]
  generalize x.toBits.toNat = n at bits
  rcases hfull with hfull | hfull
  · -- A leading bit, which the field counts.
    have hfield : n / 4503599627370496 % 2048 = (exponent + 1075).toNat := by split at bits <;> omega
    have hfraction : n % 4503599627370496 + 4503599627370496 = significand := by split at bits <;> omega
    rw [hfield, hfraction, if_neg (by omega), if_neg (by omega)]
    congr 2
    omega
  · by_cases hlead : 4503599627370496 ≤ significand
    · have hfield : n / 4503599627370496 % 2048 = 1 := by split at bits <;> omega
      have hfraction : n % 4503599627370496 + 4503599627370496 = significand := by split at bits <;> omega
      rw [hfield, hfraction, if_neg (by omega), if_neg (by omega), hfull]
      rfl
    · have hfield : n / 4503599627370496 % 2048 = 0 := by split at bits <;> omega
      have hfraction : n % 4503599627370496 = significand := by split at bits <;> omega
      rw [hfield, hfraction, if_neg (by omega), if_pos rfl, hfull]

/-- The float with a sign and magnitude bits that were read off a float is this float. -/
theorem ofMagnitude_bitsOf {x : Float} {d : Dyadic} (h : read x = .finite d) :
    ofMagnitude d.negative (bitsOf d) = x := by
  unfold ofMagnitude
  rw [← (canonical_of_read h).2, UInt64.ofNat_toNat, Float.ofBits_toBits]

theorem ofMagnitude_infinityBits {x : Float} {negative : Bool} (h : read x = .infinite negative) :
    ofMagnitude negative infinityBits = x := by
  have hlimit : x.toBits.toNat < 18446744073709551616 := x.toBits.toNat_lt
  have hsign : signBit = 9223372036854775808 := rfl
  have hinfinity : infinityBits = 9218868437227405312 := rfl
  have hbits : x.toBits.toNat = if negative then infinityBits + signBit else infinityBits := by
    unfold read at h
    dsimp only at h
    rw [twoTo_fractionBits] at h
    split at h
    · split at h
      · cases h
        simp only [hinfinity, hsign, decide_eq_true_eq]
        split <;> omega
      · cases h
    · split at h <;> cases h
  unfold ofMagnitude
  rw [← hbits, UInt64.ofNat_toNat, Float.ofBits_toBits]

theorem toNat_unpackExponent (n : UInt64) :
    (@Float.Model.UnpackedFloat.unpackExponent .binary64 n.toBitVec).toNat =
      n.toNat / twoTo fractionBits % 2048 := by
  simp [Float.Model.UnpackedFloat.unpackExponent, BitVec.extractLsb, BitVec.extractLsb',
    Nat.shiftRight_eq_div_pow, twoTo_fractionBits]

theorem unpackExponent_ne {n : UInt64} (h : n.toNat / twoTo fractionBits % 2048 ≠ 2047) :
    @Float.Model.UnpackedFloat.unpackExponent .binary64 n.toBitVec ≠ -1#11 := by
  intro hexponent
  rw [← toNat_unpackExponent, hexponent] at h
  exact h rfl

/-- Bits with the field of a finite number are kept as they are. -/
theorem toBits_ofBits {n : UInt64} (h : n.toNat / twoTo fractionBits % 2048 ≠ 2047) :
    (Float.ofBits n).toBits = n := by
  let x : Float := .ofModel ⟨n, ⟨fun hexponent => absurd hexponent (unpackExponent_ne h)⟩⟩
  have hx : x.toBits = n := rfl
  rw [← hx, Float.ofBits_toBits]

theorem toBits_ofMagnitude {bits : Nat} (h : bits < infinityBits) (negative : Bool) :
    (ofMagnitude negative bits).toBits.toNat = if negative then bits + signBit else bits := by
  have hsign : signBit = 9223372036854775808 := rfl
  have hinfinity : infinityBits = 9218868437227405312 := rfl
  rw [hinfinity] at h
  have hlimit : (if negative then bits + signBit else bits) < 2 ^ 64 := by
    rw [hsign]
    split <;> omega
  have hnat : (UInt64.ofNat (if negative then bits + signBit else bits)).toNat =
      if negative then bits + signBit else bits := UInt64.toNat_ofNat_of_lt' hlimit
  unfold ofMagnitude
  rw [toBits_ofBits, hnat]
  rw [hnat, twoTo_fractionBits, hsign]
  split <;> omega

/-- The float with the sign and the magnitude bits of a dyadic number stands for it. -/
theorem read_ofMagnitude {d : Dyadic} (h : Canonical d) :
    read (ofMagnitude d.negative (bitsOf d)) = .finite d := by
  refine read_of_canonical h (toBits_ofMagnitude ?_ _)
  have hleast : leastExponent = -1074 := rfl
  have hinfinity : infinityBits = 9218868437227405312 := rfl
  rcases h with ⟨hshort, -, hhigh, -⟩
  rw [twoTo_fractionBits] at hshort
  rw [bitsOf, twoTo_fractionBits, hleast, hinfinity]
  omega

/-- A number that is read as finite is a number. -/
theorem isNaN_of_finite {x : Float} {d : Dyadic} (h : read x = .finite d) :
    x.isNaN = false := by
  have hfield : x.toBits.toNat / twoTo fractionBits % 2048 ≠ 2047 := by
    intro hfield
    unfold read at h
    simp only [hfield, if_true] at h
    split at h <;> cases h
  have hexponent :
      @Float.Model.UnpackedFloat.unpackExponent .binary64 x.toBits.toBitVec ≠ -1#11 :=
    unpackExponent_ne hfield
  have hbits : x.toModel.toBits = x.toBits := rfl
  unfold Float.isNaN Float.Model.isNaN Float.Model.unpack Float.Model.UnpackedFloat.unpack
  simp only [hbits]
  rw [if_neg hexponent]
  split
  · split <;> rfl
  · rfl

end Binary64

end RuleTrader
