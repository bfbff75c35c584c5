import RuleTrader.Proofs.Number.Order
import RuleTrader.Proofs.Number.Sum

/-!
# The sign of a result

A float lies on one side of zero, at least a given distance away from it, if it stands for such a number or
is the infinity of that side (`Beyond`). Adding floats of one side adds up the distances
(`Beyond.add`), so no sum of them ends on the other side. A quotient can be undefined, namely of two
infinities, but if it is not it lies on the side that the two signs give (`Within.div`).
-/

namespace RuleTrader

namespace Binary64

open Float.Model (Format UnpackedFloat)
open Float.Model.UnpackedFloat

/-! ## Readings and parts -/

section

variable {x : Float} {negative : Bool}

theorem unpackExponent_eq {n : UInt64} (h : n.toNat / twoTo fractionBits % 2048 = 2047) :
    @unpackExponent .binary64 n.toBitVec = -1#11 := by
  rw [← BitVec.toNat_inj, toNat_unpackExponent, h]
  rfl

/-- The operations see the greatest exponent as they are read: without a fraction it is an infinity, and with one
no number. -/
theorem unpack_of_greatest {n : UInt64} (h : n.toNat / twoTo fractionBits % 2048 = 2047) :
    unpack .binary64 n.toBitVec =
      if n.toNat % twoTo fractionBits = 0 then .infinity (signOf (signBit ≤ n.toNat)) else .notANumber := by
  unfold unpack
  dsimp only
  rw [if_pos (unpackExponent_eq h), ofBitVec_unpackSign]
  by_cases hfraction : n.toNat % twoTo fractionBits = 0
  · rw [if_pos hfraction, if_pos ((unpackMantissa_eq_zero_iff n).2 hfraction)]
  · rw [if_neg hfraction, if_neg ((unpackMantissa_eq_zero_iff n).not.2 hfraction)]

theorem unpack_of_infinite (h : read x = .infinite negative) :
    x.toModel.unpack = .infinity (signOf negative) := by
  show unpack .binary64 x.toBits.toBitVec = _
  unfold read at h
  dsimp only at h
  split at h
  · next hfield =>
      split at h
      · next hfraction =>
          cases h
          rw [unpack_of_greatest hfield, if_pos hfraction]
      · cases h
  · split at h <;> cases h

theorem unpack_of_undefined (h : read x = .undefined) : x.toModel.unpack = .notANumber := by
  show unpack .binary64 x.toBits.toBitVec = _
  unfold read at h
  dsimp only at h
  split at h
  · next hfield =>
      split at h
      · cases h
      · next hfraction => rw [unpack_of_greatest hfield, if_neg hfraction]
  · split at h <;> cases h

theorem read_pack_notANumber : read (.ofModel (.pack .notANumber)) = .undefined := by decide +kernel

end

theorem unpack_zero : (0 : Float).toModel.unpack = .zero .positive :=
  unpack_of_read (by decide +kernel : read 0 = .finite ⟨false, 0, leastExponent⟩)

theorem beq_zero_eq (x : Float) : (x == 0) = x.toModel.unpack.beq (.zero .positive) := by
  rw [← unpack_zero]
  rfl

theorem beq_zero_of_undefined {x : Float} (h : read x = .undefined) : (x == 0) = false := by
  rw [beq_zero_eq, unpack_of_undefined h]
  rfl

theorem withSign_add (negative : Bool) (p q : ℚ) :
    withSign negative (p + q) = withSign negative p + withSign negative q := by
  cases negative
  · rfl
  · exact neg_add p q

theorem withSign_not (negative : Bool) (q : ℚ) : withSign (!negative) q = -withSign negative q := by
  cases negative
  · rfl
  · exact (neg_neg q).symm

/-- The negative of a float stands for the negative of its number. -/
theorem Denotes.neg {x : Float} {q : ℚ} (h : Denotes x q) : Denotes (-x) (-q) := by
  rcases h with ⟨d, hd, rfl⟩
  obtain ⟨hshort, hleast, hgreatest, hfull⟩ := (canonical_of_read hd).1
  have hcanonical : Canonical { d with negative := !d.negative } := ⟨hshort, hleast, hgreatest, hfull⟩
  have hneg : -x = .ofModel (.pack (unpacked { d with negative := !d.negative })) := by
    have hparts : (unpacked d).neg = unpacked { d with negative := !d.negative } := by
      unfold unpacked
      dsimp only
      split <;> cases d.negative <;> rfl
    rw [← hparts, ← unpack_of_read hd]
    rfl
  rw [hneg]
  refine ⟨_, read_pack hcanonical, ?_⟩
  rw [value_eq, value_eq, withSign_not]

/-! ## One side of zero -/

/-- `x` lies on one side of zero, at least `least` away from it. -/
def Beyond (negative : Bool) (least : ℚ) (x : Float) : Prop :=
  (∃ q, least ≤ q ∧ Denotes x (withSign negative q)) ∨ read x = .infinite negative

/-- `x` is undefined, or does not lie beyond zero on the other side. -/
def Within (negative : Bool) (x : Float) : Prop := Beyond negative 0 x ∨ read x = .undefined

/-- A float that a number is rounded to lies on the side of the number. -/
theorem Nearest.beyond {negative : Bool} {least q : ℚ} {x : Float} (h : Nearest x (withSign negative q))
    (hleast : Representable least) (nonneg : 0 ≤ least) (hq : least ≤ q) : Beyond negative least x := by
  have hnonneg : 0 ≤ q := nonneg.trans hq
  by_cases hsmall : |rounded (withSign negative q)| < limit
  · have hdenotes := h.small hsmall
    rw [rounded_withSign] at hdenotes
    exact Or.inl ⟨rounded q, le_rounded hleast hq, hdenotes⟩
  · have hinfinite := h.large (not_lt.1 hsmall)
    rw [rounded_withSign, abs_withSign, abs_of_nonneg (rounded_nonneg hnonneg)] at hsmall
    rw [withSign_lt_zero (pos_of_large hnonneg (not_lt.1 hsmall))] at hinfinite
    exact Or.inr hinfinite

namespace Beyond

variable {negative : Bool} {a b : ℚ} {x y : Float}

theorem mono (h : Beyond negative b x) (hle : a ≤ b) : Beyond negative a x :=
  h.imp_left fun ⟨q, hq, hx⟩ => ⟨q, hle.trans hq, hx⟩

theorem zero (negative : Bool) : Beyond negative 0 0 := by
  refine Or.inl ⟨0, le_refl 0, ?_⟩
  rw [withSign_zero]
  exact denotes_zero

/-- The sum of two floats of one side lies on this side, as far away as both together. -/
theorem add (hx : Beyond negative a x) (hy : Beyond negative b y) (ha : 0 ≤ a) (hb : 0 ≤ b)
    (hsum : Representable (a + b)) : Beyond negative (a + b) (x + y) := by
  have hunfold : x + y = .ofModel (.pack (UnpackedFloat.add Format.binary64 x.toModel.unpack y.toModel.unpack)) := rfl
  rcases hx with ⟨p, hp, hx⟩ | hx
  · rcases hy with ⟨q, hq, hy⟩ | hy
    · have hnearest := hx.add_nearest hy
      rw [← withSign_add] at hnearest
      exact hnearest.beyond hsum (add_nonneg ha hb) (add_le_add hp hq)
    · -- An infinity takes over what is added to it.
      refine Or.inr ?_
      obtain ⟨d, hd, -⟩ := hx
      rw [hunfold, unpack_of_read hd, unpack_of_infinite hy]
      unfold unpacked
      split <;> exact read_pack_infinity negative
  · refine Or.inr ?_
    rcases hy with ⟨q, hq, d, hd, -⟩ | hy
    · rw [hunfold, unpack_of_infinite hx, unpack_of_read hd]
      unfold unpacked
      split <;> exact read_pack_infinity negative
    · rw [hunfold, unpack_of_infinite hx, unpack_of_infinite hy, UnpackedFloat.add]
      cases negative <;> exact read_pack_infinity _

theorem neg (h : Beyond negative a x) : Beyond (!negative) a (-x) := by
  rcases h with ⟨q, hq, hx⟩ | hx
  · refine Or.inl ⟨q, hq, ?_⟩
    rw [withSign_not]
    exact hx.neg
  · have hneg : -x = .ofModel (.pack x.toModel.unpack.neg) := rfl
    have hflip : (UnpackedFloat.infinity (signOf negative)).neg = .infinity (signOf !negative) := by
      cases negative <;> rfl
    refine Or.inr ?_
    rw [hneg, unpack_of_infinite hx, hflip]
    exact read_pack_infinity _

/-- A float that is at least one away from zero is not zero. -/
theorem beq_zero (h : Beyond negative 1 x) : (x == 0) = false := by
  rcases h with ⟨q, hq, hx⟩ | hx
  · rw [hx.beq_zero, decide_eq_false_iff_not, ← abs_eq_zero, abs_withSign, abs_eq_zero]
    linarith
  · rw [beq_zero_eq, unpack_of_infinite hx]
    cases negative <;> rfl

end Beyond

/-! ## The sides of comparisons -/

section

variable {x : Float}

/-- A number that is zero lies on both sides, and any other on the side of its sign. -/
theorem beyond_of_read {negative : Bool} {d : Dyadic} (hread : read x = .finite d)
    (hside : d.significand = 0 ∨ d.negative = negative) : Beyond negative 0 x := by
  refine Or.inl ⟨d.significand * 2 ^ d.exponent, by positivity, d, hread, ?_⟩
  rw [value_eq]
  rcases hside with hzero | rfl
  · rw [hzero, Nat.cast_zero, zero_mul, withSign_zero, withSign_zero]
  · rfl

/-- The answer of zero's comparison with a float on this side, and not zero. -/
def orderOf (negative : Bool) : Ordering := if negative then .gt else .lt

/-- Zero compared with a float that does not lie on the other side tells on which side it lies. -/
theorem beyond_of_compare {negative : Bool} {o : Ordering}
    (h : (UnpackedFloat.zero .positive).compare x.toModel.unpack = some o) (ho : o ≠ orderOf !negative) :
    Beyond negative 0 x := by
  have hside (side : Bool) (h : some (orderOf side) = some o) : side = negative := by
    obtain rfl := Option.some.inj h
    cases side <;> cases negative <;> first | rfl | exact absurd rfl ho
  cases hread : read x with
  | undefined =>
      rw [unpack_of_undefined hread] at h
      cases h
  | infinite side =>
      rw [unpack_of_infinite hread] at h
      obtain rfl : side = negative := by
        refine hside side ?_
        rw [← h]
        cases side <;> rfl
      exact Or.inr hread
  | finite d =>
      rw [unpack_of_read hread, unpacked] at h
      refine beyond_of_read hread ?_
      split at h
      · next hzero => exact Or.inl hzero
      · refine Or.inr (hside d.negative ?_)
        rw [← h]
        cases d.negative <;> rfl

/-- A float that is at least zero lies on the positive side. -/
theorem beyond_of_nonneg (h : 0 ≤ x) : Beyond false 0 x := by
  have hle : (UnpackedFloat.zero .positive).le x.toModel.unpack = true := by
    rw [← unpack_zero]
    exact of_decide_eq_true (p := (0 : Float).toModel ≤ x.toModel) h
  obtain ⟨o, hcompare, ho⟩ := (Option.any_eq_true _ _).1 hle
  refine beyond_of_compare hcompare ?_
  rintro rfl
  cases ho

/-- A float below zero lies on the negative side. -/
theorem beyond_of_neg (h : x < 0) : Beyond true 0 x := by
  rw [lt_iff_compare, unpack_zero] at h
  have hcompare : (UnpackedFloat.zero .positive).compare x.toModel.unpack = some .gt := by
    rw [compare_swap, h]
    rfl
  exact beyond_of_compare hcompare (by decide)

end

/-! ## Quotients -/

/-- What stands for zero lies on either side. -/
theorem Denotes.within {x : Float} (h : Denotes x 0) (negative : Bool) : Within negative x :=
  Or.inl (Or.inl ⟨0, le_refl 0, by rwa [withSign_zero]⟩)

/-- The dyadic number of a float that stands for a positive number has no sign. -/
theorem not_negative_of_pos {d : Dyadic} {q : ℚ} (hd : d.value = q) (hq : 0 < q) :
    d.negative = false ∧ d.significand ≠ 0 := by
  rw [value_eq] at hd
  have hsize : (0 : ℚ) ≤ d.significand * 2 ^ d.exponent := by positivity
  constructor
  · cases hnegative : d.negative with
    | false => rfl
    | true =>
        have hneg : -((d.significand : ℚ) * 2 ^ d.exponent) = q := by
          rw [← hd, hnegative]
          rfl
        linarith
  · intro hzero
    rw [hzero, Nat.cast_zero, zero_mul, withSign_zero] at hd
    exact hq.ne hd

/-- The quotient of two floats is undefined, or not beyond zero on another side than their signs give, if the
divisor is not zero. -/
theorem Within.div {negative : Bool} {x y : Float} (hx : Within negative x) (hy : Within false y)
    (hzero : (y == 0) = false) : Within negative (x / y) := by
  have hunfold : x / y = .ofModel (.pack (UnpackedFloat.div Format.binary64 x.toModel.unpack y.toModel.unpack)) := rfl
  have hundefined (h : UnpackedFloat.div Format.binary64 x.toModel.unpack y.toModel.unpack = .notANumber) :
      Within negative (x / y) := by
    rw [hunfold, h]
    exact Or.inr read_pack_notANumber
  have hdivisor {q : ℚ} (hy : Denotes y (withSign false q)) : q ≠ 0 := by
    rintro rfl
    rw [hy.beq_zero, withSign_zero] at hzero
    simp at hzero
  rcases hx with (⟨p, hp, hx⟩ | hx) | hx
  · rcases hy with (⟨q, hq, hy⟩ | hy) | hy
    · have hnearest := hx.div_nearest hy (hdivisor hy)
      have hquotient : withSign negative p / withSign false q = withSign negative (p / q) := by
        rw [withSign_div, Bool.bne_false]
      rw [hquotient] at hnearest
      exact Or.inl (hnearest.beyond representable_zero (le_refl 0) (div_nonneg hp hq))
    · -- A number divided by an infinity is zero.
      obtain ⟨d, hd, -⟩ := hx
      have hquotient : Denotes (x / y) 0 := by
        rw [hunfold, unpack_of_read hd, unpack_of_infinite hy]
        unfold unpacked
        split <;> simp only [UnpackedFloat.div, signOf_div] <;> exact denotes_pack_zero _
      exact hquotient.within negative
    · refine hundefined ?_
      obtain ⟨d, hd, -⟩ := hx
      rw [unpack_of_read hd, unpack_of_undefined hy]
      unfold unpacked
      split <;> rfl
  · rcases hy with (⟨q, hq, hy⟩ | hy) | hy
    · -- An infinity keeps its side.
      have hpos : 0 < q := hq.lt_of_ne (hdivisor hy).symm
      obtain ⟨e, he, hvalue⟩ := hy
      obtain ⟨hpositive, hnonzero⟩ := not_negative_of_pos hvalue hpos
      refine Or.inl (Or.inr ?_)
      rw [hunfold, unpack_of_infinite hx, unpack_of_read he, unpacked, dif_neg hnonzero, hpositive]
      simp only [UnpackedFloat.div, signOf_div, Bool.bne_false]
      exact read_pack_infinity negative
    · refine hundefined ?_
      rw [unpack_of_infinite hx, unpack_of_infinite hy]
      rfl
    · refine hundefined ?_
      rw [unpack_of_infinite hx, unpack_of_undefined hy]
      rfl
  · refine hundefined ?_
    rw [unpack_of_undefined hx]
    rfl

/-- One and something that is not below zero are not zero, also if they are undefined. -/
theorem Within.one_add_beq_zero {x : Float} (h : Within false x) : (1 + x == 0) = false := by
  rcases h with h | h
  · have hone : Beyond false 1 1 := Or.inl ⟨1, le_refl 1, denotes_one⟩
    have hsum := hone.add h zero_le_one (le_refl 0) (by rw [add_zero]; exact denotes_one.representable)
    rw [add_zero] at hsum
    exact hsum.beq_zero
  · have hunfold : 1 + x =
        .ofModel (.pack (UnpackedFloat.add Format.binary64 (1 : Float).toModel.unpack x.toModel.unpack)) := rfl
    obtain ⟨d, hd, -⟩ := denotes_one
    have hundefined : UnpackedFloat.add Format.binary64 (unpacked d) .notANumber = .notANumber := by
      unfold unpacked
      split <;> rfl
    refine beq_zero_of_undefined ?_
    rw [hunfold, unpack_of_read hd, unpack_of_undefined h, hundefined]
    exact read_pack_notANumber

end Binary64

end RuleTrader
