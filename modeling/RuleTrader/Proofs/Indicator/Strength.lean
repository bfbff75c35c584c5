import RuleTrader.Proofs.Indicator.BlockSum
import RuleTrader.Proofs.Number.Sign

/-!
# The divisions of the strength

The strength of rises against falls divides by the period, by the mean fall and by one more than a quotient.
None of these is ever zero where it is divided by: the rises and the falls are each summed up on one side of
zero, so their quotient is not negative (`Within.div`). Divisions that fail when the divisor is zero
therefore give the same strength, and never fail (`Window.checkedStrength?_eq`).
-/

namespace RuleTrader

open Binary64 (Beyond Within)

/-- Floats on one side of zero are summed up on this side. -/
theorem beyond_blockSum {negative : Bool} {xs : List Float} (hxs : ∀ x ∈ xs, Beyond negative 0 x) :
    Beyond negative 0 (blockSum xs) := by
  refine blockSum_induction ?_ (Beyond.zero negative) hxs
  intro x y hx hy
  have hsum := hx.add hy (le_refl 0) (le_refl 0) (by simpa using Binary64.representable_zero)
  rwa [add_zero] at hsum

namespace Window

/-- The strength over some steps, with divisions that fail when they divide by zero. -/
def checkedStrength (period : Nat) (ds : List Float) : Except NumberFault Float := do
  let rise ← Number.divideFloat (blockSum (ds.filter fun d => d ≥ 0)) (Float.ofNat period)
  let fall ← Number.divideFloat (-blockSum (ds.filter fun d => d < 0)) (Float.ofNat period)
  if fall == 0 then return 100
  else return 100 - (← Number.divideFloat 100 (1 + (← Number.divideFloat rise fall)))

/-- The strength of the last `period` steps, if there are so many, with divisions that fail. -/
def checkedStrength? (period : Nat) (prices : List Float) : Except NumberFault (Option Float) :=
  match lastSteps? period prices with
  | none => .ok none
  | some ds => some <$> checkedStrength period ds

theorem divideFloat_ok {x y : Float} (h : (y == 0) = false) : Number.divideFloat x y = .ok (x / y) := by
  rw [Number.divideFloat, h]
  rfl

/-- No step is divided by zero, over any period but zero. -/
theorem checkedStrength_eq {period : Nat} (positive : 1 ≤ period) (ds : List Float) :
    checkedStrength period ds = .ok (
      let rise := blockSum (ds.filter fun d => d ≥ 0) / Float.ofNat period
      let fall := -blockSum (ds.filter fun d => d < 0) / Float.ofNat period
      if fall == 0 then 100 else 100 - 100 / (1 + rise / fall)) := by
  have hperiod : Beyond false 1 (Float.ofNat period) :=
    (Binary64.nearest_ofNat period).beyond Binary64.denotes_one.representable zero_le_one
      (by exact_mod_cast positive)
  have hrises : Beyond false 0 (blockSum (ds.filter fun d => d ≥ 0)) :=
    beyond_blockSum fun d hd => Binary64.beyond_of_nonneg (of_decide_eq_true (List.mem_filter.1 hd).2)
  have hfalls : Beyond false 0 (-blockSum (ds.filter fun d => d < 0)) :=
    (beyond_blockSum fun d hd => Binary64.beyond_of_neg (of_decide_eq_true (List.mem_filter.1 hd).2)).neg
  have hperiodWithin : Within false (Float.ofNat period) := Or.inl (hperiod.mono zero_le_one)
  have hrise := Within.div (Or.inl hrises) hperiodWithin hperiod.beq_zero
  have hfall := Within.div (Or.inl hfalls) hperiodWithin hperiod.beq_zero
  simp only [checkedStrength, divideFloat_ok hperiod.beq_zero, bind, Except.bind]
  -- The mean fall is divided by only where it is not zero.
  split
  · rfl
  · next hzero =>
      have hnonzero := Bool.eq_false_iff.2 hzero
      have hquotient := (Within.div hrise hfall hnonzero).one_add_beq_zero
      simp only [divideFloat_ok hnonzero, divideFloat_ok hquotient]
      rfl

theorem checkedStrength?_eq (period : Nat) (prices : List Float) :
    checkedStrength? period prices = .ok (strength? period prices) := by
  unfold checkedStrength? strength?
  cases hsteps : lastSteps? period prices with
  | none => rfl
  | some ds =>
      have positive : 1 ≤ period := by
        unfold lastSteps? at hsteps
        split at hsteps
        · cases hsteps
        · omega
      dsimp only
      rw [checkedStrength_eq positive]
      rfl

end Window

end RuleTrader
