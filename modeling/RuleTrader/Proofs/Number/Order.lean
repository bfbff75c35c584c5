import RuleTrader.Number.Basic

/-!
# The order of numbers

Two floats are compared by their signs, then by their exponents and mantissas, and the comparison the other
way round gives the opposite answer (`compare_swap`). So of two numbers of either kind at most one is less
than the other (`Number.lt_asymm`).
-/

namespace RuleTrader

namespace Binary64

open Float.Model UnpackedFloat

/-- The other way round the comparison of two floats gives the opposite answer, or none as well. -/
theorem compare_swap (u v : UnpackedFloat) : v.compare u = (u.compare v).map Ordering.swap := by
  have hsign (s s' : Sign) : compare s' s = (compare s s').swap := by cases s <;> cases s' <;> rfl
  have hparts (m m' : Nat) (e e' : Int) :
      (compare e' e).then (compare m' m) = ((compare e e').then (compare m m')).swap := by
    rw [Ordering.swap_then, Int.compare_swap, Nat.compare_swap]
  cases u with
  | notANumber => cases v <;> rfl
  | infinity s =>
      cases v with
      | infinity s' => exact congrArg some (hsign s s')
      | notANumber | zero _ | finite _ _ _ _ => cases s <;> rfl
  | zero s =>
      cases v with
      | notANumber | zero _ => rfl
      | infinity s' | finite s' _ _ _ => cases s' <;> rfl
  | finite s m e _ =>
      cases v with
      | notANumber => rfl
      | zero _ => cases s <;> rfl
      | infinity s' => cases s' <;> rfl
      | finite s' m' e' _ =>
          -- Only two numbers of one sign are compared by their parts.
          cases s <;> cases s'
          · exact congrArg (some ∘ Ordering.swap) (hparts m m' e e')
          · rfl
          · rfl
          · exact congrArg some (hparts m m' e e')

theorem lt_iff_compare {x y : Float} : x < y ↔ x.toModel.unpack.compare y.toModel.unpack = some .lt := by
  show decide (x.toModel < y.toModel) = true ↔ _
  rw [decide_eq_true_iff]
  show (_ == _) = true ↔ _
  rw [beq_iff_eq]

theorem lt_asymm {x y : Float} (h : x < y) : ¬y < x := by
  rw [lt_iff_compare] at h ⊢
  rw [compare_swap, h]
  exact fun hswap => Ordering.noConfusion (Option.some.inj hswap)

end Binary64

/-- Of two numbers at most one is less than the other. -/
theorem Number.lt_asymm {x y : Number} (h : x.lt y = true) : y.lt x = false := by
  have hopposite {o? : Option Ordering} {a b : Ordering} (hne : a ≠ b) (h : (o? == some a) = true) :
      (o? == some b) = false := by
    rw [beq_iff_eq] at h
    simpa [h] using hne
  cases x with
  | int a =>
      cases y with
      | int b =>
          have hlt : a < b := of_decide_eq_true h
          exact decide_eq_false (Int.not_lt.2 (Int.le_of_lt hlt))
      | float b => exact hopposite (by decide) h
  | float a =>
      cases y with
      | int b => exact hopposite (by decide) h
      | float b => exact decide_eq_false (Binary64.lt_asymm (of_decide_eq_true h))

end RuleTrader
