import RuleTrader.Indicator.Window
import RuleTrader.Proofs.Market.Tracker

/-!
# What an indicator looks at

An indicator looks at the last prices of a history, as many as its window takes, and at nothing before
them. Over a history that holds the window its value is what its formula says of the window
(`IndicatorSpec.overWindow`), and so it is the same over every end of the history that holds the window. Over
a history that is shorter it has no value, and its neutral value stands for it.
-/

namespace RuleTrader

open PriceTracker (lastOf)

/-- The number of prices that an indicator looks at. -/
def IndicatorSpec.window (spec : IndicatorSpec) : Nat := spec.period + spec.kind.extraPrices

namespace Window

variable {n : Nat} {prices : List Float}

theorem last?_eq (n : Nat) (prices : List Float) :
    last? n prices = if 1 ≤ n ∧ n ≤ prices.length then some (lastOf n prices) else none := by
  unfold last?
  by_cases h : n = 0 ∨ prices.length < n
  · rw [if_pos h, if_neg (by omega)]
  · rw [if_neg h, if_pos (by omega)]
    rfl

/-- The steps of a period take one price more than the period. -/
theorem lastSteps?_eq (n : Nat) (prices : List Float) :
    lastSteps? n prices =
      if 1 ≤ n ∧ n + 1 ≤ prices.length then some (steps (lastOf (n + 1) prices)) else none := by
  unfold lastSteps?
  by_cases hzero : n = 0
  · rw [if_pos hzero, if_neg (by omega)]
  · rw [if_neg hzero, last?_eq]
    by_cases hlong : n + 1 ≤ prices.length
    · rw [if_pos (by omega), if_pos (by omega)]
      rfl
    · rw [if_neg (by omega), if_neg (by omega)]
      rfl

theorem length_steps (prices : List Float) : (steps prices).length = prices.length - 1 := by
  rw [steps, List.length_zipWith, List.length_tail]
  omega

theorem mean_eq (h : prices.length = n) : mean prices = blockSum prices / Float.ofNat n := by
  rw [mean, h]

theorem deviation_eq (h : prices.length = n) :
    deviation prices = (
      let centre := blockSum prices / Float.ofNat n
      (blockSum (prices.map fun price => (price - centre) * (price - centre)) / Float.ofNat n).sqrt) := by
  rw [deviation, mean_eq h, mean_eq ((List.length_map _).trans h)]

end Window

namespace IndicatorSpec

/-- What an indicator is over the prices of its window: the formula of each, with the period as the number of
prices or steps. -/
def overWindow (spec : IndicatorSpec) (window : List Float) : Float :=
  let count := Float.ofNat spec.period
  let centre := blockSum window / count
  let spread := (blockSum (window.map fun price => (price - centre) * (price - centre)) / count).sqrt
  let steps := List.zipWith (fun before after => after - before) window window.tail
  let range := blockSum (steps.map Float.abs) / count
  let rise := blockSum (steps.filter fun d => d ≥ 0) / count
  let fall := -blockSum (steps.filter fun d => d < 0) / count
  match spec.kind with
  | .movingAverage => centre
  | .relativeStrength => if fall == 0 then 100 else 100 - 100 / (1 + rise / fall)
  | .upperBand => centre + spec.multiplier * spread
  | .lowerBand => centre - spec.multiplier * spread
  | .trueRange => range
  | .superTrend => window.getLastD 0 - spec.multiplier * range

variable {spec : IndicatorSpec} {prices : List Float}

/-- Over a history that holds the window, the value is what the formula says of the window. -/
theorem value?_of_fits (positive : 1 ≤ spec.period) (fits : spec.window ≤ prices.length) :
    spec.value? prices = some (spec.overWindow (lastOf spec.window prices)) := by
  rcases spec with ⟨kind, period, multiplier⟩
  have hlength := PriceTracker.length_lastOf (window ⟨kind, period, multiplier⟩) prices
  rw [Nat.min_eq_left fits] at hlength
  cases kind with
  | movingAverage | upperBand | lowerBand =>
      -- These look at as many prices as the period counts.
      have hwindow : Window.last? period prices = some (lastOf period prices) := by
        rw [Window.last?_eq]
        exact if_pos ⟨positive, fits⟩
      have hmean := Window.mean_eq hlength
      have hdeviation := Window.deviation_eq hlength
      simp only [window, Indicator.extraPrices, Nat.add_zero] at hmean hdeviation
      simp only [value?, Window.average?, Window.deviation?, Window.upperBand?, Window.lowerBand?, hwindow,
        Option.map_some, hmean, hdeviation]
      rfl
  | relativeStrength | trueRange | superTrend =>
      -- These look at as many steps, which takes one price more.
      have hsteps : Window.lastSteps? period prices = some (Window.steps (lastOf (period + 1) prices)) := by
        rw [Window.lastSteps?_eq]
        exact if_pos ⟨positive, fits⟩
      have hcount : ((Window.steps (lastOf (period + 1) prices)).map Float.abs).length = period := by
        rw [List.length_map, Window.length_steps]
        exact congrArg (· - 1) hlength
      have hlast : prices.getLast? = some ((lastOf (period + 1) prices).getLastD 0) := by
        rw [List.getLastD_eq_getLast?, PriceTracker.getLast?_lastOf (Nat.le_add_left 1 period)]
        cases hprices : prices.getLast? with
        | none =>
            rw [List.getLast?_eq_none_iff.1 hprices] at fits
            cases fits
        | some price => rfl
      simp only [value?, Window.strength?, Window.superTrend?, Window.range?, hsteps, hlast, Option.map_some,
        Window.mean_eq hcount]
      rfl

theorem value?_eq_none (h : ¬(1 ≤ spec.period ∧ spec.window ≤ prices.length)) :
    spec.value? prices = none := by
  rcases spec with ⟨kind, period, multiplier⟩
  cases kind with
  | movingAverage | upperBand | lowerBand =>
      have hwindow : Window.last? period prices = none := by
        rw [Window.last?_eq]
        exact if_neg h
      simp only [value?, Window.average?, Window.upperBand?, Window.lowerBand?, hwindow, Option.map_none,
        Option.bind_eq_bind, Option.bind_none]
  | relativeStrength | trueRange =>
      have hsteps : Window.lastSteps? period prices = none := by
        rw [Window.lastSteps?_eq]
        exact if_neg h
      simp only [value?, Window.strength?, Window.range?, hsteps, Option.map_none]
  | superTrend =>
      have hsteps : Window.lastSteps? period prices = none := by
        rw [Window.lastSteps?_eq]
        exact if_neg h
      simp only [value?, Window.superTrend?, Window.range?, hsteps, Option.map_none]
      cases prices.getLast? <;> rfl

/-- An indicator has a value where its period is not zero and the history holds its window. -/
theorem isSome_value?_iff (spec : IndicatorSpec) (prices : List Float) :
    (spec.value? prices).isSome = true ↔ 1 ≤ spec.period ∧ spec.window ≤ prices.length := by
  by_cases h : 1 ≤ spec.period ∧ spec.window ≤ prices.length
  · rw [value?_of_fits h.1 h.2]
    exact iff_of_true rfl h
  · rw [value?_eq_none h]
    exact iff_of_false Bool.false_ne_true h

/-- A value is what the formula says of the window. -/
theorem eq_overWindow {x : Float} (h : spec.value? prices = some x) :
    x = spec.overWindow (lastOf spec.window prices) := by
  have hfits := (spec.isSome_value?_iff prices).1 (Option.isSome_iff_exists.2 ⟨x, h⟩)
  rw [value?_of_fits hfits.1 hfits.2] at h
  exact (Option.some.inj h).symm

/-- The end of a history that holds the window gives the value of the whole history. -/
theorem value?_lastOf {capacity : Nat} (fits : spec.window ≤ capacity) (prices : List Float) :
    spec.value? (lastOf capacity prices) = spec.value? prices := by
  have hlength := PriceTracker.length_lastOf capacity prices
  by_cases h : 1 ≤ spec.period ∧ spec.window ≤ prices.length
  · rw [value?_of_fits h.1 h.2, value?_of_fits h.1 (by omega), PriceTracker.lastOf_lastOf fits]
  · rw [value?_eq_none h, value?_eq_none (by omega)]

theorem resolve_lastOf {capacity : Nat} (fits : spec.window ≤ capacity) (prices : List Float)
    (currentPrice : Float) :
    spec.resolve (lastOf capacity prices) currentPrice = spec.resolve prices currentPrice := by
  rw [resolve, resolve, value?_lastOf fits]

theorem resolve_of_short (h : prices.length < spec.window) (currentPrice : Float) :
    spec.resolve prices currentPrice = spec.kind.neutral currentPrice := by
  rw [resolve, value?_eq_none (by omega)]

/-- What stands for an indicator is finite where the current price is. -/
theorem isFinite_resolve {currentPrice : Float} (finite : Binary64.isFinite currentPrice = true)
    (prices : List Float) : Binary64.isFinite (spec.resolve prices currentPrice) = true := by
  have hconstants : Binary64.isFinite 50 = true ∧ Binary64.isFinite 0 = true := by decide +kernel
  have hneutral : Binary64.isFinite (spec.kind.neutral currentPrice) = true := by
    cases spec.kind with
    | relativeStrength => exact hconstants.1
    | trueRange => exact hconstants.2
    | movingAverage | upperBand | lowerBand | superTrend => exact finite
  unfold resolve
  split
  · next x _ =>
      by_cases hx : Binary64.isFinite x = true
      · rwa [if_pos hx]
      · rwa [if_neg hx]
  · exact hneutral

end IndicatorSpec

end RuleTrader
