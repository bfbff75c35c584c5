import RuleTrader.Indicator.Key
import RuleTrader.Value

/-!
# Indicators over a window of prices

Each indicator looks at the last prices of a history, oldest first. It has no value while the history
is shorter than its window: `period` prices for the average and the bands, one more for the
indicators that look at the steps between prices. Sums are taken in blocks, so that their rounding
does not depend on the length alone but is fixed for each length.
-/

namespace RuleTrader

/-! ## Sums -/

namespace BlockSum

/-- Below this length a sum runs from left to right. -/
def lanes : Nat := 8

/-- Above this length a sum is split in two. -/
def blockLimit : Nat := 128

/-- The sum from left to right. -/
def plain : List Float → Float
  | [] => 0
  | x :: xs => xs.foldl (· + ·) x

/-- Add each full block of eight numbers to the eight running sums. -/
def addBlocks (sums : List Float) : List Float → List Float × List Float
  | a :: b :: c :: d :: e :: f :: g :: h :: rest =>
    addBlocks (List.zipWith (· + ·) sums [a, b, c, d, e, f, g, h]) rest
  | rest => (sums, rest)

/-- The sum of the eight running sums, neighbours first. -/
def combine : List Float → Float
  | [a, b, c, d, e, f, g, h] => ((a + b) + (c + d)) + ((e + f) + (g + h))
  | sums => plain sums

/-- The sum of one block of at least eight numbers. -/
def block (xs : List Float) : Float :=
  let (sums, rest) := addBlocks (xs.take lanes) (xs.drop lanes)
  rest.foldl (· + ·) (combine sums)

/-- The sum of any numbers; `fuel` bounds how often it is split. -/
def split : Nat → List Float → Float
  | 0, xs => block xs
  | fuel + 1, xs =>
    if xs.length < lanes then plain xs
    else if xs.length ≤ blockLimit then block xs
    else
      let half := xs.length / 2
      let cut := half - half % lanes
      split fuel (xs.take cut) + split fuel (xs.drop cut)

end BlockSum

/-- The sum of a list of numbers, added to zero, so that no sum is a negative zero. -/
def blockSum (xs : List Float) : Float :=
  0 + BlockSum.split xs.length xs

namespace Window

/-- The last `n` entries, if there are so many and `n` is not zero. -/
def last? (n : Nat) (prices : List Float) : Option (List Float) :=
  if n = 0 ∨ prices.length < n then none else some (prices.drop (prices.length - n))

def mean (xs : List Float) : Float :=
  blockSum xs / Float.ofNat xs.length

/-- The root of the mean squared distance from the mean. -/
def deviation (xs : List Float) : Float :=
  let centre := mean xs
  (mean (xs.map fun x => (x - centre) * (x - centre))).sqrt

def steps (prices : List Float) : List Float :=
  List.zipWith (fun before after => after - before) prices prices.tail

/-- The last `period` steps, if there are so many and `period` is not zero. -/
def lastSteps? (period : Nat) (prices : List Float) : Option (List Float) :=
  if period = 0 then none else (last? (period + 1) prices).map steps

/-- The mean of the last `period` prices. -/
def average? (period : Nat) (prices : List Float) : Option Float :=
  (last? period prices).map mean

def deviation? (period : Nat) (prices : List Float) : Option Float :=
  (last? period prices).map deviation

/-- The strength of rises against falls over the last `period` steps, from `0` to `100`. -/
def strength? (period : Nat) (prices : List Float) : Option Float :=
  (lastSteps? period prices).map fun ds =>
    let rise := blockSum (ds.filter fun d => d ≥ 0) / Float.ofNat period
    let fall := -blockSum (ds.filter fun d => d < 0) / Float.ofNat period
    if fall == 0 then 100 else 100 - 100 / (1 + rise / fall)

/-- The mean size of the last `period` steps. -/
def range? (period : Nat) (prices : List Float) : Option Float :=
  (lastSteps? period prices).map fun ds => mean (ds.map Float.abs)

/-- The mean of the last `period` prices moved up by a multiple of their deviation. -/
def upperBand? (period : Nat) (multiplier : Float) (prices : List Float) : Option Float := do
  return (← average? period prices) + multiplier * (← deviation? period prices)

/-- The mean of the last `period` prices moved down by a multiple of their deviation. -/
def lowerBand? (period : Nat) (multiplier : Float) (prices : List Float) : Option Float := do
  return (← average? period prices) - multiplier * (← deviation? period prices)

/-- The last price moved down by a multiple of the mean size of the last `period` steps. -/
def superTrend? (period : Nat) (multiplier : Float) (prices : List Float) : Option Float := do
  return (← prices.getLast?) - multiplier * (← range? period prices)

end Window

namespace IndicatorSpec

/-- The value of an indicator over a history, if the history is long enough. -/
def value? (spec : IndicatorSpec) (prices : List Float) : Option Float :=
  match spec.kind with
  | .movingAverage => Window.average? spec.period prices
  | .relativeStrength => Window.strength? spec.period prices
  | .upperBand => Window.upperBand? spec.period spec.multiplier prices
  | .lowerBand => Window.lowerBand? spec.period spec.multiplier prices
  | .trueRange => Window.range? spec.period prices
  | .superTrend => Window.superTrend? spec.period spec.multiplier prices

end IndicatorSpec

/-- The value that stands for an indicator without one: the middle of the strength, no range, and
the current price for all else. -/
def Indicator.neutral (kind : Indicator) (currentPrice : Float) : Float :=
  match kind with
  | .relativeStrength => 50
  | .trueRange => 0
  | .movingAverage | .upperBand | .lowerBand | .superTrend => currentPrice

namespace IndicatorSpec

/-- The value of an indicator, its neutral value where it has none or none that is finite. -/
def resolve (spec : IndicatorSpec) (prices : List Float) (currentPrice : Float) : Float :=
  match spec.value? prices with
  | some x => if Binary64.isFinite x then x else spec.kind.neutral currentPrice
  | none => spec.kind.neutral currentPrice

end IndicatorSpec

/-! ## Unchecked parameters -/

/-- The prices that the window of an indicator takes besides one for each step of its period. -/
def Indicator.extraPrices : Indicator → Nat
  | .movingAverage | .upperBand | .lowerBand => 0
  | .relativeStrength | .trueRange | .superTrend => 1

namespace Window

/-- The period that a value gives for a history of `count` prices, where a window takes `extra` prices
more. Zero stands for no window; where the window of a period that is not whole would fit, the period is
refused. -/
def periodOf (v : Value) (extra count : Nat) : Except NumberFault Nat := do
  match ← v.toNumber with
  | .int n => return n.toNat
  | .float x =>
    if (Number.float x).le 0 || (Number.int (count - extra)).lt (.float x) then return 0
    else throw .notANumber

/-- The deviation over a period that a value gives. -/
def deviationOf (period : Value) (prices : List Float) : Except NumberFault (Option Float) := do
  return deviation? (← periodOf period 0 prices.length) prices

/-- A value that takes a multiplier. The multiplier is looked at only if there is a value. -/
def scaled (multiplier : Value) (f : Float → Option Float) : Except NumberFault (Option Float) :=
  match f 0 with
  | none => .ok none
  | some _ => do return f (← (← multiplier.toNumber).toFloat)

/-- The value of an indicator over a period, and with a multiplier, that values give. -/
def valueOf (kind : Indicator) (period multiplier : Value) (prices : List Float) :
    Except NumberFault (Option Float) :=
  if kind = .superTrend ∧ prices.isEmpty then .ok none
  else do
    let n ← periodOf period kind.extraPrices prices.length
    if kind.hasMultiplier then
      scaled multiplier fun m => IndicatorSpec.value? ⟨kind, n, m⟩ prices
    else return IndicatorSpec.value? ⟨kind, n, 0⟩ prices

/-- The value of the indicator of a name; a name of none has no value. -/
def named (name : String) (period multiplier : Value) (prices : List Float) :
    Except NumberFault (Option Float) :=
  match Indicator.ofName? name with
  | some kind => valueOf kind period multiplier prices
  | none => .ok none

/-- The neutral value for a name; for a name of no indicator it is the current price. -/
def neutralNamed (name : String) (currentPrice : Float) : Float :=
  match Indicator.ofName? name with
  | some kind => kind.neutral currentPrice
  | none => currentPrice

end Window

end RuleTrader
