import RuleTrader.Indicator.Window

/-!
# Indicator facts

The facts that a list of keys asks for over one price history: for each key that names an indicator,
once, its value. Keys that name none are passed over.
-/

namespace RuleTrader.IndicatorFacts

/-- The price of an entry of a history; an entry that is missing is the undefined number. -/
def readPrice : Value → Except NumberFault Float
  | .null => .ok (0 / 0)
  | v => v.toFloat

def readHistory (history : List Value) : Except NumberFault (List Float) :=
  history.mapM readPrice

/-- The entries without those that came before. -/
def distinct (keys : List String) : List String :=
  keys.foldl (fun seen key => if key ∈ seen then seen else seen ++ [key]) []

/-- The fact of one key, if it names an indicator. -/
def fact? (prices : List Float) (currentPrice : Float) (key : String) :
    Except NumberFault (Option (String × Float)) := do
  match ← IndicatorKey.resolve key with
  | some spec => return some (key, spec.resolve prices currentPrice)
  | none => return none

/-- The facts of the keys, in their order. -/
def compute (history : List Value) (keys : List String) :
    Except NumberFault (List (String × Float)) := do
  let prices ← readHistory history
  let currentPrice := prices.getLast?.getD 0
  let found ← (distinct keys).mapM (fact? prices currentPrice)
  return found.filterMap id

end RuleTrader.IndicatorFacts
