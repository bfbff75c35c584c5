import RuleTrader.Indicator.Key

/-!
# The vocabulary of rules

The names of the facts that a rule may read, the operators of its conditions and the actions that it
may lead to.
-/

namespace RuleTrader

/-- What a rule decides to do. -/
inductive Action where
  | buy
  | sell
  | cancel
  deriving DecidableEq, Repr

namespace Action

def name : Action → String
  | .buy => "BUY"
  | .sell => "SELL"
  | .cancel => "CANCEL"

def all : List Action := [.buy, .sell, .cancel]

def ofName? (s : String) : Option Action :=
  all.find? (·.name == s)

end Action

/-- How a condition compares a fact with a value. A name outside the vocabulary is kept. -/
inductive Comparator where
  | lessThan
  | greaterThan
  | equal
  | other (name : String)
  deriving DecidableEq, Repr

namespace Comparator

def name : Comparator → String
  | .lessThan => "lessThan"
  | .greaterThan => "greaterThan"
  | .equal => "equal"
  | .other s => s

def all : List Comparator := [.lessThan, .greaterThan, .equal]

/-- The comparison of a name, if the vocabulary has it. -/
def ofName? (s : String) : Option Comparator :=
  all.find? (·.name == s)

def ofName (s : String) : Comparator :=
  (ofName? s).getD (.other s)

end Comparator

/-- Whether a condition asks for a fact inside a range or outside of it. A name outside the
vocabulary is kept. -/
inductive RangeTest where
  | between
  | notBetween
  | other (name : String)
  deriving DecidableEq, Repr

namespace RangeTest

def name : RangeTest → String
  | .between => "between"
  | .notBetween => "notBetween"
  | .other s => s

def all : List RangeTest := [.between, .notBetween]

/-- The range test of a name, if the vocabulary has it. -/
def ofName? (s : String) : Option RangeTest :=
  all.find? (·.name == s)

def ofName (s : String) : RangeTest :=
  (ofName? s).getD (.other s)

end RangeTest

namespace Fact

/-- The operator, and the fact, of a condition that holds by chance. -/
def chance : String := "randomChance"

/-- The facts that are not indicators. -/
def plainNames : List String :=
  ["currentPrice", "previousPrice", "lastMinuteAverage", "isPriceUp", "isPriceDown",
    "hasPosition", "openOrders", "volatility", "availableBalance", "sharesOwned", "botId",
    "stockId", "priceChangePercent", "timestamp", "orderPrice", "orderAge", "orderDeviation",
    "volume", chance]

/-- Whether a rule may read a fact of this name. -/
def isAllowed (name : String) : Except NumberFault Bool :=
  if name ∈ plainNames then .ok true else IndicatorKey.isFact name

/-- The names of indicators among some names, refused by the first that asks for too long a period. -/
def indicatorsAmong : List String → Except NumberFault (List String)
  | [] => .ok []
  | name :: names => do
    if ← IndicatorKey.isFact name then return name :: (← indicatorsAmong names)
    else indicatorsAmong names

end Fact

end RuleTrader
