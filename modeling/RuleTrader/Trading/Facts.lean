import RuleTrader.Indicator.Facts
import RuleTrader.Market.Tracker
import RuleTrader.Random.Source
import RuleTrader.Rule.Evaluation

/-!
# The facts of a pair

A pair is one bot on one instrument in one tick. Its facts are the price and its trend, the bot's
money and shares, one random draw, and the indicators that its rules read. The facts about a single
order replace the neutral ones while that order is looked at.
-/

namespace RuleTrader

/-- A price with its trend. -/
structure PriceContext (α : Type) where
  current : α
  previous? : Option α := none
  trend : Trend := ⟨false, false⟩
  /-- The average price of the last minute, when it is known. -/
  average? : Option Value := none
  history : List α := []
  deriving Repr

/-- One bot on one instrument in one tick. -/
structure Pair (α : Type) where
  bot : Bot α
  instrument : Instrument α
  price : PriceContext α
  /-- The bot's open orders in the instrument. -/
  orders : List (Order α) := []
  shares : α
  rules : List Rule
  now : Micros
  /-- The time from one tick to the next, in milliseconds. -/
  tickInterval : Value
  aggregate? : Option (Aggregate α) := none
  deriving Repr

namespace PairFacts

variable {α : Type} [Amount α]

/-- The price that moves are measured by: the one before, unless it counts as none. -/
def base? (p : PriceContext α) : Option α :=
  p.previous?.filter fun previous => !Amount.isZero previous

/-- How far a price moved from a base, as a part of the base. -/
def volatilityFrom (base current : α) : Except NumberFault Float := do
  Number.divide (← Amount.difference current base).abs (← Amount.toNumber base)

/-- How far the price moved, as a part of the price before. -/
def volatility (p : PriceContext α) : Except NumberFault Float :=
  match base? p with
  | none => .ok 0
  | some base => volatilityFrom base p.current

/-- How far a price moved from a base, in percent of the base. -/
def percentFrom (base current : α) : Except NumberFault Float := do
  return (← Number.divide (← Amount.difference current base) (← Amount.toNumber base)) * 100

/-- How far the price moved, in percent of the price before. -/
def changePercent (p : PriceContext α) : Except NumberFault Float :=
  match base? p with
  | none => .ok 0
  | some base => percentFrom base p.current

/-- The average price of the last minute: the known one, the aggregate's, or the current price. -/
def lastMinuteAverage (p : PriceContext α) (aggregate? : Option (Aggregate α)) : Value :=
  match p.average?, aggregate? with
  | some average, _ => average
  | none, some aggregate => aggregate.averagePrice
  | none, none => Amount.toValue p.current

def seconds (t : Micros) : Except NumberFault Float :=
  Number.quotient t 1000000

def timestamp (now : Micros) : Except NumberFault Int := do
  Number.truncate (.float ((← seconds now) * 1000))

/-- Whether shares are held. -/
def hasPosition (shares : α) : Except NumberFault Bool := Amount.gt shares (Amount.ofInt 0)

/-- The facts but for the random draw and the indicators. -/
def plain (pair : Pair α) (balance : α) : Except NumberFault (List (String × Value)) := do
  let volatility ← volatility pair.price
  let change ← changePercent pair.price
  let hasPosition ← hasPosition pair.shares
  let timestamp ← timestamp pair.now
  return [
    ("currentPrice", Amount.toValue pair.price.current),
    ("isPriceUp", .bool pair.price.trend.isUp),
    ("isPriceDown", .bool pair.price.trend.isDown),
    ("lastMinuteAverage", lastMinuteAverage pair.price pair.aggregate?),
    ("hasPosition", .bool hasPosition),
    ("openOrders", .int pair.orders.length),
    ("volatility", .float volatility),
    ("priceChangePercent", .float change),
    ("availableBalance", Amount.toValue balance),
    ("sharesOwned", Amount.toValue pair.shares),
    ("botId", .text pair.bot.id),
    ("stockId", .text pair.instrument.id),
    ("timestamp", .int timestamp)]

/-- The facts about an order while no order is looked at. -/
def noOrder : List (String × Value) :=
  [("orderPrice", .int 0), ("orderAge", .int 0), ("orderDeviation", .float 0)]

/-- The facts that are there only when their source is. -/
def optional (pair : Pair α) : List (String × Value) :=
  (match pair.price.previous? with
    | some previous => [("previousPrice", Amount.toValue previous)]
    | none => [])
  ++ (match pair.aggregate? with
    | some aggregate => [("volume", Amount.toValue aggregate.volume)]
    | none => [])

/-- The indicator facts that the rules of a pair read. -/
def indicators (pair : Pair α) : Except NumberFault (List (String × Value)) := do
  match ← Rule.indicatorKeys pair.rules with
  | [] => return []
  | keys =>
    let found ← IndicatorFacts.compute (pair.price.history.map Amount.toValue) keys
    return found.map fun (key, x) => (key, .float x)

/-- The facts of a pair whose bot has `balance` to spend. One number is drawn, after the plain facts
and before the indicators. -/
def build (pair : Pair α) (balance : α) (random : RandomSource) :
    Except NumberFault Facts × RandomSource :=
  match plain pair balance with
  | .error fault => (.error fault, random)
  | .ok known =>
    let (draw, random) := random.unit
    match indicators pair with
    | .error fault => (.error fault, random)
    | .ok found =>
      (.ok (Table.putAll [] (known ++ (Fact.chance, .float (draw * 100)) :: noOrder
        ++ optional pair ++ found)), random)

/-! ## One order -/

/-- How long an order has rested, in whole ticks. -/
def orderAge (createdAt now : Micros) (tickInterval : Value) : Except NumberFault Int := do
  let elapsed := (← seconds (now - createdAt)) * 1000
  return max 0 (← Number.floorFloat (← Number.divide (.float elapsed) (← tickInterval.toNumber)))

/-- How far the price of an order is from the current one, in percent of the current one. -/
def orderDeviation (limitPrice currentPrice : α) : Except NumberFault Float :=
  if Amount.isZero currentPrice then .ok 0
  else (· * 100) <$> volatilityFrom currentPrice limitPrice

def ofOrder (o : Order α) (currentPrice : α) (now : Micros) (tickInterval : Value) :
    Except NumberFault (List (String × Value)) := do
  let age ← orderAge o.createdAt now tickInterval
  let deviation ← orderDeviation o.limitPrice currentPrice
  return [("orderPrice", Amount.toValue o.limitPrice), ("orderAge", .int age),
    ("orderDeviation", .float deviation)]

/-- The facts with the money that a bot has now. -/
def withBalance (facts : Facts) (balance : α) : Facts :=
  facts.put "availableBalance" (Amount.toValue balance)

end PairFacts

end RuleTrader
