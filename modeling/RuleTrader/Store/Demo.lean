import RuleTrader.Store.Durable

/-!
# A store to try out

One instrument, one bot that follows its trend, and the strategy of the bot.
-/

namespace RuleTrader.Demo

def instrumentId : String := "demo-stock"

def strategyId : String := "demo-momentum"

def botId : String := "demo-bot"

/-- The owner of the bot where no other is asked for. -/
def usualOwner : String := "demo-owner"

def startPrice : Int := 10000

def comparison (fact operator : String) (value : Value) : Value :=
  .record [("fact", .text fact), ("operator", .text operator), ("value", value)]

def rule (priority : Int) (comparisons : List Value) (event : List (String × Value)) : Value :=
  .record [("priority", .int priority), ("conditions", .record [("all", .list comparisons)]),
    ("event", .record event)]

/-- Cancel an order that is older than five ticks, buy with a tenth of the money when the price rises,
and sell half of the shares when it falls. -/
def rules : Value := .list [
  rule 1 [comparison "orderAge" "greaterThan" (.int 5)] [("type", .text "CANCEL")],
  rule 2
    [comparison "isPriceUp" "equal" (.bool true), comparison "rsi" "lessThan" (.int 70)]
    [("type", .text "BUY"),
      ("params", .record [("sizePct", .int 10), ("limitPriceType", .text "market")])],
  rule 3
    [comparison "isPriceDown" "equal" (.bool true), comparison "hasPosition" "equal" (.bool true)]
    [("type", .text "SELL"),
      ("params", .record [("sizePct", .int 50), ("limitPriceType", .text "offsetPct"),
        ("limitPriceValue", .int (-1))])]]

def bot (ownerId? : Option String) : Bot Value where
  id := botId
  balance := .int 1000000
  strategyId? := some strategyId
  ownerId? := ownerId?
  preset? := some Preset.momentum.name

/-- The changes that put everything in, in turn. -/
def changes (ownerId? : Option String) :
    List (DurableStore → Except ChangeFault Unit × DurableStore) := [
  (·.putInstrument instrumentId "DEMO" (.int startPrice)),
  (·.putStrategy strategyId rules),
  (·.putTrader (bot ownerId?)),
  (·.setPosition botId instrumentId (.int 100))]

/-- Run changes up to the first that is refused. -/
def runChanges (s : DurableStore) :
    List (DurableStore → Except ChangeFault Unit × DurableStore) →
      Except ChangeFault Unit × DurableStore
  | [] => (.ok (), s)
  | f :: fs =>
    match f s with
    | (.ok (), s) => runChanges s fs
    | (.error fault, s) => (.error fault, s)

/-- Put everything in. -/
def seed (s : DurableStore) (ownerId? : Option String) : Except ChangeFault Unit × DurableStore :=
  runChanges s (changes ownerId?)

end RuleTrader.Demo
