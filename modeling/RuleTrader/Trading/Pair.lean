import RuleTrader.Notice
import RuleTrader.Trading.Facts
import RuleTrader.Trading.Terms

/-!
# Processing a pair

A pair is processed in two passes. First every open order of the pair is put to the rules, and is
cancelled if they say so; the money of a cancelled buy order is the bot's again at once. Then, if no
order survived, the rules decide on a new order, whose money is taken at once. All pairs of a tick
share the money, the batch and the random source; a pair that fails keeps what it had done so far.
-/

namespace RuleTrader

/-- What a tick is going to send: orders to cancel, each once, and orders to insert. -/
structure Batch (α : Type) where
  cancelIds : List String := []
  newOrders : List (NewOrder α) := []
  deriving Repr, DecidableEq

/-- What the pairs of a tick share. -/
structure TradeState (α : Type) where
  balances : Table String α := []
  batch : Batch α := {}
  random : RandomSource
  notices : List Notice := []
  deriving Repr

namespace TradeState

variable {α : Type}

def report (s : TradeState α) (n : Notice) : TradeState α :=
  { s with notices := s.notices ++ [n] }

def setBalance (s : TradeState α) (botId : String) (amount : α) : TradeState α :=
  { s with balances := s.balances.put botId amount }

def markCancel (s : TradeState α) (orderId : String) : TradeState α :=
  { s with batch := { s.batch with cancelIds := s.batch.cancelIds ++ [orderId] } }

def addOrder (s : TradeState α) (o : NewOrder α) : TradeState α :=
  { s with batch := { s.batch with newOrders := s.batch.newOrders ++ [o] } }

variable [Amount α]

/-- The money that a bot has now. -/
def balance (s : TradeState α) (botId : String) : α :=
  (s.balances.get? botId).getD (Amount.ofInt 0)

/-- The money that a bot has once an order of it is cancelled. -/
def refunded (s : TradeState α) (o : Order α) : Except NumberFault α := do
  Amount.add (s.balance o.botId) (Amount.ofInt (← o.notional))

end TradeState

/-- A result, or the fault that stopped the work, and the state that is left either way. -/
abbrev Attempt (α β : Type) := Except NumberFault β × TradeState α

namespace TradeState

variable {α : Type} [Amount α]

/-- Cancel an order, unless it is marked already; a buy order gives its money back. -/
def cancel (s : TradeState α) (o : Order α) : Attempt α Unit :=
  if o.id ∈ s.batch.cancelIds then (.ok (), s)
  else
    let marked := s.markCancel o.id
    match o.side with
    | .sell => (.ok (), marked)
    | .buy =>
      match s.refunded o with
      | .ok amount => (.ok (), marked.setBalance o.botId amount)
      | .error fault => (.error fault, marked)

/-- Cancel orders from the first to the last, up to the first that fails. -/
def cancelAll : List (Order α) → TradeState α → Attempt α Unit
  | [], s => (.ok (), s)
  | o :: os, s =>
    match s.cancel o with
    | (.error fault, s) => (.error fault, s)
    | (.ok (), s) => cancelAll os s

end TradeState

namespace Pair

variable {α : Type} [Amount α]

/-! ## Cancelling -/

def orderDecision? (pair : Pair α) (facts : Facts) (s : TradeState α) (o : Order α) :
    Except NumberFault (Option Decision) := do
  let own ← PairFacts.ofOrder o pair.price.current pair.now pair.tickInterval
  Rule.decide? (PairFacts.withBalance (facts.putAll own) (s.balance pair.bot.id)) pair.rules

def isCancel (d? : Option Decision) : Bool :=
  match d? with
  | some d => d.action == .cancel
  | none => false

/-- Put an order to the rules, and tell whether it survives. -/
def cancelIfTold (pair : Pair α) (facts : Facts) (o : Order α) (s : TradeState α) :
    Attempt α Bool :=
  match pair.orderDecision? facts s o with
  | .error fault => (.error fault, s)
  | .ok d? =>
    if isCancel d? then
      let (result, s) := s.cancel o
      ((fun _ => false) <$> result, s)
    else (.ok true, s)

/-- Put each order to the rules; the result is the orders that survive. -/
def cancelOrders (pair : Pair α) (facts : Facts) :
    List (Order α) → TradeState α → Attempt α (List (Order α))
  | [], s => (.ok [], s)
  | o :: os, s =>
    match pair.cancelIfTold facts o s with
    | (.error fault, s) => (.error fault, s)
    | (.ok survives, s) =>
      let (rest, s) := pair.cancelOrders facts os s
      ((fun survivors => if survives then o :: survivors else survivors) <$> rest, s)

/-! ## Creating -/

def newOrder (pair : Pair α) (side : Side) (limitPrice : α) (quantity : Int) : NewOrder α where
  instrumentId := pair.instrument.id
  botId := pair.bot.id
  side := side
  limitPrice := limitPrice
  quantity := quantity

/-- Place a buy order if the bot can pay for it. -/
def placeBuy (pair : Pair α) (o : NewOrder α) (s : TradeState α) :
    Except NumberFault (Option (NewOrder α) × TradeState α) := do
  let available := s.balance pair.bot.id
  let cost ← o.cost
  if ← Amount.lt available cost then
    return (none, s.report (.buySkipped pair.bot.id pair.instrument.id (Amount.toValue cost)
      (Amount.toValue available)))
  else return (some o, (s.setBalance pair.bot.id (← Amount.sub available cost)).addOrder o)

/-- Place a sell order if the bot holds the shares. -/
def placeSell (pair : Pair α) (o : NewOrder α) (s : TradeState α) :
    Except NumberFault (Option (NewOrder α) × TradeState α) := do
  if ← Amount.lt pair.shares (Amount.ofInt o.quantity) then
    return (none, s.report (.sellSkipped pair.bot.id pair.instrument.id o.quantity
      (Amount.toValue pair.shares)))
  else return (some o, s.addOrder o)

/-- Place an order if the bot can pay for it, or holds the shares. Its price is raised to one. -/
def place (pair : Pair α) (side : Side) (limitPrice : α) (quantity : Int) (s : TradeState α) :
    Except NumberFault (Option (NewOrder α) × TradeState α) := do
  let o := pair.newOrder side (← Amount.atLeast 1 limitPrice) quantity
  match side with
  | .buy => pair.placeBuy o s
  | .sell => pair.placeSell o s

def trade (pair : Pair α) (decision : Decision) (side : Side) (s : TradeState α) :
    Attempt α (Option (NewOrder α)) :=
  let price := pair.price.current
  match Terms.quantity decision side (s.balance pair.bot.id) price pair.shares s.random with
  | (.error fault, random) => (.error fault, { s with random })
  | (.ok quantity, random) =>
    match Terms.limitPrice decision side pair.bot.preset? price random with
    | (.error fault, random) => (.error fault, { s with random })
    | (.ok limitPrice, random) =>
      match pair.place side limitPrice quantity { s with random } with
      | .error fault => (.error fault, { s with random })
      | .ok (o?, s) => (.ok o?, s)

/-- Decide on a new order by the rules. To cancel means to cancel every order of the pair. -/
def create (pair : Pair α) (facts : Facts) (s : TradeState α) : Attempt α (Option (NewOrder α)) :=
  match Rule.decide? (PairFacts.withBalance facts (s.balance pair.bot.id)) pair.rules with
  | .error fault => (.error fault, s)
  | .ok none => (.ok none, s)
  | .ok (some decision) =>
    match decision.action with
    | .cancel =>
      let (result, s) := TradeState.cancelAll pair.orders s
      ((fun _ => none) <$> result, s)
    | .buy => pair.trade decision .buy s
    | .sell => pair.trade decision .sell s

/-! ## Both passes -/

def buildFacts (pair : Pair α) (s : TradeState α) : Attempt α Facts :=
  let (result, random) := PairFacts.build pair (s.balance pair.bot.id) s.random
  (result, { s with random })

def process (pair : Pair α) (s : TradeState α) : Attempt α (Option (NewOrder α)) :=
  match pair.buildFacts s with
  | (.error fault, s) => (.error fault, s)
  | (.ok facts, s) =>
    match pair.cancelOrders facts pair.orders s with
    | (.error fault, s) => (.error fault, s)
    | (.ok [], s) => pair.create facts s
    | (.ok (_ :: _), s) => (.ok none, s)

end Pair

end RuleTrader
