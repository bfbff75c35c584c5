import RuleTrader.Store.Access
import RuleTrader.Text.Quoted

/-!
# The tables of a database

The rows that a database keeps, and the changes of single rows. An integer has to fit 64 bits, and a
row may refer only to rows that are there; a change that breaks either rule is refused and changes
nothing. Putting a row in again replaces its values and keeps its place. Texts are texts of characters:
that a database takes no half of a pair of code units is left out.
-/

namespace RuleTrader

/-- An order in a database. -/
structure StoredOrder where
  id : String
  terms : NewOrder Int
  createdAt : Seconds
  deriving Repr

/-- A trade in a database. -/
structure Trade where
  instrumentId : String
  price : Int
  quantity : Int
  executedAt : Seconds
  deriving Repr

/-- The rows of a database. -/
structure Tables where
  instruments : Table String (Instrument Int) := []
  /-- The rules of each strategy, as text. -/
  strategies : Table String String := []
  traders : Table String (Bot Int) := []
  positions : Table (String × String) Int := []
  /-- The orders, from the first to the last inserted one. -/
  orders : List StoredOrder := []
  trades : List Trade := []
  deriving Repr

namespace StoredOrder

/-- Whether an order rests in the market. -/
def isOpen (o : StoredOrder) : Bool := o.terms.status == .opened

/-- The order as the market sees it, at a time. -/
def toOrderAt (o : StoredOrder) (createdAt : Micros) : Order Int where
  id := o.id
  instrumentId := o.terms.instrumentId
  botId := o.terms.botId
  side := o.terms.side
  limitPrice := o.terms.limitPrice
  quantity := o.terms.quantity
  createdAt := createdAt
  status := o.terms.status

/-- The order as the market sees it, if its time has a date. -/
def toOrder (o : StoredOrder) : Except QueryFault (Order Int) :=
  match o.createdAt.rowTime with
  | .ok createdAt => .ok (o.toOrderAt createdAt)
  | .error fault => .error (.time fault)

/-- Cancel an open order that is named. -/
def cancelIfNamed (ids : List String) (o : StoredOrder) : StoredOrder :=
  if o.isOpen && o.id ∈ ids then { o with terms := { o.terms with status := .cancelled } } else o

end StoredOrder

namespace Tables

def fits (n : Int) : Bool := Seconds.fitsBits 64 n

/-- Refuse integers that do not fit. -/
def checkFits (ns : List Int) : Except ChangeFault Unit :=
  if ns.all fits then .ok () else .error .integerTooLarge

/-- Refuse a row whose references are not all there. -/
def checkReferences (present : Bool) : Except ChangeFault Unit :=
  if present then .ok () else .error (.database .missingReference)

def checkTime (t : Seconds) (column : String) : Except ChangeFault Unit :=
  if t.isNaN then .error (.database (.missingValue column)) else .ok ()

/-! ## Changes -/

def putInstrument (t : Tables) (i : Instrument Int) : Except ChangeFault Tables := do
  checkFits [i.price]
  return { t with instruments := t.instruments.put i.id i }

/-- Set the price of an instrument, if it is there. -/
def setPrice (t : Tables) (instrumentId : String) (price : Int) : Except ChangeFault Tables := do
  checkFits [price]
  match t.instruments.get? instrumentId with
  | none => return t
  | some i =>
    return { t with instruments := t.instruments.put instrumentId { i with price := price } }

def putStrategy (t : Tables) (strategyId rules : String) : Tables :=
  { t with strategies := t.strategies.put strategyId rules }

def knowsStrategy (t : Tables) (strategyId? : Option String) : Bool :=
  match strategyId? with
  | some strategyId => t.strategies.has strategyId
  | none => true

def putTrader (t : Tables) (b : Bot Int) : Except ChangeFault Tables := do
  checkFits [b.balance]
  checkReferences (t.knowsStrategy b.strategyId?)
  return { t with traders := t.traders.put b.id b }

def setPosition (t : Tables) (botId instrumentId : String) (shares : Int) :
    Except ChangeFault Tables := do
  checkFits [shares]
  checkReferences (t.traders.has botId && t.instruments.has instrumentId)
  return { t with positions := t.positions.put (botId, instrumentId) shares }

def addTrade (t : Tables) (trade : Trade) : Except ChangeFault Tables := do
  checkFits [trade.price, trade.quantity]
  checkTime trade.executedAt "trades.executed_epoch_s"
  checkReferences (t.instruments.has trade.instrumentId)
  return { t with trades := t.trades ++ [trade] }

/-- Cancel the open orders among those that are named. -/
def cancel (t : Tables) (ids : List String) : Tables :=
  { t with orders := t.orders.map (·.cancelIfNamed ids) }

def insertOrder (t : Tables) (o : StoredOrder) : Except ChangeFault Tables := do
  checkFits [o.terms.limitPrice, o.terms.quantity]
  checkTime o.createdAt "orders.created_epoch_s"
  checkReferences (t.instruments.has o.terms.instrumentId && t.traders.has o.terms.botId)
  return { t with orders := t.orders ++ [o] }

/-! ## Queries -/

/-- The orders by time, those of one time as they were inserted. -/
def ordersByTime (t : Tables) : List StoredOrder :=
  t.orders.mergeSort fun a b => a.createdAt.rank ≤ b.createdAt.rank

/-- The orders by time, of one state if it is given. -/
def listOrders (t : Tables) (status? : Option OrderStatus) : Except QueryFault (List (Order Int)) :=
  (t.ordersByTime.filter fun o => status?.all (· == o.terms.status)).mapM (·.toOrder)

/-- The span of time that the trades of a snapshot come from. -/
def recentSpan : Seconds := 60

/-- Whether a time is not before another; there is none if the other one is no time at all. -/
def isSince (since t : Seconds) : Bool := !since.isNaN && decide (since.rank ≤ t.rank)

/-- The trades in an instrument from a time on, by time. -/
def tradesSince (t : Tables) (since : Seconds) (instrumentId : String) : List Trade :=
  (t.trades.filter fun x => x.instrumentId == instrumentId && isSince since x.executedAt
    ).mergeSort fun a b => a.executedAt.rank ≤ b.executedAt.rank

/-- A sum whose parts fit a column all along. -/
def sumFrom (total : Int) : List Int → Except DatabaseFault Int
  | [] => .ok total
  | n :: ns => if fits (total + n) then sumFrom (total + n) ns else .error .sumTooLarge

/-- An integer of a column as a binary64 number. -/
def columnFloat (n : Int) : Float := (Binary64.ofInt? n).getD 0

/-- The mean of prices, whose binary64 numbers are added up in turn. A database that keeps exact or
compensated sums comes to the same until a sum passes `2 ^ 53`; nothing that is proved here depends on
the mean. -/
def meanPrice (prices : List Int) : Float :=
  prices.foldl (fun total n => total + columnFloat n) 0 / columnFloat prices.length

/-- The recent trades in an instrument summed up; none if there are none. -/
def aggregate? (t : Tables) (since : Seconds) (instrumentId : String) :
    Except DatabaseFault (Option (Aggregate Int)) :=
  match t.tradesSince since instrumentId with
  | [] => .ok none
  | trades => do
    let volume ← sumFrom 0 (trades.map (·.quantity))
    return some ⟨instrumentId, .float (meanPrice (trades.map (·.price))), volume⟩

/-- Whether a trader is there and is driven by rules. -/
def isBot (t : Tables) (id : String) : Bool := (t.traders.get? id).any (·.automated)

/-- Whether a trader that is driven by rules uses a strategy. -/
def isUsed (t : Tables) (strategyId : String) : Bool :=
  t.traders.values.any fun b => b.automated && b.strategyId? == some strategyId

/-- The open orders of traders that are driven by rules, by time. -/
def botOrders (t : Tables) : Except QueryFault (List (Order Int)) :=
  (t.ordersByTime.filter fun o => o.isOpen && t.isBot o.terms.botId).mapM (·.toOrder)

/-- What a tick reads at a time. -/
def snapshot (t : Tables) (now : Seconds) : Except QueryFault (Snapshot Int) := do
  let orders ← t.botOrders
  let aggregates ←
    (t.instruments.keys.mapM (t.aggregate? (now - recentSpan))).mapError .database
  return {
    bots := t.traders.values.filter (·.automated)
    instruments := t.instruments.values
    orders := orders
    positions :=
      (t.positions.filter fun e => t.isBot e.1.1).map fun ((b, i), n) => ⟨b, i, n⟩
    ruleSets := (t.strategies.filter fun e => t.isUsed e.1).map fun (k, s) => (k, .value (.text s))
    aggregates := aggregates.filterMap id }

end Tables

end RuleTrader
