import RuleTrader.Market.Basic
import RuleTrader.Rule.RuleSet

/-!
# Snapshots

A snapshot is everything that one tick reads. It can be narrowed to the bots of some owners, with
their orders, positions and rule sets; and it is organized into the tables that the tick looks things
up in, where balances and shares are whole numbers.
-/

namespace RuleTrader

/-- What one tick reads from a store. -/
structure Snapshot (α : Type) where
  bots : List (Bot α) := []
  instruments : List (Instrument α) := []
  orders : List (Order α) := []
  positions : List (Position α) := []
  ruleSets : Table String RuleDefinition := []
  aggregates : List (Aggregate α) := []
  deriving Repr

namespace Snapshot

variable {α : Type}

/-- Whether a bot belongs to one of the owners. -/
def owns (owners : List String) (b : Bot α) : Bool :=
  match b.ownerId? with
  | some owner => owner ∈ owners
  | none => false

def uses (bots : List (Bot α)) (strategyId : String) : Bool :=
  strategyId ≠ "" && bots.any fun b => b.strategyId? == some strategyId

/-- The bots of the owners, with their orders, positions and rule sets. -/
def scopeTo (s : Snapshot α) (owners : List String) : Snapshot α :=
  let bots := s.bots.filter (owns owners)
  let ids := bots.map (·.id)
  { s with
    bots := bots
    orders := s.orders.filter fun o => o.botId ∈ ids
    positions := s.positions.filter fun p => p.botId ∈ ids
    ruleSets := s.ruleSets.filter fun e => uses bots e.1 }

end Snapshot

/-- The tables of one tick. -/
structure Organized (α : Type) where
  /-- The open orders of each bot, in their order. -/
  orders : Table String (List (Order α)) := []
  shares : Table (String × String) Int := []
  /-- The money that each bot starts the tick with. -/
  balances : Table String Int := []
  ruleSets : Table String RuleDefinition := []
  aggregates : Table String (Aggregate α) := []
  deriving Repr

namespace Organized

variable {α : Type}

/-- The open orders of a bot in an instrument. -/
def ordersFor (d : Organized α) (botId instrumentId : String) : List (Order α) :=
  ((d.orders.get? botId).getD []).filter (·.instrumentId == instrumentId)

def sharesOwned (d : Organized α) (botId instrumentId : String) : Int :=
  (d.shares.get? (botId, instrumentId)).getD 0

/-- Put an order at the end of the orders of its bot. -/
def addOrder (orders : Table String (List (Order α))) (o : Order α) :
    Table String (List (Order α)) :=
  orders.put o.botId ((orders.get? o.botId).getD [] ++ [o])

variable [Amount α]

/-- The shares of a position, by bot and instrument. -/
def shareEntry (p : Position α) : Except NumberFault ((String × String) × Int) := do
  return ((p.botId, p.instrumentId), ← Amount.whole p.shares)

/-- The money of a bot. -/
def balanceEntry (b : Bot α) : Except NumberFault (String × Int) := do
  return (b.id, ← Amount.whole b.balance)

/-- The tables of a snapshot. Orders that are not open are left out; of several positions, bots or
aggregates under one key the last counts. An amount that gives no whole number is refused, and
positions are looked at before bots. -/
def ofSnapshot (s : Snapshot α) : Except NumberFault (Organized α) := do
  let shares ← s.positions.mapM shareEntry
  let balances ← s.bots.mapM balanceEntry
  return {
    orders := (s.orders.filter Order.isOpen).foldl addOrder []
    shares := .ofList shares
    balances := .ofList balances
    ruleSets := s.ruleSets
    aggregates := .ofList (s.aggregates.map fun a => (a.instrumentId, a)) }

end Organized

end RuleTrader
