import RuleTrader.Store.Access

/-!
# The store in memory

A store that keeps everything in tables. Nothing is matched here: an order rests until it is cancelled
or filled from outside. Reading and sending can be made to fail, and every batch that was applied is
remembered.
-/

namespace RuleTrader

/-- Why a change of the store in memory is refused. -/
inductive MemoryFault where
  | unknownKey
  | naming (fault : NamingFault)
  | number (fault : NumberFault)
  deriving DecidableEq, Repr

/-- A store that keeps everything in tables. -/
structure MemoryStore where
  bots : Table String (Bot Value) := []
  instruments : Table String (Instrument Value) := []
  orders : List (Order Value) := []
  positions : Table (String × String) Int := []
  ruleSets : Table String RuleDefinition := []
  aggregates : Table String (Aggregate Value) := []
  batches : List (Batch Value) := []
  fetchFailure? : Option String := none
  applyFailure? : Option String := none
  fetches : Nat := 0
  named : Nat := 0
  deriving Repr

/-- An order as it is put into a store by hand. -/
structure OrderEntry where
  /-- The name of the order; without one the store gives it. -/
  id? : Option String := none
  instrumentId : String
  botId : String
  side : Value
  limitPrice : Value
  quantity : Value
  createdAt? : Option Micros := none

namespace MemoryStore

/-! ## Setting up -/

def addBot (s : MemoryStore) (b : Bot Value) : MemoryStore :=
  { s with bots := s.bots.put b.id b }

def addInstrument (s : MemoryStore) (i : Instrument Value) : MemoryStore :=
  { s with instruments := s.instruments.put i.id i }

/-- Set the price of an instrument that is there. -/
def setPrice (s : MemoryStore) (instrumentId : String) (price : Value) :
    Except MemoryFault MemoryStore :=
  match s.instruments.get? instrumentId with
  | none => .error .unknownKey
  | some i =>
    match price.toInt with
    | .ok n => .ok (s.addInstrument { i with id := instrumentId, price := .int n })
    | .error fault => .error (.number fault)

/-- Set the balance of a bot that is there. -/
def setBalance (s : MemoryStore) (botId : String) (balance : Value) :
    Except MemoryFault MemoryStore :=
  match s.bots.get? botId with
  | none => .error .unknownKey
  | some b =>
    match balance.toInt with
    | .ok n => .ok (s.addBot { b with id := botId, balance := .int n })
    | .error fault => .error (.number fault)

def setPosition (s : MemoryStore) (botId instrumentId : String) (shares : Value) :
    Except MemoryFault MemoryStore :=
  match shares.toInt with
  | .ok n => .ok { s with positions := s.positions.put (botId, instrumentId) n }
  | .error fault => .error (.number fault)

def setRuleSet (s : MemoryStore) (strategyId : String) (rules : RuleDefinition) : MemoryStore :=
  { s with ruleSets := s.ruleSets.put strategyId rules }

def setAggregate (s : MemoryStore) (a : Aggregate Value) : MemoryStore :=
  { s with aggregates := s.aggregates.put a.instrumentId a }

/-! ## Orders -/

/-- The name of the order that is named as the `n`-th. -/
def orderName (n : Nat) : String := s!"sim-{n}"

def nameOrder (s : MemoryStore) : String × MemoryStore :=
  (orderName (s.named + 1), { s with named := s.named + 1 })

/-- The name of an entry: its own, or one that is given out. -/
def entryName (s : MemoryStore) (e : OrderEntry) : String × MemoryStore :=
  match e.id?.filter (· ≠ "") with
  | some id => (id, s)
  | none => s.nameOrder

def readEntry (e : OrderEntry) (side : Side) (id : String) (now : Micros) :
    Except NumberFault (Order Value) := do
  let limitPrice ← e.limitPrice.toInt
  let quantity ← e.quantity.toInt
  return { id, side
           instrumentId := e.instrumentId
           botId := e.botId
           limitPrice := .int limitPrice
           quantity := .int quantity
           createdAt := e.createdAt?.getD now }

/-- Put an order of a side in. A name that was given out stays given out. -/
def addOrderOf (s : MemoryStore) (e : OrderEntry) (side : Side) (now : Micros) :
    Except MemoryFault (Order Value) × MemoryStore :=
  let (id, s) := s.entryName e
  match readEntry e side id now with
  | .ok o => (.ok o, { s with orders := s.orders ++ [o] })
  | .error fault => (.error (.number fault), s)

/-- Put an order in by hand. -/
def addOrder (s : MemoryStore) (e : OrderEntry) (now : Micros) :
    Except MemoryFault (Order Value) × MemoryStore :=
  match Side.read e.side with
  | .ok side => s.addOrderOf e side now
  | .error fault => (.error (.naming fault), s)

/-- Close the first open order of a name. -/
def closeOrder (id : String) (status : OrderStatus) :
    List (Order Value) → List (Order Value)
  | [] => []
  | o :: os =>
    if o.id = id ∧ o.isOpen then { o with status } :: os else o :: closeOrder id status os

/-- Fill an order from outside. -/
def fill (s : MemoryStore) (id : String) : MemoryStore :=
  { s with orders := closeOrder id .filled s.orders }

/-! ## Access -/

def storedOrder (id : String) (now : Micros) (o : NewOrder Value) : Order Value where
  id := id
  instrumentId := o.instrumentId
  botId := o.botId
  side := o.side
  limitPrice := o.limitPrice
  quantity := .int o.quantity
  createdAt := now
  status := o.status

/-- Insert a new order under a name that is given out. -/
def insert (now : Micros) (s : MemoryStore) (o : NewOrder Value) : MemoryStore :=
  let (id, s) := s.nameOrder
  { s with orders := s.orders ++ [storedOrder id now o] }

/-- What a tick reads: the automated bots, and of orders and positions those of known bots. -/
def snapshot (s : MemoryStore) : Snapshot Value where
  bots := s.bots.values.filter (·.automated)
  instruments := s.instruments.values
  orders := s.orders.filter fun o => o.isOpen && s.bots.has o.botId
  positions := (s.positions.filter fun e => s.bots.has e.1.1).map fun ((b, i), n) => ⟨b, i, .int n⟩
  ruleSets := s.ruleSets
  aggregates := s.aggregates.values

/-- Read a snapshot; every attempt is counted. -/
def fetch (s : MemoryStore) : Except StoreFault (Snapshot Value) × MemoryStore :=
  let s := { s with fetches := s.fetches + 1 }
  match s.fetchFailure? with
  | some reason => (.error (.fetchFailed reason), s)
  | none => (.ok s.snapshot, s)

/-- Apply a batch: cancel the open orders that it names and insert the new ones. -/
def apply (s : MemoryStore) (b : Batch Value) (now : Micros) : Except StoreFault Unit × MemoryStore :=
  match s.applyFailure? with
  | some reason => (.error (.applyFailed reason), s)
  | none =>
    let orders := b.cancelIds.foldl (fun os id => closeOrder id .cancelled os) s.orders
    let s := b.newOrders.foldl (insert now) { s with orders }
    (.ok (), { s with batches := s.batches ++ [b] })

def access (now : Micros) : StoreAccess MemoryStore Value where
  fetch s := s.fetch
  send b s := s.apply b now

instance : Store MemoryStore Value := ⟨access⟩

end MemoryStore

end RuleTrader
