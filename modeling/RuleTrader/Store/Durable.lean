import RuleTrader.Json.Writer
import RuleTrader.Store.Tables

/-!
# The durable store

A store on a database. A single change runs in a transaction of its own. A change that is refused
leaves its transaction open: what is pending stays visible, the next change that succeeds commits it
too, and the next batch is refused and drops it. A batch cancels and inserts in one transaction, which
is dropped when the database refuses a row; a draft that is no order, or an integer that does not fit,
leaves the transaction open with what was done so far.
-/

namespace RuleTrader

/-- A store on a database. -/
structure DurableStore where
  /-- What is kept. -/
  committed : Tables := {}
  /-- The tables inside the open transaction, if one is open. -/
  pending? : Option Tables := none
  closed : Bool := false
  named : Nat := 0
  deriving Repr

/-- An order as it is asked for. -/
structure OrderDraft where
  instrumentId : String
  botId : String
  side : Value
  limitPrice : Value
  quantity : Value
  status : Value
  deriving Repr

/-- Why a draft is no order. -/
inductive DraftFault where
  | naming (fault : NamingFault)
  | number (fault : NumberFault)
  deriving DecidableEq, Repr

/-- Why a batch of drafts is not applied. -/
inductive BatchFault where
  | draft (fault : DraftFault)
  | store (fault : StoreFault)
  deriving DecidableEq, Repr

namespace OrderDraft

/-- The order of a draft. -/
def check (d : OrderDraft) : Except DraftFault (NewOrder Int) := do
  let side ← (Side.read d.side).mapError .naming
  let limitPrice ← d.limitPrice.toInt.mapError .number
  let quantity ← d.quantity.toInt.mapError .number
  let status ← (OrderStatus.read d.status).mapError .naming
  return { instrumentId := d.instrumentId, botId := d.botId, side, limitPrice, quantity, status }

/-- The orders of drafts, up to the first that is none, and how many drafts were looked at. -/
def checkAll : List OrderDraft → Except DraftFault (List (NewOrder Int)) × Nat
  | [] => (.ok [], 0)
  | d :: ds =>
    match d.check with
    | .error fault => (.error fault, 1)
    | .ok o =>
      let (rest, n) := checkAll ds
      (rest.map (o :: ·), n + 1)

end OrderDraft

namespace DurableStore

/-- The tables as the store sees them, with what is pending. -/
def tables (s : DurableStore) : Tables := s.pending?.getD s.committed

/-! ## Single changes -/

/-- Run one change and commit it together with what is pending. -/
def change (s : DurableStore) (f : Tables → Except ChangeFault Tables) :
    Except ChangeFault Unit × DurableStore :=
  if s.closed then (.error (.database .closed), s)
  else
    match f s.tables with
    | .ok t => (.ok (), { s with committed := t, pending? := none })
    | .error fault => (.error fault, { s with pending? := some s.tables })

/-- Run one change with an integer; a value that is none is refused before anything else. -/
def changeInt (s : DurableStore) (v : Value) (f : Int → Tables → Except ChangeFault Tables) :
    Except ChangeFault Unit × DurableStore :=
  match v.toInt with
  | .ok n => s.change (f n)
  | .error fault => (.error (.number fault), s)

def putInstrument (s : DurableStore) (id symbol : String) (price : Value) :
    Except ChangeFault Unit × DurableStore :=
  s.changeInt price fun n t => t.putInstrument ⟨id, symbol, n⟩

/-- Set the price of an instrument, if it is there. -/
def setPrice (s : DurableStore) (instrumentId : String) (price : Value) :
    Except ChangeFault Unit × DurableStore :=
  s.changeInt price fun n t => t.setPrice instrumentId n

/-- The text of a rule set: a text itself, or the JSON text with sorted names. -/
def ruleText : Value → Except JsonFault String
  | .text s => .ok s
  | v => Json.writeSorted v

def putStrategy (s : DurableStore) (strategyId : String) (rules : Value) :
    Except ChangeFault Unit × DurableStore :=
  match ruleText rules with
  | .ok text => s.change fun t => .ok (t.putStrategy strategyId text)
  | .error fault => (.error (.rules fault), s)

def putTrader (s : DurableStore) (b : Bot Value) : Except ChangeFault Unit × DurableStore :=
  s.changeInt b.balance fun n t => t.putTrader { b with balance := n }

def setPosition (s : DurableStore) (botId instrumentId : String) (shares : Value) :
    Except ChangeFault Unit × DurableStore :=
  s.changeInt shares fun n t => t.setPosition botId instrumentId n

/-- The time of a trade: the one that is given, or the time of the clock. -/
def tradeTime (clock : Seconds) : Value → Except NumberFault Seconds
  | .null => .ok clock
  | v => v.toFloat

def addTrade (s : DurableStore) (instrumentId : String) (price quantity time : Value)
    (clock : Seconds) : Except ChangeFault Unit × DurableStore :=
  match (do return (← tradeTime clock time, ← price.toInt)) with
  | .ok (executedAt, price) =>
    s.changeInt quantity fun n t => t.addTrade ⟨instrumentId, price, n, executedAt⟩
  | .error fault => (.error (.number fault), s)

/-! ## Batches -/

/-- The name of the order that is named as the `n`-th. -/
def orderName (n : Nat) : String := s!"order-{n}"

/-- Open a transaction and cancel the open orders that are named. Inside an open transaction that is
refused, and what is pending is dropped. -/
def openBatch (s : DurableStore) (cancelIds : List String) :
    Except DatabaseFault Unit × DurableStore :=
  if s.closed then (.error .closed, s)
  else
    match s.pending? with
    | some _ => (.error .openTransaction, { s with pending? := none })
    | none => (.ok (), { s with pending? := some (s.committed.cancel cancelIds) })

/-- Insert orders in turn under names that are given out, up to the first that is refused. -/
def insertAll (now : Seconds) (named : Nat) (t : Tables) :
    List (NewOrder Int) → Except ChangeFault Unit × Tables
  | [] => (.ok (), t)
  | o :: os =>
    match t.insertOrder ⟨orderName (named + 1), o, now⟩ with
    | .ok t => insertAll now (named + 1) t os
    | .error fault => (.error fault, t)

def finishBatch (s : DurableStore) (orders : List (NewOrder Int)) (now : Seconds) :
    Except StoreFault Unit × DurableStore :=
  let s' := { s with named := s.named + orders.length }
  match insertAll now s.named s.tables orders with
  | (.ok (), t) => (.ok (), { s' with committed := t, pending? := none })
  | (.error (.database fault), _) => (.error (.write fault), { s' with pending? := none })
  | (.error _, t) => (.error .integerTooLarge, { s' with pending? := some t })

def apply (s : DurableStore) (b : Batch Int) (now : Seconds) :
    Except StoreFault Unit × DurableStore :=
  match s.openBatch b.cancelIds with
  | (.error fault, s) => (.error (.write fault), s)
  | (.ok (), s) => s.finishBatch b.newOrders now

/-- Apply a batch of drafts. Every draft takes a name before it is looked at. -/
def applyDrafts (s : DurableStore) (cancelIds : List String) (drafts : List OrderDraft)
    (now : Seconds) : Except BatchFault Unit × DurableStore :=
  match s.openBatch cancelIds with
  | (.error fault, s) => (.error (.store (.write fault)), s)
  | (.ok (), s) =>
    match OrderDraft.checkAll drafts with
    | (.error fault, n) => (.error (.draft fault), { s with named := s.named + n })
    | (.ok orders, _) =>
      let (result, s) := s.finishBatch orders now
      (result.mapError .store, s)

/-! ## Queries -/

/-- The orders by time, of one state if it is given. -/
def listOrders (s : DurableStore) (status? : Option OrderStatus) :
    Except QueryFault (List (Order Int)) :=
  if s.closed then .error (.database .closed) else s.tables.listOrders status?

/-- Read a snapshot. -/
def fetch (s : DurableStore) (now : Seconds) : Except StoreFault (Snapshot Int) :=
  if s.closed then .error (.query (.database .closed))
  else (s.tables.snapshot now).mapError .query

def access (now : Seconds) : StoreAccess DurableStore Int where
  fetch s := (s.fetch now, s)
  send b s := s.apply b now

instance : Store DurableStore Int := ⟨fun now => access (.ofMicros now)⟩

/-! ## Opening and closing -/

/-- Close the store; what is pending is dropped. -/
def close (s : DurableStore) : DurableStore :=
  { s with pending? := none, closed := true }

/-- Open the store again. What was committed is there if the store is kept in a file. -/
def reopen (s : DurableStore) (kept : Bool) : DurableStore :=
  { committed := if kept then s.committed else {}, named := s.named }

end DurableStore

end RuleTrader
