import RuleTrader.Config
import RuleTrader.Market.Snapshot
import RuleTrader.Rule.RuleSet
import RuleTrader.Trading.Pair

/-!
# One tick

A tick goes once over the pairs of a snapshot: instruments in their order, and for each of them the
bots in theirs. The first price of an instrument is only recorded. A pair that fails is passed over.
An amount that is no whole number, prices that cannot be compared, and rules that ask for an indicator
over too long a period stop the tick; such rules are no result of reading.
What the pairs decided is cut to the size of a batch; an empty batch is not sent. The state that
outlives a tick, the tracker and the random source, is kept whether the tick succeeds or not.
-/

namespace RuleTrader

namespace RuleSetFault

/-- Whether a fault lies in the text of a rule set, and not in a number that cannot be looked at. -/
def isUnreadable : RuleSetFault → Bool
  | .number fault => fault.faultClass == .value
  | .notUtf8 _ | .notJson _ => true

end RuleSetFault

namespace RuleSetReading

/-- What to report about the entries from a place on. -/
def noticesFrom (index : Nat) : List Rule.Reading → List Notice
  | [] => []
  | .kept _ :: rest => noticesFrom (index + 1) rest
  | .leftOut :: rest => .ruleLeftOut index :: noticesFrom (index + 1) rest
  | .tooDeep :: rest => .ruleTooDeep :: .ruleLeftOut index :: noticesFrom (index + 1) rest

/-- What to report about a reading. -/
def notices (r : RuleSetReading) : List Notice := noticesFrom 0 r.readings

end RuleSetReading

/-- What stops a tick by itself. -/
inductive TickFault where
  | historyTooLong
  /-- A batch cannot be cut to a number that is not whole. -/
  | capNotWhole
  /-- The time is not known, an amount is no whole number, prices cannot be compared, or the period of
  an indicator is too long. -/
  | number (fault : NumberFault)
  deriving DecidableEq, Repr

/-- Which bots a tick is for, and by which rules. -/
structure TickSetup where
  session : String
  config : Config := {}
  /-- The rules of the session, which are usable and go before the rules of the bots. -/
  rules? : Option (List Rule) := none
  ownerId? : Option String := none
  /-- Without an owner: the owners whose bots are driven; none means all bots. -/
  activeOwners? : Option (List String) := none
  deriving Repr

/-- What a session remembers from tick to tick. -/
structure TickMemory (α : Type) where
  tracker : PriceTracker α
  random : RandomSource
  deriving Repr

/-- The state of the loop over pairs. -/
structure TickState (α : Type) where
  tracker : PriceTracker α
  trade : TradeState α
  /-- The rules of the strategies looked up so far; none for a strategy without rules. -/
  known : Table String (Option (List Rule)) := []
  pairErrors : Nat := 0
  deriving Repr

structure TickDecision (α : Type) where
  bots : Nat := 0
  instruments : Nat := 0
  cancelIds : List String := []
  newOrders : List (NewOrder α) := []
  /-- The number of orders that did not fit the batch. -/
  truncated : Int := 0
  pairErrors : Nat := 0
  deriving Repr

namespace TickDecision

variable {α : Type}

/-- Whether there is something to send. -/
def hasBatch (d : TickDecision α) : Bool :=
  !(d.cancelIds.isEmpty && d.newOrders.isEmpty)

def batch (d : TickDecision α) : Batch α := ⟨d.cancelIds, d.newOrders⟩

end TickDecision

/-- What deciding a tick leaves: the decision or a fault, the memory, and what to report. -/
structure TickOutcome (α : Type) where
  result : Except TickFault (TickDecision α)
  memory : TickMemory α
  notices : List Notice := []

namespace TickState

variable {α : Type}

def report (s : TickState α) (n : Notice) : TickState α := { s with trade := s.trade.report n }

def reportAll (s : TickState α) (ns : List Notice) : TickState α := ns.foldl report s

/-- What outlives the tick. -/
def memory (s : TickState α) : TickMemory α := ⟨s.tracker, s.trade.random⟩

end TickState

namespace Tick

variable {α : Type}

/-! ## Rules -/

/-- The rules that a definition gives, none if it gives no rule, and what to report. A definition that
cannot be read gives none; rules that are not usable are a fault. -/
def strategyRules (session strategyId : String) (definition : RuleDefinition) :
    Except NumberFault (Option (List Rule)) × List Notice :=
  let reading := RuleSet.readAll definition
  match reading.rules with
  | .ok [] => (.ok none, reading.notices)
  | .ok rules => ((fun _ => some rules) <$> Rule.indicatorKeys rules, reading.notices)
  | .error fault =>
    (.ok none, reading.notices ++
      [if fault.isUnreadable then .unreadableRules session strategyId fault.message
       else .rulesFailed session strategyId])

/-- The rules that are stored for a strategy, and what to report. -/
def storedRules (session strategyId : String) (ruleSets : Table String RuleDefinition) :
    Except NumberFault (Option (List Rule)) × List Notice :=
  match ruleSets.get? strategyId with
  | none | some (.value .null) => (.ok none, [])
  | some definition => strategyRules session strategyId definition

/-- Look a strategy up, once in a tick. A fault is not remembered: it stops the tick. -/
def lookUpStrategy (session strategyId : String) (ruleSets : Table String RuleDefinition)
    (s : TickState α) : Except NumberFault (Option (List Rule)) × TickState α :=
  match s.known.get? strategyId with
  | some rules? => (.ok rules?, s)
  | none =>
    match storedRules session strategyId ruleSets with
    | (.error fault, notices) => (.error fault, s.reportAll notices)
    | (.ok rules?, notices) =>
      let s := s.reportAll notices
      (.ok rules?, { s with known := s.known.put strategyId rules? })

/-- The rules for a bot: those of the session, or those of its strategy. -/
def rulesFor (setup : TickSetup) (bot : Bot α) (ruleSets : Table String RuleDefinition)
    (s : TickState α) : Except NumberFault (Option (List Rule)) × TickState α :=
  match setup.rules?, bot.strategyId? with
  | some rules, _ => (.ok (some rules), s)
  | none, none | none, some "" => (.ok none, s)
  | none, some strategyId => lookUpStrategy setup.session strategyId ruleSets s

/-! ## Prices -/

variable [Amount α]

def priceContext (o : Observation α) (previous : α) (trend : Trend)
    (aggregate? : Option (Aggregate α)) : PriceContext α where
  current := o.current
  previous? := some previous
  trend := trend
  average? := aggregate?.map (·.averagePrice)
  history := o.history

/-- What to report about a price that is the first one. -/
def firstNotice (setup : TickSetup) (instrument : Instrument α) : Notice :=
  .firstPrice setup.session instrument.symbol (Amount.toValue instrument.price)

/-- What to report about a price with its trend. -/
def nextNotice (setup : TickSetup) (instrument : Instrument α) (previous : α) (trend : Trend) :
    Notice :=
  .nextPrice setup.session instrument.symbol (Amount.toValue previous)
    (Amount.toValue instrument.price) trend

/-! ## The loop over pairs -/

def pairOf (setup : TickSetup) (data : Organized α) (now : Micros) (instrument : Instrument α)
    (price : PriceContext α) (bot : Bot α) (rules : List Rule) : Pair α where
  bot := bot
  instrument := instrument
  price := price
  orders := data.ordersFor bot.id instrument.id
  shares := Amount.ofInt (data.sharesOwned bot.id instrument.id)
  rules := rules
  now := now
  tickInterval := .number setup.config.tickInterval
  aggregate? := data.aggregates.get? instrument.id

/-- Process a pair; a failure is reported and counted. -/
def runPair (setup : TickSetup) (pair : Pair α) (s : TickState α) : TickState α :=
  match pair.process s.trade with
  | (.ok _, trade) => { s with trade }
  | (.error _, trade) =>
    { s with
      trade := trade.report (.pairFailed setup.session pair.bot.id pair.instrument.id)
      pairErrors := s.pairErrors + 1 }

def visitBot (setup : TickSetup) (data : Organized α) (now : Micros) (instrument : Instrument α)
    (price : PriceContext α) (bot : Bot α) (s : TickState α) :
    Except TickFault Unit × TickState α :=
  match rulesFor setup bot data.ruleSets s with
  | (.error fault, s) => (.error (.number fault), s)
  | (.ok none, s) => (.ok (), s)
  | (.ok (some rules), s) =>
    (.ok (), runPair setup (pairOf setup data now instrument price bot rules) s)

/-- Visit bots on an instrument from the first to the last. -/
def visitEach (setup : TickSetup) (data : Organized α) (now : Micros) (instrument : Instrument α)
    (price : PriceContext α) : List (Bot α) → TickState α → Except TickFault Unit × TickState α
  | [], s => (.ok (), s)
  | bot :: rest, s =>
    match visitBot setup data now instrument price bot s with
    | (.error fault, s) => (.error fault, s)
    | (.ok (), s) => visitEach setup data now instrument price rest s

/-- Visit the bots on an instrument whose price was observed. A first price has no trend, and then no
bot is visited. -/
def visitBots (setup : TickSetup) (data : Organized α) (now : Micros) (bots : List (Bot α))
    (instrument : Instrument α) (o : Observation α) (s : TickState α) :
    Except TickFault Unit × TickState α :=
  match o.before? with
  | none => (.ok (), s.report (firstNotice setup instrument))
  | some previous =>
    match Trend.between previous o.current with
    | .error fault => (.error (.number fault), s)
    | .ok trend =>
      let price := priceContext o previous trend (data.aggregates.get? instrument.id)
      visitEach setup data now instrument price bots
        (s.report (nextNotice setup instrument previous trend))

/-- Visit an instrument: record its price and, if it has a trend, visit the bots. -/
def visitInstrument (setup : TickSetup) (data : Organized α) (now : Micros) (bots : List (Bot α))
    (instrument : Instrument α) (s : TickState α) : Except TickFault Unit × TickState α :=
  match s.tracker.observe instrument.id instrument.price with
  | .error _ => (.error .historyTooLong, s)
  | .ok (o, tracker) => visitBots setup data now bots instrument o { s with tracker }

/-- Visit instruments from the first to the last. -/
def visitInstruments (setup : TickSetup) (data : Organized α) (now : Micros)
    (bots : List (Bot α)) :
    List (Instrument α) → TickState α → Except TickFault Unit × TickState α
  | [], s => (.ok (), s)
  | instrument :: rest, s =>
    match visitInstrument setup data now bots instrument s with
    | (.error fault, s) => (.error fault, s)
    | (.ok (), s) => visitInstruments setup data now bots rest s

def start (data : Organized α) (m : TickMemory α) : TickState α where
  tracker := m.tracker
  trade := {
    balances := data.balances.map fun (botId, n) => (botId, Amount.ofInt n)
    random := m.random }

def runPairs (setup : TickSetup) (now : Micros) (snapshot : Snapshot α) (data : Organized α)
    (m : TickMemory α) : Except TickFault Unit × TickState α :=
  visitInstruments setup data now snapshot.bots snapshot.instruments (start data m)

/-! ## The batch -/

/-- The new orders that fit a batch, the number of those that do not, and what to report. -/
def cutOrders (session : String) (cap : Number) (orders : List (NewOrder α)) :
    Except TickFault (List (NewOrder α) × Int) × List Notice :=
  if cap.lt (.int orders.length) then
    match cap with
    | .int n =>
      let dropped := orders.length - n
      (.ok (orders.take n.toNat, dropped), [.batchCut session orders.length n dropped])
    | .float x =>
      let whole := (Number.truncate (.float x)).toOption.getD 0
      let dropped :=
        (Number.truncate (.float (Float.ofNat orders.length - x))).toOption.getD 0
      (.error .capNotWhole, [.batchCut session orders.length whole dropped])
  else (.ok (orders, 0), [])

/-- The decision of a finished loop. -/
def conclude (setup : TickSetup) (snapshot : Snapshot α) (s : TickState α) : TickOutcome α :=
  let (cut, notices) := cutOrders setup.session setup.config.maxOrders s.trade.batch.newOrders
  let result := cut.map fun (orders, dropped) =>
    { bots := snapshot.bots.length
      instruments := snapshot.instruments.length
      cancelIds := s.trade.batch.cancelIds
      newOrders := orders
      truncated := dropped
      pairErrors := s.pairErrors }
  ⟨result, s.memory, s.trade.notices ++ notices⟩

/-! ## The whole decision -/

/-- The bots that a tick is for. -/
def scope (setup : TickSetup) (snapshot : Snapshot α) : Snapshot α :=
  match setup.ownerId?, setup.activeOwners? with
  | some owner, _ => snapshot.scopeTo [owner]
  | none, some owners => snapshot.scopeTo owners
  | none, none => snapshot

/-- What the loop over the pairs needs: the tables of the snapshot, and then the time. -/
def prepare (clock : Except NumberFault Micros) (snapshot : Snapshot α) :
    Except NumberFault (Organized α × Micros) := do
  return (← Organized.ofSnapshot snapshot, ← clock)

/-- Decide a tick on a snapshot that is narrowed to the bots it is for. -/
def decideScoped (setup : TickSetup) (clock : Except NumberFault Micros) (snapshot : Snapshot α)
    (m : TickMemory α) : TickOutcome α :=
  if snapshot.bots.isEmpty || snapshot.instruments.isEmpty then
    { result := .ok { bots := snapshot.bots.length, instruments := snapshot.instruments.length }
      memory := m
      notices :=
        [.nothingToDo setup.session snapshot.bots.length snapshot.instruments.length] }
  else
    match prepare clock snapshot with
    | .error fault => ⟨.error (.number fault), m, []⟩
    | .ok (data, now) =>
      match runPairs setup now snapshot data m with
      | (.error fault, s) => ⟨.error fault, s.memory, s.trade.notices⟩
      | (.ok (), s) => conclude setup snapshot s

def decide (setup : TickSetup) (clock : Except NumberFault Micros) (snapshot : Snapshot α)
    (m : TickMemory α) : TickOutcome α :=
  decideScoped setup clock (scope setup snapshot) m

def sentNotice (setup : TickSetup) (d : TickDecision α) : Notice :=
  .batchSent setup.session d.cancelIds.length d.newOrders.length

end Tick

end RuleTrader
