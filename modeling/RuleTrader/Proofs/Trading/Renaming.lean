import RuleTrader.Proofs.Trading.Loop

/-!
# The names of orders

A tick uses the name of an order only to mark the order for cancellation. So when the orders of a
snapshot are renamed, and no two names become one, a tick decides the same as before, with the marks
renamed: each function of the tick commutes with the renaming, from a single cancellation up to
`Tick.decideScoped_rename`.
-/

namespace RuleTrader

variable {α β : Type}

/-! ## Renaming -/

def Order.rename (ρ : String → String) (o : Order α) : Order α := { o with id := ρ o.id }

def Snapshot.rename (ρ : String → String) (s : Snapshot α) : Snapshot α :=
  { s with orders := s.orders.map (·.rename ρ) }

def Organized.rename (ρ : String → String) (d : Organized α) : Organized α :=
  { d with orders := d.orders.mapValues (List.map (·.rename ρ)) }

def Pair.rename (ρ : String → String) (pair : Pair α) : Pair α :=
  { pair with orders := pair.orders.map (·.rename ρ) }

def Batch.rename (ρ : String → String) (b : Batch α) : Batch α :=
  { b with cancelIds := b.cancelIds.map ρ }

def TradeState.rename (ρ : String → String) (s : TradeState α) : TradeState α :=
  { s with batch := s.batch.rename ρ }

def TickState.rename (ρ : String → String) (s : TickState α) : TickState α :=
  { s with trade := s.trade.rename ρ }

def TickDecision.rename (ρ : String → String) (d : TickDecision α) : TickDecision α :=
  { d with cancelIds := d.cancelIds.map ρ }

def TickOutcome.rename (ρ : String → String) (outcome : TickOutcome α) : TickOutcome α :=
  { outcome with result := outcome.result.map (·.rename ρ) }

/-- A renaming leaves the result of an attempt alone. -/
def Attempt.rename (ρ : String → String) (a : Attempt α β) : Attempt α β := (a.1, a.2.rename ρ)

variable {ρ : String → String}

@[simp] theorem TickState.rename_report (s : TickState α) (n : Notice) :
    (s.rename ρ).report n = (s.report n).rename ρ := rfl

@[simp] theorem TickState.rename_reportAll (s : TickState α) (ns : List Notice) :
    (s.rename ρ).reportAll ns = (s.reportAll ns).rename ρ := by
  induction ns generalizing s with
  | nil => rfl
  | cons n ns ih => exact ih (s.report n)

variable [Amount α]

@[simp] theorem TradeState.rename_balance (s : TradeState α) (botId : String) :
    (s.rename ρ).balance botId = s.balance botId := rfl

/-! ## Cancelling -/

theorem TradeState.cancel_rename (hρ : Function.Injective ρ) (s : TradeState α) (o : Order α) :
    (s.rename ρ).cancel (o.rename ρ) = Attempt.rename ρ (s.cancel o) := by
  have hmem : (o.rename ρ).id ∈ (s.rename ρ).batch.cancelIds ↔ o.id ∈ s.batch.cancelIds :=
    List.mem_map_of_injective hρ
  have hrefund : (s.rename ρ).refunded (o.rename ρ) = s.refunded o := rfl
  have hside : (o.rename ρ).side = o.side := rfl
  have hmark : (s.rename ρ).markCancel (o.rename ρ).id = (s.markCancel o.id).rename ρ := by
    simp [markCancel, rename, Batch.rename, Order.rename]
  unfold cancel
  -- An order that is marked already is passed over: here two names must not become one.
  by_cases hmarked : o.id ∈ s.batch.cancelIds
  · rw [if_pos hmarked, if_pos (hmem.2 hmarked)]
    rfl
  · rw [if_neg hmarked, if_neg fun h => hmarked (hmem.1 h), hrefund, hside, hmark]
    cases o.side with
    | sell => rfl
    | buy => cases s.refunded o <;> rfl

theorem TradeState.cancelAll_rename (hρ : Function.Injective ρ) (os : List (Order α))
    (s : TradeState α) :
    cancelAll (os.map (·.rename ρ)) (s.rename ρ) = Attempt.rename ρ (cancelAll os s) := by
  induction os generalizing s with
  | nil => rfl
  | cons o os ih =>
      rw [List.map_cons, cancelAll, cancelAll, cancel_rename hρ]
      -- A fault ends the walk with the marks so far.
      rcases s.cancel o with ⟨fault | _, t⟩
      · rfl
      · exact ih t

namespace Pair

/-- Whether an order is cancelled does not depend on its name. -/
theorem cancelIfTold_rename (hρ : Function.Injective ρ) (pair : Pair α) (facts : Facts) (o : Order α)
    (s : TradeState α) :
    (pair.rename ρ).cancelIfTold facts (o.rename ρ) (s.rename ρ) =
      Attempt.rename ρ (pair.cancelIfTold facts o s) := by
  have hdecision : (pair.rename ρ).orderDecision? facts (s.rename ρ) (o.rename ρ) =
      pair.orderDecision? facts s o := rfl
  unfold cancelIfTold
  rw [hdecision]
  cases pair.orderDecision? facts s o with
  | error fault => rfl
  | ok d? =>
      dsimp only
      cases isCancel d? with
      | false => rfl
      | true =>
          rw [TradeState.cancel_rename hρ]
          rfl

/-- The orders that survive keep their places and are renamed. -/
theorem cancelOrders_rename (hρ : Function.Injective ρ) (pair : Pair α) (facts : Facts)
    (os : List (Order α)) (s : TradeState α) :
    (pair.rename ρ).cancelOrders facts (os.map (·.rename ρ)) (s.rename ρ) =
      ((pair.cancelOrders facts os s).1.map (List.map (·.rename ρ)),
        (pair.cancelOrders facts os s).2.rename ρ) := by
  induction os generalizing s with
  | nil => rfl
  | cons o os ih =>
      -- The rest is judged in the state that this order leaves.
      rw [List.map_cons, cancelOrders, cancelOrders, cancelIfTold_rename hρ]
      rcases pair.cancelIfTold facts o s with ⟨fault | survives, t⟩
      · rfl
      · simp only [Attempt.rename, ih]
        rcases pair.cancelOrders facts os t with ⟨fault | survivors, u⟩
        · rfl
        · cases survives <;> rfl

/-! ## Creating -/

/-- Placing an order looks at no name. -/
theorem place_rename (pair : Pair α) (side : Side) (limitPrice : α) (quantity : Int)
    (s : TradeState α) :
    (pair.rename ρ).place side limitPrice quantity (s.rename ρ) =
      (pair.place side limitPrice quantity s).map fun (o?, t) => (o?, t.rename ρ) := by
  -- Money and shares stand under the names of bots and instruments, which stay.
  have hbuy (o : NewOrder α) : (pair.rename ρ).placeBuy o (s.rename ρ) =
      (pair.placeBuy o s).map fun (o?, t) => (o?, t.rename ρ) := by
    unfold placeBuy
    have hbalance : (s.rename ρ).balance (pair.rename ρ).bot.id = s.balance pair.bot.id := rfl
    rw [hbalance]
    cases o.cost with
    | error fault => rfl
    | ok cost =>
        cases hlt : Amount.lt (s.balance pair.bot.id) cost with
        | error fault => simp [bind, Except.bind, hlt, Except.map]
        | ok short =>
            cases short with
            | true => simp [bind, Except.bind, hlt]; rfl
            | false =>
                cases hsub : Amount.sub (s.balance pair.bot.id) cost with
                | error fault => simp [bind, Except.bind, hlt, hsub, Except.map]
                | ok rest => simp [bind, Except.bind, hlt, hsub]; rfl
  have hsell (o : NewOrder α) : (pair.rename ρ).placeSell o (s.rename ρ) =
      (pair.placeSell o s).map fun (o?, t) => (o?, t.rename ρ) := by
    unfold placeSell
    have hshares : (pair.rename ρ).shares = pair.shares := rfl
    rw [hshares]
    cases hlt : Amount.lt pair.shares (Amount.ofInt o.quantity) with
    | error fault => simp [bind, Except.bind, Except.map]
    | ok short => cases short <;> rfl
  unfold place
  cases Amount.atLeast 1 limitPrice with
  | error fault => rfl
  | ok price =>
      cases side with
      | buy => exact hbuy _
      | sell => exact hsell _

theorem trade_rename (pair : Pair α) (decision : Decision) (side : Side) (s : TradeState α) :
    (pair.rename ρ).trade decision side (s.rename ρ) =
      Attempt.rename ρ (pair.trade decision side s) := by
  have hpair : (pair.rename ρ).bot = pair.bot ∧ (pair.rename ρ).price = pair.price ∧
      (pair.rename ρ).shares = pair.shares := ⟨rfl, rfl, rfl⟩
  have hstate (random : RandomSource) : ({ s.rename ρ with random } : TradeState α) =
      ({ s with random } : TradeState α).rename ρ := rfl
  have hrandom : (s.rename ρ).random = s.random := rfl
  simp only [trade, hpair, hrandom, TradeState.rename_balance]
  rcases Terms.quantity decision side (s.balance pair.bot.id) pair.price.current pair.shares s.random
    with ⟨fault | quantity, random⟩
  · rfl
  · dsimp only
    -- The price is drawn after the quantity, from what the first draw left.
    rcases Terms.limitPrice decision side pair.bot.preset? pair.price.current random
      with ⟨fault | price, random'⟩
    · rfl
    · dsimp only
      rw [hstate, place_rename]
      cases pair.place side price quantity { s with random := random' } <;> rfl

theorem create_rename (hρ : Function.Injective ρ) (pair : Pair α) (facts : Facts) (s : TradeState α) :
    (pair.rename ρ).create facts (s.rename ρ) = Attempt.rename ρ (pair.create facts s) := by
  have hdecision : Rule.decide? (PairFacts.withBalance facts ((s.rename ρ).balance
      (pair.rename ρ).bot.id)) (pair.rename ρ).rules =
      Rule.decide? (PairFacts.withBalance facts (s.balance pair.bot.id)) pair.rules := rfl
  unfold create
  rw [hdecision]
  cases Rule.decide? (PairFacts.withBalance facts (s.balance pair.bot.id)) pair.rules with
  | error fault => rfl
  | ok decision? =>
      cases decision? with
      | none => rfl
      | some decision =>
          dsimp only
          cases decision.action with
          | cancel =>
              have horders : (pair.rename ρ).orders = pair.orders.map (·.rename ρ) := rfl
              simp only [horders, TradeState.cancelAll_rename hρ]
              rfl
          | buy => exact trade_rename pair decision .buy s
          | sell => exact trade_rename pair decision .sell s

/-! ## Both passes -/

/-- The facts of a pair have the number of its orders, and no names. -/
theorem buildFacts_rename (pair : Pair α) (s : TradeState α) :
    (pair.rename ρ).buildFacts (s.rename ρ) = Attempt.rename ρ (pair.buildFacts s) := by
  have hlength : (pair.rename ρ).orders.length = pair.orders.length := List.length_map _
  have hplain (balance : α) : PairFacts.plain (pair.rename ρ) balance = PairFacts.plain pair balance := by
    unfold PairFacts.plain
    rw [hlength]
    rfl
  have hbuild : PairFacts.build (pair.rename ρ) ((s.rename ρ).balance (pair.rename ρ).bot.id)
      (s.rename ρ).random = PairFacts.build pair (s.balance pair.bot.id) s.random := by
    unfold PairFacts.build
    rw [hplain]
    rfl
  unfold buildFacts
  rw [hbuild]
  rfl

theorem process_rename (hρ : Function.Injective ρ) (pair : Pair α) (s : TradeState α) :
    (pair.rename ρ).process (s.rename ρ) = Attempt.rename ρ (pair.process s) := by
  have horders : (pair.rename ρ).orders = pair.orders.map (·.rename ρ) := rfl
  unfold process
  rw [buildFacts_rename, horders]
  rcases pair.buildFacts s with ⟨fault | facts, t⟩
  · rfl
  · simp only [Attempt.rename, cancelOrders_rename hρ]
    rcases pair.cancelOrders facts pair.orders t with ⟨fault | survivors, u⟩
    · rfl
    -- Something is created only where no order is left.
    · cases survivors with
      | nil => exact create_rename hρ pair facts u
      | cons o os => rfl

end Pair

/-! ## The loop over pairs -/

namespace Organized

omit [Amount α] in
theorem foldl_addOrder_rename (orders : List (Order α)) (t : Table String (List (Order α))) :
    (orders.map (·.rename ρ)).foldl addOrder (t.mapValues (List.map (·.rename ρ))) =
      (orders.foldl addOrder t).mapValues (List.map (·.rename ρ)) := by
  induction orders generalizing t with
  | nil => rfl
  | cons o os ih =>
      have hadd : addOrder (t.mapValues (List.map (·.rename ρ))) (o.rename ρ) =
          (addOrder t o).mapValues (List.map (·.rename ρ)) := by
        have hget : ((t.mapValues (List.map (·.rename ρ))).get? o.botId).getD [] =
            ((t.get? o.botId).getD []).map (·.rename ρ) := by
          rw [Table.get?_mapValues]
          cases t.get? o.botId <;> rfl
        have hbot : (o.rename ρ).botId = o.botId := rfl
        rw [addOrder, addOrder, hbot, hget, ← Table.put_mapValues, List.map_append]
        rfl
      rw [List.map_cons, List.foldl_cons, List.foldl_cons, hadd, ih]

theorem ofSnapshot_rename (s : Snapshot α) :
    ofSnapshot (s.rename ρ) = (ofSnapshot s).map (·.rename ρ) := by
  have horders : ((s.rename ρ).orders.filter Order.isOpen).foldl addOrder [] =
      ((s.orders.filter Order.isOpen).foldl addOrder []).mapValues (List.map (·.rename ρ)) := by
    rw [← foldl_addOrder_rename]
    simp only [Snapshot.rename, List.filter_map]
    rfl
  have hpositions : (s.rename ρ).positions = s.positions := rfl
  have hbots : (s.rename ρ).bots = s.bots := rfl
  unfold ofSnapshot
  rw [horders, hpositions, hbots]
  cases s.positions.mapM shareEntry with
  | error fault => rfl
  | ok shares => cases s.bots.mapM balanceEntry <;> rfl

omit [Amount α] in
theorem ordersFor_rename (d : Organized α) (botId instrumentId : String) :
    (d.rename ρ).ordersFor botId instrumentId =
      (d.ordersFor botId instrumentId).map (·.rename ρ) := by
  have hget : (d.rename ρ).orders.get? botId = (d.orders.get? botId).map (List.map (·.rename ρ)) :=
    Table.get?_mapValues _ _ _
  unfold ordersFor
  rw [hget]
  cases d.orders.get? botId with
  | none => rfl
  | some os =>
      simp only [Option.map_some, Option.getD_some, List.filter_map]
      rfl

end Organized

namespace Tick

omit [Amount α] in
theorem rulesFor_rename (setup : TickSetup) (bot : Bot α) (ruleSets : Table String RuleDefinition)
    (s : TickState α) :
    rulesFor setup bot ruleSets (s.rename ρ) =
      ((rulesFor setup bot ruleSets s).1, (rulesFor setup bot ruleSets s).2.rename ρ) := by
  have hknown : (s.rename ρ).known = s.known := rfl
  unfold rulesFor
  split
  · rfl
  · rfl
  · rfl
  -- Only looking a strategy up reaches the state, and it reports and remembers.
  · unfold lookUpStrategy
    rw [hknown]
    split
    · rfl
    · simp only [TickState.rename_reportAll]
      rcases storedRules setup.session _ ruleSets with ⟨fault | rules?, notices⟩ <;> rfl

theorem runPair_rename (hρ : Function.Injective ρ) (setup : TickSetup) (pair : Pair α)
    (s : TickState α) :
    runPair setup (pair.rename ρ) (s.rename ρ) = (runPair setup pair s).rename ρ := by
  have hprocess : (pair.rename ρ).process (s.rename ρ).trade = Attempt.rename ρ (pair.process s.trade) :=
    pair.process_rename hρ s.trade
  unfold runPair
  rw [hprocess]
  rcases pair.process s.trade with ⟨fault | o?, trade⟩ <;> rfl

theorem visitBot_rename (hρ : Function.Injective ρ) (setup : TickSetup) (data : Organized α)
    (now : Micros) (instrument : Instrument α) (price : PriceContext α) (bot : Bot α)
    (s : TickState α) :
    visitBot setup (data.rename ρ) now instrument price bot (s.rename ρ) =
      ((visitBot setup data now instrument price bot s).1,
        (visitBot setup data now instrument price bot s).2.rename ρ) := by
  have hpair (rules : List Rule) : pairOf setup (data.rename ρ) now instrument price bot rules =
      (pairOf setup data now instrument price bot rules).rename ρ := by
    unfold pairOf Pair.rename
    rw [data.ordersFor_rename]
    rfl
  have hrules : rulesFor setup bot (data.rename ρ).ruleSets (s.rename ρ) = _ :=
    rulesFor_rename setup bot data.ruleSets s
  unfold visitBot
  rw [hrules]
  rcases rulesFor setup bot data.ruleSets s with ⟨fault | _ | rules, t⟩
  · rfl
  · rfl
  · dsimp only
    rw [hpair, runPair_rename hρ]

theorem visitEach_rename (hρ : Function.Injective ρ) (setup : TickSetup) (data : Organized α)
    (now : Micros) (instrument : Instrument α) (price : PriceContext α) (bots : List (Bot α))
    (s : TickState α) :
    visitEach setup (data.rename ρ) now instrument price bots (s.rename ρ) =
      ((visitEach setup data now instrument price bots s).1,
        (visitEach setup data now instrument price bots s).2.rename ρ) := by
  induction bots generalizing s with
  | nil => rfl
  | cons bot bots ih =>
      rw [visitEach, visitEach, visitBot_rename hρ]
      rcases visitBot setup data now instrument price bot s with ⟨fault | _, t⟩
      · rfl
      · exact ih t

theorem visitInstrument_rename (hρ : Function.Injective ρ) (setup : TickSetup) (data : Organized α)
    (now : Micros) (bots : List (Bot α)) (instrument : Instrument α) (s : TickState α) :
    visitInstrument setup (data.rename ρ) now bots instrument (s.rename ρ) =
      ((visitInstrument setup data now bots instrument s).1,
        (visitInstrument setup data now bots instrument s).2.rename ρ) := by
  have htracker : (s.rename ρ).tracker = s.tracker := rfl
  have haggregates : (data.rename ρ).aggregates = data.aggregates := rfl
  -- Prices are observed before any order is looked at.
  unfold visitInstrument
  rw [htracker]
  rcases s.tracker.observe instrument.id instrument.price with fault | ⟨o, tracker⟩
  · rfl
  · dsimp only
    unfold visitBots
    cases o.before? with
    | none => rfl
    | some previous =>
        dsimp only
        cases Trend.between previous o.current with
        | error fault => rfl
        | ok trend =>
            dsimp only
            rw [haggregates, ← visitEach_rename hρ]
            rfl

theorem visitInstruments_rename (hρ : Function.Injective ρ) (setup : TickSetup) (data : Organized α)
    (now : Micros) (bots : List (Bot α)) (instruments : List (Instrument α)) (s : TickState α) :
    visitInstruments setup (data.rename ρ) now bots instruments (s.rename ρ) =
      ((visitInstruments setup data now bots instruments s).1,
        (visitInstruments setup data now bots instruments s).2.rename ρ) := by
  induction instruments generalizing s with
  | nil => rfl
  | cons instrument rest ih =>
      rw [visitInstruments, visitInstruments, visitInstrument_rename hρ]
      rcases visitInstrument setup data now bots instrument s with ⟨fault | _, t⟩
      · rfl
      · exact ih t

theorem runPairs_rename (hρ : Function.Injective ρ) (setup : TickSetup) (now : Micros)
    (snapshot : Snapshot α) (data : Organized α) (m : TickMemory α) :
    runPairs setup now (snapshot.rename ρ) (data.rename ρ) m =
      ((runPairs setup now snapshot data m).1, (runPairs setup now snapshot data m).2.rename ρ) :=
  visitInstruments_rename hρ setup data now snapshot.bots snapshot.instruments (start data m)

omit [Amount α] in
theorem conclude_rename (setup : TickSetup) (snapshot : Snapshot α) (s : TickState α) :
    conclude setup (snapshot.rename ρ) (s.rename ρ) = (conclude setup snapshot s).rename ρ := by
  -- New orders have no names yet.
  have horders : (s.rename ρ).trade.batch.newOrders = s.trade.batch.newOrders := rfl
  unfold conclude
  rw [horders]
  rcases cutOrders setup.session setup.config.maxOrders s.trade.batch.newOrders with
    ⟨fault | ⟨kept, dropped⟩, notices⟩ <;> rfl

/-- A tick that reads renamed orders decides the same, with the marks renamed, and it remembers the
same. -/
theorem decideScoped_rename (hρ : Function.Injective ρ) (setup : TickSetup)
    (clock : Except NumberFault Micros) (snapshot : Snapshot α) (m : TickMemory α) :
    decideScoped setup clock (snapshot.rename ρ) m =
      (decideScoped setup clock snapshot m).rename ρ := by
  have hprepare : prepare clock (snapshot.rename ρ) =
      (prepare clock snapshot).map fun (data, now) => (data.rename ρ, now) := by
    unfold prepare
    rw [Organized.ofSnapshot_rename]
    cases Organized.ofSnapshot snapshot with
    | error fault => rfl
    | ok data => cases clock <;> rfl
  have hempty : ((snapshot.rename ρ).bots.isEmpty || (snapshot.rename ρ).instruments.isEmpty) =
      (snapshot.bots.isEmpty || snapshot.instruments.isEmpty) := rfl
  unfold decideScoped
  rw [hempty, hprepare]
  split
  · rfl
  · rcases prepare clock snapshot with fault | ⟨data, now⟩
    · rfl
    · simp only [Except.map, runPairs_rename hρ]
      rcases runPairs setup now snapshot data m with ⟨fault | _, s⟩
      · rfl
      · exact conclude_rename setup snapshot s

omit [Amount α] in
/-- Which orders a tick is for does not depend on their names. -/
theorem scope_rename (setup : TickSetup) (snapshot : Snapshot α) :
    scope setup (snapshot.rename ρ) = (scope setup snapshot).rename ρ := by
  have hscopeTo (owners : List String) :
      (snapshot.rename ρ).scopeTo owners = (snapshot.scopeTo owners).rename ρ := by
    simp only [Snapshot.scopeTo, Snapshot.rename, List.filter_map]
    rfl
  unfold scope
  cases setup.ownerId? with
  | some owner => exact hscopeTo [owner]
  | none =>
      cases setup.activeOwners? with
      | some owners => exact hscopeTo owners
      | none => rfl

end Tick

end RuleTrader
