import RuleTrader.Proofs.Market.Organized
import RuleTrader.Proofs.Trading.Lookup
import RuleTrader.Proofs.Trading.Moves

/-!
# The loop over pairs

`Tick.trail` lists the states that the loop over the pairs of a snapshot passes through: between the
pairs, and inside each of them. It is a chain of moves that ends in the state that the loop leaves,
also when the tick is stopped. What every move keeps therefore holds at every point of the loop.
-/

namespace RuleTrader

namespace Tick

variable {α : Type}

/-! ## Around the loop -/

/-- A tick is for all bots, or for those of some owners. -/
theorem scope_cases (setup : TickSetup) (snapshot : Snapshot α) :
    scope setup snapshot = snapshot ∨ ∃ owners, scope setup snapshot = snapshot.scopeTo owners := by
  unfold scope
  split
  · exact Or.inr ⟨_, rfl⟩
  · exact Or.inr ⟨_, rfl⟩
  · exact Or.inl rfl

theorem scope_instruments (setup : TickSetup) (snapshot : Snapshot α) :
    (scope setup snapshot).instruments = snapshot.instruments := by
  rcases scope_cases setup snapshot with heq | ⟨owners, heq⟩
  · rw [heq]
  · rw [heq]
    rfl

theorem scope_bots_sublist (setup : TickSetup) (snapshot : Snapshot α) :
    (scope setup snapshot).bots.Sublist snapshot.bots := by
  rcases scope_cases setup snapshot with heq | ⟨owners, heq⟩
  · rw [heq]
  · rw [heq]
    exact List.filter_sublist

theorem scope_orders_sublist (setup : TickSetup) (snapshot : Snapshot α) :
    (scope setup snapshot).orders.Sublist snapshot.orders := by
  rcases scope_cases setup snapshot with heq | ⟨owners, heq⟩
  · rw [heq]
  · rw [heq]
    exact List.filter_sublist

/-- Narrowing a snapshot takes no open order from a bot that it keeps. -/
theorem openOrders_scope {setup : TickSetup} {snapshot : Snapshot α} {botId instrumentId : String}
    (h : botId ∈ (scope setup snapshot).bots.map (·.id)) :
    (scope setup snapshot).openOrders botId instrumentId =
      snapshot.openOrders botId instrumentId := by
  rcases List.mem_map.1 h with ⟨b, hb, rfl⟩
  rcases scope_cases setup snapshot with heq | ⟨owners, heq⟩
  · rw [heq]
  · rw [heq] at hb ⊢
    exact Snapshot.openOrders_scopeTo hb instrumentId

/-- Nor does it take a position from it. -/
theorem positionsIn_scope {setup : TickSetup} {snapshot : Snapshot α} {botId : String}
    (h : botId ∈ (scope setup snapshot).bots.map (·.id)) (instrumentId : String) :
    (scope setup snapshot).positionsIn botId instrumentId =
      snapshot.positionsIn botId instrumentId := by
  rcases List.mem_map.1 h with ⟨b, hb, rfl⟩
  rcases scope_cases setup snapshot with heq | ⟨owners, heq⟩
  · rw [heq]
  · rw [heq] at hb ⊢
    exact Snapshot.positionsIn_scopeTo hb instrumentId

/-- Nor its rule set. -/
theorem ruleSets_scope {setup : TickSetup} {snapshot : Snapshot α} {b : Bot α}
    (hb : b ∈ (scope setup snapshot).bots) {strategyId : String} (h : b.strategyId? = some strategyId)
    (nonempty : strategyId ≠ "") :
    (scope setup snapshot).ruleSets.get? strategyId = snapshot.ruleSets.get? strategyId := by
  rcases scope_cases setup snapshot with heq | ⟨owners, heq⟩
  · rw [heq]
  · rw [heq] at hb ⊢
    exact Snapshot.ruleSets_scopeTo hb h nonempty

/-- So it leaves a bot that it keeps its rules. -/
theorem rulesOf_scope {setup : TickSetup} {snapshot : Snapshot α} {b : Bot α}
    (hb : b ∈ (scope setup snapshot).bots) (rules? : Option (List Rule)) :
    rulesOf rules? b.strategyId? (scope setup snapshot).ruleSets =
      rulesOf rules? b.strategyId? snapshot.ruleSets :=
  rulesOf_congr fun _ hstrategy nonempty _ => ruleSets_scope hb hstrategy nonempty

theorem governed_scope {setup : TickSetup} {snapshot : Snapshot α} {b : Bot α}
    (hb : b ∈ (scope setup snapshot).bots) :
    Governed setup b.strategyId? (scope setup snapshot).ruleSets ↔
      Governed setup b.strategyId? snapshot.ruleSets := by
  rw [Governed, Governed, rulesOf_scope hb]

theorem aggregates_scope (setup : TickSetup) (snapshot : Snapshot α) :
    (scope setup snapshot).aggregates = snapshot.aggregates := by
  rcases scope_cases setup snapshot with heq | ⟨owners, heq⟩
  · rw [heq]
  · rw [heq]
    rfl

theorem cutOrders_ok {session : String} {cap : Number} {orders kept : List (NewOrder α)}
    {dropped : Int} (h : (cutOrders session cap orders).1 = .ok (kept, dropped)) :
    ∃ n, kept = orders.take n := by
  unfold cutOrders at h
  split at h
  · cases cap with
    | int n =>
        have hkept : (orders.take n.toNat, _) = (kept, dropped) := Except.ok.inj h
        exact ⟨n.toNat, (Prod.mk.inj hkept).1.symm⟩
    | float x => simp at h
  · have hkept : (orders, _) = (kept, dropped) := Except.ok.inj h
    exact ⟨orders.length, by rw [List.take_length, (Prod.mk.inj hkept).1]⟩

/-- The decision of a finished loop has its marks, and its new orders with the last ones cut off. -/
theorem conclude_ok {setup : TickSetup} {snapshot : Snapshot α} {s : TickState α}
    {d : TickDecision α} (h : (conclude setup snapshot s).result = .ok d) :
    d.cancelIds = s.trade.batch.cancelIds ∧ ∃ n, d.newOrders = s.trade.batch.newOrders.take n := by
  simp only [conclude] at h
  rcases hcut : (cutOrders setup.session setup.config.maxOrders s.trade.batch.newOrders).1 with
    fault | ⟨kept, dropped⟩
  · simp [hcut, Except.map] at h
  · simp only [hcut, Except.map, Except.ok.injEq] at h
    rcases cutOrders_ok hcut with ⟨n, hkept⟩
    refine ⟨?_, n, ?_⟩
    · rw [← h]
    · rw [← h]
      exact hkept

/-! ## Moves -/

variable [Amount α]

/-- A pair that a tick processes: one of its bots on one of its instruments, with the open orders
and the shares that the snapshot has for it. -/
structure Visits (snapshot : Snapshot α) (data : Organized α) (pair : Pair α) : Prop where
  bot : pair.bot ∈ snapshot.bots
  instrument : pair.instrument ∈ snapshot.instruments
  orders : pair.orders = data.ordersFor pair.bot.id pair.instrument.id
  shares : pair.shares = Amount.ofInt (data.sharesOwned pair.bot.id pair.instrument.id)

/-- A visited pair has the open orders that the snapshot has for it. -/
theorem Visits.orders_eq {snapshot : Snapshot α} {data : Organized α} {pair : Pair α}
    (h : Visits snapshot data pair) (hdata : Organized.ofSnapshot snapshot = .ok data) :
    pair.orders = snapshot.openOrders pair.bot.id pair.instrument.id :=
  h.orders.trans (Organized.ordersFor_eq hdata _ _)

/-- One change of what the pairs of a tick share: a move of a pair, or one between two pairs, where
money and batch stay as they are. -/
inductive Move (snapshot : Snapshot α) (data : Organized α) (s t : TradeState α) : Prop where
  | between (balances : t.balances = s.balances) (batch : t.batch = s.batch)
  | ofPair {pair : Pair α} (visits : Visits snapshot data pair) (move : pair.Move s t)

/-! ## One bot -/

/-- The states that visiting a bot passes through. -/
def visitBotTrail (setup : TickSetup) (data : Organized α) (now : Micros)
    (instrument : Instrument α) (price : PriceContext α) (bot : Bot α) (s : TickState α) :
    List (TradeState α) :=
  match rulesFor setup bot data.ruleSets s with
  | (.error _, s) => [s.trade]
  | (.ok none, s) => [s.trade]
  | (.ok (some rules), s) =>
    let pair := pairOf setup data now instrument price bot rules
    s.trade :: (pair.trail s.trade ++ [(runPair setup pair s).trade])

variable {setup : TickSetup} {snapshot : Snapshot α} {data : Organized α} {now : Micros}

theorem runPair_trail {pair : Pair α} (visits : Visits snapshot data pair) (s : TickState α) :
    Trail (Move snapshot data) s.trade (pair.trail s.trade ++ [(runPair setup pair s).trade])
      (runPair setup pair s).trade := by
  have hprocess : Trail (Move snapshot data) s.trade (pair.trail s.trade) (pair.process s.trade).2 :=
    (pair.process_trail s.trade).mono (.ofPair visits)
  refine hprocess.append (.single ?_)
  -- A failure is reported, which changes neither money nor batch.
  unfold runPair
  split
  · next hpair => exact .between (by rw [hpair]) (by rw [hpair])
  · next hpair => exact .between (by rw [hpair]; rfl) (by rw [hpair]; rfl)

theorem visitBot_trail {instrument : Instrument α} {bot : Bot α}
    (hinstrument : instrument ∈ snapshot.instruments) (hbot : bot ∈ snapshot.bots)
    (price : PriceContext α) (s : TickState α) :
    Trail (Move snapshot data) s.trade (visitBotTrail setup data now instrument price bot s)
      (visitBot setup data now instrument price bot s).2.trade := by
  have hsame := rulesFor_keeps setup bot data.ruleSets s
  have hrules : Move snapshot data s.trade (rulesFor setup bot data.ruleSets s).2.trade :=
    .between hsame.1 hsame.2.1
  unfold visitBotTrail visitBot
  rcases hfor : rulesFor setup bot data.ruleSets s with ⟨fault | _ | rules, t⟩
  · rw [hfor] at hrules
    exact .single hrules
  · rw [hfor] at hrules
    exact .single hrules
  · rw [hfor] at hrules
    exact .cons hrules (runPair_trail ⟨hbot, hinstrument, rfl, rfl⟩ t)

/-! ## All pairs -/

/-- The states that visiting several bots on an instrument passes through, up to the first that stops
the tick. -/
def visitEachTrail (setup : TickSetup) (data : Organized α) (now : Micros)
    (instrument : Instrument α) (price : PriceContext α) :
    List (Bot α) → TickState α → List (TradeState α)
  | [], _ => []
  | bot :: bots, s =>
    visitBotTrail setup data now instrument price bot s ++
      match visitBot setup data now instrument price bot s with
      | (.error _, _) => []
      | (.ok (), s) => visitEachTrail setup data now instrument price bots s

theorem visitEach_trail {instrument : Instrument α} {bots : List (Bot α)}
    (hinstrument : instrument ∈ snapshot.instruments) (hbots : bots ⊆ snapshot.bots)
    (price : PriceContext α) (s : TickState α) :
    Trail (Move snapshot data) s.trade
      (visitEachTrail setup data now instrument price bots s)
      (visitEach setup data now instrument price bots s).2.trade := by
  induction bots generalizing s with
  | nil => exact .nil s.trade
  | cons bot bots ih =>
      rw [List.cons_subset] at hbots
      have hfirst : Trail (Move snapshot data) s.trade
          (visitBotTrail setup data now instrument price bot s)
          (visitBot setup data now instrument price bot s).2.trade :=
        visitBot_trail hinstrument hbots.1 price s
      unfold visitEachTrail visitEach
      rcases hvisit : visitBot setup data now instrument price bot s with ⟨_ | _, t⟩
      · rw [hvisit] at hfirst
        simpa using hfirst
      · rw [hvisit] at hfirst
        exact hfirst.append (ih hbots.2 t)

/-- The states that visiting the bots on an instrument passes through. -/
def visitBotsTrail (setup : TickSetup) (data : Organized α) (now : Micros) (bots : List (Bot α))
    (instrument : Instrument α) (o : Observation α) (s : TickState α) : List (TradeState α) :=
  match o.before? with
  | none => [(s.report (firstNotice setup instrument)).trade]
  | some previous =>
    match Trend.between previous o.current with
    | .error _ => []
    | .ok trend =>
      let s := s.report (nextNotice setup instrument previous trend)
      s.trade :: visitEachTrail setup data now instrument
        (priceContext o previous trend (data.aggregates.get? instrument.id)) bots s

theorem visitBots_trail {instrument : Instrument α}
    (hinstrument : instrument ∈ snapshot.instruments) (o : Observation α) (s : TickState α) :
    Trail (Move snapshot data) s.trade
      (visitBotsTrail setup data now snapshot.bots instrument o s)
      (visitBots setup data now snapshot.bots instrument o s).2.trade := by
  unfold visitBotsTrail visitBots
  cases o.before? with
  | none => exact .single (.between rfl rfl)
  | some previous =>
      dsimp only
      cases Trend.between previous o.current with
      | error fault => exact .nil s.trade
      | ok trend =>
          exact .cons (.between rfl rfl)
            (visitEach_trail hinstrument (List.Subset.refl snapshot.bots) _ _)

/-- The states that visiting an instrument passes through. -/
def visitInstrumentTrail (setup : TickSetup) (data : Organized α) (now : Micros)
    (bots : List (Bot α)) (instrument : Instrument α) (s : TickState α) : List (TradeState α) :=
  match s.tracker.observe instrument.id instrument.price with
  | .error _ => []
  | .ok (o, tracker) => visitBotsTrail setup data now bots instrument o { s with tracker }

theorem visitInstrument_trail {instrument : Instrument α}
    (hinstrument : instrument ∈ snapshot.instruments) (s : TickState α) :
    Trail (Move snapshot data) s.trade
      (visitInstrumentTrail setup data now snapshot.bots instrument s)
      (visitInstrument setup data now snapshot.bots instrument s).2.trade := by
  unfold visitInstrumentTrail visitInstrument
  cases s.tracker.observe instrument.id instrument.price with
  | error fault => exact .nil s.trade
  | ok observed =>
      rcases observed with ⟨o, tracker⟩
      exact visitBots_trail hinstrument o { s with tracker }

/-- The states that visiting instruments passes through, up to the first that stops the tick. -/
def visitInstrumentsTrail (setup : TickSetup) (data : Organized α) (now : Micros)
    (bots : List (Bot α)) : List (Instrument α) → TickState α → List (TradeState α)
  | [], _ => []
  | instrument :: rest, s =>
    visitInstrumentTrail setup data now bots instrument s ++
      match visitInstrument setup data now bots instrument s with
      | (.error _, _) => []
      | (.ok (), s) => visitInstrumentsTrail setup data now bots rest s

theorem visitInstruments_trail {instruments : List (Instrument α)}
    (hinstruments : instruments ⊆ snapshot.instruments) (s : TickState α) :
    Trail (Move snapshot data) s.trade
      (visitInstrumentsTrail setup data now snapshot.bots instruments s)
      (visitInstruments setup data now snapshot.bots instruments s).2.trade := by
  induction instruments generalizing s with
  | nil => exact .nil s.trade
  | cons instrument rest ih =>
      rw [List.cons_subset] at hinstruments
      have hfirst : Trail (Move snapshot data) s.trade
          (visitInstrumentTrail setup data now snapshot.bots instrument s)
          (visitInstrument setup data now snapshot.bots instrument s).2.trade :=
        visitInstrument_trail hinstruments.1 s
      unfold visitInstrumentsTrail visitInstruments
      rcases hvisit : visitInstrument setup data now snapshot.bots instrument s with ⟨_ | _, t⟩
      · -- The tick is stopped, and the other instruments are not visited.
        rw [hvisit] at hfirst
        simpa using hfirst
      · rw [hvisit] at hfirst
        exact hfirst.append (ih hinstruments.2 t)

/-- The states that the loop over the pairs passes through, from the one before the first pair. -/
def trail (setup : TickSetup) (now : Micros) (snapshot : Snapshot α) (data : Organized α)
    (m : TickMemory α) : List (TradeState α) :=
  (start data m).trade ::
    visitInstrumentsTrail setup data now snapshot.bots snapshot.instruments (start data m)

/-- The loop over the pairs is a chain of moves, also when it is stopped. -/
theorem runPairs_trail (setup : TickSetup) (now : Micros) (snapshot : Snapshot α)
    (data : Organized α) (m : TickMemory α) :
    Trail (Move snapshot data) (start data m).trade (trail setup now snapshot data m).tail
      (runPairs setup now snapshot data m).2.trade :=
  visitInstruments_trail (List.Subset.refl snapshot.instruments) _

/-! ## The decision -/

/-- A decision is empty because there is nothing to do, or it is what the loop over the pairs left, with
the last new orders cut off. -/
theorem decideScoped_ok {setup : TickSetup} {clock : Except NumberFault Micros}
    {snapshot : Snapshot α} {m : TickMemory α} {d : TickDecision α}
    (h : (decideScoped setup clock snapshot m).result = .ok d) :
    ((snapshot.bots = [] ∨ snapshot.instruments = []) ∧ d.cancelIds = [] ∧ d.newOrders = []) ∨
    ∃ data now n, Organized.ofSnapshot snapshot = .ok data ∧ clock = .ok now ∧
      d.cancelIds = (runPairs setup now snapshot data m).2.trade.batch.cancelIds ∧
      d.newOrders = (runPairs setup now snapshot data m).2.trade.batch.newOrders.take n := by
  unfold decideScoped at h
  split at h
  · next hidle =>
      have hd := Except.ok.inj h
      exact Or.inl ⟨by simpa using hidle, by rw [← hd], by rw [← hd]⟩
  · cases hprepare : prepare clock snapshot with
    | error fault => simp [hprepare] at h
    | ok prepared =>
        rcases bind_ok hprepare with ⟨data, hdata, hprepare⟩
        rcases bind_ok hprepare with ⟨now, hclock, hprepared⟩
        rw [prepare, hdata, hclock] at h
        -- A loop that is stopped decides nothing.
        rcases hrun : runPairs setup now snapshot data m with ⟨fault | _, s⟩
        · simp [hrun, bind, Except.bind, pure, Except.pure] at h
        · simp only [hrun, bind, Except.bind, pure, Except.pure] at h
          rcases conclude_ok h with ⟨hcancel, n, hnew⟩
          refine Or.inr ⟨data, now, n, hdata, hclock, ?_, ?_⟩
          · rw [hrun]
            exact hcancel
          · rw [hrun]
            exact hnew

theorem decide_ok {setup : TickSetup} {clock : Except NumberFault Micros} {snapshot : Snapshot α}
    {m : TickMemory α} {d : TickDecision α} (h : (decide setup clock snapshot m).result = .ok d) :
    (d.cancelIds = [] ∧ d.newOrders = []) ∨
    ∃ data now n, Organized.ofSnapshot (scope setup snapshot) = .ok data ∧ clock = .ok now ∧
      d.cancelIds =
        (runPairs setup now (scope setup snapshot) data m).2.trade.batch.cancelIds ∧
      d.newOrders =
        (runPairs setup now (scope setup snapshot) data m).2.trade.batch.newOrders.take n := by
  rcases decideScoped_ok h with ⟨-, hnothing⟩ | hloop
  · exact Or.inl hnothing
  · exact Or.inr hloop

end Tick

end RuleTrader
