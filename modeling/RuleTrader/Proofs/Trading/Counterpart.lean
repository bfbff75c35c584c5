import RuleTrader.Proofs.Trading.Separation
import RuleTrader.Proofs.Trading.Valued

/-!
# The counterpart of a tick

A tick on a snapshot that counts in integers, and a tick on a snapshot with values, decide the same when
the two snapshots match: the bots, the instruments and the open orders are the same up to the kind of their
amounts, the bots have the same shares, and the rules of each bot are alike (`Tick.decide_matches`). The
tracker and the random source match again after the tick.
-/

namespace RuleTrader

/-! ## The same with values -/

def Observation.valued (o : Observation Int) : Observation Value where
  current := .int o.current
  previous? := o.previous?.map .int
  history := o.history.map .int

def PriceTracker.valued (t : PriceTracker Int) : PriceTracker Value where
  capacity := t.capacity
  lastPrices := t.lastPrices.mapValues .int
  histories := t.histories.mapValues (List.map .int)

def TickMemory.valued (m : TickMemory Int) : TickMemory Value := ⟨m.tracker.valued, m.random⟩

def TickDecision.valued (d : TickDecision Int) : TickDecision Value :=
  { d with newOrders := d.newOrders.map (·.valued) }

/-- Two outcomes of a tick with the same fault or the same decision, and with the same memory. -/
structure TickOutcome.Matches (x : TickOutcome Int) (y : TickOutcome Value) : Prop where
  result : SameOutcome (fun d e => e = d.valued) x.result y.result
  memory : y.memory = x.memory.valued

/-! ## Prices -/

theorem PriceTracker.observe_valued (t : PriceTracker Int) (instrumentId : String) (price : Int) :
    t.valued.observe instrumentId (.int price) =
      (t.observe instrumentId price).map fun (o, t) => (o.valued, t.valued) := by
  have hhas : t.valued.histories.has instrumentId = t.histories.has instrumentId := by
    simp only [Table.has, PriceTracker.valued, Table.get?_mapValues, Option.isSome_map]
  have hhistory : t.valued.history instrumentId = (t.history instrumentId).map .int := by
    simp only [history, PriceTracker.valued, Table.get?_mapValues]
    cases t.histories.get? instrumentId <;> rfl
  have hcapacity : t.valued.capacity = t.capacity := rfl
  unfold observe
  rw [hhas, hcapacity, hhistory]
  split
  · rfl
  · have hlast : lastOf t.capacity ((t.history instrumentId).map .int ++ [Value.int price]) =
        (lastOf t.capacity (t.history instrumentId ++ [price])).map .int := by
      rw [map_lastOf, List.map_append]
      rfl
    rw [hlast]
    simp only [Except.map, PriceTracker.valued, Observation.valued, Table.get?_mapValues,
      Table.put_mapValues]

theorem Observation.before?_valued (o : Observation Int) : o.valued.before? = o.before?.map .int := by
  unfold before?
  cases hprevious : o.previous? with
  | none => simp [Observation.valued, hprevious]
  | some previous =>
      have hmissing : Amount.isMissing (Value.int previous) = false := rfl
      simp [Observation.valued, hprevious, Option.filter, hmissing]

namespace Tick

/-! ## Looking for rules -/

/-- Rules that are alike are usable alike. -/
theorem checked_alike {a? b? : Option (List Rule)} (h : Option.Rel (List.Forall₂ Rule.Alike) a? b?) :
    SameOutcome (Option.Rel (List.Forall₂ Rule.Alike)) (checked a?) (checked b?) := by
  cases h with
  | none => exact .ok .none
  | some alike =>
      rw [checked, checked, PairFacts.indicatorKeys_alike alike]
      cases Rule.indicatorKeys _ with
      | error fault => exact .error fault
      | ok keys => exact .ok (.some alike)

theorem checkedRules_alike {rules? : Option (List Rule)} {strategyId? : Option String}
    {ruleSets ruleSets' : Table String RuleDefinition}
    (h : Option.Rel (List.Forall₂ Rule.Alike) (rulesOf rules? strategyId? ruleSets)
      (rulesOf rules? strategyId? ruleSets')) :
    SameOutcome (Option.Rel (List.Forall₂ Rule.Alike)) (checkedRules rules? strategyId? ruleSets)
      (checkedRules rules? strategyId? ruleSets') := by
  cases rules? with
  | some rules => exact .ok h
  | none => exact checked_alike h

/-! ## The loop over pairs -/

/-- Two states of loops over different data that stand between two pairs. -/
structure Matches (d : Organized Int) (e : Organized Value) (s : TickState Int) (t : TickState Value) :
    Prop where
  tracker : t.tracker = s.tracker.valued
  trade : s.trade.Matches t.trade
  pairErrors : t.pairErrors = s.pairErrors
  informed : Informed d.ruleSets s
  informed' : Informed e.ruleSets t

/-- Tables that hold the same for some bots, with rules that are alike. -/
structure MatchFor (setup : TickSetup) (bots : List (Bot Int)) (d : Organized Int) (e : Organized Value) :
    Prop where
  orders : ∀ b ∈ bots, ∀ instrumentId,
    e.ordersFor b.id instrumentId = (d.ordersFor b.id instrumentId).map (·.valued)
  shares : ∀ b ∈ bots, ∀ instrumentId, e.sharesOwned b.id instrumentId = d.sharesOwned b.id instrumentId
  rules : ∀ b ∈ bots, Option.Rel (List.Forall₂ Rule.Alike)
    (rulesOf setup.rules? b.strategyId? d.ruleSets) (rulesOf setup.rules? b.strategyId? e.ruleSets)
  aggregates : ∀ instrumentId,
    e.aggregates.get? instrumentId = (d.aggregates.get? instrumentId).map (·.valued)

section Loop

variable {setup : TickSetup} {bots : List (Bot Int)} {d : Organized Int} {e : Organized Value}
  {now : Micros} {s : TickState Int} {t : TickState Value}

theorem Matches.memory (h : Matches d e s t) : t.memory = s.memory.valued := by
  rw [TickState.memory, TickState.memory, h.tracker, h.trade.random]
  rfl

theorem Matches.report (h : Matches d e s t) (n n' : Notice) : Matches d e (s.report n) (t.report n') :=
  ⟨h.tracker, h.trade.report n n', h.pairErrors, h.informed, h.informed'⟩

theorem runPair_matches {pair : Pair Int} {rules : List Rule}
    (hrules : List.Forall₂ Rule.Alike pair.rules rules) (h : Matches d e s t) :
    Matches d e (runPair setup pair s) (runPair setup (pair.valued rules) t) := by
  unfold runPair
  rcases (Pair.process_matches hrules h.trade).cases with
    ⟨fault, s', t', hs, ht, hstate⟩ | ⟨_, _, s', t', hs, ht, -, hstate⟩
  · rw [hs, ht]
    exact ⟨h.tracker, hstate.report _ _, by dsimp only; rw [h.pairErrors], h.informed, h.informed'⟩
  · rw [hs, ht]
    exact ⟨h.tracker, hstate, h.pairErrors, h.informed, h.informed'⟩

theorem visitBot_matches (data : MatchFor setup bots d e) (now : Micros) {b : Bot Int} (hb : b ∈ bots)
    (instrument : Instrument Int) (price : PriceContext Int) (h : Matches d e s t) :
    (visitBot setup e now instrument.valued price.valued b.valued t).1 =
        (visitBot setup d now instrument price b s).1 ∧
      Matches d e (visitBot setup d now instrument price b s).2
        (visitBot setup e now instrument.valued price.valued b.valued t).2 := by
  have hrules := rulesFor_informed setup b h.informed
  have hrules' := rulesFor_informed setup b.valued h.informed'
  have halike := checkedRules_alike (data.rules b hb)
  rcases rulesFor_eq setup b d.ruleSets s with ⟨notices, known, hs⟩
  rcases rulesFor_eq setup b.valued e.ruleSets t with ⟨notices', known', ht⟩
  have hstate : Matches d e (rulesFor setup b d.ruleSets s).2 (rulesFor setup b.valued e.ruleSets t).2 := by
    refine ⟨?_, ?_, ?_, hrules.2, hrules'.2⟩
    · rw [hs, ht]
      exact h.tracker
    · rw [hs, ht]
      exact ⟨h.trade.balances, h.trade.batch, h.trade.random⟩
    · rw [hs, ht]
      exact h.pairErrors
  have hstrategy : b.valued.strategyId? = b.strategyId? := rfl
  rw [hstrategy] at hrules'
  rw [← hrules.1, ← hrules'.1] at halike
  unfold visitBot
  generalize rulesFor setup b d.ruleSets s = x, rulesFor setup b.valued e.ruleSets t = y at halike hstate
  rcases x with ⟨found, s'⟩
  rcases y with ⟨found', t'⟩
  rcases halike.cases with ⟨fault, rfl, rfl⟩ | ⟨rules?, rules'?, rfl, rfl, hsame⟩
  · exact ⟨rfl, hstate⟩
  · cases hsame with
    | none => exact ⟨rfl, hstate⟩
    | @some rules rules' alike =>
        -- It is the same pair, up to the kind of its amounts and to rules that are alike.
        have hpair : pairOf setup e now instrument.valued price.valued b.valued rules' =
            (pairOf setup d now instrument price b rules).valued rules' := by
          have horders := data.orders b hb instrument.id
          have hshares := data.shares b hb instrument.id
          have haggregate := data.aggregates instrument.id
          simp only [pairOf, Pair.valued, Bot.valued, Instrument.valued, horders, hshares, haggregate]
          rfl
        dsimp only
        rw [hpair]
        have hrules : List.Forall₂ Rule.Alike (pairOf setup d now instrument price b rules).rules rules' :=
          alike
        exact ⟨rfl, runPair_matches hrules hstate⟩

theorem visitEach_matches (data : MatchFor setup bots d e) {visited : List (Bot Int)} (hsub : visited ⊆ bots)
    (instrument : Instrument Int) (price : PriceContext Int) (h : Matches d e s t) :
    (visitEach setup e now instrument.valued price.valued (visited.map (·.valued)) t).1 =
        (visitEach setup d now instrument price visited s).1 ∧
      Matches d e (visitEach setup d now instrument price visited s).2
        (visitEach setup e now instrument.valued price.valued (visited.map (·.valued)) t).2 := by
  induction visited generalizing s t with
  | nil => exact ⟨rfl, h⟩
  | cons b visited ih =>
      rw [List.cons_subset] at hsub
      have hfirst := visitBot_matches data now hsub.1 instrument price h
      rcases hs : visitBot setup d now instrument price b s with ⟨result, s'⟩
      rcases ht : visitBot setup e now instrument.valued price.valued b.valued t with ⟨result', t'⟩
      rw [hs, ht] at hfirst
      rcases hfirst with ⟨hresult, hstate⟩
      obtain rfl : result' = result := hresult
      simp only [List.map_cons, visitEach, hs, ht]
      cases result' with
      | error fault => exact ⟨rfl, hstate⟩
      | ok _ => exact ih hsub.2 hstate

theorem visitInstrument_matches (data : MatchFor setup bots d e) (now : Micros)
    (instrument : Instrument Int) (h : Matches d e s t) :
    (visitInstrument setup e now (bots.map (·.valued)) instrument.valued t).1 =
        (visitInstrument setup d now bots instrument s).1 ∧
      Matches d e (visitInstrument setup d now bots instrument s).2
        (visitInstrument setup e now (bots.map (·.valued)) instrument.valued t).2 := by
  have hobserve : t.tracker.observe instrument.valued.id instrument.valued.price = _ :=
    h.tracker ▸ s.tracker.observe_valued instrument.id instrument.price
  unfold visitInstrument
  rw [hobserve]
  rcases s.tracker.observe instrument.id instrument.price with fault | ⟨o, tracker⟩
  · exact ⟨rfl, h⟩
  · -- The price is recorded on both sides, also where nothing else comes of it.
    have hobserved : Matches d e { s with tracker } { t with tracker := tracker.valued } :=
      ⟨rfl, h.trade, h.pairErrors, h.informed, h.informed'⟩
    simp only [Except.map, visitBots, Observation.before?_valued]
    cases o.before? with
    | none => exact ⟨rfl, hobserved.report _ _⟩
    | some previous =>
        have htrend : Trend.between (Value.int previous) o.valued.current =
            Trend.between previous o.current := rfl
        simp only [Option.map_some, htrend]
        cases Trend.between previous o.current with
        | error fault => exact ⟨rfl, hobserved⟩
        | ok trend =>
            have hprice : priceContext o.valued (Value.int previous) trend
                (e.aggregates.get? instrument.valued.id) =
                (priceContext o previous trend (d.aggregates.get? instrument.id)).valued := by
              have haggregate : e.aggregates.get? instrument.valued.id = _ := data.aggregates instrument.id
              rw [haggregate]
              cases d.aggregates.get? instrument.id <;> rfl
            dsimp only
            rw [hprice]
            exact visitEach_matches data (List.Subset.refl bots) instrument _ (hobserved.report _ _)

theorem visitInstruments_matches (data : MatchFor setup bots d e) (now : Micros)
    (instruments : List (Instrument Int)) (h : Matches d e s t) :
    (visitInstruments setup e now (bots.map (·.valued)) (instruments.map (·.valued)) t).1 =
        (visitInstruments setup d now bots instruments s).1 ∧
      Matches d e (visitInstruments setup d now bots instruments s).2
        (visitInstruments setup e now (bots.map (·.valued)) (instruments.map (·.valued)) t).2 := by
  induction instruments generalizing s t with
  | nil => exact ⟨rfl, h⟩
  | cons instrument rest ih =>
      have hfirst := visitInstrument_matches data now instrument h
      rcases hs : visitInstrument setup d now bots instrument s with ⟨result, s'⟩
      rcases ht : visitInstrument setup e now (bots.map (·.valued)) instrument.valued t with ⟨result', t'⟩
      rw [hs, ht] at hfirst
      rcases hfirst with ⟨hresult, hstate⟩
      obtain rfl : result' = result := hresult
      simp only [List.map_cons, visitInstruments, hs, ht]
      -- A fault stops both loops.
      cases result' with
      | error fault => exact ⟨rfl, hstate⟩
      | ok _ => exact ih hstate

end Loop

/-! ## The batch -/

theorem cutOrders_valued (session : String) (cap : Number) (orders : List (NewOrder Int)) :
    cutOrders session cap (orders.map (·.valued)) =
      ((cutOrders session cap orders).1.map fun (kept, dropped) => (kept.map (·.valued), dropped),
        (cutOrders session cap orders).2) := by
  unfold cutOrders
  rw [List.length_map]
  split
  · cases cap with
    | int n => simp [Except.map, List.map_take]
    | float x => rfl
  · rfl

end Tick

/-! ## Snapshots -/

/-- Two definitions that give no rules, or rules that are alike. -/
def RuleDefinition.Alike (a? b? : Option RuleDefinition) : Prop :=
  Option.Rel (List.Forall₂ Rule.Alike) (Tick.definedRules a?) (Tick.definedRules b?)

theorem RuleDefinition.Alike.refl (a? : Option RuleDefinition) : RuleDefinition.Alike a? a? := by
  unfold RuleDefinition.Alike
  cases Tick.definedRules a? with
  | none => exact .none
  | some rules => exact .some (List.forall₂_refl rules)

/-- Two snapshots that match. They may list the positions of accounts that are no bots, and the rules that
no bot uses, differently. -/
structure Snapshot.Matches (s : Snapshot Int) (t : Snapshot Value) : Prop where
  bots : t.bots = s.bots.map (·.valued)
  instruments : t.instruments = s.instruments.map (·.valued)
  orders : t.orders = s.orders.map (·.valued)
  positions : ∃ held : List (Position Int), t.positions = held.map (·.valued) ∧
    ∀ b ∈ s.bots, ∀ instrumentId,
      { s with positions := held }.positionsIn b.id instrumentId = s.positionsIn b.id instrumentId
  ruleSets : ∀ b ∈ s.bots, ∀ strategyId, b.strategyId? = some strategyId → strategyId ≠ "" →
    RuleDefinition.Alike (s.ruleSets.get? strategyId) (t.ruleSets.get? strategyId)
  aggregates : t.aggregates = s.aggregates.map (·.valued)

namespace Snapshot.Matches

variable {s : Snapshot Int} {t : Snapshot Value}

theorem scopeTo_bots (h : s.Matches t) (owners : List String) :
    (t.scopeTo owners).bots = (s.scopeTo owners).bots.map (·.valued) := by
  simp only [Snapshot.scopeTo, h.bots, List.filter_map]
  rfl

theorem scope_bots (h : s.Matches t) (setup : TickSetup) :
    (Tick.scope setup t).bots = (Tick.scope setup s).bots.map (·.valued) := by
  unfold Tick.scope
  split
  · exact h.scopeTo_bots _
  · exact h.scopeTo_bots _
  · exact h.bots

/-- What is kept of the orders, and of any positions, depends on the names of the bots. -/
theorem scope_kept (h : s.Matches t) (setup : TickSetup) {held : List (Position Int)}
    (hheld : t.positions = held.map (·.valued)) :
    (Tick.scope setup t).orders = (Tick.scope setup s).orders.map (·.valued) ∧
      (Tick.scope setup t).positions =
        (Tick.scope setup { s with positions := held }).positions.map (·.valued) ∧
      (Tick.scope setup { s with positions := held }).bots = (Tick.scope setup s).bots := by
  have hids (owners : List String) : ((t.scopeTo owners).bots.map (·.id)) =
      (s.scopeTo owners).bots.map (·.id) := by
    rw [h.scopeTo_bots, List.map_map]
    rfl
  have hscopeTo (owners : List String) : (t.scopeTo owners).orders = (s.scopeTo owners).orders.map (·.valued) ∧
      (t.scopeTo owners).positions =
        (({ s with positions := held } : Snapshot Int).scopeTo owners).positions.map (·.valued) := by
    have hnarrow := hids owners
    simp only [Snapshot.scopeTo] at hnarrow ⊢
    simp only [hnarrow, h.orders, hheld, List.filter_map]
    exact ⟨rfl, rfl⟩
  unfold Tick.scope
  split
  · exact ⟨(hscopeTo _).1, (hscopeTo _).2, rfl⟩
  · exact ⟨(hscopeTo _).1, (hscopeTo _).2, rfl⟩
  · exact ⟨h.orders, hheld, rfl⟩

/-- Snapshots that match do so when they are narrowed to the bots of a tick. -/
theorem scope (h : s.Matches t) (setup : TickSetup) : (Tick.scope setup s).Matches (Tick.scope setup t) := by
  rcases h.positions with ⟨held, hheld, hsame⟩
  rcases h.scope_kept setup hheld with ⟨horders, hpositions, hbots⟩
  refine ⟨h.scope_bots setup, ?_, horders, ⟨_, hpositions, ?_⟩, ?_, ?_⟩
  · rw [Tick.scope_instruments, Tick.scope_instruments, h.instruments]
  · intro b hb instrumentId
    have hid : b.id ∈ (Tick.scope setup s).bots.map (·.id) := List.mem_map_of_mem hb
    have hheld := Tick.positionsIn_scope (hbots.symm ▸ hid) instrumentId
    rw [Tick.positionsIn_scope hid]
    exact hheld.trans (hsame b ((Tick.scope_bots_sublist setup s).subset hb) instrumentId)
  · intro b hb strategyId hstrategy nonempty
    have hb' : b.valued ∈ (Tick.scope setup t).bots := h.scope_bots setup ▸ List.mem_map_of_mem hb
    rw [Tick.ruleSets_scope hb hstrategy nonempty, Tick.ruleSets_scope hb' hstrategy nonempty]
    exact h.ruleSets b ((Tick.scope_bots_sublist setup s).subset hb) strategyId hstrategy nonempty
  · rw [Tick.aggregates_scope, Tick.aggregates_scope, h.aggregates]

/-- Snapshots that match can both be organized, into tables that hold the same. -/
theorem organized (h : s.Matches t) (setup : TickSetup) :
    ∃ e, Organized.ofSnapshot t = .ok e ∧ e.balances = (Organized.ofInts s).balances ∧
      Tick.MatchFor setup s.bots (.ofInts s) e := by
  rcases h.positions with ⟨held, hheld, hsame⟩
  have hshares : t.positions.mapM Organized.shareEntry =
      .ok (held.map fun p => ((p.botId, p.instrumentId), p.shares)) := by
    rw [hheld, List.mapM_map]
    exact mapM_ok _ _ (fun _ => rfl) held
  have hbalances : t.bots.mapM Organized.balanceEntry = .ok (s.bots.map fun b => (b.id, b.balance)) := by
    rw [h.bots, List.mapM_map]
    exact mapM_ok _ _ (fun _ => rfl) s.bots
  have he : Organized.ofSnapshot t = .ok {
      orders := (t.orders.filter Order.isOpen).foldl Organized.addOrder []
      shares := .ofList (held.map fun p => ((p.botId, p.instrumentId), p.shares))
      balances := .ofList (s.bots.map fun b => (b.id, b.balance))
      ruleSets := t.ruleSets
      aggregates := .ofList (t.aggregates.map fun a => (a.instrumentId, a)) } := by
    rw [Organized.ofSnapshot, hshares, hbalances]
    rfl
  refine ⟨_, he, rfl, ?_, ?_, ?_, ?_⟩
  · intro b _ instrumentId
    rw [Organized.ordersFor_eq he, Organized.ordersFor_eq (Organized.ofSnapshot_int s), openOrders,
      openOrders, h.orders, Order.openIn, Order.openIn, List.filter_map]
    rfl
  · -- The tables of shares may differ for other accounts, so they are compared bot by bot.
    intro b hb instrumentId
    exact Organized.sharesOwned_congr (Organized.ofSnapshot_int { s with positions := held })
      (Organized.ofSnapshot_int s) (hsame b hb instrumentId)
  · intro b hb
    have hstrategy := h.ruleSets b hb
    unfold Tick.rulesOf
    cases setup.rules? with
    | some rules => exact .some (List.forall₂_refl rules)
    | none =>
        cases hid : b.strategyId? with
        | none => exact .none
        | some strategyId =>
            by_cases hempty : strategyId = ""
            · subst hempty
              exact .none
            · simpa [hempty, Organized.ofInts, RuleDefinition.Alike] using hstrategy strategyId hid hempty
  · intro instrumentId
    simp only [Organized.ofInts, Table.get?_ofList, h.aggregates, List.filter_map, List.getLast?_map,
      List.map_map, Option.map_map]
    rfl

end Snapshot.Matches

/-! ## The decision -/

namespace Tick

variable {s : Snapshot Int} {t : Snapshot Value}

theorem start_matches {d : Organized Int} {e : Organized Value} (hbalances : e.balances = d.balances)
    (m : TickMemory Int) : Matches d e (start d m) (start e m.valued) := by
  refine ⟨rfl, ⟨?_, rfl, rfl⟩, rfl, ?_, ?_⟩
  · simp only [start, hbalances, Table.mapValues, List.map_map]
    rfl
  · intro strategyId rules? hknown
    cases hknown
  · intro strategyId rules? hknown
    cases hknown

theorem conclude_matches {d : Organized Int} {e : Organized Value} {x : TickState Int} {y : TickState Value}
    (h : s.Matches t) (hloop : Matches d e x y) (setup : TickSetup) :
    (conclude setup s x).Matches (conclude setup t y) := by
  have hnew : y.trade.batch.newOrders = x.trade.batch.newOrders.map (·.valued) := by
    rw [hloop.trade.batch]
    rfl
  have hcancel : y.trade.batch.cancelIds = x.trade.batch.cancelIds := by
    rw [hloop.trade.batch]
    rfl
  unfold conclude
  rw [hnew, hcancel, cutOrders_valued, hloop.pairErrors, h.bots, h.instruments, List.length_map,
    List.length_map]
  rcases cutOrders setup.session setup.config.maxOrders x.trade.batch.newOrders with
    ⟨fault | ⟨kept, dropped⟩, notices⟩
  · exact ⟨.error fault, hloop.memory⟩
  · exact ⟨.ok rfl, hloop.memory⟩

theorem decideScoped_matches (h : s.Matches t) (setup : TickSetup) (clock : Except NumberFault Micros)
    (m : TickMemory Int) :
    (decideScoped setup clock s m).Matches (decideScoped setup clock t m.valued) := by
  have hempty : (t.bots.isEmpty || t.instruments.isEmpty) = (s.bots.isEmpty || s.instruments.isEmpty) := by
    rw [h.bots, h.instruments, List.isEmpty_map, List.isEmpty_map]
  rcases h.organized setup with ⟨e, he, hbalances, data⟩
  unfold decideScoped
  rw [hempty]
  split
  · refine ⟨.ok ?_, rfl⟩
    rw [h.bots, h.instruments, List.length_map, List.length_map]
    rfl
  · rw [prepare, prepare, Organized.ofSnapshot_int, he]
    cases clock with
    | error fault => exact ⟨.error _, rfl⟩
    | ok now =>
        -- Both loops go over the same bots and instruments, with amounts read as values in one.
        have hloop := visitInstruments_matches data now s.instruments (start_matches hbalances m)
        rw [← h.bots, ← h.instruments] at hloop
        simp only [bind, Except.bind, pure, Except.pure, runPairs]
        rcases hs : visitInstruments setup (.ofInts s) now s.bots s.instruments (start (.ofInts s) m)
          with ⟨result, x⟩
        rcases ht : visitInstruments setup e now t.bots t.instruments (start e m.valued) with ⟨result', y⟩
        rw [hs, ht] at hloop
        rcases hloop with ⟨hresult, hstate⟩
        obtain rfl : result' = result := hresult
        cases result' with
        | error fault => exact ⟨.error fault, hstate.memory⟩
        | ok _ => exact conclude_matches h hstate setup

/-- A tick decides the same on snapshots that match. -/
theorem decide_matches (h : s.Matches t) (setup : TickSetup) (clock : Except NumberFault Micros)
    (m : TickMemory Int) : (decide setup clock s m).Matches (decide setup clock t m.valued) :=
  decideScoped_matches (h.scope setup) setup clock m

end Tick

end RuleTrader
