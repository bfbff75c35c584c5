import Mathlib.Algebra.BigOperators.Group.List.Basic
import Mathlib.Algebra.Ring.Int.Defs
import Mathlib.Data.List.Infix
import RuleTrader.Proofs.Store.OrderLife
import RuleTrader.Proofs.Store.Served

/-!
# A snapshot shows what was written last

What a snapshot of a durable store holds can be told from the requests alone that the store has accepted,
without its tables (`DurableStore.Shows`): the bots, instruments, positions and rules as they were last put in,
the orders that were inserted open and not named since, and the recent trades summed up. A snapshot can be
read exactly if the orders that it shows have times with dates (`DurableStore.Dated`), and the quantities of
the recent trades, as they are added up, fit their column (`DurableStore.SumsFit`).
-/

namespace RuleTrader

/-! ## Sums -/

namespace Tables

/-- A sum whose parts fit all along is the sum. -/
theorem sumFrom_ok {total n : Int} {ns : List Int} (h : sumFrom total ns = .ok n) : n = total + ns.sum := by
  induction ns generalizing total with
  | nil =>
      cases h
      simp
  | cons m ms ih =>
      rw [sumFrom] at h
      split at h
      · rw [ih h, List.sum_cons]
        omega
      · cases h

theorem exists_sumFrom_iff {total : Int} {ns : List Int} :
    (∃ n, sumFrom total ns = .ok n) ↔
      ∀ part, part <+: ns → part ≠ [] → fits (total + part.sum) = true := by
  induction ns generalizing total with
  | nil => simp [sumFrom]
  | cons m ms ih =>
      rw [sumFrom]
      -- The parts that are not empty start with `m`, so that they go on from `total + m`.
      by_cases hfits : fits (total + m) = true
      · rw [if_pos hfits, ih]
        constructor
        · intro h part hpart hne
          rcases List.prefix_cons_iff.1 hpart with rfl | ⟨rest, rfl, hrest⟩
          · exact absurd rfl hne
          · rw [List.sum_cons, ← Int.add_assoc]
            cases rest with
            | nil => simpa using hfits
            | cons x xs => exact h (x :: xs) hrest (List.cons_ne_nil _ _)
        · intro h part hpart hne
          rw [Int.add_assoc, ← List.sum_cons]
          exact h (m :: part) (List.cons_prefix_cons.2 ⟨rfl, hpart⟩) (List.cons_ne_nil _ _)
      · rw [if_neg hfits]
        refine iff_of_false (by simp) fun h => hfits ?_
        simpa using h [m] (List.cons_prefix_cons.2 ⟨rfl, List.nil_prefix⟩) (List.cons_ne_nil _ _)

end Tables

namespace DurableStore

/-! ## What is shown -/

/-- Whether a trader is driven by rules, as it was last put in. -/
def isBot (requests : List Request) (botId : String) : Bool :=
  (Table.last? (requests.filterMap Request.trader?) botId).any (·.automated)

/-- The open orders of bots, the first inserted one first. -/
def botRows (requests : List Request) : List StoredOrder :=
  (openRows 0 requests).filter fun o => isBot requests o.terms.botId

/-- The trades in an instrument that a snapshot sums up. -/
def recentTrades (requests : List Request) (now : Seconds) (instrumentId : String) : List Trade :=
  (requests.filterMap Request.trade?).filter fun x =>
    x.instrumentId == instrumentId && Tables.isSince (now - Tables.recentSpan) x.executedAt

/-- A snapshot that shows what requests wrote, at a time. -/
structure Shows (requests : List Request) (now : Seconds) (shown : Snapshot Int) : Prop where
  /-- The traders that are driven by rules, in the order in which they were first put in, as they were last
  put in. -/
  bots : shown.bots =
    ((Table.lasts (requests.filterMap Request.trader?)).map (·.2)).filter (·.automated)
  /-- The instruments stand in the order in which they were first put in. -/
  instruments : shown.instruments.map (·.id) =
    (Table.keys (requests.filterMap Request.symbol?)).eraseDups
  /-- Their symbols and prices are those that were given last. -/
  told : ∀ i ∈ shown.instruments, Told requests i
  /-- The open orders of bots by time, those of one time as they were inserted. -/
  orders : ∃ rows, SortedFrom (fun o => o.createdAt.rank) (botRows requests) rows ∧
    List.Forall₂ (fun row o => row.toOrder = .ok o) rows shown.orders
  /-- The positions of bots, as they were last set. -/
  positions : shown.positions.Perm
    (((Table.lasts (requests.filterMap Request.position?)).filter fun e => isBot requests e.1.1).map
      fun ((botId, instrumentId), shares) => ⟨botId, instrumentId, shares⟩)
  strategies : shown.ruleSets.keys.Nodup
  /-- The rules of exactly the strategies that bots use, as they were last put in. -/
  ruleSets : ∀ strategyId definition, shown.ruleSets.get? strategyId = some definition ↔
    (∃ b ∈ shown.bots, b.strategyId? = some strategyId) ∧
      ∃ rules text, Table.last? (requests.filterMap Request.rules?) strategyId = some rules ∧
        ruleText rules = .ok text ∧ definition = .value (.text text)
  traded : (shown.aggregates.map (·.instrumentId)).Nodup
  /-- There is an aggregate for exactly the instruments with recent trades. -/
  aggregates : ∀ instrumentId, instrumentId ∈ shown.aggregates.map (·.instrumentId) ↔
    recentTrades requests now instrumentId ≠ []
  volumes : ∀ a ∈ shown.aggregates,
    a.volume = ((recentTrades requests now a.instrumentId).map (·.quantity)).sum

/-- The open orders of bots were inserted at times with dates. -/
def Dated (requests : List Request) : Prop :=
  ∀ o ∈ botRows requests, ∃ t, o.createdAt.rowTime = .ok t

/-- The quantities of recent trades, as they are added up by time, fit a column. -/
def SumsFit (requests : List Request) (now : Seconds) : Prop :=
  ∀ instrumentId part,
    part <+: sortByKey (fun x => x.executedAt.rank) (recentTrades requests now instrumentId) →
      Tables.fits (part.map (·.quantity)).sum = true

section Recent

variable {requests : List Request} {now : Seconds} {instrumentId : String}

theorem recentTrades_eq_nil
    (other : ∀ x ∈ requests.filterMap Request.trade?, x.instrumentId ≠ instrumentId) :
    recentTrades requests now instrumentId = [] :=
  List.filter_eq_nil_iff.2 fun x hx => by simp [other x hx]

/-- Without recent trades there is nothing to add up. -/
theorem fits_of_no_trades (empty : recentTrades requests now instrumentId = []) {part : List Trade}
    (hpart : part <+: sortByKey (fun x => x.executedAt.rank) (recentTrades requests now instrumentId)) :
    Tables.fits (part.map (·.quantity)).sum = true := by
  rw [empty, sortByKey, List.mergeSort_nil, List.prefix_nil] at hpart
  rw [hpart]
  rfl

end Recent

/-! ## What the tables hold -/

section Tables

variable {requests : List Request} {t : Tables} (ran : Ran 0 {} requests t) (now : Seconds)

include ran

theorem traders_eq : t.traders = Table.lasts (requests.filterMap Request.trader?) :=
  ran.traders.trans (Table.ofList_eq_lasts _)

theorem isBot_eq (botId : String) : t.isBot botId = isBot requests botId := by
  have hget : t.traders.get? botId = Table.last? (requests.filterMap Request.trader?) botId := by
    rw [ran.traders, Table.get?_putAll_eq]
    exact Option.or_none
  rw [Tables.isBot, hget, isBot]

theorem botRows_eq : t.orders.filter (fun o => o.isOpen && t.isBot o.terms.botId) = botRows requests := by
  have hopen : t.orders.filter (·.isOpen) = openRows 0 requests := ran.openOrders
  rw [botRows, ← hopen, List.filter_filter]
  refine List.filter_congr fun o _ => ?_
  rw [isBot_eq ran, Bool.and_comm]

theorem tradesSince_eq (instrumentId : String) :
    t.tradesSince (now - Tables.recentSpan) instrumentId =
      sortByKey (fun x => x.executedAt.rank) (recentTrades requests now instrumentId) := by
  have htrades : t.trades = requests.filterMap Request.trade? := ran.trades
  rw [Tables.tradesSince, htrades]
  rfl

/-! ### Aggregates -/

/-- What is traded is there. -/
theorem mem_instruments_of_recent {instrumentId : String}
    (h : recentTrades requests now instrumentId ≠ []) : instrumentId ∈ t.instruments.keys := by
  obtain ⟨x, hx⟩ := List.exists_mem_of_ne_nil _ h
  simp only [recentTrades, List.mem_filter, Bool.and_eq_true, beq_iff_eq] at hx
  have hmem : x ∈ t.trades := ran.trades ▸ hx.1
  rw [← Table.has_iff_mem_keys, ← hx.2.1]
  exact ran.known (by simp) x hmem

/-- The recent trades in an instrument are summed up if there are any. -/
theorem aggregate?_ok {instrumentId : String} {result : Option (Aggregate Int)}
    (h : t.aggregate? (now - Tables.recentSpan) instrumentId = .ok result) :
    (recentTrades requests now instrumentId = [] ∧ result = none) ∨
      (recentTrades requests now instrumentId ≠ [] ∧ ∃ a, result = some a ∧ a.instrumentId = instrumentId ∧
        a.volume = ((recentTrades requests now instrumentId).map (·.quantity)).sum) := by
  have hperm := (sortedFrom_sortByKey (fun x : Trade => x.executedAt.rank)
    (recentTrades requests now instrumentId)).perm
  rw [Tables.aggregate?, tradesSince_eq ran] at h
  generalize sortByKey (fun x : Trade => x.executedAt.rank) (recentTrades requests now instrumentId) =
    sorted at h hperm
  cases sorted with
  | nil =>
      cases h
      exact Or.inl ⟨hperm.nil_eq.symm, rfl⟩
  | cons x xs =>
      rcases bind_ok h with ⟨volume, hvolume, hresult⟩
      cases hresult
      refine Or.inr ⟨fun hnil => ?_, _, rfl, rfl, ?_⟩
      · rw [hnil] at hperm
        exact absurd hperm.eq_nil (List.cons_ne_nil x xs)
      · rw [← (hperm.map _).sum_eq, Tables.sumFrom_ok hvolume, Int.zero_add]

theorem exists_aggregate?_iff (instrumentId : String) :
    (∃ result, t.aggregate? (now - Tables.recentSpan) instrumentId = .ok result) ↔
      ∀ part, part <+: sortByKey (fun x => x.executedAt.rank) (recentTrades requests now instrumentId) →
        Tables.fits (part.map (·.quantity)).sum = true := by
  rw [Tables.aggregate?, tradesSince_eq ran]
  generalize sortByKey (fun x : Trade => x.executedAt.rank) (recentTrades requests now instrumentId) =
    sorted
  have hsum : (∃ n, Tables.sumFrom 0 (sorted.map (·.quantity)) = .ok n) ↔
      ∀ part, part <+: sorted → Tables.fits (part.map (·.quantity)).sum = true := by
    rw [Tables.exists_sumFrom_iff]
    constructor
    · intro h part hpart
      cases part with
      | nil => rfl
      | cons x xs => simpa using h _ (hpart.map (·.quantity)) (by simp)
    · intro h quantities hquantities _
      rcases List.prefix_map_iff.1 hquantities with ⟨part, hpart, rfl⟩
      simpa using h part hpart
  cases sorted with
  | nil => exact iff_of_true ⟨_, rfl⟩ (hsum.1 ⟨0, rfl⟩)
  | cons x xs =>
      rw [← hsum]
      simp only [← fault?_eq_none, fault?_bind_pure]

/-- The aggregates of a snapshot are those of the instruments with recent trades. -/
theorem aggregates_ok {ids : List String} {results : List (Option (Aggregate Int))}
    (h : ids.mapM (t.aggregate? (now - Tables.recentSpan)) = .ok results) :
    (results.filterMap id).map (·.instrumentId) =
        ids.filter (fun i => !(recentTrades requests now i).isEmpty) ∧
      ∀ a ∈ results.filterMap id,
        a.volume = ((recentTrades requests now a.instrumentId).map (·.quantity)).sum := by
  induction mapM_ok_iff.1 h with
  | nil => simp
  | cons hfirst hrest ih =>
      rcases ih (mapM_ok_iff.2 hrest) with ⟨hids, hvolumes⟩
      rcases aggregate?_ok ran now hfirst with ⟨hnil, rfl⟩ | ⟨hne, a, rfl, rfl, hvolume⟩
      · refine ⟨?_, hvolumes⟩
        simpa [hnil] using hids
      · refine ⟨?_, List.forall_mem_cons.2 ⟨hvolume, hvolumes⟩⟩
        simpa [hne] using hids

end Tables

/-! ## The snapshot -/

theorem snapshot_ok {t : Tables} {now : Seconds} {shown : Snapshot Int} (h : t.snapshot now = .ok shown) :
    t.botOrders = .ok shown.orders ∧
    (∃ results, t.instruments.keys.mapM (t.aggregate? (now - Tables.recentSpan)) = .ok results ∧
      shown.aggregates = results.filterMap id) ∧
    shown.bots = t.traders.values.filter (·.automated) ∧
    shown.instruments = t.instruments.values ∧
    shown.positions = (t.positions.filter fun e => t.isBot e.1.1).map
      (fun ((b, i), n) => ⟨b, i, n⟩) ∧
    shown.ruleSets =
      Table.mapValues (fun s => .value (.text s)) (t.strategies.filter fun e => t.isUsed e.1) := by
  rcases bind_ok h with ⟨orders, horders, h⟩
  rcases bind_ok h with ⟨results, hresults, h⟩
  cases h
  exact ⟨horders, ⟨results, ok_of_mapError hresults, rfl⟩, rfl, rfl, rfl, rfl⟩

theorem exists_snapshot_iff (t : Tables) (now : Seconds) : (∃ shown, t.snapshot now = .ok shown) ↔
    (∃ orders, t.botOrders = .ok orders) ∧
      ∃ results, t.instruments.keys.mapM (t.aggregate? (now - Tables.recentSpan)) = .ok results := by
  constructor
  · rintro ⟨shown, h⟩
    rcases snapshot_ok h with ⟨horders, ⟨results, hresults, -⟩, -⟩
    exact ⟨⟨_, horders⟩, results, hresults⟩
  · rintro ⟨⟨orders, horders⟩, results, hresults⟩
    exact ⟨_, by rw [Tables.snapshot, horders, hresults]; rfl⟩

theorem isUsed_iff (t : Tables) (strategyId : String) : t.isUsed strategyId = true ↔
    ∃ b ∈ t.traders.values.filter (·.automated), b.strategyId? = some strategyId := by
  simp [Tables.isUsed, List.any_eq_true, List.mem_filter, and_assoc]

theorem fetch_eq_ok_iff {s : DurableStore} (opened : s.closed = false) {now : Seconds}
    {shown : Snapshot Int} : s.fetch now = .ok shown ↔ s.tables.snapshot now = .ok shown := by
  rw [fetch, opened]
  refine ⟨ok_of_mapError, fun h => ?_⟩
  rw [h]
  rfl

variable {requests : List Request} {t : Tables} {now : Seconds} {shown : Snapshot Int}

/-- The rules that are shown are those that are kept for the strategies in use. -/
theorem get?_ruleSets (hrules : shown.ruleSets = Table.mapValues (fun s => .value (.text s))
      (t.strategies.filter fun e => t.isUsed e.1)) (strategyId : String) (definition : RuleDefinition) :
    shown.ruleSets.get? strategyId = some definition ↔ t.isUsed strategyId = true ∧
      ∃ text, t.strategies.get? strategyId = some text ∧ definition = .value (.text text) := by
  rw [hrules, Table.get?_mapValues, Option.map_eq_some_iff]
  by_cases hused : t.isUsed strategyId = true
  · rw [Table.get?_filter t.strategies hused]
    simp [hused, eq_comm]
  · have hnone : Table.get? (t.strategies.filter fun e => t.isUsed e.1) strategyId = none := by
      rw [Table.get?_eq_none_iff]
      intro hmem
      rcases List.mem_map.1 hmem with ⟨e, he, rfl⟩
      exact hused (List.mem_filter.1 he).2
    simp [hnone, hused]

theorem shows (ran : Ran 0 {} requests t) (h : t.snapshot now = .ok shown) : Shows requests now shown := by
  rcases snapshot_ok h with ⟨horders, ⟨results, hresults, haggregates⟩, hbots, hinstruments, hpositions, hrules⟩
  have listed := ran.instruments rfl
  rcases aggregates_ok ran now hresults with ⟨htraded, hvolumes⟩
  rw [← haggregates] at htraded hvolumes
  refine {
    bots := by rw [hbots, traders_eq ran]; rfl
    instruments := ?_
    told := fun i hi => listed.told i (hinstruments ▸ hi)
    orders := ?_
    positions := ?_
    strategies := ?_
    ruleSets := ?_
    traded := ?_
    aggregates := ?_
    volumes := hvolumes }
  · rw [hinstruments, listed.filed.map_values, listed.keys, Table.keys_ofList]
  · refine ⟨_, ?_, mapM_ok_iff.1 horders⟩
    -- All orders are sorted first, and those that are shown are picked from them.
    rw [← botRows_eq ran]
    exact (sortedFrom_sortByKey _ _).filter _
  · have hall : t.positions = Table.lasts (requests.filterMap Request.position?) :=
      ran.positions.trans (Table.ofList_eq_lasts _)
    rw [hpositions, hall]
    simp only [isBot_eq ran]
    exact .refl _
  · rcases ran.strategies with ⟨texts, -, hkept⟩
    have hnodup : t.strategies.keys.Nodup := hkept ▸ Table.nodup_keys_ofList texts
    rw [hrules, Table.keys_mapValues]
    exact hnodup.sublist (List.filter_sublist.map _)
  · intro strategyId definition
    rw [get?_ruleSets hrules, isUsed_iff, ← hbots]
    refine and_congr_right fun _ => ?_
    have hkept := ran.get?_strategies strategyId
    cases hlast : Table.last? (requests.filterMap Request.rules?) strategyId with
    | none =>
        rw [hlast] at hkept
        simp [show t.strategies.get? strategyId = none from hkept]
    | some rules =>
        rw [hlast] at hkept
        obtain ⟨text, htext, hget⟩ := hkept
        simp [hget, htext]
  · rw [htraded]
    exact listed.filed.nodup.filter _
  · intro instrumentId
    rw [htraded, List.mem_filter]
    exact ⟨fun h => by simpa using h.2,
      fun hne => ⟨mem_instruments_of_recent ran now hne, by simpa using hne⟩⟩

theorem exists_snapshot_iff_of_ran (ran : Ran 0 {} requests t) (now : Seconds) :
    (∃ shown, t.snapshot now = .ok shown) ↔ Dated requests ∧ SumsFit requests now := by
  have hdated : (∃ orders, t.botOrders = .ok orders) ↔ Dated requests := by
    have hrow (o : StoredOrder) : (∃ y, o.toOrder = .ok y) ↔ ∃ time, o.createdAt.rowTime = .ok time := by
      unfold StoredOrder.toOrder
      cases o.createdAt.rowTime <;> simp
    rw [Dated, ← botRows_eq ran, Tables.botOrders, exists_mapM_ok_iff]
    simp only [hrow, Tables.ordersByTime, List.mem_filter, List.mem_mergeSort]
  have hsums : (∃ results, t.instruments.keys.mapM (t.aggregate? (now - Tables.recentSpan)) = .ok results) ↔
      SumsFit requests now := by
    rw [exists_mapM_ok_iff]
    simp only [exists_aggregate?_iff ran now]
    refine ⟨fun h instrumentId part hpart => ?_, fun h instrumentId _ => h instrumentId⟩
    -- An instrument that is not there has no trades.
    by_cases hrecent : recentTrades requests now instrumentId = []
    · exact fits_of_no_trades hrecent hpart
    · exact h instrumentId (mem_instruments_of_recent ran now hrecent) part hpart
  rw [exists_snapshot_iff, hdated, hsums]

/-- A snapshot of a store that was served from the beginning shows what the requests wrote; and it can be read
exactly if the orders that it shows have times with dates, and the sums that it shows fit as they are added
up. -/
theorem fetch_shows_last_writes {s : DurableStore} (h : Served {} requests s) (now : Seconds) :
    ((∃ shown, s.fetch now = .ok shown) ↔ Dated requests ∧ SumsFit requests now) ∧
      ∀ shown, s.fetch now = .ok shown → Shows requests now shown := by
  rcases h.ran with ⟨opened, -, ran⟩
  simp only [fetch_eq_ok_iff opened]
  exact ⟨exists_snapshot_iff_of_ran ran now, fun shown hshown => shows ran hshown⟩

theorem id_of_toOrder {row : StoredOrder} {o : Order Int} (h : row.toOrder = .ok o) : o.id = row.id := by
  unfold StoredOrder.toOrder at h
  split at h
  · cases h
    rfl
  · cases h

/-- Two bots of one strategy place an order each; then one of them is driven by rules no more, and the other
one is given another strategy and replaces its order. -/
def reassigned : List Request :=
  [.putInstrument "s1" "ACME" (.int 100), .setPrice "s2" (.int 50), .putStrategy "q1" (.text "[]"),
    .putStrategy "q2" (.list []),
    .putTrader { id := "b1", balance := .int 100, strategyId? := some "q1" },
    .putTrader { id := "b2", balance := .int 200, strategyId? := some "q1" },
    .apply ⟨[], [{ instrumentId := "s1", botId := "b1", side := .buy, limitPrice := 10, quantity := 2 },
      { instrumentId := "s1", botId := "b2", side := .buy, limitPrice := 11, quantity := 1 }]⟩ 1704067200,
    .setPrice "s1" (.int 110), .putInstrument "s2" "BETA" (.int 60),
    .putTrader { id := "b2", balance := .int 200, strategyId? := some "q1", automated := false },
    .putTrader { id := "b1", balance := .int 90, strategyId? := some "q2" },
    .apply ⟨["order-1"], [{ instrumentId := "s1", botId := "b1", side := .sell, limitPrice := 12,
                             quantity := 1 }]⟩ 1704067201,
    .addTrade "s1" (.int 105) (.int 3) .null 1704067201]

theorem fetch_shows_last_writes_reassigned : ∃ s shown, Served {} reassigned s ∧
    s.fetch 1704067202 = .ok shown ∧ Shows reassigned 1704067202 shown ∧
    shown.bots.map (fun b => (b.id, b.balance, b.strategyId?)) = [("b1", 90, some "q2")] ∧
    shown.instruments.map (·.id) = ["s1", "s2"] ∧ shown.orders.map (·.id) = ["order-3"] := by
  have served : Served {} reassigned _ :=
    .head rfl <| .head rfl <| .head rfl <| .head rfl <| .head rfl <| .head rfl <| .head rfl <|
      .head rfl <| .head rfl <| .head rfl <| .head rfl <| .head rfl <| .head rfl .start
  have dated : Dated reassigned := by
    have hfaults : ∀ o ∈ botRows reassigned, fault? o.createdAt.rowTime = none := by decide +kernel
    exact fun o ho => fault?_eq_none.1 (hfaults o ho)
  have sums : SumsFit reassigned 1704067202 := by
    intro instrumentId part hpart
    by_cases hid : instrumentId = "s1"
    · have hsorted : sortByKey (fun x => x.executedAt.rank) (recentTrades reassigned 1704067202 "s1") =
          recentTrades reassigned 1704067202 "s1" := List.mergeSort_of_pairwise (by decide +kernel)
      rw [hid, hsorted, ← List.mem_inits] at hpart
      have hfits : ∀ part ∈ (recentTrades reassigned 1704067202 "s1").inits,
          Tables.fits (part.map (·.quantity)).sum = true := by decide +kernel
      exact hfits part hpart
    · have hall : ∀ x ∈ reassigned.filterMap Request.trade?, x.instrumentId = "s1" := by decide +kernel
      exact fits_of_no_trades (recentTrades_eq_nil fun x hx => hall x hx ▸ Ne.symm hid) hpart
  rcases (fetch_shows_last_writes served 1704067202).1.2 ⟨dated, sums⟩ with ⟨shown, hshown⟩
  have shows := (fetch_shows_last_writes served 1704067202).2 shown hshown
  refine ⟨_, shown, served, hshown, shows, ?_, ?_, ?_⟩
  · rw [shows.bots]
    decide +kernel
  · rw [shows.instruments]
    decide +kernel
  · rcases shows.orders with ⟨rows, sorted, hrows⟩
    have hids : List.Forall₂ (· = ·) (rows.map (·.id)) (shown.orders.map (·.id)) :=
      List.forall₂_map_left_iff.2 <| List.forall₂_map_right_iff.2 <|
        hrows.imp fun _ _ h => (id_of_toOrder h).symm
    rw [List.forall₂_eq_eq_eq] at hids
    have hrow : (botRows reassigned).map (·.id) = ["order-3"] := by decide +kernel
    rw [← hids]
    exact List.perm_singleton.1 (hrow ▸ sorted.perm.map (·.id))

/-- An order that is inserted in the year 33658. -/
def farFuture : List Request :=
  [.putInstrument "s1" "ACME" (.int 100), .putTrader { id := "b1", balance := .int 10000 },
    .apply ⟨[], [{ instrumentId := "s1", botId := "b1", side := .buy, limitPrice := 10, quantity := 2 }]⟩
      1000000000000]

/-- Trades whose quantities sum up to what fits a column, but not on the way. -/
def overfull : List Request :=
  [.putInstrument "s1" "ACME" (.int 100),
    .addTrade "s1" (.int 10) (.int 9223372036854775807) .null 1704067200,
    .addTrade "s1" (.int 10) (.int 1) .null 1704067200,
    .addTrade "s1" (.int 10) (.int (-1)) .null 1704067200]

/-- A snapshot cannot be read where an order has no date, or where a sum does not fit on the way. -/
theorem last_writes_not_shown :
    (∃ s, Served {} farFuture s ∧ SumsFit farFuture 1000000000000 ∧
      s.fetch 1000000000000 = .error (.query (.time (.noDates 33658)))) ∧
    ∃ s, Served {} overfull s ∧ Dated overfull ∧
      (∀ instrumentId, Tables.fits
        ((recentTrades overfull 1704067200 instrumentId).map (·.quantity)).sum = true) ∧
      ∀ shown, s.fetch 1704067200 ≠ .ok shown := by
  have served : Served {} overfull _ := .head rfl (.head rfl (.head rfl (.head rfl .start)))
  refine ⟨⟨_, .head rfl (.head rfl (.head rfl .start)), ?_, ?_⟩, _, served, ?_, ?_, ?_⟩
  · exact fun instrumentId part hpart => fits_of_no_trades rfl hpart
  · exact fault?_eq_some.1 (by decide +kernel)
  · have hnone : botRows overfull = [] := rfl
    simp [Dated, hnone]
  · intro instrumentId
    by_cases hid : instrumentId = "s1"
    · rw [hid]
      decide +kernel
    · have hall : ∀ x ∈ overfull.filterMap Request.trade?, x.instrumentId = "s1" := by decide +kernel
      rw [recentTrades_eq_nil fun x hx => hall x hx ▸ Ne.symm hid]
      rfl
  · intro shown hshown
    rcases served.ran with ⟨opened, -, ran⟩
    rw [fetch_eq_ok_iff opened] at hshown
    have hsums := ((exists_snapshot_iff_of_ran ran 1704067200).1 ⟨shown, hshown⟩).2 "s1"
    have hsorted : sortByKey (fun x => x.executedAt.rank) (recentTrades overfull 1704067200 "s1") =
        recentTrades overfull 1704067200 "s1" :=
      List.mergeSort_of_pairwise (by decide +kernel)
    rw [hsorted] at hsums
    -- The first two quantities do not fit together.
    have hfits := hsums _ (List.take_prefix 2 _)
    revert hfits
    decide +kernel

end DurableStore

end RuleTrader
