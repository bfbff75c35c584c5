import RuleTrader.Proofs.Trading.Spared
import RuleTrader.Proofs.Trading.Unseen

/-!
# Bots without rules

A bot without rules is never part of a pair. So the pairs of a tick are the observed instruments with the
bots that have rules (`Tick.Paired`), and two snapshots that differ only in bots without rules, with whatever
orders and shares these have, give the same pairs. The pairs find the same and leave the same, but for the
money of the bots that are in one snapshot only, which none of them looks at.
-/

namespace RuleTrader

/-! ## The money of some owners -/

namespace TradeState

variable {α : Type}

/-- The state with the money of some owners only. -/
def only (owners : String → Bool) (s : TradeState α) : TradeState α :=
  { s with balances := s.balances.filter fun e => owners e.1 }

theorem unseen_only [Amount α] (owners : String → Bool) :
    Unseen (fun botId => owners botId = true) (only (α := α) owners) where
  balance s botId h := by rw [balance, only, Table.get?_filter s.balances h, balance]
  batch _ := rfl
  random _ := rfl
  report _ _ := rfl
  draw _ _ := rfl
  setBalance s botId amount h := by
    simp only [setBalance, only, Table.filter_put s.balances amount h]
  markCancel _ _ := rfl
  addOrder _ _ := rfl

end TradeState

namespace Pair

variable {α : Type} [Amount α]

/-- Pairs of some owners pass on what they do not look at. -/
theorem foldl_pass_only {owners : String → Bool} {pairs : List (Pair α)}
    (own : ∀ pair ∈ pairs, owners pair.bot.id = true ∧ ∀ o ∈ pair.orders, owners o.botId = true)
    (s : TradeState α) : pairs.foldl pass (s.only owners) = (pairs.foldl pass s).only owners := by
  induction pairs generalizing s with
  | nil => rfl
  | cons pair pairs ih =>
      rw [List.forall_mem_cons] at own
      have hfirst : pass (s.only owners) pair = (pass s pair).only owners := by
        rw [pass, process_unseen (TradeState.unseen_only owners) own.1.1 own.1.2]
        rfl
      rw [List.foldl_cons, List.foldl_cons, hfirst, ih own.2]

end Pair

namespace Tick

/-! ## The pairs of a tick -/

/-- The bots that have rules. -/
def driven (setup : TickSetup) (ruleSets : Table String RuleDefinition) (bots : List (Bot Int)) :
    List (Bot Int) :=
  bots.filter fun bot => (rulesOf setup.rules? bot.strategyId? ruleSets).isSome

/-- The instruments with an earlier observation: one that was seen before, or earlier on the list. -/
def observedBefore (seen : String → Bool) : List (Instrument Int) → List (Instrument Int)
  | [] => []
  | i :: rest => (if seen i.id then [i] else []) ++ observedBefore (fun id => seen id || id == i.id) rest

variable {setup : TickSetup} {data : Organized Int} {now : Micros}

/-- A bot without rules is passed over. -/
theorem canVisit_of_none {ruleSets : Table String RuleDefinition} {bot : Bot Int}
    (h : rulesOf setup.rules? bot.strategyId? ruleSets = none) : canVisit setup ruleSets bot = true := by
  rw [canVisit, checkedRules_of_none h]
  rfl

/-- The pairs of an instrument are the bots that have rules, up to one that cannot be visited. -/
theorem prefix_places_pairsOn (instrument : Instrument Int) (price : PriceContext Int)
    (bots : List (Bot Int)) :
    ((pairsOn setup data now instrument price bots).map fun pair => (pair.instrument, pair.bot)) <+:
      (driven setup data.ruleSets bots).map fun bot => (instrument, bot) := by
  induction bots with
  | nil => exact List.prefix_rfl
  | cons bot bots ih =>
      cases visit : canVisit setup data.ruleSets bot with
      | false =>
          rw [pairsOn_cons_of_stop visit]
          exact List.nil_prefix
      | true =>
          rw [pairsOn_cons_of_visit visit, List.map_append]
          cases hrules : rulesOf setup.rules? bot.strategyId? data.ruleSets with
          | none => simpa [pairsOn, driven, hrules, visit] using ih
          | some rules => simpa [pairsOn, driven, hrules, visit, pairOf] using ih

/-- If all can be visited, they are all of these. -/
theorem places_pairsOn (instrument : Instrument Int) (price : PriceContext Int) {bots : List (Bot Int)}
    (visit : bots.all (canVisit setup data.ruleSets) = true) :
    (pairsOn setup data now instrument price bots).map (fun pair => (pair.instrument, pair.bot)) =
      (driven setup data.ruleSets bots).map fun bot => (instrument, bot) := by
  induction bots with
  | nil => rfl
  | cons bot bots ih =>
      rw [List.all_cons, Bool.and_eq_true] at visit
      rw [pairsOn_cons_of_visit visit.1, List.map_append, ih visit.2]
      cases hrules : rulesOf setup.rules? bot.strategyId? data.ruleSets <;>
        simp [pairsOn, driven, hrules, visit.1, pairOf]

theorem has_observe {tracker tracker' : PriceTracker Int} {id : String} {price : Int}
    {o : Observation Int} (hobserve : tracker.observe id price = .ok (o, tracker')) :
    (tracker'.lastPrices.has ·) = fun other => tracker.lastPrices.has other || other == id := by
  funext other
  rw [(PriceTracker.observe_eq hobserve).2]
  by_cases hid : id = other
  · subst hid
    simp [Table.has]
  · simp [Table.has, Table.get?_put_of_ne _ _ hid, Ne.symm hid]

/-- An observation splits the first instrument off the list of those with an earlier one. -/
theorem observedBefore_cons {tracker tracker' : PriceTracker Int} {i : Instrument Int}
    {rest : List (Instrument Int)} {o : Observation Int}
    (hobserve : tracker.observe i.id i.price = .ok (o, tracker')) :
    observedBefore (tracker.lastPrices.has ·) (i :: rest) =
      (if o.before?.isSome then [i] else []) ++ observedBefore (tracker'.lastPrices.has ·) rest := by
  rw [has_observe hobserve, Observation.before?_int, (PriceTracker.observe_eq hobserve).1]
  rfl

/-- The pairs of a loop are the first of its observed instruments, each with the bots that have rules. -/
theorem prefix_places_pairsFrom (bots : List (Bot Int)) (instruments : List (Instrument Int))
    (tracker : PriceTracker Int) :
    ((pairsFrom setup data now bots instruments tracker).map fun pair => (pair.instrument, pair.bot)) <+:
      (observedBefore (tracker.lastPrices.has ·) instruments).flatMap fun i =>
        (driven setup data.ruleSets bots).map fun bot => (i, bot) := by
  induction instruments generalizing tracker with
  | nil => exact List.prefix_rfl
  | cons i rest ih =>
      unfold pairsFrom
      rcases hobserve : tracker.observe i.id i.price with fault | ⟨o, tracker'⟩
      · exact List.nil_prefix
      · have hrest := ih tracker'
        rw [observedBefore_cons hobserve, List.flatMap_append]
        dsimp only
        cases o.before? with
        | none => simpa using hrest
        | some previous =>
            simp only [Trend.between_int, Option.isSome_some, if_true, List.flatMap_singleton, List.map_append]
            -- The loop goes on if all bots were visited; otherwise it has ended among them.
            split
            · next visit =>
                rw [places_pairsOn i _ visit]
                exact (List.prefix_append_right_inj _).2 hrest
            · rw [List.map_nil, List.append_nil]
              exact (prefix_places_pairsOn i _ bots).trans (List.prefix_append _ _)

/-- They are all of these if nothing stops the loop. -/
theorem places_pairsFrom {bots : List (Bot Int)} {instruments : List (Instrument Int)}
    {tracker : PriceTracker Int} (accepts : ∀ i ∈ instruments, tracker.Accepts i.id)
    (visit : bots.all (canVisit setup data.ruleSets) = true) :
    (pairsFrom setup data now bots instruments tracker).map (fun pair => (pair.instrument, pair.bot)) =
      (observedBefore (tracker.lastPrices.has ·) instruments).flatMap fun i =>
        (driven setup data.ruleSets bots).map fun bot => (i, bot) := by
  induction instruments generalizing tracker with
  | nil => rfl
  | cons i rest ih =>
      rw [List.forall_mem_cons] at accepts
      rcases PriceTracker.observe_ok accepts.1 i.price with ⟨o, tracker', hobserve⟩
      have hrest := @ih tracker' fun j hj =>
        (PriceTracker.accepts_observe_iff hobserve j.id).2 (accepts.2 j hj)
      unfold pairsFrom
      rw [observedBefore_cons hobserve, hobserve, List.flatMap_append, ← hrest]
      dsimp only
      cases o.before? with
      | none => simp
      | some previous =>
          simp only [Trend.between_int, visit, if_true, List.map_append, places_pairsOn i _ visit]
          simp

/-! ## Two snapshots -/

/-- Two snapshots that differ at most in bots without rules, and in what these have. -/
structure SameDriven (setup : TickSetup) (a b : Snapshot Int) : Prop where
  instruments : a.instruments = b.instruments
  aggregates : a.aggregates = b.aggregates
  bots : driven setup a.ruleSets a.bots = driven setup b.ruleSets b.bots
  rules : ∀ bot ∈ driven setup a.ruleSets a.bots,
    rulesOf setup.rules? bot.strategyId? a.ruleSets = rulesOf setup.rules? bot.strategyId? b.ruleSets
  orders : ∀ bot ∈ driven setup a.ruleSets a.bots, ∀ instrumentId,
    a.openOrders bot.id instrumentId = b.openOrders bot.id instrumentId
  positions : ∀ bot ∈ driven setup a.ruleSets a.bots, ∀ instrumentId,
    a.positionsIn bot.id instrumentId = b.positionsIn bot.id instrumentId

/-- The names of the bots that have rules. -/
def drivenId (setup : TickSetup) (s : Snapshot Int) (botId : String) : Bool :=
  botId ∈ (driven setup s.ruleSets s.bots).map (·.id)

variable {a b s : Snapshot Int} {m : TickMemory Int}

/-- Only bots that have rules make pairs. -/
theorem pairsOn_driven (setup : TickSetup) (data : Organized Int) (now : Micros)
    (instrument : Instrument Int) (price : PriceContext Int) (bots : List (Bot Int)) :
    pairsOn setup data now instrument price bots =
      pairsOn setup data now instrument price (driven setup data.ruleSets bots) := by
  induction bots with
  | nil => rfl
  | cons bot bots ih =>
      cases hrules : rulesOf setup.rules? bot.strategyId? data.ruleSets with
      | none =>
          have visit := canVisit_of_none hrules
          rw [pairsOn_cons_of_visit visit, ih]
          simp [pairsOn, driven, hrules, visit]
      | some rules =>
          have hdriven : driven setup data.ruleSets (bot :: bots) =
              bot :: driven setup data.ruleSets bots := by simp [driven, hrules]
          rw [hdriven]
          cases visit : canVisit setup data.ruleSets bot with
          | false => rw [pairsOn_cons_of_stop visit, pairsOn_cons_of_stop visit]
          | true =>
              rw [pairsOn_cons_of_visit visit, ih,
                pairsOn_cons_of_visit visit instrument price (driven setup data.ruleSets bots)]

/-- And only these can stop a loop. -/
theorem all_canVisit_driven (ruleSets : Table String RuleDefinition) (bots : List (Bot Int)) :
    (driven setup ruleSets bots).all (canVisit setup ruleSets) = bots.all (canVisit setup ruleSets) := by
  rw [driven, List.all_filter]
  congr 1
  funext bot
  cases hrules : rulesOf setup.rules? bot.strategyId? ruleSets with
  | none => simp [canVisit_of_none hrules]
  | some rules => simp

theorem takeWhile_congr {β : Type} {p q : β → Bool} {xs : List β} (h : ∀ x ∈ xs, p x = q x) :
    xs.takeWhile p = xs.takeWhile q := by
  induction xs with
  | nil => rfl
  | cons x xs ih =>
      rw [List.forall_mem_cons] at h
      rw [List.takeWhile_cons, List.takeWhile_cons, h.1, ih h.2]

/-- The bots that have rules can be visited alike. -/
theorem canVisit_same (same : SameDriven setup a b) {bot : Bot Int}
    (hbot : bot ∈ driven setup a.ruleSets a.bots) :
    canVisit setup a.ruleSets bot = canVisit setup b.ruleSets bot := by
  rw [canVisit, canVisit, checkedRules_congr (same.rules bot hbot)]

theorem all_canVisit_same (same : SameDriven setup a b) :
    a.bots.all (canVisit setup a.ruleSets) = b.bots.all (canVisit setup b.ruleSets) := by
  rw [← all_canVisit_driven a.ruleSets, ← all_canVisit_driven b.ruleSets, ← same.bots, Bool.eq_iff_iff,
    List.all_eq_true, List.all_eq_true]
  exact forall₂_congr fun bot hbot => by rw [canVisit_same same hbot]

theorem pairsOn_same (same : SameDriven setup a b) (now : Micros) (instrument : Instrument Int)
    (price : PriceContext Int) :
    pairsOn setup (.ofInts a) now instrument price a.bots =
      pairsOn setup (.ofInts b) now instrument price b.bots := by
  have hbots : driven setup (Organized.ofInts a).ruleSets a.bots =
      driven setup (Organized.ofInts b).ruleSets b.bots := same.bots
  rw [pairsOn_driven, pairsOn_driven setup (.ofInts b), ← hbots]
  -- The bots with rules are the same, and visiting stops at the same one of them.
  have hreached : (driven setup (Organized.ofInts a).ruleSets a.bots).takeWhile
      (canVisit setup (Organized.ofInts a).ruleSets) =
      (driven setup (Organized.ofInts a).ruleSets a.bots).takeWhile
        (canVisit setup (Organized.ofInts b).ruleSets) :=
    takeWhile_congr fun bot hbot => canVisit_same same hbot
  rw [pairsOn, pairsOn, hreached]
  refine List.filterMap_congr fun bot hreach => ?_
  have hbot := (List.takeWhile_prefix _).subset hreach
  have hrules : rulesOf setup.rules? bot.strategyId? (Organized.ofInts a).ruleSets =
      rulesOf setup.rules? bot.strategyId? (Organized.ofInts b).ruleSets := same.rules bot hbot
  have hpair : pairOf setup (.ofInts a) now instrument price bot =
      pairOf setup (.ofInts b) now instrument price bot := by
    funext rules
    have haggregates : (Organized.ofInts a).aggregates = (Organized.ofInts b).aggregates := by
      rw [Organized.ofInts, Organized.ofInts, same.aggregates]
    rw [pairOf, pairOf, haggregates, Organized.ordersFor_eq (Organized.ofSnapshot_int a),
      Organized.ordersFor_eq (Organized.ofSnapshot_int b), same.orders bot hbot,
      Organized.sharesOwned_congr (Organized.ofSnapshot_int a) (Organized.ofSnapshot_int b)
        (same.positions bot hbot instrument.id)]
  rw [hrules, hpair]

/-- Two such snapshots have the same pairs. -/
theorem pairs_same (same : SameDriven setup a b) (now : Micros) (m : TickMemory Int) :
    pairs setup now a (.ofInts a) m = pairs setup now b (.ofInts b) m := by
  have haggregates : (Organized.ofInts a).aggregates = (Organized.ofInts b).aggregates := by
    rw [Organized.ofInts, Organized.ofInts, same.aggregates]
  have hvisit : a.bots.all (canVisit setup (Organized.ofInts a).ruleSets) =
      b.bots.all (canVisit setup (Organized.ofInts b).ruleSets) := all_canVisit_same same
  have hfrom (instruments : List (Instrument Int)) (tracker : PriceTracker Int) :
      pairsFrom setup (.ofInts a) now a.bots instruments tracker =
        pairsFrom setup (.ofInts b) now b.bots instruments tracker := by
    induction instruments generalizing tracker with
    | nil => rfl
    | cons i rest ih => simp only [pairsFrom, ih, pairsOn_same same, haggregates, hvisit]
  rw [pairs, pairs, same.instruments, hfrom]

theorem bot_of_mem_pairsFrom {bots : List (Bot Int)} {instruments : List (Instrument Int)}
    {tracker : PriceTracker Int} {pair : Pair Int}
    (h : pair ∈ pairsFrom setup data now bots instruments tracker) :
    pair.bot ∈ driven setup data.ruleSets bots := by
  have hplace := (prefix_places_pairsFrom bots instruments tracker).subset
    (List.mem_map_of_mem (f := fun pair : Pair Int => (pair.instrument, pair.bot)) h)
  rcases List.mem_flatMap.1 hplace with ⟨i, -, hplace⟩
  rcases List.mem_map.1 hplace with ⟨bot, hbot, heq⟩
  exact (Prod.mk.inj heq).2 ▸ hbot

/-- The orders of a pair are its bot's own. -/
theorem own_of_mem_pairs {pair : Pair Int} (h : pair ∈ pairs setup now s (.ofInts s) m) :
    ∀ o ∈ pair.orders, o.botId = pair.bot.id := by
  intro o ho
  have hpaired := pairsFrom_paired setup (.ofInts s) now s.bots s.instruments m.tracker
  rw [hpaired.orders pair h, Organized.ordersFor_eq (Organized.ofSnapshot_int s)] at ho
  exact (Order.mem_openIn.1 ho).2.2.1

theorem drivenId_of_mem_pairs {pair : Pair Int} (h : pair ∈ pairs setup now s (.ofInts s) m) :
    drivenId setup s pair.bot.id = true ∧ ∀ o ∈ pair.orders, drivenId setup s o.botId = true := by
  have hbot : drivenId setup s pair.bot.id = true :=
    decide_eq_true (List.mem_map_of_mem (bot_of_mem_pairsFrom h))
  exact ⟨hbot, fun o ho => own_of_mem_pairs h o ho ▸ hbot⟩

/-- Among bots with distinct names the bots that have rules are told by their names. -/
theorem filter_drivenId (distinct : (s.bots.map (·.id)).Nodup) :
    s.bots.filter (fun bot => drivenId setup s bot.id) = driven setup s.ruleSets s.bots := by
  refine List.filter_congr fun bot hbot => ?_
  rw [Bool.eq_iff_iff, drivenId, decide_eq_true_iff]
  constructor
  · intro h
    rcases List.mem_map.1 h with ⟨other, hother, hid⟩
    rw [driven, List.mem_filter] at hother
    -- The name belongs to one bot only.
    rw [← List.inj_on_of_nodup_map distinct hother.1 hbot hid]
    exact hother.2
  · exact fun h => List.mem_map_of_mem (List.mem_filter.2 ⟨hbot, h⟩)

/-- Two such snapshots start with the same money of the bots that have rules. -/
theorem start_only_same (same : SameDriven setup a b) (distinct : (a.bots.map (·.id)).Nodup)
    (distinct' : (b.bots.map (·.id)).Nodup) (m : TickMemory Int) :
    (start (.ofInts a) m).trade.only (drivenId setup a) = (start (.ofInts b) m).trade.only (drivenId setup a) := by
  have hids : drivenId setup a = drivenId setup b := by
    funext botId
    rw [drivenId, drivenId, same.bots]
  -- What is left of the money is what the bots with rules have in the snapshot.
  have honly {s : Snapshot Int} (distinct : (s.bots.map (·.id)).Nodup) :
      (start (.ofInts s) m).trade.only (drivenId setup s) =
        { balances := (driven setup s.ruleSets s.bots).map fun bot => (bot.id, bot.balance)
          random := m.random } := by
    have hnodup : (Table.keys (s.bots.map fun bot => (bot.id, bot.balance))).Nodup := by
      simpa [Table.keys, Function.comp_def] using distinct
    have hbalances : (Organized.ofInts s).balances = s.bots.map fun bot => (bot.id, bot.balance) :=
      Table.ofList_of_nodup hnodup
    simp only [start, TradeState.only, hbalances, ← filter_drivenId distinct, List.map_map,
      List.filter_map, Function.comp_def, Amount.ofInt_int]
  rw [honly distinct, hids, honly distinct', same.bots]

/-- The loop of a snapshot, as the fold over its pairs. -/
theorem runPairs_follows (setup : TickSetup) (now : Micros) (s : Snapshot Int) (m : TickMemory Int) :
    Follows (start (.ofInts s) m) (pairs setup now s (.ofInts s) m) (runPairs setup now s (.ofInts s) m).2 := by
  exact visitInstruments_follows (informed_start _ _ m) s.bots s.instruments

/-- At every point of the two loops the money of these bots, the batch and the random source are the same. -/
theorem foldl_pass_same (same : SameDriven setup a b) (distinct : (a.bots.map (·.id)).Nodup)
    (distinct' : (b.bots.map (·.id)).Nodup) (now : Micros) (m : TickMemory Int) (k : Nat) :
    (((pairs setup now a (.ofInts a) m).take k).foldl Pair.pass (start (.ofInts a) m).trade).only
        (drivenId setup a) =
      (((pairs setup now b (.ofInts b) m).take k).foldl Pair.pass (start (.ofInts b) m).trade).only
        (drivenId setup a) := by
  have hown : ∀ pair ∈ (pairs setup now a (.ofInts a) m).take k,
      drivenId setup a pair.bot.id = true ∧ ∀ o ∈ pair.orders, drivenId setup a o.botId = true :=
    fun pair hpair => drivenId_of_mem_pairs (List.mem_of_mem_take hpair)
  rw [← pairs_same same, ← Pair.foldl_pass_only hown, ← Pair.foldl_pass_only hown,
    start_only_same same distinct distinct']

/-! ## What is decided -/

/-- Without bots or instruments there are no pairs. -/
theorem pairs_of_nothing (h : s.bots = [] ∨ s.instruments = []) : pairs setup now s (.ofInts s) m = [] := by
  have hplaces := (pairsFrom_paired setup (.ofInts s) now s.bots s.instruments m.tracker).places
  have hnone : (s.instruments.flatMap fun i => s.bots.map fun bot => (i.id, bot.id)) = [] := by
    rcases h with h | h <;> simp [h]
  rw [hnone, List.sublist_nil, List.map_eq_nil_iff] at hplaces
  exact hplaces

/-- What a loop leaves for sending: the marks, and the new orders as far as they fit. -/
def Sends (setup : TickSetup) (batch : Batch Int) (d : TickDecision Int) : Prop :=
  d.cancelIds = batch.cancelIds ∧
    ((∃ dropped, (cutOrders setup.session setup.config.maxOrders batch.newOrders).1 = .ok (d.newOrders, dropped)) ∨
      d.newOrders = [] ∧ batch.newOrders = [])

theorem Sends.unique {batch : Batch Int} {d d' : TickDecision Int} (h : Sends setup batch d)
    (h' : Sends setup batch d') : d.cancelIds = d'.cancelIds ∧ d.newOrders = d'.newOrders := by
  refine ⟨h.1.trans h'.1.symm, ?_⟩
  have hcut {d : TickDecision Int} {dropped : Int} (hempty : batch.newOrders = [])
      (hcut : (cutOrders setup.session setup.config.maxOrders batch.newOrders).1 = .ok (d.newOrders, dropped)) :
      d.newOrders = [] := by
    rcases cutOrders_ok hcut with ⟨n, hn⟩
    rw [hn, hempty, List.take_nil]
  rcases h.2 with ⟨dropped, hd⟩ | ⟨hd, hempty⟩ <;> rcases h'.2 with ⟨dropped', hd'⟩ | ⟨hd', hempty'⟩
  · rw [hd] at hd'
    exact (Prod.mk.inj (Except.ok.inj hd')).1
  · rw [hcut hempty' hd, hd']
  · rw [hd, hcut hempty hd']
  · rw [hd, hd']

/-- The loop of a tick, on the snapshot narrowed to the bots that it is for. -/
def loopOf (setup : TickSetup) (now : Micros) (snapshot : Snapshot Int) (m : TickMemory Int) : TickState Int :=
  (runPairs setup now (scope setup snapshot) (.ofInts (scope setup snapshot)) m).2

/-- The pairs of a tick. -/
def pairsOf (setup : TickSetup) (now : Micros) (snapshot : Snapshot Int) (m : TickMemory Int) :
    List (Pair Int) :=
  pairs setup now (scope setup snapshot) (.ofInts (scope setup snapshot)) m

/-- What the first pairs of a tick leave. -/
def leftBy (setup : TickSetup) (now : Micros) (snapshot : Snapshot Int) (m : TickMemory Int) (k : Nat) :
    TradeState Int :=
  ((pairsOf setup now snapshot m).take k).foldl Pair.pass (start (.ofInts (scope setup snapshot)) m).trade

/-- In the end the loop leaves what its pairs leave. -/
theorem loopOf_even (setup : TickSetup) (now : Micros) (snapshot : Snapshot Int) (m : TickMemory Int) :
    (loopOf setup now snapshot m).trade.Even
      (leftBy setup now snapshot m (pairsOf setup now snapshot m).length) := by
  rw [leftBy, List.take_length]
  exact (runPairs_follows setup now (scope setup snapshot) m).trade

/-- What a tick decides, and the random source that it leaves, are those of its loop. -/
theorem decide_of_loop (setup : TickSetup) (now : Micros) (snapshot : Snapshot Int) (m : TickMemory Int) :
    (decide setup (.ok now) snapshot m).memory.random = (loopOf setup now snapshot m).trade.random ∧
    ∀ d, (decide setup (.ok now) snapshot m).result = .ok d →
      Sends setup (loopOf setup now snapshot m).trade.batch d := by
  unfold decide decideScoped
  split
  · next hnothing =>
      have hpairs : pairsOf setup now snapshot m = [] := pairs_of_nothing (by simpa using hnothing)
      have heven := loopOf_even setup now snapshot m
      simp only [leftBy, hpairs, List.take_nil, List.foldl_nil] at heven
      refine ⟨heven.random.symm, fun d hd => ?_⟩
      cases hd
      rw [heven.batch]
      exact ⟨rfl, Or.inr ⟨rfl, rfl⟩⟩
  · have hprepare : prepare (.ok now) (scope setup snapshot) = .ok (.ofInts (scope setup snapshot), now) := by
      rw [prepare, Organized.ofSnapshot_int]
      rfl
    rw [hprepare]
    dsimp only [loopOf]
    rcases runPairs setup now (scope setup snapshot) (.ofInts (scope setup snapshot)) m with ⟨fault | _, t⟩
    · exact ⟨rfl, fun d hd => by cases hd⟩
    · refine ⟨rfl, fun d hd => ?_⟩
      simp only [conclude] at hd
      rcases hcut : (cutOrders setup.session setup.config.maxOrders t.trade.batch.newOrders).1 with
        fault | ⟨kept, dropped⟩
      · simp [hcut, Except.map] at hd
      · simp only [hcut, Except.map, Except.ok.injEq] at hd
        rw [← hd]
        exact ⟨rfl, Or.inl ⟨dropped, hcut⟩⟩

/-- Two ticks that do the same with the same pairs. -/
structure DecideAlike (setup : TickSetup) (now : Micros) (m : TickMemory Int) (a b : Snapshot Int) : Prop where
  pairs : pairsOf setup now a m = pairsOf setup now b m
  /-- Each pair makes the same in both. -/
  results : ∀ (k : Nat) (pair : Pair Int), (pairsOf setup now a m)[k]? = some pair →
    (pair.process (leftBy setup now a m k)).1 = (pair.process (leftBy setup now b m k)).1
  /-- They send the same orders. -/
  orders : ∀ d d', (decide setup (.ok now) a m).result = .ok d → (decide setup (.ok now) b m).result = .ok d' →
    d.cancelIds = d'.cancelIds ∧ d.newOrders = d'.newOrders
  /-- They draw the same. -/
  random : (decide setup (.ok now) a m).memory.random = (decide setup (.ok now) b m).memory.random

/-- Bots without rules, with whatever they have, change nothing. -/
theorem decideAlike_of_sameDriven (now : Micros) (m : TickMemory Int)
    (same : SameDriven setup (scope setup a) (scope setup b))
    (distinct : ((scope setup a).bots.map (·.id)).Nodup) (distinct' : ((scope setup b).bots.map (·.id)).Nodup) :
    DecideAlike setup now m a b := by
  have hpairs : pairsOf setup now a m = pairsOf setup now b m := pairs_same same now m
  have hstates : ∀ k, (leftBy setup now a m k).only (drivenId setup (scope setup a)) =
      (leftBy setup now b m k).only (drivenId setup (scope setup a)) :=
    foldl_pass_same same distinct distinct' now m
  -- Batch and source are no money, so at the end of the loops they are the same altogether.
  have hend := hstates (pairsOf setup now a m).length
  have hevenA := loopOf_even setup now a m
  have hevenB := loopOf_even setup now b m
  rw [← hpairs] at hevenB
  have hbatch : (loopOf setup now a m).trade.batch = (loopOf setup now b m).trade.batch :=
    hevenA.batch.trans ((congrArg TradeState.batch hend).trans hevenB.batch.symm)
  have hrandom : (loopOf setup now a m).trade.random = (loopOf setup now b m).trade.random :=
    hevenA.random.trans ((congrArg TradeState.random hend).trans hevenB.random.symm)
  rcases decide_of_loop setup now a m with ⟨hrandomA, hsendsA⟩
  rcases decide_of_loop setup now b m with ⟨hrandomB, hsendsB⟩
  refine ⟨hpairs, fun k pair hpair => ?_, fun d d' hd hd' => ?_, ?_⟩
  · -- The pair sees the same money in both states.
    have hown := drivenId_of_mem_pairs (List.mem_of_getElem? hpair)
    have hsee (s : TradeState Int) : (pair.process (s.only (drivenId setup (scope setup a)))).1 =
        (pair.process s).1 := by
      rw [Pair.process_unseen (TradeState.unseen_only _) hown.1 hown.2]
      rfl
    rw [← hsee (leftBy setup now a m k), hstates k, hsee]
  · exact (hsendsA d hd).unique (hbatch ▸ hsendsB d' hd')
  · rw [hrandomA, hrandomB, hrandom]

end Tick

end RuleTrader
