import RuleTrader.Proofs.Trading.Accounting
import RuleTrader.Proofs.Trading.Observation
import RuleTrader.Trading.Run

/-!
# The batch that a tick sends

Whatever the rules and their parameters are, a batch cancels open orders of the bots that the tick is
for, each once, and it inserts orders that are in order themselves: for at least one share at no less
than one cent, in an instrument that was observed before, and no more shares than are held. The new
orders are the first ones that the loop decided on, as many as fit. The batch is sent once, or not at all
when it is empty, and then the tick has the answer of the store.

A tick can be stopped by itself in two ways only: its tracker has a capacity that no history can be given,
and the price of a new instrument is refused; or a bot is visited by rules that are not usable, which
rules that are read from records never are.
-/

namespace RuleTrader

/-! ## Shares -/

namespace Snapshot

/-- The shares of an instrument that a bot holds, by the last position that says so. -/
def sharesOf (s : Snapshot Int) (botId instrumentId : String) : Int :=
  ((s.positionsIn botId instrumentId).getLast?.map (·.shares)).getD 0

/-- Narrowing a snapshot takes no shares from a bot that it keeps. -/
theorem sharesOf_scope {setup : TickSetup} {s : Snapshot Int} {botId : String}
    (h : botId ∈ (Tick.scope setup s).bots.map (·.id)) (instrumentId : String) :
    (Tick.scope setup s).sharesOf botId instrumentId = s.sharesOf botId instrumentId := by
  rw [sharesOf, sharesOf, Tick.positionsIn_scope h]

end Snapshot

theorem Organized.sharesOwned_ofInts (s : Snapshot Int) (botId instrumentId : String) :
    (ofInts s).sharesOwned botId instrumentId = s.sharesOf botId instrumentId := by
  rw [sharesOwned, ofInts, Table.get?_ofList, List.filter_map, List.getLast?_map, Option.map_map]
  rfl

/-! ## The loop over pairs -/

/-- A new order that is in order by itself. -/
structure NewOrder.Proper (snapshot : Snapshot Int) (o : NewOrder Int) : Prop where
  opened : o.status = .opened
  price : 1 ≤ o.limitPrice
  quantity : 1 ≤ o.quantity
  held : o.side = .sell → o.quantity ≤ snapshot.sharesOf o.botId o.instrumentId

/-- A batch that cancels open orders of the bots of a snapshot, each once, and inserts proper ones. -/
structure Batch.Proper (snapshot : Snapshot Int) (b : Batch Int) : Prop where
  distinct : b.cancelIds.Nodup
  cancels : ∀ id ∈ b.cancelIds,
    ∃ o ∈ snapshot.orders, o.id = id ∧ o.isOpen = true ∧ o.botId ∈ snapshot.bots.map (·.id)
  inserts : ∀ o ∈ b.newOrders, o.Proper snapshot

/-- A move leaves the batch as it is, marks an order of the pair, or adds one that the pair may place. -/
theorem Pair.Move.batch_cases {α : Type} [Amount α] {pair : Pair α} {s t : TradeState α}
    (h : pair.Move s t) :
    t.batch = s.batch ∨
    (∃ o ∈ pair.orders, o.id ∉ s.batch.cancelIds ∧ t.batch = (s.markCancel o.id).batch) ∨
    ∃ o, pair.Offer o ∧ t.batch = (s.addOrder o).batch ∧
      (o.side = .sell → Amount.lt pair.shares (Amount.ofInt o.quantity) = .ok false) := by
  cases h with
  | quiet _ batch => exact Or.inl batch
  | mark own fresh _ _ batch => exact Or.inr (Or.inl ⟨_, own, fresh, batch⟩)
  | refund own fresh _ _ _ batch => exact Or.inr (Or.inl ⟨_, own, fresh, batch⟩)
  | buy offer side _ _ _ _ _ batch =>
      exact Or.inr (Or.inr ⟨_, offer, batch, fun hsell => by rw [side] at hsell; cases hsell⟩)
  | sell offer _ _ held _ batch => exact Or.inr (Or.inr ⟨_, offer, batch, fun _ => held⟩)

namespace Tick

variable {snapshot : Snapshot Int} {s t : TradeState Int}

/-- What a pair may place is proper, however odd the parameters of its rules are. -/
theorem proper_of_offer {pair : Pair Int} (visits : Visits snapshot (.ofInts snapshot) pair)
    {o : NewOrder Int} (offer : pair.Offer o)
    (held : o.side = .sell → Amount.lt pair.shares (Amount.ofInt o.quantity) = .ok false) :
    o.Proper snapshot := by
  refine ⟨offer.opened, ?_, offer.quantity, ?_⟩
  · rcases offer.price with ⟨p, hp⟩
    rw [Amount.atLeast_int] at hp
    have hmax : max 1 p = o.limitPrice := Except.ok.inj hp
    omega
  · intro hsell
    have hshares : pair.shares = snapshot.sharesOf o.botId o.instrumentId := by
      rw [visits.shares, Organized.sharesOwned_ofInts, offer.bot, offer.instrument]
      rfl
    have henough := held hsell
    rw [hshares] at henough
    simpa using henough

/-- Every move keeps the batch proper. -/
theorem proper_step (hmove : Move snapshot (.ofInts snapshot) s t) (h : s.batch.Proper snapshot) :
    t.batch.Proper snapshot := by
  cases hmove with
  | between balances batch => rwa [batch]
  | @ofPair pair visits move =>
      rcases move.batch_cases with batch | ⟨o, own, fresh, batch⟩ | ⟨n, offer, batch, held⟩
      · rwa [batch]
      · rw [batch]
        refine ⟨?_, ?_, h.inserts⟩
        · -- An order that is marked already is not marked again.
          refine List.nodup_append.2 ⟨h.distinct, List.nodup_singleton _, ?_⟩
          rintro id hid _ hself rfl
          exact fresh (List.mem_singleton.1 hself ▸ hid)
        · intro id hid
          rcases List.mem_append.1 hid with hid | hid
          · exact h.cancels id hid
          · obtain rfl := List.mem_singleton.1 hid
            rw [visits.orders_eq (Organized.ofSnapshot_int snapshot)] at own
            rcases Order.mem_openIn.1 own with ⟨hmem, hopen, hbot, -⟩
            exact ⟨o, hmem, rfl, hopen, hbot ▸ List.mem_map_of_mem visits.bot⟩
      · rw [batch]
        refine ⟨h.distinct, h.cancels, ?_⟩
        intro o ho
        rcases List.mem_append.1 ho with ho | ho
        · exact h.inserts o ho
        · obtain rfl := List.mem_singleton.1 ho
          exact proper_of_offer visits offer held

/-- The batch of the loop is proper, whichever pairs fail and wherever it is stopped. -/
theorem runPairs_proper (setup : TickSetup) (now : Micros) (snapshot : Snapshot Int)
    (m : TickMemory Int) :
    (runPairs setup now snapshot (.ofInts snapshot) m).2.trade.batch.Proper snapshot := by
  have hstart : (start (Organized.ofInts snapshot) m).trade.batch.Proper snapshot :=
    ⟨List.nodup_nil, by simp [start], by simp [start]⟩
  exact ((runPairs_trail setup now snapshot (.ofInts snapshot) m).invariant
    (fun hmove h => proper_step hmove h) hstart).1

/-! ## The decision -/

/-- The new orders that the loop decides on, before the batch is cut. -/
def decided (setup : TickSetup) (now : Micros) (snapshot : Snapshot Int) (m : TickMemory Int) :
    List (NewOrder Int) :=
  (runPairs setup now (scope setup snapshot) (.ofInts (scope setup snapshot)) m).2.trade.batch.newOrders

/-- The places that orders can be in: the instruments that were observed before, one after the other,
and in each of them the bots that the tick is for. -/
def openPlaces (setup : TickSetup) (snapshot : Snapshot Int) (m : TickMemory Int) :
    List (String × String) :=
  (observed m.tracker snapshot.instruments).flatMap fun i =>
    (scope setup snapshot).bots.map fun b => (i.id, b.id)

theorem decided_places (setup : TickSetup) (now : Micros) {snapshot : Snapshot Int}
    (m : TickMemory Int) (distinct : (snapshot.instruments.map (·.id)).Nodup) :
    ((decided setup now snapshot m).map (·.place)).Sublist (openPlaces setup snapshot m) := by
  have hplaces := visitInstruments_observed setup (.ofInts (scope setup snapshot)) now
    (scope setup snapshot).bots distinct (start (.ofInts (scope setup snapshot)) m)
  rcases hplaces with ⟨used, hsub, heq⟩
  have hused : (decided setup now snapshot m).map (·.place) = used := by
    rw [decided, runPairs, scope_instruments]
    exact heq
  exact hused ▸ hsub

/-- What a tick decides is in order. -/
structure Valid (setup : TickSetup) (cap : Int) (now : Micros) (snapshot : Snapshot Int)
    (m : TickMemory Int) (d : TickDecision Int) : Prop where
  /-- No order is cancelled twice. -/
  distinct : d.cancelIds.Nodup
  /-- Open orders are cancelled, of bots that the tick is for. -/
  cancels : ∀ id ∈ d.cancelIds, ∃ o ∈ snapshot.orders,
    o.id = id ∧ o.isOpen = true ∧ o.botId ∈ (scope setup snapshot).bots.map (·.id)
  /-- Proper orders are inserted, for these bots and in instruments that were observed before. -/
  inserts : ∀ o ∈ d.newOrders, o.Proper snapshot ∧
    o.botId ∈ (scope setup snapshot).bots.map (·.id) ∧
    o.instrumentId ∈ snapshot.instruments.map (·.id) ∧
    m.tracker.lastPrices.has o.instrumentId = true
  /-- What was decided on is in the order of the instruments, and within one in that of the bots. -/
  inOrder : ((decided setup now snapshot m).map (·.place)).Sublist (openPlaces setup snapshot m)
  /-- The first orders are inserted, as many as fit. -/
  first : d.newOrders = (decided setup now snapshot m).take
    (min (decided setup now snapshot m).length cap.toNat)
  /-- What is not inserted is counted. -/
  counted : d.newOrders.length + d.truncated = (decided setup now snapshot m).length

theorem cutOrders_int (session : String) {cap : Int} (nonneg : 0 ≤ cap)
    (orders : List (NewOrder Int)) :
    (cutOrders session (.int cap) orders).1 =
      .ok (orders.take (min orders.length cap.toNat), max 0 (orders.length - cap)) := by
  have hlt : (Number.int cap).lt (.int orders.length) = Decidable.decide (cap < orders.length) := rfl
  unfold cutOrders
  by_cases h : cap < orders.length
  · have hmin : min orders.length cap.toNat = cap.toNat := by omega
    have hmax : max 0 (orders.length - cap) = orders.length - cap := by omega
    rw [if_pos (by rw [hlt, decide_eq_true h]), hmin, hmax]
  · have hmin : min orders.length cap.toNat = orders.length := by omega
    have hmax : max 0 (orders.length - cap) = 0 := by omega
    rw [if_neg (by rw [hlt, decide_eq_false h]; exact Bool.false_ne_true), hmin, hmax,
      List.take_length]

/-- A tracker that cannot take a price that the tick would record. -/
def OutOfReach (setup : TickSetup) (snapshot : Snapshot Int) (tracker : PriceTracker Int) : Prop :=
  (scope setup snapshot).bots ≠ [] ∧ ∃ i ∈ snapshot.instruments, ¬tracker.Accepts i.id

/-- A bot that the tick would visit by rules that are not usable. -/
def Ungoverned (setup : TickSetup) (snapshot : Snapshot Int) (tracker : PriceTracker Int) : Prop :=
  observed tracker snapshot.instruments ≠ [] ∧
    ∃ b ∈ (scope setup snapshot).bots, ¬Governed setup b.strategyId? snapshot.ruleSets

/-- Nothing keeps a tick from visiting its bots. -/
def Unhindered (setup : TickSetup) (snapshot : Snapshot Int) (tracker : PriceTracker Int) : Prop :=
  ¬OutOfReach setup snapshot tracker ∧ ¬Ungoverned setup snapshot tracker

variable {setup : TickSetup} {cap : Int} {now : Micros} {m : TickMemory Int}

/-- The decision of a loop that was not stopped is valid. -/
theorem valid_of_loop (distinct : snapshot.Distinct) (nonneg : 0 ≤ cap) {d : TickDecision Int}
    (hcancel : d.cancelIds = (runPairs setup now (scope setup snapshot)
      (.ofInts (scope setup snapshot)) m).2.trade.batch.cancelIds)
    (hnew : d.newOrders = (decided setup now snapshot m).take
      (min (decided setup now snapshot m).length cap.toNat))
    (htruncated : d.truncated = max 0 ((decided setup now snapshot m).length - cap)) :
    Valid setup cap now snapshot m d := by
  have hproper := runPairs_proper setup now (scope setup snapshot) m
  have hplaces := decided_places setup now m distinct.instruments
  refine ⟨hcancel ▸ hproper.distinct, ?_, ?_, hplaces, hnew, ?_⟩
  · intro id hid
    rcases hproper.cancels id (hcancel ▸ hid) with ⟨o, ho, hrest⟩
    exact ⟨o, (scope_orders_sublist setup snapshot).subset ho, hrest⟩
  · intro o ho
    have hmem : o ∈ decided setup now snapshot m := List.mem_of_mem_take (hnew ▸ ho)
    have hplace : o.place ∈ openPlaces setup snapshot m := hplaces.subset (List.mem_map_of_mem hmem)
    rcases List.mem_flatMap.1 hplace with ⟨i, hi, hplace⟩
    rcases List.mem_map.1 hplace with ⟨b, hb, heq⟩
    rcases List.mem_filter.1 hi with ⟨hinstrument, hobserved⟩
    have hids : i.id = o.instrumentId ∧ b.id = o.botId := Prod.mk.inj heq
    have hbot : o.botId ∈ (scope setup snapshot).bots.map (·.id) :=
      hids.2 ▸ List.mem_map_of_mem hb
    rcases hproper.inserts o hmem with ⟨opened, price, quantity, held⟩
    -- The shares are those of the whole snapshot.
    rw [Snapshot.sharesOf_scope hbot] at held
    exact ⟨⟨opened, price, quantity, held⟩, hbot, hids.1 ▸ List.mem_map_of_mem hinstrument,
      hids.1 ▸ hobserved⟩
  · rw [hnew, htruncated, List.length_take]
    omega

/-- Nothing hinders a tick whose tracker is within reach and whose rules are read from records. -/
theorem unhindered_of_unread (reach : m.tracker.capacity ≤ capacityLimit)
    (unread : ∀ strategyId definition, snapshot.ruleSets.get? strategyId = some definition →
      RuleSet.Unread definition) : Unhindered setup snapshot m.tracker := by
  refine ⟨?_, ?_⟩
  · rintro ⟨-, i, -, hrefused⟩
    exact hrefused (Or.inr reach)
  · rintro ⟨-, b, -, hungoverned⟩
    exact hungoverned (governed_of_unread setup unread)

/-- With a bot to visit, the loop comes to its end exactly if nothing hinders it. -/
theorem runPairs_ok_iff (now : Micros) (m : TickMemory Int) (distinct : snapshot.Distinct)
    (visited : (scope setup snapshot).bots ≠ []) :
    (runPairs setup now (scope setup snapshot) (.ofInts (scope setup snapshot)) m).1 = .ok () ↔
      Unhindered setup snapshot m.tracker := by
  have hinformed : Informed (Organized.ofInts (scope setup snapshot)).ruleSets
      (start (.ofInts (scope setup snapshot)) m) := informed_start _ _ m
  have hgoverned : ∀ b ∈ (scope setup snapshot).bots,
      (Governed setup b.strategyId? (Organized.ofInts (scope setup snapshot)).ruleSets ↔
        Governed setup b.strategyId? snapshot.ruleSets) := fun b hb => governed_scope hb
  rw [runPairs, scope_instruments, visitInstruments_ok_iff distinct.instruments hinformed]
  -- Bots are visited on observed instruments only: without one, no rules are looked up.
  refine and_congr ?_ ?_
  · simp [OutOfReach, visited, start]
  · constructor
    · rintro hall ⟨hobserved, b, hb, hnot⟩
      rcases List.exists_mem_of_ne_nil _ hobserved with ⟨i, hi⟩
      exact hnot ((hgoverned b hb).1 (hall i hi b hb))
    · intro hnone i hi b hb
      by_contra hnot
      exact hnone ⟨List.ne_nil_of_mem hi, b, hb, fun h => hnot ((hgoverned b hb).2 h)⟩

/-- Without bots, or without instruments, the loop leaves an empty batch. -/
theorem loop_of_idle (now : Micros) (m : TickMemory Int) (distinct : snapshot.Distinct)
    (idle : (scope setup snapshot).bots = [] ∨ (scope setup snapshot).instruments = []) :
    (runPairs setup now (scope setup snapshot)
      (.ofInts (scope setup snapshot)) m).2.trade.batch.cancelIds = [] ∧
    decided setup now snapshot m = [] := by
  rcases idle with hbots | hinstruments
  · have hproper := runPairs_proper setup now (scope setup snapshot) m
    have hplaces := decided_places setup now m distinct.instruments
    constructor
    · refine List.eq_nil_iff_forall_not_mem.2 fun id hid => ?_
      rcases hproper.cancels id hid with ⟨o, -, -, -, hbot⟩
      rw [hbots] at hbot
      cases hbot
    · have hopen : openPlaces setup snapshot m = [] := by simp [openPlaces, hbots]
      rw [hopen] at hplaces
      exact List.map_eq_nil_iff.1 (List.sublist_nil.1 hplaces)
  · rw [decided, runPairs, hinstruments]
    exact ⟨rfl, rfl⟩

theorem prepare_int (now : Micros) (snapshot : Snapshot Int) :
    prepare (.ok now) snapshot = .ok (Organized.ofInts snapshot, now) := by
  rw [prepare, Organized.ofSnapshot_int]
  rfl

theorem decide_valid (now : Micros) (distinct : snapshot.Distinct)
    (hcap : setup.config.maxOrders = .int cap) (nonneg : 0 ≤ cap)
    (free : Unhindered setup snapshot m.tracker) :
    ∃ d, (decide setup (.ok now) snapshot m).result = .ok d ∧ Valid setup cap now snapshot m d := by
  unfold decide decideScoped
  by_cases idle : (scope setup snapshot).bots = [] ∨ (scope setup snapshot).instruments = []
  · rcases loop_of_idle now m distinct idle with ⟨hcancel, hnone⟩
    rw [if_pos (by simpa using idle)]
    refine ⟨_, rfl, valid_of_loop distinct nonneg hcancel.symm ?_ ?_⟩
    · rw [hnone]
      rfl
    · have hzero : (0 : Int) = max 0 ((0 : Nat) - cap) := by omega
      rw [hnone]
      exact hzero
  · rw [if_neg (by simpa using idle), prepare_int]
    have hend : (runPairs setup now (scope setup snapshot)
        (.ofInts (scope setup snapshot)) m).1 = .ok () :=
      (runPairs_ok_iff now m distinct fun hbots => idle (Or.inl hbots)).2 free
    rcases hrun : runPairs setup now (scope setup snapshot)
      (.ofInts (scope setup snapshot)) m with ⟨fault | _, s⟩
    · rw [hrun] at hend
      cases hend
    · have hdecided : s.trade.batch.newOrders = decided setup now snapshot m := by
        rw [decided, hrun]
      have hcut := cutOrders_int setup.session nonneg s.trade.batch.newOrders
      dsimp only
      rw [hrun]
      simp only [conclude, hcap, hcut, Except.map]
      refine ⟨_, rfl, valid_of_loop distinct nonneg ?_ ?_ ?_⟩
      · rw [hrun]
      · rw [← hdecided]
      · rw [← hdecided]

/-- A tick that is hindered decides nothing. -/
theorem decide_refused (now : Micros) (distinct : snapshot.Distinct)
    (hindered : ¬Unhindered setup snapshot m.tracker) :
    ∃ fault, (decide setup (.ok now) snapshot m).result = .error fault := by
  -- A tick with nothing to do is never hindered, so this one comes to its loop.
  have hvisited : (scope setup snapshot).bots ≠ [] ∧ snapshot.instruments ≠ [] := by
    by_contra hidle
    refine hindered ⟨?_, ?_⟩
    · rintro ⟨hbots, i, hi, -⟩
      exact hidle ⟨hbots, List.ne_nil_of_mem hi⟩
    · rintro ⟨hobserved, b, hb, -⟩
      refine hidle ⟨List.ne_nil_of_mem hb, ?_⟩
      rintro hnone
      exact hobserved (by rw [observed, hnone, List.filter_nil])
  have hend := mt (runPairs_ok_iff now m distinct hvisited.1).1 hindered
  unfold decide decideScoped
  rw [if_neg (by simp [hvisited.1, scope_instruments, hvisited.2]), prepare_int]
  rcases hrun : runPairs setup now (scope setup snapshot)
    (.ofInts (scope setup snapshot)) m with ⟨fault | _, s⟩
  · dsimp only
    rw [hrun]
    exact ⟨fault, rfl⟩
  · exact absurd (by rw [hrun]) hend

/-! ## Sending -/

end Tick

variable {σ α : Type}

/-- Access to a store with a list beside it, of the batches that were sent. -/
def StoreAccess.logged (access : StoreAccess σ α) : StoreAccess (σ × List (Batch α)) α where
  fetch s := ((access.fetch s.1).1, (access.fetch s.1).2, s.2)
  send b s := ((access.send b s.1).1, (access.send b s.1).2, s.2 ++ [b])

namespace Tick

/-- What a tick does with a decision: its batch is sent once, and not at all if it is empty, and it is
the store that accepts or refuses it. -/
structure Delivered (access : StoreAccess σ α) (read : σ) (d : TickDecision α)
    (r : TickRun (σ × List (Batch α)) α) : Prop where
  sent : r.store.2 = if d.hasBatch then [d.batch] else []
  answer : r.result = if d.hasBatch then
    ((access.send d.batch read).1.mapError TickFailure.store).map fun _ => d else .ok d

/-- What running a tick on a store is relied on for. If the store cannot be read, that is its failure and
nothing is sent; otherwise a valid decision is taken and delivered. -/
def Delivers (access : StoreAccess σ Int) (setup : TickSetup) (cap : Int) (now : Micros) (store : σ)
    (m : TickMemory Int) : Prop :=
  match access.fetch store with
  | (.error fault, _) =>
    (run access.logged setup (.ok now) (store, []) m).result = .error (.store fault) ∧
      (run access.logged setup (.ok now) (store, []) m).store.2 = []
  | (.ok snapshot, read) => snapshot.Distinct →
    ∃ d, Valid setup cap now snapshot m d ∧
      Delivered access read d (run access.logged setup (.ok now) (store, []) m)

theorem send_logged (access : StoreAccess σ α) (setup : TickSetup) (d : TickDecision α) (read : σ) :
    (send access.logged setup d (read, [])).2.1.2 = (if d.hasBatch then [d.batch] else []) ∧
    (send access.logged setup d (read, [])).1 = if d.hasBatch then
      ((access.send d.batch read).1.mapError TickFailure.store).map fun _ => d else .ok d := by
  unfold send
  cases d.hasBatch with
  | false => exact ⟨rfl, rfl⟩
  | true =>
      simp only [StoreAccess.logged, if_true]
      rcases access.send d.batch read with ⟨fault | _, t⟩
      · exact ⟨rfl, rfl⟩
      · exact ⟨rfl, rfl⟩

theorem fetch_logged {access : StoreAccess σ α} {store read : σ} {result : Except StoreFault (Snapshot α)}
    (h : access.fetch store = (result, read)) : access.logged.fetch (store, []) = (result, read, []) := by
  simp [StoreAccess.logged, h]

theorem run_logged [Amount α] {access : StoreAccess σ α} {store read : σ} {snapshot : Snapshot α}
    (h : access.fetch store = (.ok snapshot, read)) (setup : TickSetup) (clock : Except NumberFault Micros)
    (m : TickMemory α) :
    run access.logged setup clock (store, []) m = proceed access.logged setup clock snapshot (read, []) m := by
  rw [run, fetch_logged h]

theorem send_logged_store (access : StoreAccess σ α) (setup : TickSetup) (d : TickDecision α) (read : σ) :
    (send access.logged setup d (read, [])).2.1.1 = (send access setup d read).2.1 := by
  unfold send
  split
  · simp only [StoreAccess.logged]
    rcases access.send d.batch read with ⟨_ | _, store⟩ <;> rfl
  · rfl

/-- A log beside a store changes nothing about the store. -/
theorem run_logged_store [Amount α] (access : StoreAccess σ α) (setup : TickSetup)
    (clock : Except NumberFault Micros) (store : σ) (m : TickMemory α) :
    (run access.logged setup clock (store, []) m).store.1 = (run access setup clock store m).store := by
  rcases hfetch : access.fetch store with ⟨fault | snapshot, read⟩
  · rw [run, run, fetch_logged hfetch, hfetch]
  · rw [run, run, fetch_logged hfetch, hfetch]
    unfold proceed
    dsimp only
    cases (decide setup clock snapshot m).result with
    | error fault => rfl
    | ok d => exact send_logged_store access setup d read

/-- A tick that decides nothing fails. -/
theorem run_of_refused [Amount α] {access : StoreAccess σ α} {store read : σ} {snapshot : Snapshot α}
    {clock : Except NumberFault Micros} {m : TickMemory α} {fault : TickFault}
    (hfetch : access.fetch store = (.ok snapshot, read))
    (hfault : (decide setup clock snapshot m).result = .error fault) :
    (run access setup clock store m).result = .error (.decision fault) := by
  rw [run, hfetch]
  simp only [proceed, hfault]

/-- A tick that delivers has come to a decision, since it fails only as the store does. -/
theorem Delivers.decides {access : StoreAccess σ Int} {store : σ} {snapshot : Snapshot Int} {read : σ}
    (h : Delivers access setup cap now store m) (hfetch : access.fetch store = (.ok snapshot, read))
    (distinct : snapshot.Distinct) : ∃ d, (decide setup (.ok now) snapshot m).result = .ok d := by
  rw [Delivers, hfetch] at h
  rcases h distinct with ⟨d, -, delivered⟩
  have hanswer := delivered.answer
  rw [run_logged hfetch, proceed] at hanswer
  rcases hdecide : (decide setup (.ok now) snapshot m).result with fault | decision
  · rw [hdecide] at hanswer
    cases hbatch : d.hasBatch with
    | false => simp [hbatch] at hanswer
    | true =>
        cases hsend : (access.send d.batch read).1 <;> simp [hbatch, hsend, Except.map] at hanswer
  · exact ⟨decision, rfl⟩

/-- A tick delivers on every store, with every tracker and random source and whatever the bots decide,
unless it comes to a price that the tracker cannot take, or to a bot whose rules are not usable. -/
theorem delivers_iff (access : StoreAccess σ Int) {setup : TickSetup} {cap : Int}
    (hcap : setup.config.maxOrders = .int cap) (positive : 0 < cap) (now : Micros) (store : σ)
    (m : TickMemory Int) :
    Delivers access setup cap now store m ↔
      ∀ snapshot read, access.fetch store = (.ok snapshot, read) → snapshot.Distinct →
        Unhindered setup snapshot m.tracker := by
  constructor
  · intro h snapshot read hfetch distinct
    -- What is delivered was decided, and a tick that is hindered decides nothing.
    by_contra hindered
    rcases h.decides hfetch distinct with ⟨d, hdecide⟩
    rcases decide_refused now distinct hindered with ⟨fault, hrefused⟩
    rw [hrefused] at hdecide
    cases hdecide
  · intro free
    rw [Delivers]
    rcases hfetch : access.fetch store with ⟨fault | snapshot, read⟩
    · rw [run, fetch_logged hfetch]
      exact ⟨rfl, rfl⟩
    · rw [run_logged hfetch]
      intro distinct
      rcases decide_valid now distinct hcap (Int.le_of_lt positive)
        (free snapshot read hfetch distinct) with ⟨d, hdecide, hvalid⟩
      rcases send_logged access setup d read with ⟨hlog, hanswer⟩
      refine ⟨d, hvalid, ?_, ?_⟩
      · rw [proceed, hdecide]
        exact hlog
      · rw [proceed, hdecide]
        exact hanswer

/-- A store that always reads the same and takes every batch. -/
def steady (snapshot : Snapshot α) : StoreAccess Unit α where
  fetch s := (.ok snapshot, s)
  send _ s := (.ok (), s)

/-- One bot buys anew, with its resting order cancelled by the same batch; the other has no money. -/
theorem delivers_restingBuy :
    buyAnew.config.maxOrders = .int 500 ∧ (0 : Int) < 500 ∧ restingBuy.Distinct ∧
    (run (steady restingBuy).logged buyAnew (.ok 0) ((), []) risen).store.2 =
      [⟨["o1"], [{ instrumentId := "i1", botId := "b1", side := .buy, limitPrice := 10,
                   quantity := 1 }]⟩] ∧
    Delivers (steady restingBuy) buyAnew 500 0 () risen := by
  have hcap : buyAnew.config.maxOrders = .int 500 := rfl
  refine ⟨hcap, by decide, ⟨by decide, by decide, by decide⟩, by decide +kernel, ?_⟩
  refine (delivers_iff (steady restingBuy) hcap (by decide) 0 () risen).2 ?_
  intro snapshot read hfetch _
  cases hfetch
  refine unhindered_of_unread (by decide) fun strategyId definition hdefinition => ?_
  cases hdefinition

/-- A bot, an instrument, and nothing else. -/
def lone : Snapshot Int where
  bots := [{ id := "b1", balance := 100 }]
  instruments := [{ id := "s1", symbol := "ACME", price := 10 }]

/-- A tracker with a capacity that no history can be given. -/
def boundless : TickMemory Int := ⟨{ capacity := 2 ^ 63 }, .script {}⟩

/-- A period of more digits than are read. -/
def manyDigits : DigitRow where
  chars := List.replicate (digitLimit + 1) '1'
  isDigits := by
    refine IndicatorKey.isDigits_iff.2 ⟨by simp, fun c hc => ?_⟩
    obtain rfl := List.eq_of_mem_replicate hc
    decide

/-- A rule, given ready-made, that compares with an average over such a period. -/
def overlong : Rule :=
  ⟨.comparison (String.ofList (Spelling.plain "ma" (by decide) manyDigits).chars) .greaterThan
    (.literal (.number 0)), ⟨.buy, []⟩, 1⟩

theorem not_usable_overlong : ¬Rule.Usable [overlong] := by
  intro h
  have hread : Rule.Read [overlong] _ := ⟨overlong, List.mem_singleton_self _, .left⟩
  have hshort := usable_iff_periods.1 h _ hread (.plain "ma" (by decide) manyDigits)
    (Spelling.dropLineFeed_eq String.toList_ofList)
  simp [Spelling.period, manyDigits] at hshort

/-- A bot that goes by this rule. -/
def hindering : Snapshot Int where
  bots := [{ id := "b1", balance := 100, strategyId? := some "st1" }]
  instruments := [{ id := "i1", symbol := "ACME", price := 10 }]
  ruleSets := [("st1", .ready overlong)]

/-- The rule stops a tick that would have to look at it, and not only the pairs of its bot. -/
theorem decide_hindering :
    ∃ fault, (decide { session := "s" } (.ok 0) hindering risen).result = .error fault := by
  refine decide_refused 0 ⟨by decide, by decide, by decide⟩ fun hfree =>
    hfree.2 ⟨by decide, _, List.mem_singleton_self _, ?_⟩
  exact fun h => not_usable_overlong (h rfl [overlong] rfl)

/-- With a tracker that has no room to give, the first price stops the tick, which should have recorded
it and sent nothing. So does a rule of which no one can say what it reads. -/
theorem boundless_stops_tick :
    lone.Distinct ∧
    (run (steady lone) { session := "s" } (.ok 0) () boundless).result =
      .error (.decision .historyTooLong) ∧
    ¬Delivers (steady lone) { session := "s" } 500 0 () boundless ∧
    hindering.Distinct ∧
    (∃ fault, (run (steady hindering) { session := "s" } (.ok 0) () risen).result = .error (.decision fault)) ∧
    ¬Delivers (steady hindering) { session := "s" } 500 0 () risen := by
  have distinct : lone.Distinct := ⟨by decide, by decide, by decide⟩
  have hindered : hindering.Distinct := ⟨by decide, by decide, by decide⟩
  obtain ⟨fault, hfault⟩ := decide_hindering
  refine ⟨distinct, rfl, ?_, hindered, ⟨fault, ?_⟩, ?_⟩
  · intro h
    rcases h.decides rfl distinct with ⟨d, hdecide⟩
    cases hdecide
  · exact run_of_refused rfl hfault
  · intro h
    rcases h.decides rfl hindered with ⟨d, hdecide⟩
    rw [hfault] at hdecide
    cases hdecide

end Tick

end RuleTrader
