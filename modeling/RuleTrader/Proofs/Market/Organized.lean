import RuleTrader.Market.Snapshot
import RuleTrader.Proofs.Outcome
import RuleTrader.Proofs.Table

/-!
# The tables of a snapshot

What a tick finds in the tables that a snapshot is organized into: under a bot and an instrument the
open orders of that pair, in the order of the snapshot, and under a bot its stored balance. A snapshot
that counts in integers can always be organized.
-/

namespace RuleTrader

namespace Order

variable {α : Type}

/-- The open orders of a bot in an instrument. -/
def openIn (orders : List (Order α)) (botId instrumentId : String) : List (Order α) :=
  orders.filter fun o => o.isOpen && o.botId == botId && o.instrumentId == instrumentId

theorem mem_openIn {orders : List (Order α)} {botId instrumentId : String} {o : Order α} :
    o ∈ openIn orders botId instrumentId ↔
      o ∈ orders ∧ o.isOpen = true ∧ o.botId = botId ∧ o.instrumentId = instrumentId := by
  simp [openIn, and_assoc]

end Order

/-- Among bots with distinct names the others have other names. -/
theorem Bot.split_of_mem {α : Type} {bots : List (Bot α)} (distinct : (bots.map (·.id)).Nodup)
    {b : Bot α} (hb : b ∈ bots) :
    ∃ before after, bots = before ++ b :: after ∧ (∀ other ∈ before, other.id ≠ b.id) ∧
      ∀ other ∈ after, other.id ≠ b.id := by
  rcases List.append_of_mem hb with ⟨before, after, hsplit⟩
  rw [hsplit, List.map_append, List.map_cons, List.nodup_append, List.nodup_cons] at distinct
  rcases distinct with ⟨-, ⟨hafter, -⟩, hbefore⟩
  refine ⟨before, after, hsplit, ?_, ?_⟩
  · intro other ho heq
    exact hbefore _ (List.mem_map_of_mem ho) _ List.mem_cons_self heq
  · intro other ho heq
    exact hafter (heq ▸ List.mem_map_of_mem ho)

namespace Snapshot

variable {α : Type}

/-- Bots, instruments and orders are told apart by their names. -/
structure Distinct (s : Snapshot α) : Prop where
  bots : (s.bots.map (·.id)).Nodup
  instruments : (s.instruments.map (·.id)).Nodup
  orders : (s.orders.map (·.id)).Nodup

/-- The open orders that a snapshot has for a bot in an instrument. -/
def openOrders (s : Snapshot α) (botId instrumentId : String) : List (Order α) :=
  Order.openIn s.orders botId instrumentId

/-- The positions of a bot in an instrument. -/
def positionsIn (s : Snapshot α) (botId instrumentId : String) : List (Position α) :=
  s.positions.filter fun p => (p.botId, p.instrumentId) = (botId, instrumentId)

/-- Narrowing a snapshot keeps the bots of the owners. -/
theorem mem_scopeTo_bots {s : Snapshot α} {owners : List String} {b : Bot α} :
    b ∈ (s.scopeTo owners).bots ↔ b ∈ s.bots ∧ ∃ ownerId ∈ owners, b.ownerId? = some ownerId := by
  rw [scopeTo, List.mem_filter, owns]
  cases b.ownerId? with
  | none => simp
  | some ownerId => simp

/-- Narrowing a snapshot takes no order of a bot that it keeps away. -/
theorem filter_orders_scopeTo {s : Snapshot α} {owners : List String} {b : Bot α}
    (h : b ∈ (s.scopeTo owners).bots) {p : Order α → Bool} (hp : ∀ o, p o = true → o.botId = b.id) :
    (s.scopeTo owners).orders.filter p = s.orders.filter p := by
  have hid : b.id ∈ (s.bots.filter (owns owners)).map (·.id) := List.mem_map_of_mem h
  rw [scopeTo, List.filter_filter]
  refine List.filter_congr fun o _ => ?_
  cases ho : p o with
  | false => rfl
  | true => simp [hp o ho, hid]

theorem openOrders_scopeTo {s : Snapshot α} {owners : List String} {b : Bot α}
    (h : b ∈ (s.scopeTo owners).bots) (instrumentId : String) :
    (s.scopeTo owners).openOrders b.id instrumentId = s.openOrders b.id instrumentId := by
  refine filter_orders_scopeTo h fun o ho => ?_
  have hplace : (o.isOpen = true ∧ o.botId = b.id) ∧ o.instrumentId = instrumentId := by
    simpa using ho
  exact hplace.1.2

theorem positionsIn_scopeTo {s : Snapshot α} {owners : List String} {b : Bot α}
    (h : b ∈ (s.scopeTo owners).bots) (instrumentId : String) :
    (s.scopeTo owners).positionsIn b.id instrumentId = s.positionsIn b.id instrumentId := by
  have hid : b.id ∈ (s.bots.filter (owns owners)).map (·.id) := List.mem_map_of_mem h
  rw [positionsIn, scopeTo, List.filter_filter]
  refine List.filter_congr fun p _ => ?_
  by_cases hp : (p.botId, p.instrumentId) = (b.id, instrumentId)
  · have hbot : p.botId = b.id := (Prod.mk.inj hp).1
    simp [hbot, hid]
  · simp [hp]

theorem ruleSets_scopeTo {s : Snapshot α} {owners : List String} {b : Bot α}
    (h : b ∈ (s.scopeTo owners).bots) {strategyId : String} (used : b.strategyId? = some strategyId)
    (nonempty : strategyId ≠ "") :
    (s.scopeTo owners).ruleSets.get? strategyId = s.ruleSets.get? strategyId := by
  refine Table.get?_filter (p := uses _) s.ruleSets ?_
  simp only [uses, Bool.and_eq_true, decide_eq_true_eq, List.any_eq_true, beq_iff_eq]
  exact ⟨nonempty, b, h, used⟩

end Snapshot

namespace Organized

variable {α : Type}

/-! ## Orders -/

theorem getD_get?_foldl_addOrder (orders : List (Order α)) (t : Table String (List (Order α)))
    (botId : String) :
    ((orders.foldl addOrder t).get? botId).getD [] =
      (t.get? botId).getD [] ++ orders.filter (·.botId == botId) := by
  induction orders generalizing t with
  | nil => simp
  | cons o os ih =>
      rw [List.foldl_cons, ih]
      by_cases h : o.botId = botId
      · subst h
        simp [addOrder]
      · simp [addOrder, h, Table.get?_put_of_ne]

variable [Amount α]

theorem ofSnapshot_ok {s : Snapshot α} {d : Organized α} (h : ofSnapshot s = .ok d) :
    d.orders = (s.orders.filter Order.isOpen).foldl addOrder [] ∧
    (∃ shares, s.positions.mapM shareEntry = .ok shares ∧ d.shares = .ofList shares) ∧
    (∃ balances, s.bots.mapM balanceEntry = .ok balances ∧ d.balances = .ofList balances) ∧
    d.ruleSets = s.ruleSets ∧
    d.aggregates = .ofList (s.aggregates.map fun a => (a.instrumentId, a)) := by
  rcases bind_ok h with ⟨shares, hshares, h⟩
  rcases bind_ok h with ⟨balances, hbalances, h⟩
  obtain rfl := Except.ok.inj h
  exact ⟨rfl, ⟨shares, hshares, rfl⟩, ⟨balances, hbalances, rfl⟩, rfl, rfl⟩

/-- A tick looks the orders of a pair up as the snapshot lists them. -/
theorem ordersFor_eq {s : Snapshot α} {d : Organized α} (h : ofSnapshot s = .ok d)
    (botId instrumentId : String) :
    d.ordersFor botId instrumentId = s.openOrders botId instrumentId := by
  rw [ordersFor, (ofSnapshot_ok h).1, getD_get?_foldl_addOrder]
  simp only [Table.get?_nil, Option.getD_none, List.nil_append, List.filter_filter,
    Snapshot.openOrders, Order.openIn]
  refine List.filter_congr fun o _ => ?_
  cases o.isOpen <;> cases hb : o.botId == botId <;> cases o.instrumentId == instrumentId <;> rfl

/-! ## Shares and balances -/

theorem shareEntry_key (p : Position α) (entry : (String × String) × Int)
    (h : shareEntry p = .ok entry) : entry.1 = (p.botId, p.instrumentId) := by
  rcases bind_ok h with ⟨n, -, h⟩
  rw [← Except.ok.inj h]

theorem balanceEntry_key (b : Bot α) (entry : String × Int) (h : balanceEntry b = .ok entry) :
    entry.1 = b.id := by
  rcases bind_ok h with ⟨n, -, h⟩
  rw [← Except.ok.inj h]

/-- What a table of results has under a key comes from the entries of that key. -/
theorem get?_ofList_congr {β ε κ ι : Type} [DecidableEq κ] {f : ι → Except ε (κ × β)} {key : ι → κ}
    (hkey : ∀ x e, f x = .ok e → e.1 = key x) {xs ys : List ι} {ds es : List (κ × β)}
    (hds : xs.mapM f = .ok ds) (hes : ys.mapM f = .ok es) {k : κ}
    (h : (xs.filter fun x => key x = k) = ys.filter fun x => key x = k) :
    (Table.ofList ds).get? k = (Table.ofList es).get? k := by
  have hpick : ∀ x e, f x = .ok e → decide (key x = k) = decide (e.1 = k) :=
    fun x e he => by rw [hkey x e he]
  have hsame : (ds.filter fun e => e.1 = k) = es.filter fun e => e.1 = k := by
    have hpicked := mapM_filter hpick hds
    rw [h, mapM_filter hpick hes] at hpicked
    exact (Except.ok.inj hpicked).symm
  rw [Table.get?_ofList, Table.get?_ofList, hsame]

variable {s t : Snapshot α} {d e : Organized α}

/-- The shares of a pair come from its positions. -/
theorem sharesOwned_congr (hd : ofSnapshot s = .ok d) (he : ofSnapshot t = .ok e)
    {botId instrumentId : String}
    (h : s.positionsIn botId instrumentId = t.positionsIn botId instrumentId) :
    d.sharesOwned botId instrumentId = e.sharesOwned botId instrumentId := by
  rcases (ofSnapshot_ok hd).2.1 with ⟨ds, hds, hd⟩
  rcases (ofSnapshot_ok he).2.1 with ⟨es, hes, he⟩
  rw [sharesOwned, sharesOwned, hd, he, get?_ofList_congr shareEntry_key hds hes h]

/-- The money that a bot starts with comes from its record. -/
theorem balances_congr (hd : ofSnapshot s = .ok d) (he : ofSnapshot t = .ok e)
    (distinct : (s.bots.map (·.id)).Nodup) (distinct' : (t.bots.map (·.id)).Nodup) {b : Bot α}
    (hb : b ∈ s.bots) (hb' : b ∈ t.bots) : d.balances.get? b.id = e.balances.get? b.id := by
  rcases (ofSnapshot_ok hd).2.2.1 with ⟨ds, hds, hd⟩
  rcases (ofSnapshot_ok he).2.2.1 with ⟨es, hes, he⟩
  have honly {bots : List (Bot α)} (distinct : (bots.map (·.id)).Nodup) (hb : b ∈ bots) :
      bots.filter (fun other => other.id = b.id) = [b] := by
    rcases Bot.split_of_mem distinct hb with ⟨before, after, rfl, hbefore, hafter⟩
    have hnone {others : List (Bot α)} (hne : ∀ other ∈ others, other.id ≠ b.id) :
        others.filter (fun other => other.id = b.id) = [] :=
      List.filter_eq_nil_iff.2 fun other ho => by simpa using hne other ho
    simp [List.filter_append, hnone hbefore, hnone hafter]
  rw [hd, he]
  exact get?_ofList_congr balanceEntry_key hds hes ((honly distinct hb).trans (honly distinct' hb').symm)

/-! ## Integers -/

/-- The tables of a snapshot that counts in integers. -/
def ofInts (s : Snapshot Int) : Organized Int where
  orders := (s.orders.filter Order.isOpen).foldl addOrder []
  shares := .ofList (s.positions.map fun p => ((p.botId, p.instrumentId), p.shares))
  balances := .ofList (s.bots.map fun b => (b.id, b.balance))
  ruleSets := s.ruleSets
  aggregates := .ofList (s.aggregates.map fun a => (a.instrumentId, a))

/-- A snapshot that counts in integers can always be organized. -/
theorem ofSnapshot_int (s : Snapshot Int) : ofSnapshot s = .ok (ofInts s) := by
  have hs := mapM_ok shareEntry (fun p : Position Int => ((p.botId, p.instrumentId), p.shares))
    (fun _ => rfl) s.positions
  have hb := mapM_ok balanceEntry (fun b : Bot Int => (b.id, b.balance)) (fun _ => rfl) s.bots
  simp only [ofSnapshot, hs, hb, bind, Except.bind, pure, Except.pure]
  rfl

theorem eq_ofInts {s : Snapshot Int} {d : Organized Int} (h : ofSnapshot s = .ok d) :
    d = ofInts s :=
  Except.ok.inj (h.symm.trans (ofSnapshot_int s))

end Organized

end RuleTrader
