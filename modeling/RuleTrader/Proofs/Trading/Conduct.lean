import Mathlib.Data.List.Nodup
import RuleTrader.Proofs.Trading.Failure
import RuleTrader.Proofs.Trading.Supply

/-!
# What a pair does

The whole conduct of a pair that comes to a result, when amounts are counted in integers. First its open
orders are visited from left to right (`Visit`). A visit that decides to cancel marks its order, unless it
is marked already, and the money of a buy order is there for all later visits. If an order survives, that is
all. Otherwise the rules decide once more, with the facts of no order, and what they decide is `Creates`:
to cancel then changes nothing, since all orders are marked.
-/

namespace RuleTrader

/-! ## The facts of every evaluation -/

namespace PairFacts

variable {α : Type} [Amount α] {pair : Pair α} {balance : α} {random random' : RandomSource}
  {facts : Facts}

/-- Only names of indicators are computed. -/
theorem isFact_of_indicators {found : List (String × Value)} (h : indicators pair = .ok found)
    {name : String} (hname : name ∈ Table.keys found) : IndicatorKey.isFact name = .ok true := by
  rcases bind_ok h with ⟨keys, hkeys, h⟩
  cases keys with
  | nil =>
      cases h
      cases hname
  | cons key keys =>
      rcases bind_ok h with ⟨computed, hcomputed, h⟩
      obtain rfl : Table.mapValues Value.float computed = found := Except.ok.inj h
      rw [Table.keys_mapValues] at hname
      exact ((Rule.mem_indicatorKeys hkeys).1 (IndicatorFacts.mem_of_compute hcomputed hname)).2

/-- The facts that nothing which comes after them replaces: the draw, and the facts of no order. -/
def settled (random : RandomSource) : Table String Value :=
  (Fact.chance, .float (random.unit.1 * 100)) :: noOrder

/-- None of them is an indicator, or there only if its source is. -/
theorem settled_apart (pair : Pair α) : ∀ name ∈ (settled random).keys,
    IndicatorKey.isFact name = .ok false ∧ name ∉ Table.keys (optional pair) := by
  have hoptional : Table.keys (optional pair) ⊆ ["previousPrice", "volume"] := by
    unfold optional
    cases pair.price.previous? <;> cases pair.aggregate? <;> simp [Table.keys]
  have hnames : ∀ name ∈ [Fact.chance, "orderPrice", "orderAge", "orderDeviation"],
      IndicatorKey.isFact name = .ok false ∧ name ∉ ["previousPrice", "volume"] := by
    decide +kernel
  exact fun name hname => ⟨(hnames name hname).1, fun hmem => (hnames name hname).2 (hoptional hmem)⟩

theorem nodup_settled (random : RandomSource) : (settled random).keys.Nodup := by
  show [Fact.chance, "orderPrice", "orderAge", "orderDeviation"].Nodup
  decide

theorem get?_of_build (h : build pair balance random = (.ok facts, random')) {name : String} {v : Value}
    (hv : (settled random).get? name = some v) : Table.get? facts name = some v := by
  have hname : name ∈ (settled random).keys := by
    rw [← Table.has_iff_mem_keys, Table.has, hv]
    rfl
  rcases settled_apart pair name hname with ⟨hindicator, hoptional⟩
  unfold build at h
  cases hplain : plain pair balance with
  | error fault =>
      rw [hplain] at h
      cases (Prod.mk.inj h).1
  | ok known =>
      cases hfound : indicators pair with
      | error fault =>
          simp only [hplain, hfound] at h
          cases (Prod.mk.inj h).1
      | ok found =>
          simp only [hplain, hfound] at h
          obtain rfl := Except.ok.inj (Prod.mk.inj h).1
          -- Neither indicators nor facts that may be missing have the name of a settled one.
          have hfoundKeys : name ∉ Table.keys found := fun hmem => by
            rw [isFact_of_indicators hfound hmem] at hindicator
            cases hindicator
          have hsettled : known ++ (Fact.chance, Value.float (random.unit.1 * 100)) :: noOrder =
              known ++ settled random := rfl
          rw [hsettled, Table.putAll_append, Table.putAll_append,
            Table.get?_putAll_of_not_mem hfoundKeys, Table.get?_putAll_of_not_mem hoptional,
            Table.putAll_append, Table.get?_putAll_of_nodup (nodup_settled random), hv, Option.some_or]

end PairFacts

/-! ## Visits -/

/-- The money that the cancelled order gives back: all of it for a buy order, none for a sell order. -/
def Order.refund (o : Order Int) : Int :=
  match o.side with
  | .buy => o.limitPrice * o.quantity
  | .sell => 0

/-- An open order that was put to the rules, the facts that they saw and what they decided. -/
structure Visit where
  order : Order Int
  facts : Facts
  decision? : Option Decision

namespace Visit

/-- Whether the rules decided to cancel. -/
def tells (v : Visit) : Bool := Pair.isCancel v.decision?

/-- The order of a visit, if it is told to be cancelled and not marked yet. -/
def news (marked : List String) (v : Visit) : List (Order Int) :=
  if v.tells = true ∧ v.order.id ∉ marked then [v.order] else []

/-- The orders that visits newly mark, one visit after the other. -/
def cancelled (marked : List String) : List Visit → List (Order Int)
  | [] => []
  | v :: vs => v.news marked ++ cancelled (marked ++ (v.news marked).map (·.id)) vs

/-- What visits give back. -/
def returned (marked : List String) (vs : List Visit) : Int :=
  ((cancelled marked vs).map (·.refund)).sum

variable {marked : List String} {v : Visit} {vs : List Visit} {id : String}

theorem mem_news_ids : id ∈ (v.news marked).map (·.id) ↔
    id ∉ marked ∧ v.tells = true ∧ v.order.id = id := by
  unfold news
  split
  · next h =>
      rw [List.map_singleton, List.mem_singleton]
      constructor
      · rintro rfl
        exact ⟨h.2, h.1, rfl⟩
      · exact fun h => h.2.2.symm
  · next h =>
      simp only [List.map_nil, List.not_mem_nil, false_iff]
      rintro ⟨hmarked, htells, rfl⟩
      exact h ⟨htells, hmarked⟩

theorem news_eq_nil (h : ¬(v.tells = true ∧ v.order.id ∉ marked)) : v.news marked = [] := if_neg h

/-- Newly marked are exactly the orders that are told to be cancelled and were not marked before. -/
theorem mem_cancelled_ids : id ∈ (cancelled marked vs).map (·.id) ↔
    id ∉ marked ∧ ∃ v ∈ vs, v.tells = true ∧ v.order.id = id := by
  induction vs generalizing marked with
  | nil => simp [cancelled]
  | cons v vs ih =>
      simp only [cancelled, List.map_append, List.mem_append, ih, mem_news_ids, List.exists_mem_cons_iff]
      tauto

/-- An order is newly marked at most once. -/
theorem nodup_cancelled_ids (marked : List String) (vs : List Visit) :
    ((cancelled marked vs).map (·.id)).Nodup := by
  induction vs generalizing marked with
  | nil => simp [cancelled]
  | cons v vs ih =>
      rw [cancelled, List.map_append, List.nodup_append']
      refine ⟨?_, ih _, fun id hid hid' => ?_⟩
      · unfold news
        split <;> simp
      · exact (mem_cancelled_ids.1 hid').1 (List.mem_append_right _ hid)

end Visit

/-! ## Cancelling -/

namespace TradeState

/-- Some orders of a bot are newly marked and their money is the bot's again; all else is as it was. -/
structure Cancelled (botId : String) (os : List (Order Int)) (s u : TradeState Int) : Prop where
  marks : u.batch.cancelIds = s.batch.cancelIds ++ os.map (·.id)
  newOrders : u.batch.newOrders = s.batch.newOrders
  balance : u.balance botId = s.balance botId + (os.map (·.refund)).sum
  others : ∀ other, other ≠ botId → u.balances.get? other = s.balances.get? other
  random : u.random = s.random
  notices : u.notices = s.notices

namespace Cancelled

variable {botId : String} {os os' : List (Order Int)} {s u w : TradeState Int}

theorem nothing (botId : String) (s : TradeState Int) : Cancelled botId [] s s :=
  ⟨by simp, rfl, by simp, fun _ _ => rfl, rfl, rfl⟩

theorem append (h : Cancelled botId os s u) (h' : Cancelled botId os' u w) :
    Cancelled botId (os ++ os') s w where
  marks := by rw [h'.marks, h.marks, List.map_append, List.append_assoc]
  newOrders := h'.newOrders.trans h.newOrders
  balance := by rw [h'.balance, h.balance, List.map_append, List.sum_append, Int.add_assoc]
  others other hne := (h'.others other hne).trans (h.others other hne)
  random := h'.random.trans h.random
  notices := h'.notices.trans h.notices

end Cancelled

/-- An order that is not marked is cancelled with its refund. -/
theorem cancel_fresh {s : TradeState Int} {o : Order Int} (fresh : o.id ∉ s.batch.cancelIds) :
    (s.cancel o).1 = .ok () ∧ Cancelled o.botId [o] s (s.cancel o).2 := by
  unfold cancel
  rw [if_neg fresh]
  cases hside : o.side with
  | sell => exact ⟨rfl, by simp [markCancel], rfl, by simp [balance, markCancel, Order.refund, hside],
      fun _ _ => rfl, rfl, rfl⟩
  | buy =>
      have hrefund : s.refunded o = .ok (s.balance o.botId + o.limitPrice * o.quantity) := rfl
      rw [hrefund]
      refine ⟨rfl, by simp [markCancel, setBalance], rfl, ?_, fun other hne => ?_, rfl, rfl⟩
      · simp [balance, markCancel, setBalance, Order.refund, hside]
      · exact Table.get?_put_of_ne _ _ hne.symm

end TradeState

namespace Pair

variable {pair : Pair Int} {facts : Facts} {os : List (Order Int)} {s t u : TradeState Int}

/-- A visit sees the facts of its order and the balance of the moment, and decides by them. -/
structure Sees (pair : Pair Int) (facts : Facts) (balance : Int) (v : Visit) : Prop where
  facts_eq : ∃ own, PairFacts.ofOrder v.order pair.price.current pair.now pair.tickInterval = .ok own ∧
    v.facts = PairFacts.withBalance (facts.putAll own) balance
  decided : Rule.decide? v.facts pair.rules = .ok v.decision?

/-- An order that is put to the rules is a visit. It survives, or it is cancelled if it is not marked yet. -/
theorem cancelIfTold_visit {o : Order Int} (own : o.botId = pair.bot.id) {survives : Bool}
    (h : pair.cancelIfTold facts o s = (.ok survives, u)) :
    ∃ v : Visit, v.order = o ∧ pair.Sees facts (s.balance pair.bot.id) v ∧ survives = !v.tells ∧
      s.Cancelled pair.bot.id (v.news s.batch.cancelIds) u := by
  unfold cancelIfTold at h
  cases hdecision : pair.orderDecision? facts s o with
  | error fault => simp [hdecision] at h
  | ok d? =>
      rcases bind_ok hdecision with ⟨ofOrder, hofOrder, hdecide⟩
      -- The visit is what was seen and what was decided by it.
      have hvisit : ∃ v : Visit, v.order = o ∧ v.tells = isCancel d? ∧
          pair.Sees facts (s.balance pair.bot.id) v :=
        ⟨⟨o, _, d?⟩, rfl, rfl, ⟨ofOrder, hofOrder, rfl⟩, hdecide⟩
      rcases hvisit with ⟨v, rfl, htells, sees⟩
      refine ⟨v, rfl, sees, ?_⟩
      simp only [hdecision, ← htells] at h
      cases hcancel : v.tells with
      | false =>
          simp only [hcancel, Bool.false_eq_true, if_false, Prod.mk.injEq, Except.ok.injEq] at h
          rcases h with ⟨rfl, rfl⟩
          rw [Visit.news_eq_nil (by simp [hcancel])]
          exact ⟨rfl, .nothing _ s⟩
      | true =>
          -- An order that is marked already gives nothing back a second time.
          by_cases hmarked : v.order.id ∈ s.batch.cancelIds
          · have hnothing : s.cancel v.order = (.ok (), s) := by rw [TradeState.cancel, if_pos hmarked]
            simp only [hcancel, if_true, hnothing, Functor.map, Except.map, Prod.mk.injEq,
              Except.ok.injEq] at h
            rcases h with ⟨rfl, rfl⟩
            rw [Visit.news_eq_nil (by simp [hmarked])]
            exact ⟨rfl, .nothing _ s⟩
          · rcases TradeState.cancel_fresh hmarked with ⟨hok, cancelled⟩
            rw [own] at cancelled
            simp only [hcancel, if_true, hok, Functor.map, Except.map, Prod.mk.injEq,
              Except.ok.injEq] at h
            rcases h with ⟨rfl, rfl⟩
            rw [Visit.news, if_pos ⟨hcancel, hmarked⟩]
            exact ⟨rfl, cancelled⟩

/-- Each visit sees what the visits before it gave back. -/
def EachSees (pair : Pair Int) (facts : Facts) (balance : Int) (marked : List String)
    (vs : List Visit) : Prop :=
  ∀ before v after, vs = before ++ v :: after →
    pair.Sees facts (balance + Visit.returned marked before) v

theorem EachSees.cons {v : Visit} {vs : List Visit} {balance : Int} {marked : List String}
    (first : pair.Sees facts balance v)
    (rest : pair.EachSees facts (balance + ((v.news marked).map (·.refund)).sum)
      (marked ++ (v.news marked).map (·.id)) vs) :
    pair.EachSees facts balance marked (v :: vs) := by
  intro before w after hsplit
  cases before with
  | nil =>
      obtain ⟨rfl, -⟩ := List.cons.inj hsplit
      simpa [Visit.returned, Visit.cancelled] using first
  | cons w' before =>
      obtain ⟨rfl, hrest⟩ := List.cons.inj hsplit
      have hreturned : Visit.returned marked (v :: before) = ((v.news marked).map (·.refund)).sum +
          Visit.returned (marked ++ (v.news marked).map (·.id)) before := by
        rw [Visit.returned, Visit.cancelled, List.map_append, List.sum_append, Visit.returned]
      rw [hreturned, ← Int.add_assoc]
      exact rest before w after hrest

/-- Putting orders to the rules is a visit of each, from left to right. -/
theorem cancelOrders_visits (own : ∀ o ∈ os, o.botId = pair.bot.id) {survivors : List (Order Int)}
    (h : pair.cancelOrders facts os s = (.ok survivors, u)) :
    ∃ vs : List Visit, vs.map (·.order) = os ∧
      pair.EachSees facts (s.balance pair.bot.id) s.batch.cancelIds vs ∧
      s.Cancelled pair.bot.id (Visit.cancelled s.batch.cancelIds vs) u ∧
      survivors = (vs.filter (!·.tells)).map (·.order) := by
  induction os generalizing s survivors with
  | nil =>
      cases h
      exact ⟨[], rfl, by rintro (_ | _) _ _ ⟨⟩, .nothing _ _, rfl⟩
  | cons o os ih =>
      rw [List.forall_mem_cons] at own
      unfold cancelOrders at h
      rcases hfirst : pair.cancelIfTold facts o s with ⟨fault | survives, t⟩
      · simp [hfirst] at h
      · rcases hrest : pair.cancelOrders facts os t with ⟨fault | others, w⟩
        · simp [hfirst, hrest] at h
        · simp only [hfirst, hrest, Functor.map, Except.map, Prod.mk.injEq, Except.ok.injEq] at h
          rcases h with ⟨rfl, rfl⟩
          rcases cancelIfTold_visit own.1 hfirst with ⟨v, rfl, sees, rfl, cancelled⟩
          rcases ih own.2 hrest with ⟨vs, rfl, eachSees, restCancelled, rfl⟩
          rw [cancelled.balance, cancelled.marks] at eachSees
          rw [cancelled.marks] at restCancelled
          refine ⟨v :: vs, rfl, .cons sees eachSees, cancelled.append restCancelled, ?_⟩
          cases htells : v.tells <;> simp [htells]

/-! ## Creating -/

/-- The action that trades on a side. -/
def tradeOn : Side → Action
  | .buy => .buy
  | .sell => .sell

/-- A decision trades on a side, on these terms: a quantity, a price, and what they leave to be drawn. -/
structure HasTerms (pair : Pair Int) (u : TradeState Int) (d : Decision) (side : Side) (quantity price : Int)
    (random : RandomSource) : Prop where
  action : d.action = tradeOn side
  resolved : ∃ drawn, Terms.quantity d side (u.balance pair.bot.id) pair.price.current pair.shares u.random =
      (.ok quantity, drawn) ∧
    Terms.limitPrice d side pair.bot.preset? pair.price.current drawn = (.ok price, random)

/-- What becomes of a decision that is made while no order of the pair is open. -/
inductive Creates (pair : Pair Int) (u : TradeState Int) :
    Option Decision → Option (NewOrder Int) → TradeState Int → Prop
  | nothing : Creates pair u none none u
  /-- To cancel changes nothing. -/
  | cancel {d : Decision} (action : d.action = .cancel) : Creates pair u (some d) none u
  /-- A buy order that can be paid for is placed, and its money is taken. -/
  | bought {d : Decision} {quantity price : Int} {random : RandomSource}
      (terms : pair.HasTerms u d .buy quantity price random)
      (affordable : max 1 price * quantity ≤ u.balance pair.bot.id) :
      Creates pair u (some d) (some (pair.newOrder .buy (max 1 price) quantity))
        (({ u with random }.setBalance pair.bot.id (u.balance pair.bot.id - max 1 price * quantity)).addOrder
          (pair.newOrder .buy (max 1 price) quantity))
  /-- One that cannot be paid for is reported. -/
  | tooDear {d : Decision} {quantity price : Int} {random : RandomSource}
      (terms : pair.HasTerms u d .buy quantity price random)
      (short : u.balance pair.bot.id < max 1 price * quantity) :
      Creates pair u (some d) none ({ u with random }.report (.buySkipped pair.bot.id pair.instrument.id
        (.int (max 1 price * quantity)) (.int (u.balance pair.bot.id))))
  /-- A sell order for shares that are held is placed. -/
  | sold {d : Decision} {quantity price : Int} {random : RandomSource}
      (terms : pair.HasTerms u d .sell quantity price random) (held : quantity ≤ pair.shares) :
      Creates pair u (some d) (some (pair.newOrder .sell (max 1 price) quantity))
        ({ u with random }.addOrder (pair.newOrder .sell (max 1 price) quantity))
  /-- One for more shares is reported. -/
  | notHeld {d : Decision} {quantity price : Int} {random : RandomSource}
      (terms : pair.HasTerms u d .sell quantity price random) (short : pair.shares < quantity) :
      Creates pair u (some d) none ({ u with random }.report (.sellSkipped pair.bot.id pair.instrument.id
        quantity (.int pair.shares)))

theorem place_int (pair : Pair Int) (side : Side) (price quantity : Int) (u : TradeState Int) :
    pair.place side price quantity u = match side with
      | .buy => pair.placeBuy (pair.newOrder .buy (max 1 price) quantity) u
      | .sell => pair.placeSell (pair.newOrder .sell (max 1 price) quantity) u := by
  rw [place, Amount.atLeast_int]
  cases side <;> rfl

theorem placeBuy_int (pair : Pair Int) (o : NewOrder Int) (u : TradeState Int) :
    pair.placeBuy o u = .ok (if u.balance pair.bot.id < o.limitPrice * o.quantity then
        (none, u.report (.buySkipped pair.bot.id pair.instrument.id (.int (o.limitPrice * o.quantity))
          (.int (u.balance pair.bot.id))))
      else (some o, (u.setBalance pair.bot.id
        (u.balance pair.bot.id - o.limitPrice * o.quantity)).addOrder o)) := by
  simp only [placeBuy, NewOrder.cost_int, Amount.lt_int, Amount.sub_int, bind, Except.bind, pure, Except.pure,
    decide_eq_true_eq]
  split <;> rfl

theorem placeSell_int (pair : Pair Int) (o : NewOrder Int) (u : TradeState Int) :
    pair.placeSell o u = .ok (if pair.shares < o.quantity then
        (none, u.report (.sellSkipped pair.bot.id pair.instrument.id o.quantity (.int pair.shares)))
      else (some o, u.addOrder o)) := by
  simp only [placeSell, Amount.ofInt_int, Amount.lt_int, bind, Except.bind, pure, Except.pure,
    decide_eq_true_eq]
  split <;> rfl

/-- A trade that comes to a result has terms, and they were placed. -/
theorem trade_ok {d : Decision} {side : Side} {made : Option (NewOrder Int)}
    (action : d.action = tradeOn side) (h : pair.trade d side u = (.ok made, t)) :
    ∃ quantity price random, pair.HasTerms u d side quantity price random ∧
      pair.place side price quantity { u with random } = .ok (made, t) := by
  unfold trade at h
  dsimp only at h
  split at h
  · cases h
  · next quantity drawn hquantity =>
      split at h
      · cases h
      · next price random hprice =>
          split at h
          · cases h
          · next hplace =>
              cases h
              exact ⟨quantity, price, random, ⟨action, drawn, hquantity, hprice⟩, hplace⟩

theorem trade_creates {d : Decision} (side : Side) {made : Option (NewOrder Int)}
    (action : d.action = tradeOn side) (h : pair.trade d side u = (.ok made, t)) :
    pair.Creates u (some d) made t := by
  rcases trade_ok action h with ⟨quantity, price, random, terms, hplace⟩
  rw [place_int] at hplace
  cases side with
  | buy =>
      rw [placeBuy_int, Except.ok.injEq] at hplace
      split at hplace
      · next short =>
          cases hplace
          exact .tooDear terms short
      · next affordable =>
          cases hplace
          exact .bought terms (Int.not_lt.1 affordable)
  | sell =>
      rw [placeSell_int, Except.ok.injEq] at hplace
      split at hplace
      · next short =>
          cases hplace
          exact .notHeld terms short
      · next held =>
          cases hplace
          exact .sold terms (Int.not_lt.1 held)

/-- Once all orders are marked, the rules decide once more, and what becomes of it is `Creates`. -/
theorem create_creates (marked : pair.AllMarked u) {made : Option (NewOrder Int)}
    (h : pair.create facts u = (.ok made, t)) :
    ∃ d?, Rule.decide? (PairFacts.withBalance facts (u.balance pair.bot.id)) pair.rules = .ok d? ∧
      pair.Creates u d? made t := by
  unfold create at h
  cases hdecide : Rule.decide? (PairFacts.withBalance facts (u.balance pair.bot.id)) pair.rules with
  | error fault => simp [hdecide] at h
  | ok d? =>
      refine ⟨d?, rfl, ?_⟩
      cases d? with
      | none =>
          simp only [hdecide, Prod.mk.injEq, Except.ok.injEq] at h
          rcases h with ⟨rfl, rfl⟩
          exact .nothing
      | some d =>
          cases haction : d.action with
          | cancel =>
              -- All orders are marked already, so telling to cancel them does nothing more.
              simp only [hdecide, haction, TradeState.cancelAll_of_marked marked, Functor.map, Except.map,
                Prod.mk.injEq, Except.ok.injEq] at h
              rcases h with ⟨rfl, rfl⟩
              exact .cancel haction
          | buy =>
              simp only [hdecide, haction] at h
              exact trade_creates .buy haction h
          | sell =>
              simp only [hdecide, haction] at h
              exact trade_creates .sell haction h

/-- What a creation places is what the batch gains; the marks and the money of other bots stay. -/
theorem Creates.frame {d? : Option Decision} {made : Option (NewOrder Int)} (h : pair.Creates u d? made t) :
    t.batch.cancelIds = u.batch.cancelIds ∧ t.batch.newOrders = u.batch.newOrders ++ made.toList ∧
      ∀ other, other ≠ pair.bot.id → t.balances.get? other = u.balances.get? other := by
  cases h with
  | nothing => exact ⟨rfl, (List.append_nil _).symm, fun _ _ => rfl⟩
  | cancel action => exact ⟨rfl, (List.append_nil _).symm, fun _ _ => rfl⟩
  | bought terms affordable => exact ⟨rfl, rfl, fun other hne => Table.get?_put_of_ne _ _ hne.symm⟩
  | tooDear terms short => exact ⟨rfl, (List.append_nil _).symm, fun _ _ => rfl⟩
  | sold terms held => exact ⟨rfl, rfl, fun _ _ => rfl⟩
  | notHeld terms short => exact ⟨rfl, (List.append_nil _).symm, fun _ _ => rfl⟩

/-! ## The whole conduct -/

/-- What a pair does from the state `s` on, when it makes `made` and leaves `t`: the facts it builds, its
visits, and the state `u` between its two passes. -/
structure Conduct (pair : Pair Int) (s : TradeState Int) (facts : Facts) (vs : List Visit)
    (u : TradeState Int) (made : Option (NewOrder Int)) (t : TradeState Int) : Prop where
  built : (pair.buildFacts s).1 = .ok facts
  /-- While no order is looked at, the facts are those of no order. -/
  neutral : ∀ balance : Int, ∀ e ∈ PairFacts.noOrder,
    Table.get? (PairFacts.withBalance facts balance) e.1 = some e.2
  /-- The orders are visited from left to right. -/
  visited : vs.map (·.order) = pair.orders
  /-- Each visit sees what the visits before it gave back. -/
  sees : pair.EachSees facts (s.balance pair.bot.id) s.batch.cancelIds vs
  /-- The visits newly mark orders, and their money is the bot's again; nothing else changes. -/
  cancelled : (pair.buildFacts s).2.Cancelled pair.bot.id (Visit.cancelled s.batch.cancelIds vs) u
  /-- Newly marked are exactly the orders that were told to be cancelled and not marked before. -/
  newly : ∀ id, id ∈ (Visit.cancelled s.batch.cancelIds vs).map (·.id) ↔
    id ∉ s.batch.cancelIds ∧ ∃ v ∈ vs, v.tells = true ∧ v.order.id = id
  /-- Each of them once. -/
  once : ((Visit.cancelled s.batch.cancelIds vs).map (·.id)).Nodup
  /-- If an order survives, nothing is made. -/
  survived : (∃ v ∈ vs, v.tells = false) → made = none ∧ t = u
  /-- Otherwise the rules decide once more. -/
  created : (∀ v ∈ vs, v.tells = true) →
    ∃ d?, Rule.decide? (PairFacts.withBalance facts (u.balance pair.bot.id)) pair.rules = .ok d? ∧
      pair.Creates u d? made t
  /-- What was in the batch stays there, with the marks and what is made behind it. -/
  batch : t.batch = ⟨s.batch.cancelIds ++ (Visit.cancelled s.batch.cancelIds vs).map (·.id),
    s.batch.newOrders ++ made.toList⟩
  /-- The money of other bots stays. -/
  others : ∀ other, other ≠ pair.bot.id → t.balances.get? other = s.balances.get? other

/-- What is settled when the facts are built stays in them, whatever balance is put over them. -/
theorem get?_of_built (h : (pair.buildFacts s).1 = .ok facts) (balance : Int) {name : String} {v : Value}
    (hv : (PairFacts.settled s.random).get? name = some v) :
    Table.get? facts name = some v ∧ Table.get? (PairFacts.withBalance facts balance) name = some v := by
  have hbuild : PairFacts.build pair (s.balance pair.bot.id) s.random =
      (.ok facts, (pair.buildFacts s).2.random) := Prod.ext h rfl
  have hfacts := PairFacts.get?_of_build hbuild hv
  have hname : "availableBalance" ≠ name := by
    rintro rfl
    cases hv
  exact ⟨hfacts, by rw [PairFacts.withBalance, Table.get?_put_of_ne _ _ hname, hfacts]⟩

/-- After the visits either an order survives and that is all, or the rules decide once more. -/
theorem outcome_of_visits {vs : List Visit} {survivors : List (Order Int)} {made : Option (NewOrder Int)}
    (hsurvivors : survivors = (vs.filter (!·.tells)).map (·.order))
    (marked : survivors = [] → pair.AllMarked u)
    (h : (match survivors with | [] => pair.create facts u | _ :: _ => (.ok none, u)) = (.ok made, t)) :
    ((∃ v ∈ vs, v.tells = false) → made = none ∧ t = u) ∧
    ((∀ v ∈ vs, v.tells = true) →
      ∃ d?, Rule.decide? (PairFacts.withBalance facts (u.balance pair.bot.id)) pair.rules = .ok d? ∧
        pair.Creates u d? made t) ∧
    t.batch.cancelIds = u.batch.cancelIds ∧ t.batch.newOrders = u.batch.newOrders ++ made.toList ∧
      ∀ other, other ≠ pair.bot.id → t.balances.get? other = u.balances.get? other := by
  cases survivors with
  | nil =>
      rcases create_creates (marked rfl) h with ⟨d?, hdecide, creates⟩
      refine ⟨?_, fun _ => ⟨d?, hdecide, creates⟩, creates.frame⟩
      rintro ⟨v, hv, htells⟩
      have hmem : v.order ∈ (vs.filter (!·.tells)).map (·.order) :=
        List.mem_map_of_mem (List.mem_filter.2 ⟨hv, by simp [htells]⟩)
      rw [← hsurvivors] at hmem
      cases hmem
  | cons o rest =>
      cases h
      refine ⟨fun _ => ⟨rfl, rfl⟩, fun htells => ?_, rfl, (List.append_nil _).symm, fun _ _ => rfl⟩
      have hempty : vs.filter (!·.tells) = [] :=
        List.filter_eq_nil_iff.2 fun v hv => by simp [htells v hv]
      rw [hempty] at hsurvivors
      cases hsurvivors

/-- A pair whose open orders are its bot's own, and that comes to a result, did exactly this. -/
theorem process_conduct (own : ∀ o ∈ pair.orders, o.botId = pair.bot.id) {made : Option (NewOrder Int)}
    (h : pair.process s = (.ok made, t)) : ∃ facts vs u, pair.Conduct s facts vs u made t := by
  unfold process at h
  -- Building the facts only draws, so the visits start from the money and the batch of `s`.
  have hbuild : pair.buildFacts s =
      ((pair.buildFacts s).1, { s with random := (pair.buildFacts s).2.random }) := rfl
  rw [hbuild] at h
  cases hbuilt : (pair.buildFacts s).1 with
  | error fault => simp [hbuilt] at h
  | ok facts =>
      simp only [hbuilt] at h
      rcases hpass : pair.cancelOrders facts pair.orders { s with random := (pair.buildFacts s).2.random }
        with ⟨fault | survivors, u⟩
      · simp [hpass] at h
      · rcases cancelOrders_visits own hpass with ⟨vs, visited, sees, cancelled, hsurvivors⟩
        have marked : survivors = [] → pair.AllMarked u := by
          rintro rfl
          exact mem_cancelIds_cancelOrders (List.Subset.refl _) hpass
        rw [hpass] at h
        have hlast : (match survivors with | [] => pair.create facts u | _ :: _ => (.ok none, u)) =
            (.ok made, t) := by cases survivors <;> exact h
        rcases outcome_of_visits hsurvivors marked hlast with ⟨survived, created, hmarks, hnew, hothers⟩
        have neutral : ∀ balance : Int, ∀ e ∈ PairFacts.noOrder,
            Table.get? (PairFacts.withBalance facts balance) e.1 = some e.2 := fun balance e he =>
          (get?_of_built hbuilt balance
            (Table.get?_of_mem (PairFacts.nodup_settled s.random) (List.mem_cons_of_mem _ he))).2
        refine ⟨facts, vs, u, hbuilt, neutral, visited, sees,
          cancelled, fun id => Visit.mem_cancelled_ids, Visit.nodup_cancelled_ids _ _, survived, created, ?_,
          fun other hne => (hothers other hne).trans (cancelled.others other hne)⟩
        rw [cancelled.marks] at hmarks
        rw [cancelled.newOrders] at hnew
        rw [← hmarks, ← hnew]

/-- A bot with a resting buy order at 10 and a resting sell order at 12. It cancels the first, and the second
if it has more than 30 to spend; with no open order it buys for all its money. -/
def renewing : Pair Int where
  bot := { id := "b1", balance := 15 }
  instrument := { id := "i1", symbol := "ONE", price := 10 }
  price := { current := 10 }
  orders := [
    { id := "o1", instrumentId := "i1", botId := "b1", side := .buy, limitPrice := 10, quantity := 2,
      createdAt := 0 },
    { id := "o2", instrumentId := "i1", botId := "b1", side := .sell, limitPrice := 12, quantity := 1,
      createdAt := 0 }]
  shares := 1
  rules := [
    ⟨.comparison "orderPrice" .equal (.literal (.int 10)), ⟨.cancel, []⟩, 1⟩,
    ⟨.allOf [.comparison "orderPrice" .equal (.literal (.int 12)),
      .comparison "availableBalance" .greaterThan (.literal (.int 30))], ⟨.cancel, []⟩, 1⟩,
    ⟨.comparison "orderPrice" .equal (.literal (.int 0)),
      ⟨.buy, [("sizePct", .int 100), ("limitPriceType", .text "market")]⟩, 1⟩]
  now := 0
  tickInterval := .int 2000

/-- Where it starts from: it has 15, and another bot has 7. -/
def renewingStart : TradeState Int := { balances := [("b1", 15), ("b2", 7)], random := .script {} }

/-- The refund of the first order is what makes the second one be cancelled, and then 35 buy three shares. -/
theorem process_conduct_renewing :
    (∀ o ∈ renewing.orders, o.botId = renewing.bot.id) ∧
      (renewing.process renewingStart).1 = .ok (some (renewing.newOrder .buy 10 3)) ∧
      (renewing.process renewingStart).2.balances = [("b1", 5), ("b2", 7)] ∧
      (renewing.process renewingStart).2.batch = ⟨["o1", "o2"], [renewing.newOrder .buy 10 3]⟩ ∧
      ∃ facts vs u, renewing.Conduct renewingStart facts vs u (some (renewing.newOrder .buy 10 3))
        (renewing.process renewingStart).2 := by
  have own : ∀ o ∈ renewing.orders, o.botId = renewing.bot.id := by decide
  have hresult : (renewing.process renewingStart).1 = .ok (some (renewing.newOrder .buy 10 3)) := by
    decide +kernel
  exact ⟨own, hresult, by decide +kernel, by decide +kernel, process_conduct own (Prod.ext hresult rfl)⟩

end Pair

end RuleTrader
