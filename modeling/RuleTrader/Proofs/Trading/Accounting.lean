import Mathlib.Algebra.Order.BigOperators.Group.List
import Mathlib.Algebra.Order.Ring.Int
import RuleTrader.Proofs.Market.Organized
import RuleTrader.Proofs.Trading.Loop

/-!
# The accounts of a tick

What the money of the bots is at every point of a tick on a snapshot that counts in integers: the
stored balance, and what the cancelled buy orders gave back, less what the new buy orders took. No order
gives its money back twice. When the stored amounts are not negative, no balance ever is, and so the
orders that a tick sends can be paid from what was stored and what the same batch cancels.
-/

namespace RuleTrader

/-- What the buy orders of a bot give back when the orders of the given names are cancelled. -/
def refunds (orders : List (Order Int)) (ids : List String) (botId : String) : Int :=
  ((orders.filter fun o => o.id ∈ ids ∧ o.side = .buy ∧ o.botId = botId).map
    fun o => o.limitPrice * o.quantity).sum

/-- What the buy orders of a bot among new orders take. -/
def costs (orders : List (NewOrder Int)) (botId : String) : Int :=
  ((orders.filter fun o => o.side = .buy ∧ o.botId = botId).map
    fun o => o.limitPrice * o.quantity).sum

/-! ## Refunds -/

section Refunds

variable {o : Order Int} {orders : List (Order Int)} {ids : List String} {botId : String}

theorem refunds_cons : refunds (o :: orders) ids botId =
    (if o.id ∈ ids ∧ o.side = .buy ∧ o.botId = botId then o.limitPrice * o.quantity else 0) +
      refunds orders ids botId := by
  by_cases h : o.id ∈ ids ∧ o.side = .buy ∧ o.botId = botId
  · simp [refunds, h]
  · simp [refunds, h]

@[simp] theorem refunds_no_ids : refunds orders [] botId = 0 := by
  simp [refunds]

theorem refunds_append_of_not_mem {id : String} (h : id ∉ orders.map (·.id)) :
    refunds orders (ids ++ [id]) botId = refunds orders ids botId := by
  unfold refunds
  congr 2
  refine List.filter_congr fun o ho => ?_
  have : o.id ≠ id := fun he => h (he ▸ List.mem_map_of_mem ho)
  simp [this]

/-- Cancelling one more order gives its money back once. -/
theorem refunds_append (nodup : (orders.map (·.id)).Nodup) (hmem : o ∈ orders)
    (fresh : o.id ∉ ids) :
    refunds orders (ids ++ [o.id]) botId = refunds orders ids botId +
      (if o.side = .buy ∧ o.botId = botId then o.limitPrice * o.quantity else 0) := by
  induction orders with
  | nil => simp at hmem
  | cons x xs ih =>
      rw [List.map_cons, List.nodup_cons] at nodup
      rw [refunds_cons, refunds_cons]
      rcases List.mem_cons.1 hmem with rfl | hxs
      · -- No order after this one has its name.
        rw [refunds_append_of_not_mem nodup.1]
        simp [fresh]
        omega
      · have hx : x.id ≠ o.id := fun he => nodup.1 (he ▸ List.mem_map_of_mem hxs)
        rw [ih nodup.2 hxs]
        simp [hx]
        omega

theorem refunds_nonneg
    (h : ∀ o ∈ orders, o.id ∈ ids → o.side = .buy → 0 ≤ o.limitPrice * o.quantity) :
    0 ≤ refunds orders ids botId := by
  refine List.sum_nonneg fun amount hamount => ?_
  rcases List.mem_map.1 hamount with ⟨o, ho, rfl⟩
  have hcounts : o ∈ orders ∧ o.id ∈ ids ∧ o.side = .buy ∧ o.botId = botId := by simpa using ho
  exact h o hcounts.1 hcounts.2.1 hcounts.2.2.1

end Refunds

/-! ## Costs -/

section Costs

variable {o : NewOrder Int} {orders : List (NewOrder Int)} {botId : String}

theorem costs_append (first second : List (NewOrder Int)) :
    costs (first ++ second) botId = costs first botId + costs second botId := by
  simp [costs]

theorem costs_single :
    costs [o] botId = if o.side = .buy ∧ o.botId = botId then o.limitPrice * o.quantity else 0 := by
  by_cases h : o.side = .buy ∧ o.botId = botId
  · simp [costs, h]
  · simp [costs, h]

theorem costs_nonneg (h : ∀ o ∈ orders, 0 ≤ o.limitPrice * o.quantity) :
    0 ≤ costs orders botId := by
  refine List.sum_nonneg fun amount hamount => ?_
  rcases List.mem_map.1 hamount with ⟨o, ho, rfl⟩
  exact h o (List.mem_filter.1 ho).1

/-- Cutting a batch never makes it dearer. -/
theorem costs_take_le (h : ∀ o ∈ orders, 0 ≤ o.limitPrice * o.quantity) (n : Nat)
    (botId : String) :
    costs (orders.take n) botId ≤ costs orders botId := by
  have hsplit : costs orders botId = costs (orders.take n) botId + costs (orders.drop n) botId := by
    rw [← costs_append, List.take_append_drop]
  have hrest : 0 ≤ costs (orders.drop n) botId :=
    costs_nonneg fun o ho => h o (List.mem_of_mem_drop ho)
  omega

theorem costs_eq_zero (h : ∀ o ∈ orders, o.botId ≠ botId) : costs orders botId = 0 := by
  have : orders.filter (fun o => o.side = .buy ∧ o.botId = botId) = [] := by
    refine List.filter_eq_nil_iff.2 fun o ho => ?_
    simp [h o ho]
  rw [costs, this]
  rfl

end Costs

/-! ## The accounts -/

namespace Tick

/-- What holds of the money and the batch at every point of a tick. -/
structure Accounts (snapshot : Snapshot Int) (s : TradeState Int) : Prop where
  keys : s.balances.keys = snapshot.bots.map (·.id)
  balance : ∀ b ∈ snapshot.bots, s.balances.get? b.id =
    some (b.balance + refunds snapshot.orders s.batch.cancelIds b.id - costs s.batch.newOrders b.id)
  /-- What is marked is an open order of the snapshot. -/
  marked : ∀ id ∈ s.batch.cancelIds, ∃ o ∈ snapshot.orders, o.id = id ∧ o.isOpen = true
  /-- What is placed belongs to a bot of the snapshot and has its price. -/
  placed : ∀ o ∈ s.batch.newOrders,
    o.botId ∈ snapshot.bots.map (·.id) ∧ 0 ≤ o.limitPrice * o.quantity

variable {snapshot : Snapshot Int} {data : Organized Int} {pair : Pair Int}
  {s t : TradeState Int}

theorem Accounts.balance_eq (h : Accounts snapshot s) {b : Bot Int} (hb : b ∈ snapshot.bots) :
    s.balance b.id =
      b.balance + refunds snapshot.orders s.batch.cancelIds b.id - costs s.batch.newOrders b.id := by
  rw [TradeState.balance, h.balance b hb]
  rfl

/-- What a balance is once the balance of one bot is changed. -/
theorem Accounts.get?_put (h : Accounts snapshot s) {b : Bot Int} (hb : b ∈ snapshot.bots)
    (owner : String) (change : Int) :
    (s.balances.put owner (s.balance owner + change)).get? b.id =
      some (b.balance + refunds snapshot.orders s.batch.cancelIds b.id -
        costs s.batch.newOrders b.id + if owner = b.id then change else 0) := by
  by_cases howner : owner = b.id
  · rw [howner, Table.get?_put_self, h.balance_eq hb, if_pos rfl]
  · rw [Table.get?_put_of_ne _ _ howner, h.balance b hb, if_neg howner, Int.add_zero]

theorem start_accounts (hbots : (snapshot.bots.map (·.id)).Nodup)
    (hdata : Organized.ofSnapshot snapshot = .ok data) (m : TickMemory Int) :
    Accounts snapshot (start data m).trade := by
  have hkeys : Table.keys (snapshot.bots.map fun b => (b.id, b.balance)) =
      snapshot.bots.map (·.id) := by
    simp [Table.keys]
  -- Bots with distinct names are their own table.
  have hnodup := hkeys ▸ hbots
  have htable : (start data m).trade.balances = snapshot.bots.map fun b => (b.id, b.balance) := by
    rw [Organized.eq_ofInts hdata]
    simp [start, Organized.ofInts, Table.ofList_of_nodup hnodup]
  refine ⟨?_, ?_, ?_, ?_⟩
  · rw [htable, hkeys]
  · intro b hb
    have hmem : (b.id, b.balance) ∈ snapshot.bots.map fun b => (b.id, b.balance) :=
      List.mem_map_of_mem hb
    rw [htable, Table.get?_of_mem hnodup hmem]
    simp [start, costs]
  · simp [start]
  · simp [start]

/-- One more mark, on an open order of the snapshot. -/
theorem marked_append
    (h : ∀ id ∈ s.batch.cancelIds, ∃ o ∈ snapshot.orders, o.id = id ∧ o.isOpen = true)
    {o : Order Int} (hmem : o ∈ snapshot.orders) (hopen : o.isOpen = true) :
    ∀ id ∈ (s.markCancel o.id).batch.cancelIds,
      ∃ o ∈ snapshot.orders, o.id = id ∧ o.isOpen = true := by
  intro id hid
  rcases List.mem_append.1 hid with hid | hid
  · exact h id hid
  · exact ⟨o, hmem, (List.mem_singleton.1 hid).symm, hopen⟩

/-- An order of a pair costs something, and belongs to the bot of the pair. -/
theorem placed_append (h : ∀ o ∈ s.batch.newOrders,
      o.botId ∈ snapshot.bots.map (·.id) ∧ 0 ≤ o.limitPrice * o.quantity)
    {o : NewOrder Int} (offer : pair.Offer o) (hbot : pair.bot ∈ snapshot.bots) :
    ∀ o' ∈ (s.addOrder o).batch.newOrders,
      o'.botId ∈ snapshot.bots.map (·.id) ∧ 0 ≤ o'.limitPrice * o'.quantity := by
  intro o' ho'
  rcases List.mem_append.1 ho' with ho' | ho'
  · exact h o' ho'
  · rw [List.mem_singleton.1 ho']
    refine ⟨offer.bot ▸ List.mem_map_of_mem hbot, ?_⟩
    rcases offer.price with ⟨price, hprice⟩
    rw [Amount.atLeast_int] at hprice
    have hone : 1 ≤ o.limitPrice := Except.ok.inj hprice ▸ Int.le_max_left 1 price
    have hquantity := offer.quantity
    exact Int.mul_nonneg (by omega) (by omega)

/-- Every move keeps the accounts. -/
theorem Accounts.move (horders : (snapshot.orders.map (·.id)).Nodup)
    (hdata : Organized.ofSnapshot snapshot = .ok data) (visits : Visits snapshot data pair)
    (hmove : pair.Move s t) (h : Accounts snapshot s) : Accounts snapshot t := by
  -- Both kinds of order belong to bots that have a balance, so no key is added.
  have hbot : pair.bot.id ∈ s.balances.keys := h.keys ▸ List.mem_map_of_mem visits.bot
  have own : ∀ o ∈ pair.orders, o ∈ snapshot.orders ∧ o.isOpen = true ∧ o.botId = pair.bot.id := by
    intro o ho
    rw [visits.orders_eq hdata] at ho
    have ho' := Order.mem_openIn.1 ho
    exact ⟨ho'.1, ho'.2.1, ho'.2.2.1⟩
  cases hmove with
  | quiet balances batch =>
      refine ⟨?_, ?_, ?_, ?_⟩
      · rw [balances]; exact h.keys
      · rw [balances, batch]; exact h.balance
      · rw [batch]; exact h.marked
      · rw [batch]; exact h.placed
  | @mark o hown fresh noRefund balances batch =>
      -- In integers the money of a buy order can always be given back.
      have hsell : o.side = .sell := by
        rcases noRefund with hsell | ⟨fault, hfault⟩
        · exact hsell
        · cases hfault
      rcases own o hown with ⟨hmem, hopen, -⟩
      refine ⟨?_, ?_, ?_, ?_⟩
      · rw [balances]; exact h.keys
      · intro b hb
        rw [balances, batch, h.balance b hb]
        simp [TradeState.markCancel, refunds_append horders hmem fresh, hsell]
      · rw [batch]
        exact marked_append h.marked hmem hopen
      · rw [batch]; exact h.placed
  | @refund o amount hown fresh side amount_eq balances batch =>
      rcases own o hown with ⟨hmem, hopen, howner⟩
      have hamount : s.balance o.botId + o.limitPrice * o.quantity = amount := Except.ok.inj amount_eq
      refine ⟨?_, ?_, ?_, ?_⟩
      · rw [balances, howner, Table.keys_put_of_mem _ _ hbot]
        exact h.keys
      · -- What is added to the balance is what the refunds grow by.
        intro b hb
        rw [balances, batch, ← hamount, h.get?_put hb]
        simp only [TradeState.markCancel, refunds_append horders hmem fresh, side, true_and]
        congr 1
        omega
      · rw [batch]
        exact marked_append h.marked hmem hopen
      · rw [batch]; exact h.placed
  | @buy o cost rest offer side marked cost_eq affordable rest_eq balances batch =>
      have hcost : o.limitPrice * o.quantity = cost := Except.ok.inj cost_eq
      have hrest : s.balance pair.bot.id - cost = rest := Except.ok.inj rest_eq
      refine ⟨?_, ?_, ?_, ?_⟩
      · rw [balances, Table.keys_put_of_mem _ _ hbot]
        exact h.keys
      · -- What is taken from the balance is what the costs grow by.
        intro b hb
        rw [balances, batch, ← hrest, ← hcost, Int.sub_eq_add_neg, h.get?_put hb]
        simp only [TradeState.addOrder, costs_append, costs_single, side, true_and, offer.bot]
        congr 1
        split
        · omega
        · omega
      · rw [batch]; exact h.marked
      · rw [batch]
        exact placed_append h.placed offer visits.bot
  | @sell o offer side marked held balances batch =>
      refine ⟨?_, ?_, ?_, ?_⟩
      · rw [balances]; exact h.keys
      · intro b hb
        rw [balances, batch, h.balance b hb]
        simp [TradeState.addOrder, costs_append, costs_single, side]
      · rw [batch]; exact h.marked
      · rw [batch]
        exact placed_append h.placed offer visits.bot

theorem Accounts.step (horders : (snapshot.orders.map (·.id)).Nodup)
    (hdata : Organized.ofSnapshot snapshot = .ok data) (hmove : Move snapshot data s t)
    (h : Accounts snapshot s) : Accounts snapshot t := by
  cases hmove with
  | between balances batch =>
      exact ⟨balances ▸ h.keys, by rw [balances, batch]; exact h.balance,
        batch ▸ h.marked, batch ▸ h.placed⟩
  | ofPair visits move => exact h.move horders hdata visits move

/-! ## Solvency -/

/-- No bot has less than nothing. -/
def Solvent (s : TradeState Int) : Prop := ∀ e ∈ s.balances, 0 ≤ e.2

theorem Solvent.balance_nonneg (h : Solvent s) (botId : String) : 0 ≤ s.balance botId := by
  unfold TradeState.balance
  cases hget : s.balances.get? botId with
  | none => exact Int.le_refl 0
  | some amount => exact h (botId, amount) (Table.mem_of_get? hget)

theorem Solvent.put (h : Solvent s) {botId : String} {amount : Int} (hamount : 0 ≤ amount)
    (balances : t.balances = s.balances.put botId amount) : Solvent t := by
  intro e he
  rw [balances] at he
  rcases Table.mem_put he with rfl | he
  · exact hamount
  · exact h e he

/-- When the open buy orders are not worth less than nothing, every move keeps all bots solvent: a
refund adds, and an order is placed only by a bot that can pay for it. -/
theorem Solvent.step (hdata : Organized.ofSnapshot snapshot = .ok data)
    (hopen : ∀ o ∈ snapshot.orders, o.isOpen = true → o.side = .buy →
      0 ≤ o.limitPrice * o.quantity)
    (hmove : Move snapshot data s t) (h : Solvent s) : Solvent t := by
  cases hmove with
  | between balances batch => exact fun e he => h e (balances ▸ he)
  | @ofPair pair visits move =>
      cases move with
      | quiet balances batch => exact fun e he => h e (balances ▸ he)
      | mark own fresh noRefund balances batch => exact fun e he => h e (balances ▸ he)
      | @refund o amount own fresh side amount_eq balances batch =>
          have hamount : s.balance o.botId + o.limitPrice * o.quantity = amount :=
            Except.ok.inj amount_eq
          rw [visits.orders_eq hdata] at own
          have hmem := Order.mem_openIn.1 own
          have hbefore := h.balance_nonneg o.botId
          have hnotional := hopen o hmem.1 hmem.2.1 side
          exact h.put (by omega) balances
      | @buy o cost rest offer side marked cost_eq affordable rest_eq balances batch =>
          have henough : ¬s.balance pair.bot.id < cost := by simpa using affordable
          have hrest : s.balance pair.bot.id - cost = rest := Except.ok.inj rest_eq
          exact h.put (by omega) balances
      | sell offer side marked held balances batch => exact fun e he => h e (balances ▸ he)

theorem start_solvent (hdata : Organized.ofSnapshot snapshot = .ok data)
    (hstored : ∀ b ∈ snapshot.bots, 0 ≤ b.balance) (m : TickMemory Int) :
    Solvent (start data m).trade := by
  intro e he
  have hmem : e ∈ Table.ofList (snapshot.bots.map fun b => (b.id, b.balance)) := by
    simpa [start, Organized.eq_ofInts hdata, Organized.ofInts] using he
  rcases List.mem_map.1 (Table.mem_ofList hmem) with ⟨b, hb, rfl⟩
  exact hstored b hb

/-! ## A whole tick -/

theorem runPairs_accounts (setup : TickSetup) (now : Micros) (m : TickMemory Int)
    (hbots : (snapshot.bots.map (·.id)).Nodup)
    (horders : (snapshot.orders.map (·.id)).Nodup)
    (hdata : Organized.ofSnapshot snapshot = .ok data) :
    Accounts snapshot (runPairs setup now snapshot data m).2.trade :=
  ((runPairs_trail setup now snapshot data m).invariant (fun hmove h => h.step horders hdata hmove)
    (start_accounts hbots hdata m)).1

theorem runPairs_solvent (setup : TickSetup) (now : Micros) (m : TickMemory Int)
    (hdata : Organized.ofSnapshot snapshot = .ok data)
    (hstored : ∀ b ∈ snapshot.bots, 0 ≤ b.balance)
    (hopen : ∀ o ∈ snapshot.orders, o.isOpen = true → o.side = .buy → 0 ≤ o.limitPrice * o.quantity) :
    Solvent (runPairs setup now snapshot data m).2.trade ∧
      ∀ s ∈ trail setup now snapshot data m, Solvent s := by
  have hstart := start_solvent hdata hstored m
  have hrun := (runPairs_trail setup now snapshot data m).invariant
    (fun hmove h => h.step hdata hopen hmove) hstart
  refine ⟨hrun.1, ?_⟩
  intro s hs
  rcases List.mem_cons.1 hs with rfl | hs
  · exact hstart
  · exact hrun.2 s hs

/-! ### Narrowing -/

variable {setup : TickSetup}

/-- Narrowing a snapshot keeps what a bot that it keeps is given back. -/
theorem refunds_scope {b : Bot Int} (hb : b ∈ (scope setup snapshot).bots) (ids : List String) :
    refunds (scope setup snapshot).orders ids b.id = refunds snapshot.orders ids b.id := by
  rcases scope_cases setup snapshot with heq | ⟨owners, heq⟩
  · rw [heq]
  · rw [heq] at hb ⊢
    unfold refunds
    rw [Snapshot.filter_orders_scopeTo hb]
    intro o ho
    have howner : o.id ∈ ids ∧ o.side = .buy ∧ o.botId = b.id := by simpa using ho
    exact howner.2.2

/-! ### The batch -/

/-- What a bot pays for the first new orders is covered by what it had and what is given back. -/
theorem costs_take_le_funds (hstored : ∀ b ∈ snapshot.bots, 0 ≤ b.balance)
    (hopen : ∀ o ∈ snapshot.orders, o.isOpen = true → o.side = .buy →
      0 ≤ o.limitPrice * o.quantity)
    (hbots : (snapshot.bots.map (·.id)).Nodup) (horders : (snapshot.orders.map (·.id)).Nodup)
    (h : Accounts (scope setup snapshot) s) (hsolvent : Solvent s) (n : Nat) {b : Bot Int}
    (hb : b ∈ snapshot.bots) :
    costs (s.batch.newOrders.take n) b.id ≤
      b.balance + refunds snapshot.orders s.batch.cancelIds b.id := by
  have hcut := costs_take_le (fun o ho => (h.placed o ho).2) n b.id
  by_cases hid : b.id ∈ (scope setup snapshot).bots.map (·.id)
  · -- The cut batch costs no more than the whole one, which left a balance that is not negative.
    rcases List.mem_map.1 hid with ⟨b', hb', heq⟩
    obtain rfl : b' = b :=
      List.inj_on_of_nodup_map hbots ((scope_bots_sublist setup snapshot).subset hb') hb heq
    have hleft := h.balance_eq hb'
    have hnonneg := hsolvent.balance_nonneg b'.id
    rw [refunds_scope hb'] at hleft
    omega
  · -- A bot that the tick is not for places nothing.
    have hnone : costs s.batch.newOrders b.id = 0 :=
      costs_eq_zero fun o ho he => hid (he ▸ (h.placed o ho).1)
    have hback : 0 ≤ refunds snapshot.orders s.batch.cancelIds b.id := by
      refine refunds_nonneg fun o ho hmarked hside => ?_
      rcases h.marked o.id hmarked with ⟨o', ho', heq, hopen'⟩
      have hsame : o' = o :=
        List.inj_on_of_nodup_map horders ((scope_orders_sublist setup snapshot).subset ho') ho heq
      exact hopen o ho (hsame ▸ hopen') hside
    have := hstored b hb
    omega

/-! ### The books of a tick -/

/-- Whatever the rules, the tracker and the random source are, and whichever pairs fail: after the loop
a bot has its stored balance and what its cancelled buy orders gave back, less what its new buy orders
took. From amounts that are not negative, no balance is negative at any point of the loop, and the
orders that are sent cost no bot more than it had stored and what the same batch gives back. -/
theorem books_balance (setup : TickSetup) (snapshot : Snapshot Int) (m : TickMemory Int)
    (hbots : (snapshot.bots.map (·.id)).Nodup) (horders : (snapshot.orders.map (·.id)).Nodup) :
    ∃ data, Organized.ofSnapshot (scope setup snapshot) = .ok data ∧
      (∀ now, ∀ b ∈ (scope setup snapshot).bots,
        let s := (runPairs setup now (scope setup snapshot) data m).2.trade
        s.balances.get? b.id = some (b.balance + refunds snapshot.orders s.batch.cancelIds b.id -
          costs s.batch.newOrders b.id)) ∧
      ((∀ b ∈ snapshot.bots, 0 ≤ b.balance) →
        (∀ o ∈ snapshot.orders, o.isOpen = true → o.side = .buy → 0 ≤ o.limitPrice * o.quantity) →
        (∀ now, ∀ s ∈ trail setup now (scope setup snapshot) data m, Solvent s) ∧
        ∀ clock d, (decide setup clock snapshot m).result = .ok d → ∀ b ∈ snapshot.bots,
          costs d.newOrders b.id ≤ b.balance + refunds snapshot.orders d.cancelIds b.id) := by
  have hbots' := hbots.sublist ((scope_bots_sublist setup snapshot).map (·.id))
  have horders' := horders.sublist ((scope_orders_sublist setup snapshot).map (·.id))
  have hdata := Organized.ofSnapshot_int (scope setup snapshot)
  have haccounts now := runPairs_accounts setup now m hbots' horders' hdata
  refine ⟨Organized.ofInts (scope setup snapshot), hdata, ?_, ?_⟩
  · intro now b hb
    have hbalance := (haccounts now).balance b hb
    rw [refunds_scope hb] at hbalance
    exact hbalance
  · intro hstored hopen
    have hstored' : ∀ b ∈ (scope setup snapshot).bots, 0 ≤ b.balance :=
      fun b hb => hstored b ((scope_bots_sublist setup snapshot).subset hb)
    have hopen' : ∀ o ∈ (scope setup snapshot).orders, o.isOpen = true → o.side = .buy →
        0 ≤ o.limitPrice * o.quantity :=
      fun o ho => hopen o ((scope_orders_sublist setup snapshot).subset ho)
    have hsolvent now := runPairs_solvent setup now m hdata hstored' hopen'
    refine ⟨fun now => (hsolvent now).2, ?_⟩
    intro clock d hd b hb
    rcases decide_ok hd with ⟨hcancel, hnew⟩ | ⟨data, now, n, hdata', -, hcancel, hnew⟩
    · -- Nothing is sent, and what is stored is not negative.
      rw [hcancel, hnew, refunds_no_ids]
      have := hstored b hb
      simpa [costs] using this
    · obtain rfl := Organized.eq_ofInts hdata'
      rw [hcancel, hnew]
      exact costs_take_le_funds hstored hopen hbots horders (haccounts now) (hsolvent now).1 n hb

/-- One bot that has a buy order resting, and one that has nothing. -/
def restingBuy : Snapshot Int where
  bots := [{ id := "b1", balance := 100 }, { id := "b2", balance := 0 }]
  instruments := [{ id := "i1", symbol := "ACME", price := 10 }]
  orders := [{ id := "o1", instrumentId := "i1", botId := "b1", side := .buy, limitPrice := 9,
               quantity := 2, createdAt := 0 }]

/-- Every order is cancelled, and a bot buys when the price is up. -/
def buyAnew : TickSetup where
  session := "s"
  rules? := some [
    ⟨.allOf [.comparison "orderPrice" .greaterThan (.literal (.number 0))], ⟨.cancel, []⟩, 2⟩,
    ⟨.allOf [.comparison "isPriceUp" .equal (.literal (.bool true))],
      ⟨.buy, [("limitPriceType", .text "market")]⟩, 1⟩]

/-- The price was lower before. -/
def risen : TickMemory Int := ⟨{ capacity := 5, lastPrices := [("i1", 9)] }, .script {}⟩

/-- The first bot has 18 given back and pays 10; the other cannot pay for anything. -/
theorem books_balance_restingBuy :
    (restingBuy.bots.map (·.id)).Nodup ∧ (restingBuy.orders.map (·.id)).Nodup ∧
    ∃ data, Organized.ofSnapshot restingBuy = .ok data ∧
      (runPairs buyAnew 0 restingBuy data risen).2.trade.balances = [("b1", 108), ("b2", 0)] ∧
      (∀ now, ∀ b ∈ restingBuy.bots,
        let s := (runPairs buyAnew now restingBuy data risen).2.trade
        s.balances.get? b.id = some (b.balance + refunds restingBuy.orders s.batch.cancelIds b.id -
          costs s.batch.newOrders b.id)) ∧
      (∀ now, ∀ s ∈ trail buyAnew now restingBuy data risen, Solvent s) ∧
      ∀ clock d, (decide buyAnew clock restingBuy risen).result = .ok d →
        ∀ b ∈ restingBuy.bots,
          costs d.newOrders b.id ≤ b.balance + refunds restingBuy.orders d.cancelIds b.id := by
  have hbots : (restingBuy.bots.map (·.id)).Nodup := by decide
  have horders : (restingBuy.orders.map (·.id)).Nodup := by decide
  have hscope : scope buyAnew restingBuy = restingBuy := rfl
  have hbooks := books_balance buyAnew restingBuy risen hbots horders
  rw [hscope] at hbooks
  rcases hbooks with ⟨data, hdata, hbalance, hsolvent⟩
  have hrest := hsolvent (by decide) (by decide)
  have hrun : (runPairs buyAnew 0 restingBuy data risen).2.trade.balances =
      [("b1", 108), ("b2", 0)] := by
    rw [Organized.eq_ofInts hdata]
    decide +kernel
  exact ⟨hbots, horders, data, hdata, hrun, hbalance, hrest.1, hrest.2⟩

end Tick

end RuleTrader
