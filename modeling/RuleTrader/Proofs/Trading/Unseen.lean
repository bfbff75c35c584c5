import RuleTrader.Proofs.Outcome
import RuleTrader.Trading.Pair

/-!
# What a pair does not look at

A pair reads and changes only some of what the pairs of a tick share: the money of its bot and of the owners
of its orders, the batch, and the random source. A change of the state that leaves these alone, and that
every step of a pair could as well come before, is `Unseen`: the pair does the same before and after it,
and leaves the same but for the change.
-/

namespace RuleTrader

variable {α : Type}

/-- The same attempt with its state changed. -/
def Attempt.onState {β : Type} (f : TradeState α → TradeState α) (x : Attempt α β) : Attempt α β :=
  (x.1, f x.2)

namespace TradeState

variable [Amount α]

/-- A change of the state that nobody sees who works with the money of some owners. -/
structure Unseen (owners : String → Prop) (f : TradeState α → TradeState α) : Prop where
  balance : ∀ s botId, owners botId → (f s).balance botId = s.balance botId
  batch : ∀ s, (f s).batch = s.batch
  random : ∀ s, (f s).random = s.random
  report : ∀ s n, (f s).report n = f (s.report n)
  draw : ∀ s random, { f s with random } = f { s with random }
  setBalance : ∀ s botId amount, owners botId → (f s).setBalance botId amount = f (s.setBalance botId amount)
  markCancel : ∀ s orderId, (f s).markCancel orderId = f (s.markCancel orderId)
  addOrder : ∀ s o, (f s).addOrder o = f (s.addOrder o)

variable {owners : String → Prop} {f : TradeState α → TradeState α}

theorem Unseen.cancel (h : Unseen owners f) {o : Order α} (own : owners o.botId) (s : TradeState α) :
    (f s).cancel o = (s.cancel o).onState f := by
  have hrefund : (f s).refunded o = s.refunded o := by
    rw [refunded, refunded, h.balance s o.botId own]
  unfold TradeState.cancel
  rw [h.batch, hrefund, h.markCancel]
  by_cases hmarked : o.id ∈ s.batch.cancelIds
  · rw [if_pos hmarked, if_pos hmarked]
    rfl
  · rw [if_neg hmarked, if_neg hmarked]
    cases o.side with
    | sell => rfl
    | buy =>
        cases s.refunded o with
        | error fault => rfl
        | ok amount =>
            dsimp only
            rw [h.setBalance _ _ _ own]
            rfl

theorem Unseen.cancelAll (h : Unseen owners f) {os : List (Order α)} (own : ∀ o ∈ os, owners o.botId)
    (s : TradeState α) : TradeState.cancelAll os (f s) = (TradeState.cancelAll os s).onState f := by
  induction os generalizing s with
  | nil => rfl
  | cons o os ih =>
      rw [List.forall_mem_cons] at own
      unfold TradeState.cancelAll
      rw [h.cancel own.1]
      rcases s.cancel o with ⟨fault | _, t⟩
      · rfl
      · exact ih own.2 t

end TradeState

namespace Pair

open TradeState

variable [Amount α] {owners : String → Prop} {f : TradeState α → TradeState α} {pair : Pair α}

theorem cancelIfTold_unseen (h : Unseen owners f) (bot : owners pair.bot.id) (facts : Facts) {o : Order α}
    (own : owners o.botId) (s : TradeState α) :
    pair.cancelIfTold facts o (f s) = (pair.cancelIfTold facts o s).onState f := by
  have hdecision : pair.orderDecision? facts (f s) o = pair.orderDecision? facts s o := by
    rw [orderDecision?, orderDecision?, h.balance s _ bot]
  unfold cancelIfTold
  rw [hdecision, h.cancel own]
  cases pair.orderDecision? facts s o with
  | error fault => rfl
  | ok d? => cases hcancel : isCancel d? <;> simp only [hcancel] <;> rfl

theorem cancelOrders_unseen (h : Unseen owners f) (bot : owners pair.bot.id) (facts : Facts)
    {os : List (Order α)} (own : ∀ o ∈ os, owners o.botId) (s : TradeState α) :
    pair.cancelOrders facts os (f s) = (pair.cancelOrders facts os s).onState f := by
  induction os generalizing s with
  | nil => rfl
  | cons o os ih =>
      rw [List.forall_mem_cons] at own
      unfold cancelOrders
      rw [cancelIfTold_unseen h bot facts own.1]
      rcases pair.cancelIfTold facts o s with ⟨fault | survives, t⟩
      · rfl
      · simp only [Attempt.onState]
        rw [ih own.2 t]
        rfl

theorem place_unseen (h : Unseen owners f) (bot : owners pair.bot.id) (side : Side) (price : α)
    (quantity : Int) (s : TradeState α) :
    pair.place side price quantity (f s) =
      (fun placed => (placed.1, f placed.2)) <$> pair.place side price quantity s := by
  refine bind_eq_map fun limitPrice => ?_
  cases side with
  | buy =>
      dsimp only [placeBuy]
      rw [h.balance s _ bot]
      refine bind_eq_map fun cost => bind_eq_map fun short => ?_
      cases short with
      | false =>
          refine bind_eq_map fun rest => ?_
          rw [h.setBalance _ _ _ bot, h.addOrder]
          rfl
      | true =>
          simp only [if_true, h.report]
          rfl
  | sell =>
      refine bind_eq_map fun short => ?_
      cases short with
      | false =>
          simp only [Bool.false_eq_true, if_false, h.addOrder]
          rfl
      | true =>
          simp only [if_true, h.report]
          rfl

theorem trade_unseen (h : Unseen owners f) (bot : owners pair.bot.id) (decision : Decision) (side : Side)
    (s : TradeState α) : pair.trade decision side (f s) = (pair.trade decision side s).onState f := by
  have hplace (price : α) (quantity : Int) (random : RandomSource) :
      pair.place side price quantity { f s with random } =
        (fun placed => (placed.1, f placed.2)) <$> pair.place side price quantity { s with random } := by
    rw [h.draw]
    exact place_unseen h bot side price quantity { s with random }
  unfold trade
  rw [h.balance s _ bot, h.random]
  dsimp only
  rcases Terms.quantity decision side (s.balance pair.bot.id) pair.price.current pair.shares s.random with
    ⟨fault | quantity, random⟩
  · dsimp only
    rw [h.draw]
    rfl
  · dsimp only
    rcases Terms.limitPrice decision side pair.bot.preset? pair.price.current random with
      ⟨fault | price, random⟩
    · dsimp only
      rw [h.draw]
      rfl
    · dsimp only
      rw [hplace]
      cases pair.place side price quantity { s with random } with
      | error fault =>
          simp only [Functor.map, Except.map]
          rw [h.draw]
          rfl
      | ok placed => rfl

theorem create_unseen (h : Unseen owners f) (bot : owners pair.bot.id)
    (own : ∀ o ∈ pair.orders, owners o.botId) (facts : Facts) (s : TradeState α) :
    pair.create facts (f s) = (pair.create facts s).onState f := by
  unfold create
  rw [h.balance s _ bot]
  cases Rule.decide? (PairFacts.withBalance facts (s.balance pair.bot.id)) pair.rules with
  | error fault => rfl
  | ok decision? =>
      cases decision? with
      | none => rfl
      | some decision =>
          cases haction : decision.action with
          | cancel =>
              simp only [haction, h.cancelAll own]
              rfl
          | buy => simp only [haction, trade_unseen h bot]
          | sell => simp only [haction, trade_unseen h bot]

/-- A pair does the same before and after a change that it does not see. -/
theorem process_unseen (h : Unseen owners f) (bot : owners pair.bot.id)
    (own : ∀ o ∈ pair.orders, owners o.botId) (s : TradeState α) :
    pair.process (f s) = (pair.process s).onState f := by
  have hbuild : pair.buildFacts (f s) = (pair.buildFacts s).onState f := by
    unfold buildFacts
    rw [h.balance s _ bot, h.random]
    dsimp only
    rw [h.draw]
    rfl
  unfold process
  rw [hbuild]
  rcases pair.buildFacts s with ⟨fault | facts, t⟩
  · rfl
  · simp only [Attempt.onState]
    rw [cancelOrders_unseen h bot facts own]
    rcases pair.cancelOrders facts pair.orders t with ⟨fault | _ | ⟨o, os⟩, u⟩
    · rfl
    · exact create_unseen h bot own facts u
    · rfl

end Pair

end RuleTrader
