import RuleTrader.Proofs.Outcome
import RuleTrader.Trading.Pair

/-!
# Moves

A pair changes what the pairs of a tick share in few ways: it draws or reports something, it marks an
order of its own, with the money of a buy order given back at once, and it places an order once all
its orders are marked. `Pair.Move` is this list, with the guards of each change.

`Pair.trail` lists the states that processing a pair passes through. It is a chain of moves that ends
in the state that the pair leaves, also when the pair fails.
-/

namespace RuleTrader

/-! ## Trails -/

/-- A chain of states from one to another, each related to the one before; the first is not listed. -/
inductive Trail {σ : Type} (R : σ → σ → Prop) : σ → List σ → σ → Prop where
  | nil (s : σ) : Trail R s [] s
  | cons {s t u : σ} {ts : List σ} : R s t → Trail R t ts u → Trail R s (t :: ts) u

namespace Trail

variable {σ : Type} {R : σ → σ → Prop} {s t u : σ} {ts us : List σ}

theorem single (h : R s t) : Trail R s [t] t :=
  .cons h (.nil t)

theorem append (h₁ : Trail R s ts t) (h₂ : Trail R t us u) : Trail R s (ts ++ us) u := by
  induction h₁ with
  | nil s => exact h₂
  | cons hstep _ ih => exact .cons hstep (ih h₂)

theorem mono {R' : σ → σ → Prop} (hR : ∀ {a b}, R a b → R' a b) (h : Trail R s ts t) :
    Trail R' s ts t := by
  induction h with
  | nil s => exact .nil s
  | cons hstep _ ih => exact .cons (hR hstep) ih

/-- What each step keeps holds all along a trail. -/
theorem invariant {P : σ → Prop} (keeps : ∀ {a b}, R a b → P a → P b) (h : Trail R s ts t)
    (hs : P s) : P t ∧ ∀ x ∈ ts, P x := by
  induction h with
  | nil s => exact ⟨hs, by simp⟩
  | cons hstep _ ih =>
      have hnext := keeps hstep hs
      have hrest := ih hnext
      refine ⟨hrest.1, ?_⟩
      intro x hx
      rcases List.mem_cons.1 hx with rfl | hx
      · exact hnext
      · exact hrest.2 x hx

end Trail

/-! ## Terms -/

theorem RandomSource.le_between {low high : Int} (h : low ≤ high) (random : RandomSource) :
    low ≤ (random.between low high).1 := by
  cases random with
  | script s =>
      have : 0 ≤ cyclic s.integers s.integerDraws 0 % (high - low + 1) :=
        Int.emod_nonneg _ (by omega)
      simp only [between]
      omega
  | seeded t =>
      simp only [between, Twister.drawBetween]
      omega

theorem Terms.one_le_percentOf {whole percent : Number} {n : Int}
    (h : percentOf whole percent = .ok n) : 1 ≤ n := by
  rcases bind_ok h with ⟨product, -, h⟩
  rcases bind_ok h with ⟨share, -, h⟩
  rcases bind_ok h with ⟨floor, -, h⟩
  have hmax : max 1 floor = n := Except.ok.inj h
  omega

/-- Whatever the parameters of a decision say, an order is for at least one share. -/
theorem Terms.one_le_quantity {α : Type} [Amount α] {decision : Decision} {side : Side}
    {balance price shares : α} {random : RandomSource} {n : Int}
    (h : (quantity decision side balance price shares random).1 = .ok n) : 1 ≤ n := by
  unfold quantity at h
  cases hsize : finiteNumber? (decision.parameter "sizePct") with
  | error fault => simp [hsize] at h
  | ok percent? =>
      cases percent? with
      | none =>
          have hn : (random.between 1 5).1 = n := by simpa [hsize, drawnQuantity] using h
          exact hn ▸ RandomSource.le_between (by decide) random
      | some percent =>
          rw [hsize] at h
          rcases bind_ok h with ⟨base, -, hn⟩
          exact one_le_percentOf hn

/-! ## The moves of a pair -/

namespace Pair

variable {α : Type} [Amount α]

/-- An order that a pair may place: its own, and for at least one share at no less than one cent. -/
structure Offer (pair : Pair α) (o : NewOrder α) : Prop where
  instrument : o.instrumentId = pair.instrument.id
  bot : o.botId = pair.bot.id
  opened : o.status = .opened
  quantity : 1 ≤ o.quantity
  price : ∃ p, Amount.atLeast 1 p = .ok o.limitPrice

/-- Whether every open order of a pair is marked for cancellation. -/
def AllMarked (pair : Pair α) (s : TradeState α) : Prop :=
  ∀ o ∈ pair.orders, o.id ∈ s.batch.cancelIds

/-- One change that a pair makes to the money and the batch, which all pairs of a tick share. -/
inductive Move (pair : Pair α) (s t : TradeState α) : Prop where
  /-- Something is drawn or reported. -/
  | quiet (balances : t.balances = s.balances) (batch : t.batch = s.batch)
  /-- A sell order is marked, or a buy order whose money cannot be given back. -/
  | mark {o : Order α} (own : o ∈ pair.orders) (fresh : o.id ∉ s.batch.cancelIds)
      (noRefund : o.side = .sell ∨ ∃ fault, s.refunded o = .error fault)
      (balances : t.balances = s.balances) (batch : t.batch = (s.markCancel o.id).batch)
  /-- A buy order is marked and its money is given back. -/
  | refund {o : Order α} {amount : α} (own : o ∈ pair.orders) (fresh : o.id ∉ s.batch.cancelIds)
      (side : o.side = .buy) (amount_eq : s.refunded o = .ok amount)
      (balances : t.balances = s.balances.put o.botId amount)
      (batch : t.batch = (s.markCancel o.id).batch)
  /-- A buy order that the bot can pay for is placed. -/
  | buy {o : NewOrder α} {cost rest : α} (offer : pair.Offer o) (side : o.side = .buy)
      (marked : pair.AllMarked s) (cost_eq : o.cost = .ok cost)
      (affordable : Amount.lt (s.balance pair.bot.id) cost = .ok false)
      (rest_eq : Amount.sub (s.balance pair.bot.id) cost = .ok rest)
      (balances : t.balances = s.balances.put pair.bot.id rest)
      (batch : t.batch = (s.addOrder o).batch)
  /-- A sell order whose shares the bot holds is placed. -/
  | sell {o : NewOrder α} (offer : pair.Offer o) (side : o.side = .sell)
      (marked : pair.AllMarked s)
      (held : Amount.lt pair.shares (Amount.ofInt o.quantity) = .ok false)
      (balances : t.balances = s.balances) (batch : t.batch = (s.addOrder o).batch)

/-- A mark is never taken back. -/
theorem Move.cancelIds_subset {pair : Pair α} {s t : TradeState α} (h : pair.Move s t) :
    s.batch.cancelIds ⊆ t.batch.cancelIds := by
  cases h with
  | quiet _ batch => simp [batch]
  | mark _ _ _ _ batch => simp [batch, TradeState.markCancel]
  | refund _ _ _ _ _ batch => simp [batch, TradeState.markCancel]
  | buy _ _ _ _ _ _ _ batch => simp [batch, TradeState.addOrder]
  | sell _ _ _ _ _ batch => simp [batch, TradeState.addOrder]

theorem trail_cancelIds_subset {pair : Pair α} {s t : TradeState α} {ts : List (TradeState α)}
    (h : Trail pair.Move s ts t) : s.batch.cancelIds ⊆ t.batch.cancelIds := by
  induction h with
  | nil s => exact List.Subset.refl _
  | cons hstep _ ih => exact List.Subset.trans hstep.cancelIds_subset ih

end Pair

/-! ## Cancelling -/

namespace TradeState

variable {α : Type} [Amount α]

theorem cancel_move {pair : Pair α} {o : Order α} (own : o ∈ pair.orders) (s : TradeState α) :
    pair.Move s (s.cancel o).2 := by
  unfold cancel
  by_cases hmarked : o.id ∈ s.batch.cancelIds
  · -- An order that is marked already is passed over, so its money is not given back twice.
    rw [if_pos hmarked]
    exact .quiet rfl rfl
  · simp only [hmarked, if_false]
    cases hside : o.side with
    | sell => exact .mark own hmarked (.inl hside) rfl rfl
    | buy =>
        cases hrefund : s.refunded o with
        | error fault => exact .mark own hmarked (.inr ⟨fault, hrefund⟩) rfl rfl
        | ok amount => exact .refund own hmarked hside hrefund rfl rfl

/-- An order that was put through is marked, whether or not it could be given its money back. -/
theorem mem_cancelIds_cancel (s : TradeState α) (o : Order α) :
    o.id ∈ (s.cancel o).2.batch.cancelIds := by
  unfold cancel
  by_cases hmarked : o.id ∈ s.batch.cancelIds
  · rw [if_pos hmarked]
    exact hmarked
  · simp only [hmarked, if_false]
    cases o.side with
    | sell => simp [markCancel]
    | buy => cases s.refunded o <;> simp [markCancel, setBalance]

/-- The states after each order that is cancelled. -/
def cancelAllTrail : List (Order α) → TradeState α → List (TradeState α)
  | [], _ => []
  | o :: os, s =>
    match s.cancel o with
    | (.error _, t) => [t]
    | (.ok (), t) => t :: cancelAllTrail os t

theorem cancelAll_trail {pair : Pair α} {os : List (Order α)} (own : os ⊆ pair.orders)
    (s : TradeState α) : Trail pair.Move s (cancelAllTrail os s) (cancelAll os s).2 := by
  induction os generalizing s with
  | nil => exact .nil s
  | cons o os ih =>
      rw [List.cons_subset] at own
      have hstep := cancel_move own.1 s
      unfold cancelAllTrail cancelAll
      split
      · next fault t hcancel =>
          rw [hcancel] at hstep
          simpa [hcancel] using Trail.single hstep
      · next t hcancel =>
          rw [hcancel] at hstep
          simpa [hcancel] using Trail.cons hstep (ih own.2 t)

end TradeState

namespace Pair

variable {α : Type} [Amount α]

theorem cancelIfTold_move {pair : Pair α} {o : Order α} (own : o ∈ pair.orders) (facts : Facts)
    (s : TradeState α) : pair.Move s (pair.cancelIfTold facts o s).2 := by
  unfold cancelIfTold
  cases pair.orderDecision? facts s o with
  | error fault => exact .quiet rfl rfl
  | ok d? =>
      cases hcancel : isCancel d? with
      | false => exact .quiet (by simp [hcancel]) (by simp [hcancel])
      | true => simpa [hcancel] using TradeState.cancel_move own s

/-- An order that does not survive is marked. -/
theorem mem_cancelIds_cancelIfTold {pair : Pair α} {o : Order α} {facts : Facts}
    {s : TradeState α} (h : (pair.cancelIfTold facts o s).1 = .ok false) :
    o.id ∈ (pair.cancelIfTold facts o s).2.batch.cancelIds := by
  unfold cancelIfTold at h ⊢
  cases hd : pair.orderDecision? facts s o with
  | error fault => simp [hd] at h
  | ok d? =>
      cases hcancel : isCancel d? with
      | false => simp [hd, hcancel] at h
      | true => simpa [hcancel] using s.mem_cancelIds_cancel o

/-- The states after each order that is put to the rules. -/
def cancelOrdersTrail (pair : Pair α) (facts : Facts) :
    List (Order α) → TradeState α → List (TradeState α)
  | [], _ => []
  | o :: os, s =>
    match pair.cancelIfTold facts o s with
    | (.error _, t) => [t]
    | (.ok _, t) => t :: pair.cancelOrdersTrail facts os t

theorem cancelOrders_trail {pair : Pair α} {os : List (Order α)} (own : os ⊆ pair.orders)
    (facts : Facts) (s : TradeState α) :
    Trail pair.Move s (pair.cancelOrdersTrail facts os s) (pair.cancelOrders facts os s).2 := by
  induction os generalizing s with
  | nil => exact .nil s
  | cons o os ih =>
      rw [List.cons_subset] at own
      have hstep := cancelIfTold_move own.1 facts s
      unfold cancelOrdersTrail cancelOrders
      split
      · -- A failure ends the pass, but not before the state has changed.
        next fault t hcancel =>
          rw [hcancel] at hstep
          simpa [hcancel] using Trail.single hstep
      · next survives t hcancel =>
          rw [hcancel] at hstep
          simpa [hcancel] using Trail.cons hstep (ih own.2 t)

/-- When no order survives, all of them are marked. -/
theorem mem_cancelIds_cancelOrders {pair : Pair α} {os : List (Order α)} (own : os ⊆ pair.orders)
    {facts : Facts} {s t : TradeState α} (h : pair.cancelOrders facts os s = (.ok [], t)) :
    ∀ o ∈ os, o.id ∈ t.batch.cancelIds := by
  induction os generalizing s with
  | nil => simp
  | cons o os ih =>
      rw [List.cons_subset] at own
      unfold cancelOrders at h
      split at h
      · next fault u hcancel => simp at h
      · next survives u hcancel =>
          cases survives with
          | true =>
              rcases hos : pair.cancelOrders facts os u with ⟨result, v⟩
              cases result <;> simp [hos, Functor.map, Except.map] at h
          | false =>
              have hrest : pair.cancelOrders facts os u = (.ok [], t) := by
                rcases hos : pair.cancelOrders facts os u with ⟨result, v⟩
                cases result <;> simp_all [Functor.map, Except.map]
              -- The mark of the first order is still there after the others.
              have hmark : o.id ∈ u.batch.cancelIds := by
                have hfalse : (pair.cancelIfTold facts o s).1 = .ok false := by rw [hcancel]
                simpa [hcancel] using mem_cancelIds_cancelIfTold hfalse
              have hlater := trail_cancelIds_subset (cancelOrders_trail own.2 facts u)
              rw [hrest] at hlater
              intro o' ho'
              rcases List.mem_cons.1 ho' with rfl | ho'
              · exact hlater hmark
              · exact ih own.2 hrest o' ho'

/-! ## Creating -/

/-- What placing an order does, once its terms are known: it is skipped, or it is placed. -/
theorem place_move {pair : Pair α} {side : Side} {price : α} {quantity : Int}
    {s t : TradeState α} {o? : Option (NewOrder α)} (marked : pair.AllMarked s)
    (hquantity : 1 ≤ quantity) (h : pair.place side price quantity s = .ok (o?, t)) :
    pair.Move s t := by
  rcases bind_ok h with ⟨limitPrice, hprice, h⟩
  have offer : pair.Offer (pair.newOrder side limitPrice quantity) :=
    ⟨rfl, rfl, rfl, hquantity, price, hprice⟩
  cases side with
  | buy =>
      rcases bind_ok h with ⟨cost, hcost, h⟩
      rcases bind_ok h with ⟨short, hlt, h⟩
      cases short with
      | true =>
          have ht := (Prod.mk.inj (Except.ok.inj h)).2
          exact .quiet (ht ▸ rfl) (ht ▸ rfl)
      | false =>
          rcases bind_ok h with ⟨rest, hrest, h⟩
          have ht := (Prod.mk.inj (Except.ok.inj h)).2
          exact .buy offer rfl marked hcost hlt hrest (ht ▸ rfl) (ht ▸ rfl)
  | sell =>
      rcases bind_ok h with ⟨short, hlt, h⟩
      cases short with
      | true =>
          have ht := (Prod.mk.inj (Except.ok.inj h)).2
          exact .quiet (ht ▸ rfl) (ht ▸ rfl)
      | false =>
          have ht := (Prod.mk.inj (Except.ok.inj h)).2
          exact .sell offer rfl marked hlt (ht ▸ rfl) (ht ▸ rfl)

/-- What is drawn before an order is placed does not matter to its move. -/
theorem Move.of_drawn {pair : Pair α} {s t : TradeState α} {random : RandomSource}
    (h : pair.Move { s with random } t) : pair.Move s t := by
  cases h with
  | quiet balances batch => exact .quiet balances batch
  | mark own fresh noRefund balances batch => exact .mark own fresh noRefund balances batch
  | refund own fresh side amount_eq balances batch =>
      exact .refund own fresh side amount_eq balances batch
  | buy offer side marked cost_eq affordable rest_eq balances batch =>
      exact .buy offer side marked cost_eq affordable rest_eq balances batch
  | sell offer side marked held balances batch =>
      exact .sell offer side marked held balances batch

theorem trade_move {pair : Pair α} {s : TradeState α} (marked : pair.AllMarked s)
    (decision : Decision) (side : Side) : pair.Move s (pair.trade decision side s).2 := by
  simp only [trade]
  rcases hquantity : Terms.quantity decision side (s.balance pair.bot.id) pair.price.current
    pair.shares s.random with ⟨quantity | quantity, random⟩
  · -- Without a quantity or a price the order comes to nothing; only something may be drawn.
    exact .quiet rfl rfl
  · dsimp only
    rcases hprice : Terms.limitPrice decision side pair.bot.preset? pair.price.current random
      with ⟨price | price, random'⟩
    · exact .quiet rfl rfl
    · dsimp only
      cases hplace : pair.place side price quantity { s with random := random' } with
      | error fault => exact .quiet rfl rfl
      | ok placed =>
          have hone : 1 ≤ quantity := Terms.one_le_quantity (by rw [hquantity])
          have hmove : pair.Move { s with random := random' } placed.2 :=
            place_move marked hone hplace
          exact hmove.of_drawn

/-- The states after each change that deciding on a new order makes. -/
def createTrail (pair : Pair α) (facts : Facts) (s : TradeState α) : List (TradeState α) :=
  match Rule.decide? (PairFacts.withBalance facts (s.balance pair.bot.id)) pair.rules with
  | .error _ | .ok none => []
  | .ok (some decision) =>
    match decision.action with
    | .cancel => TradeState.cancelAllTrail pair.orders s
    | .buy => [(pair.trade decision .buy s).2]
    | .sell => [(pair.trade decision .sell s).2]

theorem create_trail {pair : Pair α} {s : TradeState α} (marked : pair.AllMarked s)
    (facts : Facts) : Trail pair.Move s (pair.createTrail facts s) (pair.create facts s).2 := by
  unfold createTrail create
  cases Rule.decide? (PairFacts.withBalance facts (s.balance pair.bot.id)) pair.rules with
  | error fault => exact .nil s
  | ok decision? =>
      cases decision? with
      | none => exact .nil s
      | some decision =>
          cases haction : decision.action with
          | cancel =>
              simpa [haction] using TradeState.cancelAll_trail (List.Subset.refl pair.orders) s
          | buy => simpa [haction] using Trail.single (trade_move marked decision .buy)
          | sell => simpa [haction] using Trail.single (trade_move marked decision .sell)

/-! ## Both passes -/

/-- The states that processing a pair passes through. -/
def trail (pair : Pair α) (s : TradeState α) : List (TradeState α) :=
  match pair.buildFacts s with
  | (.error _, s) => [s]
  | (.ok facts, s) =>
    s :: (pair.cancelOrdersTrail facts pair.orders s ++
      match pair.cancelOrders facts pair.orders s with
      | (.ok [], s) => pair.createTrail facts s
      | _ => [])

theorem buildFacts_move (pair : Pair α) (s : TradeState α) :
    pair.Move s (pair.buildFacts s).2 :=
  .quiet rfl rfl

/-- Processing a pair is a chain of moves, also when it fails. -/
theorem process_trail (pair : Pair α) (s : TradeState α) :
    Trail pair.Move s (pair.trail s) (pair.process s).2 := by
  have hfacts := pair.buildFacts_move s
  unfold trail process
  rcases hbuild : pair.buildFacts s with ⟨fault | facts, t⟩
  · rw [hbuild] at hfacts
    exact .single hfacts
  · rw [hbuild] at hfacts
    have hcancel := pair.cancelOrders_trail (List.Subset.refl pair.orders) facts t
    refine .cons hfacts ?_
    rcases hpass : pair.cancelOrders facts pair.orders t with ⟨fault | survivors, u⟩
    · rw [hpass] at hcancel
      simpa [hpass] using hcancel
    · rw [hpass] at hcancel
      -- Something is created only when no order survives, and then all of them are marked.
      cases survivors with
      | nil =>
          have marked : pair.AllMarked u :=
            mem_cancelIds_cancelOrders (List.Subset.refl pair.orders) hpass
          simpa [hpass] using hcancel.append (create_trail marked facts)
      | cons o os => simpa [hpass] using hcancel

end Pair

end RuleTrader
