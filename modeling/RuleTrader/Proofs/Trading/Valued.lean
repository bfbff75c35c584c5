import RuleTrader.Proofs.Rule.Reordered
import RuleTrader.Trading.Tick

/-!
# Integers as values

A pair that counts in integers, and the same pair with its integers as unchecked values, come to the same:
every operation on a value that is an integer is the one on the integer. The rules of the two pairs need
only be alike. Each function of the pair is compared in turn, from the facts up to `Pair.process_matches`,
in two states with the same money, batch and random source; what was reported may differ.
-/

namespace RuleTrader

/-! ## The same with values -/

def Bot.valued (b : Bot Int) : Bot Value := { b with balance := .int b.balance }

def Instrument.valued (i : Instrument Int) : Instrument Value := { i with price := .int i.price }

def Order.valued (o : Order Int) : Order Value :=
  { o with limitPrice := .int o.limitPrice, quantity := .int o.quantity }

def Position.valued (p : Position Int) : Position Value := { p with shares := .int p.shares }

def Aggregate.valued (a : Aggregate Int) : Aggregate Value := { a with volume := .int a.volume }

def NewOrder.valued (o : NewOrder Int) : NewOrder Value := { o with limitPrice := .int o.limitPrice }

def Batch.valued (b : Batch Int) : Batch Value := ⟨b.cancelIds, b.newOrders.map (·.valued)⟩

def PriceContext.valued (p : PriceContext Int) : PriceContext Value where
  current := .int p.current
  previous? := p.previous?.map .int
  trend := p.trend
  average? := p.average?
  history := p.history.map .int

/-- The pair with values, and with other rules. -/
def Pair.valued (rules : List Rule) (pair : Pair Int) : Pair Value where
  bot := pair.bot.valued
  instrument := pair.instrument.valued
  price := pair.price.valued
  orders := pair.orders.map (·.valued)
  shares := .int pair.shares
  rules := rules
  now := pair.now
  tickInterval := pair.tickInterval
  aggregate? := pair.aggregate?.map (·.valued)

theorem Amount.atLeast_value (least n : Int) : Amount.atLeast least (Value.int n) = .ok (.int (max least n)) := by
  have hgt : Amount.gt (Value.int n) (Amount.ofInt least) = Amount.gt n least := rfl
  rw [Amount.atLeast, hgt, Amount.gt_int]
  by_cases h : least < n
  · simp [bind, Except.bind, pure, Except.pure, h, Int.max_eq_right (Int.le_of_lt h)]
  · simp [bind, Except.bind, pure, Except.pure, h, Int.max_eq_left (Int.not_lt.mp h)]
    rfl

/-! ## Facts -/

namespace PairFacts

theorem base?_valued (p : PriceContext Int) : base? p.valued = (base? p).map .int := by
  unfold base?
  cases hprevious : p.previous? with
  | none => simp [PriceContext.valued, hprevious]
  | some previous =>
      have hzero : Amount.isZero (Value.int previous) = Amount.isZero previous := rfl
      cases h : Amount.isZero previous <;>
        simp [PriceContext.valued, hprevious, Option.filter, hzero, h]

theorem volatility_valued (p : PriceContext Int) : volatility p.valued = volatility p := by
  unfold volatility
  rw [base?_valued]
  cases base? p <;> rfl

theorem changePercent_valued (p : PriceContext Int) : changePercent p.valued = changePercent p := by
  unfold changePercent
  rw [base?_valued]
  cases base? p <;> rfl

variable (pair : Pair Int) {rules : List Rule}

theorem plain_valued (balance : Int) :
    plain (pair.valued rules) (Value.int balance) = plain pair balance := by
  have haverage : lastMinuteAverage pair.price.valued (pair.aggregate?.map (·.valued)) =
      lastMinuteAverage pair.price pair.aggregate? := by
    unfold lastMinuteAverage PriceContext.valued
    cases pair.price.average? <;> cases pair.aggregate? <;> rfl
  have hlength : (pair.valued rules).orders.length = pair.orders.length := List.length_map _
  have hprice : (pair.valued rules).price = pair.price.valued := rfl
  have haggregate : (pair.valued rules).aggregate? = pair.aggregate?.map (·.valued) := rfl
  unfold plain
  rw [hlength, hprice, haggregate, volatility_valued, changePercent_valued, haverage]
  rfl

theorem optional_valued : optional (pair.valued rules) = optional pair := by
  unfold optional Pair.valued PriceContext.valued
  cases pair.price.previous? <;> cases pair.aggregate? <;> rfl

/-- Rules that are alike ask for the same indicators. -/
theorem indicatorKeys_alike {rules rules' : List Rule} (h : List.Forall₂ Rule.Alike rules rules') :
    Rule.indicatorKeys rules = Rule.indicatorKeys rules' := by
  have hnames : rules.map (·.condition) = rules'.map (·.condition) := by
    induction h with
    | nil => rfl
    | cons alike _ ih => rw [List.map_cons, List.map_cons, alike.condition, ih]
  have hfacts (rules : List Rule) : rules.flatMap (·.condition.factNames) =
      (rules.map (·.condition)).flatMap Condition.factNames := by
    rw [List.flatMap_map]
  rw [Rule.indicatorKeys, Rule.indicatorKeys, hfacts, hfacts, hnames]

theorem build_valued (hrules : List.Forall₂ Rule.Alike pair.rules rules) (balance : Int)
    (random : RandomSource) :
    build (pair.valued rules) (Value.int balance) random = build pair balance random := by
  have hhistory : (pair.valued rules).price.history.map Amount.toValue =
      pair.price.history.map Amount.toValue := by
    simp only [Pair.valued, PriceContext.valued, List.map_map]
    rfl
  have hindicators : indicators (pair.valued rules) = indicators pair := by
    have hkeys : Rule.indicatorKeys (pair.valued rules).rules = Rule.indicatorKeys pair.rules :=
      (indicatorKeys_alike hrules).symm
    unfold indicators
    rw [hkeys, hhistory]
  unfold build
  rw [plain_valued, hindicators, optional_valued]

end PairFacts

/-! ## Decisions -/

/-- Of rules that are alike the same one applies. -/
theorem Rule.decide?_alike {rules rules' : List Rule} (h : List.Forall₂ Rule.Alike rules rules')
    (facts : Facts) :
    SameOutcome (Option.Rel Decision.Alike) (decide? facts rules) (decide? facts rules') := by
  induction h with
  | nil => exact .ok .none
  | @cons r r' rs rs' alike _ ih =>
      rw [decide?, decide?, alike.condition]
      refine (SameOutcome.refl (r'.condition.holds facts)).bind ?_
      rintro holds _ rfl
      cases holds with
      | true => exact .ok (.some alike.decision)
      | false => exact ih

namespace Terms

/-- Two parameters that are alike are one parameter, or both are containers. -/
theorem eq_or_none_of_scalar? {v w : Value} (h : v.scalar? = w.scalar?) :
    v = w ∨ (v.scalar? = none ∧ w.scalar? = none) := by
  cases hv : v.scalar? with
  | none => exact Or.inr ⟨rfl, h ▸ hv⟩
  | some x =>
      have hself {u : Value} (hu : u.scalar? = some x) : u = x := by
        cases u <;> simp_all [Value.scalar?]
      exact Or.inl ((hself hv).trans (hself (h ▸ hv)).symm)

theorem finiteNumber?_alike {v w : Value} (h : v.scalar? = w.scalar?) :
    finiteNumber? v = finiteNumber? w := by
  have hcontainer {v : Value} (hv : v.scalar? = none) : finiteNumber? v = .ok none := by
    cases v <;> first | rfl | cases hv
  rcases eq_or_none_of_scalar? h with rfl | ⟨hv, hw⟩
  · rfl
  · rw [hcontainer hv, hcontainer hw]

theorem namedPrice?_alike {v w : Value} (h : v.scalar? = w.scalar?) (value? : Option Number) (price : Int) :
    namedPrice? w value? (Value.int price) =
      (namedPrice? v value? price).map (Except.map Value.int) := by
  -- A container is the name of no price.
  have hcontainer {v : Value} (hv : v.scalar? = none) {α : Type} [Amount α] (price : α) :
      namedPrice? v value? price = none := by
    cases v <;> first | rfl | cases hv
  rcases eq_or_none_of_scalar? h with rfl | ⟨hv, hw⟩
  · unfold namedPrice?
    split
    · rfl
    · rename_i x
      cases x.floor <;> rfl
    · rename_i x
      rw [show movedBy (Value.int price) x = movedBy price x from rfl]
      cases movedBy price x <;> rfl
    · rename_i x
      rw [show movedByPercent (Value.int price) x = movedByPercent price x from rfl]
      cases movedByPercent price x <;> rfl
    · rfl
  · rw [hcontainer hv, hcontainer hw]
    rfl

variable {d e : Decision}

theorem quantity_valued (h : d.Alike e) (side : Side) (balance price shares : Int) (random : RandomSource) :
    quantity e side (Value.int balance) (Value.int price) (Value.int shares) random =
      quantity d side balance price shares random := by
  have hbase : sizeBase side (Value.int balance) (Value.int price) (Value.int shares) =
      sizeBase side balance price shares := by
    cases side with
    | sell => rfl
    | buy =>
        simp only [sizeBase, Amount.atLeast_value, Amount.atLeast_int]
        rfl
  unfold quantity
  rw [← finiteNumber?_alike (h.parameter "sizePct"), hbase]

theorem limitPrice_valued (h : d.Alike e) (side : Side) (preset? : Option String) (price : Int)
    (random : RandomSource) :
    limitPrice e side preset? (Value.int price) random =
      ((limitPrice d side preset? price random).1.map Value.int,
        (limitPrice d side preset? price random).2) := by
  have hpreset (preset : Preset) : presetPrice preset side (Value.int price) random =
      ((presetPrice preset side price random).1.map Value.int,
        (presetPrice preset side price random).2) := by
    cases preset with
    | momentum => rfl
    | swing => rfl
    | random =>
        -- The price is only read on the way to the spread around it.
        have hscaled : scaled (Value.int price) randomSpread = scaled price randomSpread := rfl
        simp only [presetPrice, randomPrice, hscaled]
        cases scaled price randomSpread with
        | error fault => rfl
        | ok buffer =>
            dsimp only
            cases side <;> cases (decide (random.unit.1 < 0.5)) <;> rfl
  unfold limitPrice
  rw [← finiteNumber?_alike (h.parameter "limitPriceValue")]
  cases finiteNumber? (d.parameter "limitPriceValue") with
  | error fault => rfl
  | ok value? =>
      dsimp only
      rw [namedPrice?_alike (h.parameter "limitPriceType")]
      cases namedPrice? (d.parameter "limitPriceType") value? price with
      | some result => rfl
      | none => exact hpreset _

end Terms

/-! ## States -/

/-- Two states with the same money, batch and random source, in integers and in values. -/
structure TradeState.Matches (s : TradeState Int) (t : TradeState Value) : Prop where
  balances : t.balances = s.balances.mapValues .int
  batch : t.batch = s.batch.valued
  random : t.random = s.random

/-- Two attempts with the same fault, or with results that are related, that leave states which match. -/
def Attempt.Matches {β γ : Type} (R : β → γ → Prop) (x : Attempt Int β) (y : Attempt Value γ) : Prop :=
  SameOutcome R x.1 y.1 ∧ x.2.Matches y.2

namespace Attempt

variable {β γ β' γ' : Type} {R : β → γ → Prop} {x : Attempt Int β} {y : Attempt Value γ}

theorem Matches.cases (h : Matches R x y) :
    (∃ fault s t, x = (.error fault, s) ∧ y = (.error fault, t) ∧ s.Matches t) ∨
    ∃ b c s t, x = (.ok b, s) ∧ y = (.ok c, t) ∧ R b c ∧ s.Matches t := by
  rcases x with ⟨result, s⟩
  rcases y with ⟨result', t⟩
  rcases h with ⟨hresult, hstate⟩
  cases hresult with
  | error fault => exact Or.inl ⟨fault, s, t, rfl, rfl, hstate⟩
  | ok related => exact Or.inr ⟨_, _, s, t, rfl, rfl, related, hstate⟩

theorem Matches.map {S : β' → γ' → Prop} (h : Matches R x y) {f : β → β'} {g : γ → γ'}
    (hfg : ∀ b c, R b c → S (f b) (g c)) : Matches S (f <$> x.1, x.2) (g <$> y.1, y.2) := by
  rcases h.cases with ⟨fault, s, t, rfl, rfl, hstate⟩ | ⟨b, c, s, t, rfl, rfl, related, hstate⟩
  · exact ⟨.error fault, hstate⟩
  · exact ⟨.ok (hfg b c related), hstate⟩

end Attempt

namespace TradeState

variable {s : TradeState Int} {t : TradeState Value}

namespace Matches

theorem balance (h : s.Matches t) (botId : String) : t.balance botId = .int (s.balance botId) := by
  rw [TradeState.balance, TradeState.balance, h.balances, Table.get?_mapValues]
  cases s.balances.get? botId <;> rfl

theorem drawn (h : s.Matches t) (random : RandomSource) :
    Matches { s with random } { t with random } :=
  ⟨h.balances, h.batch, rfl⟩

theorem report (h : s.Matches t) (n n' : Notice) : (s.report n).Matches (t.report n') :=
  ⟨h.balances, h.batch, h.random⟩

theorem markCancel (h : s.Matches t) (id : String) : (s.markCancel id).Matches (t.markCancel id) where
  balances := h.balances
  batch := by
    rw [TradeState.markCancel, TradeState.markCancel, h.batch]
    rfl
  random := h.random

theorem setBalance (h : s.Matches t) (botId : String) (amount : Int) :
    (s.setBalance botId amount).Matches (t.setBalance botId (.int amount)) where
  balances := by
    rw [TradeState.setBalance, TradeState.setBalance, h.balances]
    exact Table.put_mapValues _ _ _ _
  batch := h.batch
  random := h.random

theorem addOrder (h : s.Matches t) (o : NewOrder Int) : (s.addOrder o).Matches (t.addOrder o.valued) where
  balances := h.balances
  batch := by
    rw [TradeState.addOrder, TradeState.addOrder, h.batch]
    simp [Batch.valued]
  random := h.random

end Matches

theorem cancel_matches (h : s.Matches t) (o : Order Int) :
    Attempt.Matches Eq (s.cancel o) (t.cancel o.valued) := by
  have hmarked : t.batch.cancelIds = s.batch.cancelIds := by
    rw [h.batch]
    rfl
  have hrefund : t.refunded o.valued = .ok (.int (s.balance o.botId + o.limitPrice * o.quantity)) := by
    have hbalance : t.balance o.valued.botId = .int (s.balance o.botId) := h.balance o.botId
    rw [refunded, hbalance]
    rfl
  unfold cancel
  have hid : o.valued.id = o.id := rfl
  have hside : o.valued.side = o.side := rfl
  rw [hid, hmarked, hside]
  split
  · exact ⟨.ok rfl, h⟩
  · cases o.side with
    | sell => exact ⟨.ok rfl, h.markCancel o.id⟩
    | buy =>
        rw [hrefund]
        exact ⟨.ok rfl, (h.markCancel o.id).setBalance o.botId _⟩

theorem cancelAll_matches (h : s.Matches t) (os : List (Order Int)) :
    Attempt.Matches Eq (cancelAll os s) (cancelAll (os.map (·.valued)) t) := by
  induction os generalizing s t with
  | nil => exact ⟨.ok rfl, h⟩
  | cons o os ih =>
      rw [List.map_cons, cancelAll, cancelAll]
      rcases (cancel_matches h o).cases with
        ⟨fault, s', t', hs, ht, hstate⟩ | ⟨_, _, s', t', hs, ht, -, hstate⟩
      · rw [hs, ht]
        exact ⟨.error fault, hstate⟩
      · rw [hs, ht]
        exact ih hstate

end TradeState

/-! ## A pair -/

namespace Pair

variable {pair : Pair Int} {rules : List Rule} {s : TradeState Int} {t : TradeState Value}

theorem balance_valued (h : s.Matches t) :
    t.balance (pair.valued rules).bot.id = .int (s.balance pair.bot.id) :=
  h.balance pair.bot.id

theorem orderDecision?_matches (hrules : List.Forall₂ Rule.Alike pair.rules rules) (h : s.Matches t)
    (facts : Facts) (o : Order Int) :
    SameOutcome (Option.Rel Decision.Alike) (pair.orderDecision? facts s o)
      ((pair.valued rules).orderDecision? facts t o.valued) := by
  have hown : PairFacts.ofOrder o.valued (pair.valued rules).price.current (pair.valued rules).now
      (pair.valued rules).tickInterval =
        PairFacts.ofOrder o pair.price.current pair.now pair.tickInterval := rfl
  unfold orderDecision?
  rw [hown, balance_valued h]
  refine (SameOutcome.refl _).bind ?_
  rintro own _ rfl
  exact Rule.decide?_alike hrules _

theorem isCancel_alike {d? e? : Option Decision} (h : Option.Rel Decision.Alike d? e?) :
    isCancel e? = isCancel d? := by
  cases h with
  | none => rfl
  | some alike => simp [isCancel, alike.action]

theorem cancelIfTold_matches (hrules : List.Forall₂ Rule.Alike pair.rules rules) (h : s.Matches t)
    (facts : Facts) (o : Order Int) :
    Attempt.Matches Eq (pair.cancelIfTold facts o s)
      ((pair.valued rules).cancelIfTold facts o.valued t) := by
  have hdecision := orderDecision?_matches hrules h facts o
  unfold cancelIfTold
  generalize pair.orderDecision? facts s o = x,
    (pair.valued rules).orderDecision? facts t o.valued = y at hdecision
  cases hdecision with
  | error fault => exact ⟨.error fault, h⟩
  | ok alike =>
      dsimp only
      rw [isCancel_alike alike]
      split
      · exact (TradeState.cancel_matches h o).map fun _ _ _ => rfl
      · exact ⟨.ok rfl, h⟩

/-- The same orders survive. -/
theorem cancelOrders_matches (hrules : List.Forall₂ Rule.Alike pair.rules rules) (h : s.Matches t)
    (facts : Facts) (os : List (Order Int)) :
    Attempt.Matches (fun xs ys => ys = xs.map (·.valued)) (pair.cancelOrders facts os s)
      ((pair.valued rules).cancelOrders facts (os.map (·.valued)) t) := by
  induction os generalizing s t with
  | nil => exact ⟨.ok rfl, h⟩
  | cons o os ih =>
      rw [List.map_cons, cancelOrders, cancelOrders]
      rcases (cancelIfTold_matches hrules h facts o).cases with
        ⟨fault, s', t', hs, ht, hstate⟩ | ⟨survives, _, s', t', hs, ht, rfl, hstate⟩
      · rw [hs, ht]
        exact ⟨.error fault, hstate⟩
      · rw [hs, ht]
        refine (ih hstate).map ?_
        rintro xs _ rfl
        cases survives <;> rfl

theorem place_matches (h : s.Matches t) (side : Side) (limitPrice quantity : Int) :
    SameOutcome (fun x y => x.2.Matches y.2) (pair.place side limitPrice quantity s)
      ((pair.valued rules).place side (Value.int limitPrice) quantity t) := by
  have hbuy (o : NewOrder Int) : SameOutcome (fun x y => x.2.Matches y.2) (pair.placeBuy o s)
      ((pair.valued rules).placeBuy o.valued t) := by
    have hcost : SameOutcome (fun a b => b = Value.int a) o.cost o.valued.cost := .ok rfl
    simp only [placeBuy, balance_valued h]
    refine hcost.bind ?_
    rintro cost _ rfl
    refine (SameOutcome.refl (Amount.lt (s.balance pair.bot.id) cost)).bind ?_
    rintro short _ rfl
    cases short with
    | true => exact .ok (h.report _ _)
    | false => exact .ok ((h.setBalance pair.bot.id _).addOrder o)
  have hsell (o : NewOrder Int) : SameOutcome (fun x y => x.2.Matches y.2) (pair.placeSell o s)
      ((pair.valued rules).placeSell o.valued t) := by
    refine (SameOutcome.refl (Amount.lt pair.shares o.quantity)).bind ?_
    rintro short _ rfl
    cases short with
    | true => exact .ok (h.report _ _)
    | false => exact .ok (h.addOrder o)
  unfold place
  rw [Amount.atLeast_int, Amount.atLeast_value]
  cases side with
  | buy => exact hbuy _
  | sell => exact hsell _

theorem trade_matches {d e : Decision} (alike : d.Alike e) (h : s.Matches t) (side : Side) :
    Attempt.Matches (fun _ _ => True) (pair.trade d side s) ((pair.valued rules).trade e side t) := by
  have hpair : (pair.valued rules).price.current = .int pair.price.current ∧
      (pair.valued rules).shares = .int pair.shares ∧
      (pair.valued rules).bot.preset? = pair.bot.preset? := ⟨rfl, rfl, rfl⟩
  simp only [trade, balance_valued h, hpair, h.random, Terms.quantity_valued alike]
  rcases Terms.quantity d side (s.balance pair.bot.id) pair.price.current pair.shares s.random
    with ⟨fault | quantity, random⟩
  · exact ⟨.error fault, h.drawn random⟩
  · simp only [Terms.limitPrice_valued alike]
    rcases Terms.limitPrice d side pair.bot.preset? pair.price.current random
      with ⟨fault | price, random'⟩
    · exact ⟨.error fault, h.drawn random'⟩
    · have hplace : SameOutcome (fun x y => x.2.Matches y.2)
          (pair.place side price quantity { s with random := random' })
          ((pair.valued rules).place side (Value.int price) quantity { t with random := random' }) :=
        place_matches (h.drawn random') side price quantity
      dsimp only [Except.map]
      generalize pair.place side price quantity { s with random := random' } = x,
        (pair.valued rules).place side (Value.int price) quantity { t with random := random' } = y at hplace
      cases hplace with
      | error fault => exact ⟨.error fault, h.drawn random'⟩
      | ok related => exact ⟨.ok trivial, related⟩

theorem create_matches (hrules : List.Forall₂ Rule.Alike pair.rules rules) (h : s.Matches t)
    (facts : Facts) :
    Attempt.Matches (fun _ _ => True) (pair.create facts s) ((pair.valued rules).create facts t) := by
  have hdecision : SameOutcome (Option.Rel Decision.Alike)
      (Rule.decide? (PairFacts.withBalance facts (s.balance pair.bot.id)) pair.rules)
      (Rule.decide? (PairFacts.withBalance facts (t.balance (pair.valued rules).bot.id))
        (pair.valued rules).rules) := by
    rw [balance_valued h]
    exact Rule.decide?_alike hrules _
  unfold create
  generalize Rule.decide? (PairFacts.withBalance facts (s.balance pair.bot.id)) pair.rules = x,
    Rule.decide? (PairFacts.withBalance facts (t.balance (pair.valued rules).bot.id))
      (pair.valued rules).rules = y at hdecision
  rcases hdecision.cases with ⟨fault, rfl, rfl⟩ | ⟨d?, e?, rfl, rfl, alike?⟩
  · exact ⟨.error fault, h⟩
  · cases alike? with
    | none => exact ⟨.ok trivial, h⟩
    | @some d e alike =>
        dsimp only
        rw [← alike.action]
        cases d.action with
        | cancel => exact (TradeState.cancelAll_matches h pair.orders).map fun _ _ _ => trivial
        | buy => exact trade_matches alike h .buy
        | sell => exact trade_matches alike h .sell

/-- Both pairs come to the same, or fail with the same fault, and leave states that match. -/
theorem process_matches (hrules : List.Forall₂ Rule.Alike pair.rules rules) (h : s.Matches t) :
    Attempt.Matches (fun _ _ => True) (pair.process s) ((pair.valued rules).process t) := by
  have hfacts : Attempt.Matches Eq (pair.buildFacts s) ((pair.valued rules).buildFacts t) := by
    unfold buildFacts
    rw [balance_valued h, h.random, PairFacts.build_valued pair hrules]
    exact ⟨.refl _, h.drawn _⟩
  unfold process
  rcases hfacts.cases with ⟨fault, s', t', hs, ht, hstate⟩ | ⟨facts, _, s', t', hs, ht, rfl, hstate⟩
  · rw [hs, ht]
    exact ⟨.error fault, hstate⟩
  · rw [hs, ht]
    have horders : (pair.valued rules).orders = pair.orders.map (·.valued) := rfl
    dsimp only
    rw [horders]
    rcases (cancelOrders_matches hrules hstate facts pair.orders).cases with
      ⟨fault, s'', t'', hs', ht', hstate'⟩ | ⟨survivors, _, s'', t'', hs', ht', rfl, hstate'⟩
    · rw [hs', ht']
      exact ⟨.error fault, hstate'⟩
    · rw [hs', ht']
      -- Something is created only where no order is left, and that is so for both pairs.
      cases survivors with
      | nil => exact create_matches hrules hstate' facts
      | cons o os => exact ⟨.ok trivial, hstate'⟩

end Pair

end RuleTrader
