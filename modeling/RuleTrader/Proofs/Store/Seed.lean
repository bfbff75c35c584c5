import RuleTrader.Proofs.Store.Share

/-!
# Seeds

What is done to a store by hand, and what it does to the share of a party. A seed for the party does to
the share what it does to the store, a seed beside the party leaves the share alone, and every seed keeps
the bots of the party apart from the others.
-/

namespace RuleTrader

/-- Something that is done to a store by hand. -/
inductive Seed where
  | bot (b : Bot Value)
  | balance (botId : String) (amount : Value)
  | position (botId instrumentId : String) (shares : Value)
  | order (e : OrderEntry) (now : Micros)
  | ruleSet (strategyId : String) (rules : RuleDefinition)
  | instrument (i : Instrument Value)
  | price (instrumentId : String) (amount : Value)
  | aggregate (a : Aggregate Value)
  | failures (fetchFailure? applyFailure? : Option String)

namespace MemoryStore

/-- The order of an entry under a name; none if the entry is refused. -/
def entryOrder? (e : OrderEntry) (now : Micros) (id : String) : Option (Order Value) :=
  match Side.read e.side with
  | .ok side => (readEntry e side id now).toOption
  | .error _ => none

/-- An entry becomes the same order under every name. -/
theorem entryOrder?_rename (ρ : String → String) (e : OrderEntry) (now : Micros) (id : String) :
    (entryOrder? e now id).map (·.rename ρ) = entryOrder? e now (ρ id) := by
  unfold entryOrder? readEntry
  cases Side.read e.side with
  | error fault => rfl
  | ok side =>
      cases e.limitPrice.toInt with
      | error fault => rfl
      | ok limitPrice => cases e.quantity.toInt <;> rfl

theorem entryOrder?_some {e : OrderEntry} {now : Micros} {id : String} {o : Order Value}
    (h : entryOrder? e now id = some o) : o.id = id ∧ o.botId = e.botId := by
  unfold entryOrder? readEntry at h
  cases hside : Side.read e.side with
  | error fault => simp [hside] at h
  | ok side =>
      cases hprice : e.limitPrice.toInt with
      | error fault => simp [hside, hprice, bind, Except.bind, Except.toOption] at h
      | ok limitPrice =>
          cases hquantity : e.quantity.toInt with
          | error fault => simp [hside, hprice, hquantity, bind, Except.bind, Except.toOption] at h
          | ok quantity =>
              simp only [hside, hprice, hquantity, bind, Except.bind, pure, Except.pure,
                Except.toOption, Option.some.injEq] at h
              exact h ▸ ⟨rfl, rfl⟩

/-- An entry has a name of its own, or it gets the next one. -/
theorem entryName_cases (e : OrderEntry) :
    (∃ id, ∀ s : MemoryStore, (s.entryName e).1 = id) ∨
      ∀ s : MemoryStore, (s.entryName e).1 = orderName (s.named + 1) := by
  unfold entryName
  -- An empty name is none.
  cases e.id?.filter (· ≠ "") with
  | some id => exact Or.inl ⟨id, fun _ => rfl⟩
  | none => exact Or.inr fun _ => rfl

/-- The orders with one that an entry adds; none is added if the entry is refused. -/
theorem addOrder_store (s : MemoryStore) (e : OrderEntry) (now : Micros) :
    ∃ named, (s.addOrder e now).2 =
      { s with orders := s.orders ++ (entryOrder? e now (s.entryName e).1).toList, named } := by
  have hname : ∃ named, (s.entryName e).2 = { s with named } := by
    unfold entryName
    cases e.id?.filter (· ≠ "") with
    | some id => exact ⟨s.named, rfl⟩
    | none => exact ⟨s.named + 1, rfl⟩
  rcases hname with ⟨named, hstore⟩
  unfold addOrder entryOrder?
  cases Side.read e.side with
  -- A side that is refused is refused before a name is given out.
  | error fault => exact ⟨s.named, by simp⟩
  | ok side =>
      refine ⟨named, ?_⟩
      simp only [addOrderOf, hstore]
      cases readEntry e side (s.entryName e).1 now <;> simp [Except.toOption]

end MemoryStore

namespace Seed

/-- The store with a seed. A seed that is refused leaves the store as it was, but for the names that
were given out. -/
def plant : Seed → MemoryStore → MemoryStore
  | .bot b, s => s.addBot b
  | .balance botId amount, s => (s.setBalance botId amount).toOption.getD s
  | .position botId instrumentId shares, s => (s.setPosition botId instrumentId shares).toOption.getD s
  | .order e now, s => (s.addOrder e now).2
  | .ruleSet strategyId rules, s => s.setRuleSet strategyId rules
  | .instrument i, s => s.addInstrument i
  | .price instrumentId amount, s => (s.setPrice instrumentId amount).toOption.getD s
  | .aggregate a, s => s.setAggregate a
  | .failures fetchFailure? applyFailure?, s => { s with fetchFailure?, applyFailure? }

/-- A seed for a party: it concerns a bot of the party, a rule set, or the market. -/
def For (p : Party) : Seed → Prop
  | .bot b => p.Fits b
  | .balance botId _ => p.hasBot botId = true
  | .position botId _ _ => p.hasBot botId = true
  | .order e _ => p.hasBot e.botId = true
  | .ruleSet _ _ | .instrument _ | .price _ _ | .aggregate _ | .failures _ _ => True

/-- A seed beside a party: it concerns a bot of somebody else, or a rule set that the party does not
use. -/
def Beside (p : Party) : Seed → Prop
  | .bot b => p.Foreign b
  | .balance botId _ => p.hasBot botId = false
  | .position botId _ _ => p.hasBot botId = false
  | .order e _ => p.hasBot e.botId = false
  | .ruleSet strategyId _ => p.mayUse strategyId = false
  | .instrument _ | .price _ _ | .aggregate _ | .failures _ _ => False

variable {p : Party} {s : MemoryStore} {x : Seed}

/-- Setting a balance changes only a bot that is there, and only its balance. -/
theorem plant_balance (botId : String) (amount : Value) (s : MemoryStore) :
    (Seed.balance botId amount).plant s = s ∨
      ∃ b n, s.bots.get? botId = some b ∧
        (Seed.balance botId amount).plant s = s.addBot { b with id := botId, balance := .int n } := by
  simp only [plant, MemoryStore.setBalance]
  cases hb : s.bots.get? botId with
  | none => exact Or.inl rfl
  | some b =>
      cases amount.toInt with
      | error fault => exact Or.inl rfl
      | ok n => exact Or.inr ⟨b, n, rfl, rfl⟩

/-! ## Keeping apart -/

theorem plant_divides (h : p.Divides s) (hx : x.For p ∨ x.Beside p) : p.Divides (x.plant s) := by
  cases x with
  | bot b =>
      refine ⟨h.filed.put b, ?_⟩
      intro e he
      rcases Table.mem_put he with rfl | he
      · exact hx
      · exact h.parted e he
  | balance botId amount =>
      rcases plant_balance botId amount s with hsame | ⟨b, n, hget, hplant⟩
      · exact hsame.symm ▸ h
      · -- The bot keeps its name, its owner and its strategy.
        have hmem := Table.mem_of_get? hget
        have hid : b.id = botId := h.filed.named _ hmem
        rw [hplant]
        refine ⟨h.filed.put _, ?_⟩
        intro e he
        rcases Table.mem_put he with rfl | he
        · rcases h.parted _ hmem with hfits | hforeign
          · exact Or.inl ⟨hfits.owner, hid ▸ hfits.mine, hfits.strategy⟩
          · exact Or.inr ⟨hforeign.owner, hid ▸ hforeign.notMine⟩
        · exact h.parted e he
  | position botId instrumentId shares =>
      -- Positions, orders and prices leave the bots alone.
      have hbots : ((Seed.position botId instrumentId shares).plant s).bots = s.bots := by
        simp only [plant, MemoryStore.setPosition]
        cases shares.toInt <;> rfl
      exact ⟨hbots ▸ h.filed, fun e he => h.parted e (hbots ▸ he)⟩
  | order e now =>
      rcases s.addOrder_store e now with ⟨named, hstore⟩
      have hbots : ((Seed.order e now).plant s).bots = s.bots := by rw [plant, hstore]
      exact ⟨hbots ▸ h.filed, fun e he => h.parted e (hbots ▸ he)⟩
  | price instrumentId amount =>
      have hbots : ((Seed.price instrumentId amount).plant s).bots = s.bots := by
        simp only [plant, MemoryStore.setPrice]
        cases s.instruments.get? instrumentId with
        | none => rfl
        | some i => cases amount.toInt <;> rfl
      exact ⟨hbots ▸ h.filed, fun e he => h.parted e (hbots ▸ he)⟩
  | ruleSet strategyId rules => exact ⟨h.filed, h.parted⟩
  | instrument i => exact ⟨h.filed, h.parted⟩
  | aggregate a => exact ⟨h.filed, h.parted⟩
  | failures fetchFailure? applyFailure? => exact ⟨h.filed, h.parted⟩

/-! ## The share -/

/-- A seed beside a party does not reach its share. -/
theorem share_plant_beside (hx : x.Beside p) : p.share (x.plant s) = p.share s := by
  cases x with
  | bot b =>
      simp only [plant, MemoryStore.addBot, Party.share, Table.filter_put_of_not s.bots b hx.notMine]
  | balance botId amount =>
      rcases plant_balance botId amount s with hsame | ⟨b, n, -, hplant⟩
      · rw [hsame]
      · rw [hplant]
        simp only [MemoryStore.addBot, Party.share, Table.filter_put_of_not s.bots _ hx]
  | position botId instrumentId shares =>
      simp only [plant, MemoryStore.setPosition]
      cases shares.toInt with
      | error fault => rfl
      | ok n =>
          have hput := Table.filter_put_of_not (p := fun k : String × String => p.hasBot k.1)
            (k := (botId, instrumentId)) s.positions n hx
          simp only [Except.toOption, Option.getD_some, Party.share, hput]
  | order e now =>
      rcases s.addOrder_store e now with ⟨named, hstore⟩
      -- The order is of the bot that the entry names, under whatever name it gets.
      have hnone : (MemoryStore.entryOrder? e now (s.entryName e).1).toList.filter
          (fun o => p.hasBot o.botId) = [] := by
        refine List.filter_eq_nil_iff.2 fun o ho => ?_
        rw [(MemoryStore.entryOrder?_some (Option.mem_toList.1 ho)).2]
        exact Bool.eq_false_iff.1 hx
      rw [plant, hstore]
      simp only [Party.share, List.filter_append, hnone, List.append_nil]
  | ruleSet strategyId rules =>
      simp only [plant, MemoryStore.setRuleSet, Party.share, Table.filter_put_of_not s.ruleSets rules hx]
  | instrument i => exact hx.elim
  | price instrumentId amount => exact hx.elim
  | aggregate a => exact hx.elim
  | failures fetchFailure? applyFailure? => exact hx.elim

/-- Whether a seed puts an order in. -/
def isOrder : Seed → Bool
  | .order _ _ => true
  | _ => false

/-- A seed for a party does to its share what it does to the store, if it is not beside the party as well:
a rule set may be both. -/
theorem share_plant_for (hx : x.For p) (hbeside : ¬x.Beside p) (hplain : x.isOrder = false) :
    p.share (x.plant s) = x.plant (p.share s) := by
  cases x with
  | bot b => simp only [plant, MemoryStore.addBot, Party.share, Table.filter_put s.bots b hx.mine]
  | balance botId amount =>
      -- The bot is looked up first, and the share has it if the store has it.
      have hget : Table.get? (p.share s).bots botId = s.bots.get? botId := Table.get?_filter s.bots hx
      simp only [plant, MemoryStore.setBalance]
      rw [hget]
      cases s.bots.get? botId with
      | none => rfl
      | some b =>
          cases amount.toInt with
          | error fault => rfl
          | ok n =>
              simp only [Except.toOption, Option.getD_some, MemoryStore.addBot, Party.share,
                Table.filter_put s.bots _ hx]
  | position botId instrumentId shares =>
      simp only [plant, MemoryStore.setPosition]
      cases shares.toInt with
      | error fault => rfl
      | ok n =>
          have hput := Table.filter_put (p := fun k : String × String => p.hasBot k.1)
            (k := (botId, instrumentId)) s.positions n hx
          simp only [Except.toOption, Option.getD_some, Party.share, hput]
  | order e now => cases hplain
  | ruleSet strategyId rules =>
      have hused : p.mayUse strategyId = true := by simpa [Beside] using hbeside
      simp only [plant, MemoryStore.setRuleSet, Party.share, Table.filter_put s.ruleSets rules hused]
  | instrument i => rfl
  | price instrumentId amount =>
      have hsame : (p.share s).instruments = s.instruments := rfl
      simp only [plant, MemoryStore.setPrice]
      rw [hsame]
      cases s.instruments.get? instrumentId with
      | none => rfl
      | some i => cases amount.toInt <;> rfl
  | aggregate a => rfl
  | failures fetchFailure? applyFailure? => rfl

/-- A seed that puts no order in looks at none. -/
theorem plant_rename (ρ : String → String) (hplain : x.isOrder = false) :
    x.plant (s.rename ρ) = (x.plant s).rename ρ := by
  cases x with
  | balance botId amount =>
      have hsame : (s.rename ρ).bots = s.bots := rfl
      simp only [plant, MemoryStore.setBalance]
      rw [hsame]
      cases s.bots.get? botId with
      | none => rfl
      | some b => cases amount.toInt <;> rfl
  | position botId instrumentId shares =>
      simp only [plant, MemoryStore.setPosition]
      cases shares.toInt <;> rfl
  | price instrumentId amount =>
      have hsame : (s.rename ρ).instruments = s.instruments := rfl
      simp only [plant, MemoryStore.setPrice]
      rw [hsame]
      cases s.instruments.get? instrumentId with
      | none => rfl
      | some i => cases amount.toInt <;> rfl
  | order e now => cases hplain
  | bot b => rfl
  | ruleSet strategyId rules => rfl
  | instrument i => rfl
  | aggregate a => rfl
  | failures fetchFailure? applyFailure? => rfl

end Seed

end RuleTrader
