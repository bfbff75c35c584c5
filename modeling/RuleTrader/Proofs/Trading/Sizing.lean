import RuleTrader.Proofs.Number.Arithmetic
import RuleTrader.Proofs.Trading.Draws

/-!
# Quantities at a percentage

The size of a decision is a percentage of what the bot can buy, or of what it holds. Both are whole numbers,
and so is their product with a whole percentage. Its hundredth part is rounded once, before it is rounded
down to the quantity. So the quantity is exact exactly when this rounding does not pass a whole number above
one, and then an order for it can always be paid for, or served from the shares (`sizesExactly_iff`).

A product below 2⁵³ is always divided exactly (`sizesExactly_of_moderate`). Above that the rounding can pass
a whole number, but an order that cannot be served comes from it only if all is asked for, and the number of
shares itself is rounded up (`trade_buy_iff`, `trade_sell_iff`).
-/

namespace RuleTrader

open Binary64 (rounded limit)

/-- A decision whose size is a whole number of percent. -/
def Decision.Sizes (d : Decision) (percent : ℤ) : Prop := d.parameter "sizePct" = .int percent

/-- A decision that takes the current price, with parameters that can be read. -/
structure Decision.AtMarket (d : Decision) : Prop where
  kind : d.parameter "limitPriceType" = .text "market"
  readable : ∃ value?, Terms.finiteNumber? (d.parameter "limitPriceValue") = .ok value?

namespace Terms

/-- The number that a size is a percentage of: the shares that the money buys, or those that are held. -/
def sizeCount (side : Side) (balance price shares : ℤ) : ℤ :=
  match side with
  | .buy => balance / max 1 price
  | .sell => shares

/-- The part of a number that is worked out for a percentage, before it is rounded down. -/
def sizedPart (count percent : ℤ) : ℚ := rounded ((count * percent : ℤ) / (100 : ℤ))

/-- The exact part, rounded down, but at least one. -/
def exactQuantity (count percent : ℤ) : ℤ := max 1 (count * percent / 100)

/-! ## The quantity that is worked out -/

theorem sizeBase_eq (side : Side) (balance price shares : ℤ) :
    sizeBase side balance price shares = .ok (.int (sizeCount side balance price shares)) := by
  cases side with
  | sell => rfl
  | buy =>
      have hprice : 1 ≤ max 1 price := le_max_left 1 price
      unfold sizeBase sizeCount
      rw [Amount.atLeast_int]
      show (if max 1 price = 0 then Except.error NumberFault.divisionByZero
        else Except.ok (Number.int (balance.fdiv (max 1 price)))) = _
      rw [if_neg (by omega), Int.fdiv_eq_ediv_of_nonneg _ (by omega)]

theorem percentOf_eq (count percent : ℤ) :
    percentOf (.int count) (.int percent) =
      if |sizedPart count percent| < limit then .ok (max 1 ⌊sizedPart count percent⌋) else .error .tooLarge := by
  have hunfold : percentOf (.int count) (.int percent) = (do
      let part ← Number.quotient (count * percent) 100
      return max 1 (← Number.floorFloat part)) := rfl
  rw [hunfold]
  split
  · next small =>
      obtain ⟨x, hx, hdenotes⟩ := Binary64.quotient_denotes (count * percent) (by decide) small
      rw [hx]
      show (do return max 1 (← Number.floorFloat x)) = _
      rw [hdenotes.floorFloat]
      rfl
  · next large =>
      rw [Binary64.quotient_eq_error (count * percent) (by decide) (not_lt.1 large)]
      rfl

section

variable {d : Decision} {percent : ℤ} (sizes : d.Sizes percent) (finite : (Number.int percent).Finite)
include sizes finite

/-- The quantity of a decision with a size, for which nothing is drawn. -/
theorem quantity_of_sizes (side : Side) (balance price shares : ℤ) (random : RandomSource) :
    quantity d side balance price shares random =
      (percentOf (.int (sizeCount side balance price shares)) (.int percent), random) := by
  have hsize : finiteNumber? (d.parameter "sizePct") = .ok (some (.int percent)) := by
    rw [sizes]
    exact finiteNumber?_of_finite finite
  unfold quantity
  rw [hsize]
  dsimp only
  rw [sizeBase_eq]
  rfl

end

/-- A decision that takes the current price draws nothing for it. -/
theorem limitPrice_of_atMarket {d : Decision} (market : d.AtMarket) {side : Side} {preset? : Option String}
    {price : ℤ} {random : RandomSource} : limitPrice d side preset? price random = (.ok price, random) := by
  obtain ⟨value?, hvalue⟩ := market.readable
  unfold limitPrice
  rw [hvalue, market.kind]
  rfl

/-- A percentage of at most a hundred has a float. -/
theorem finite_percent {percent : ℤ} (nonneg : 0 ≤ percent) (most : percent ≤ 100) :
    (Number.int percent).Finite := by
  have hexact : rounded (percent : ℚ) = percent :=
    Binary64.rounded_of_representable (Binary64.representable_intCast (abs_le.2 (by omega)))
  have hsmall : |(percent : ℚ)| ≤ 2 ^ 7 := by
    rw [abs_of_nonneg (by exact_mod_cast nonneg)]
    have : (percent : ℚ) ≤ 100 := by exact_mod_cast most
    norm_num
    linarith
  refine (Binary64.isFinite_int_iff percent).2 ?_
  rw [hexact]
  exact hsmall.trans_lt (Binary64.two_pow_lt_limit (by decide))

/-! ## Whether the order is placed -/

/-- A part of at most the whole is not rounded up past it, unless it is the whole. -/
theorem floor_sizedPart_le_iff {count percent : ℤ} (positive : 1 ≤ count) (nonneg : 0 ≤ percent)
    (most : percent ≤ 100) :
    max 1 ⌊sizedPart count percent⌋ ≤ count ↔ percent = 100 → ⌊rounded (count : ℚ)⌋ ≤ count := by
  by_cases hall : percent = 100
  · have hwhole : sizedPart count percent = rounded count := by
      rw [sizedPart, hall]
      push_cast
      rw [mul_div_assoc, div_self (by norm_num), mul_one]
    rw [hwhole]
    constructor
    · intro h _
      exact (le_max_right _ _).trans h
    · intro h
      exact max_le positive (h hall)
  · have hcount : (1 : ℚ) ≤ count := by exact_mod_cast positive
    have hpercent : (percent : ℚ) ≤ 99 := by exact_mod_cast (by omega : percent ≤ 99)
    have hpercent' : (0 : ℚ) ≤ percent := by exact_mod_cast nonneg
    have hpart : ((count * percent : ℤ) : ℚ) / (100 : ℤ) ≤ count * (99 / 100) := by
      push_cast
      rw [mul_div_assoc]
      exact mul_le_mul_of_nonneg_left (by linarith) (by linarith)
    have hnonneg : (0 : ℚ) ≤ ((count * percent : ℤ) : ℚ) / (100 : ℤ) := by positivity
    -- What is left of the number is more than the error.
    have herror := Binary64.abs_rounded_sub_le_add (((count * percent : ℤ) : ℚ) / (100 : ℤ))
    rw [abs_of_nonneg hnonneg] at herror
    have hbelow : sizedPart count percent ≤ count := by
      have := (abs_le.1 herror).2
      unfold sizedPart
      norm_num at this ⊢
      norm_num at hpart
      linarith
    have hfloor : ⌊sizedPart count percent⌋ ≤ count := by
      have := Int.floor_le_floor hbelow
      rwa [Int.floor_intCast] at this
    constructor
    · intro _ h
      exact absurd h hall
    · intro _
      exact max_le positive hfloor

end Terms

namespace Pair

section

variable {pair : Pair ℤ} {d : Decision} {u : TradeState ℤ} {side : Side} {quantity price : ℤ}
  {drawn left : RandomSource}

/-- A trade whose terms can be worked out places what they say. -/
theorem trade_eq_place (hquantity : Terms.quantity d side (u.balance pair.bot.id) pair.price.current pair.shares
      u.random = (.ok quantity, drawn))
    (hprice : Terms.limitPrice d side pair.bot.preset? pair.price.current drawn = (.ok price, left))
    {o : NewOrder ℤ} {t : TradeState ℤ} :
    pair.trade d side u = (.ok (some o), t) ↔
      pair.place side price quantity { u with random := left } = .ok (some o, t) := by
  unfold trade
  simp only [hquantity, hprice]
  rcases pair.place side price quantity { u with random := left } with fault | ⟨o?, s⟩ <;> simp

theorem place_buy_iff : (∃ o t, pair.place .buy price quantity u = .ok (some o, t)) ↔
    max 1 price * quantity ≤ u.balance pair.bot.id := by
  simp only [place_int, placeBuy_int, newOrder]
  split <;> simp_all

theorem place_sell_iff : (∃ o t, pair.place .sell price quantity u = .ok (some o, t)) ↔
    quantity ≤ pair.shares := by
  simp only [place_int, placeSell_int, newOrder]
  split <;> simp_all

end

section

variable {pair : Pair ℤ} {d : Decision} {u : TradeState ℤ} {percent : ℤ} (sizes : d.Sizes percent)
  (nonneg : 0 ≤ percent) (most : percent ≤ 100)
include sizes nonneg most

/-- A trade with a size and a price places the quantity that is worked out, unless it is too large. -/
theorem trade_of_sizes {side : Side} {count price : ℤ} {left : RandomSource}
    (hcount : Terms.sizeCount side (u.balance pair.bot.id) pair.price.current pair.shares = count)
    (hprice : Terms.limitPrice d side pair.bot.preset? pair.price.current u.random = (.ok price, left)) :
    (∃ o t, pair.trade d side u = (.ok (some o), t)) ↔
      |Terms.sizedPart count percent| < limit ∧ ∃ o t,
        pair.place side price (max 1 ⌊Terms.sizedPart count percent⌋) { u with random := left } =
          .ok (some o, t) := by
  have hquantity := Terms.quantity_of_sizes sizes (Terms.finite_percent nonneg most) side
    (u.balance pair.bot.id) pair.price.current pair.shares u.random
  rw [Terms.percentOf_eq, hcount] at hquantity
  split at hquantity
  · next small => simp only [trade_eq_place hquantity hprice, small, true_and]
  · next large =>
      have hfault : pair.trade d side u = (.error .tooLarge, { u with random := u.random }) := by
        unfold trade
        simp only [hquantity]
      simp [hfault, large]

/-- An order to buy at the current price is placed if and only if the quantity can be worked out and, where
all that the money buys is asked for, is not rounded up. -/
theorem trade_buy_iff (market : d.AtMarket) (positive : 1 ≤ pair.price.current)
    (affordable : pair.price.current ≤ u.balance pair.bot.id) {count : ℤ}
    (hcount : u.balance pair.bot.id / pair.price.current = count) :
    (∃ o t, pair.trade d .buy u = (.ok (some o), t)) ↔
      |Terms.sizedPart count percent| < limit ∧ (percent = 100 → ⌊rounded (count : ℚ)⌋ ≤ count) := by
  have hprice : max 1 pair.price.current = pair.price.current := max_eq_right positive
  have hpositive : 1 ≤ count := by
    rw [← hcount, Int.le_ediv_iff_mul_le (by omega), one_mul]
    exact affordable
  have hbalance (left : RandomSource) :
      TradeState.balance { u with random := left } pair.bot.id = u.balance pair.bot.id := rfl
  rw [trade_of_sizes sizes nonneg most (by rw [Terms.sizeCount, hprice, hcount])
    (Terms.limitPrice_of_atMarket market), place_buy_iff, hbalance, hprice,
    mul_comm, ← Int.le_ediv_iff_mul_le (by omega), hcount, Terms.floor_sizedPart_le_iff hpositive nonneg most]

/-- An order to sell is placed if and only if the quantity can be worked out and, where all shares are asked
for, is not rounded up. -/
theorem trade_sell_iff (held : 1 ≤ pair.shares) {price : ℤ} {left : RandomSource}
    (hprice : Terms.limitPrice d .sell pair.bot.preset? pair.price.current u.random = (.ok price, left)) :
    (∃ o t, pair.trade d .sell u = (.ok (some o), t)) ↔
      |Terms.sizedPart pair.shares percent| < limit ∧
        (percent = 100 → ⌊rounded (pair.shares : ℚ)⌋ ≤ pair.shares) := by
  have hcount : Terms.sizeCount .sell (u.balance pair.bot.id) pair.price.current pair.shares = pair.shares := rfl
  rw [trade_of_sizes sizes nonneg most hcount hprice, place_sell_iff,
    Terms.floor_sizedPart_le_iff held nonneg most]

end

end Pair

/-! ## Exact sizes -/

namespace Terms

/-- A decision sizes a number of shares exactly: whatever gives this number, its quantity is the exact part,
rounded down, but at least one, and nothing is drawn for it. Where there are any shares at all, an order to buy
at the current price is then placed, and so is one to sell at any price that can be worked out. -/
structure SizesExactly (d : Decision) (percent count : ℤ) : Prop where
  resolved : ∀ side balance price shares random, sizeCount side balance price shares = count →
    quantity d side balance price shares random = (.ok (exactQuantity count percent), random)
  bought : ∀ (pair : Pair ℤ) u, d.AtMarket → 1 ≤ pair.price.current →
    pair.price.current ≤ u.balance pair.bot.id → u.balance pair.bot.id / pair.price.current = count →
    ∃ o t, pair.trade d .buy u = (.ok (some o), t)
  sold : ∀ (pair : Pair ℤ) u price left, 1 ≤ pair.shares → pair.shares = count →
    limitPrice d .sell pair.bot.preset? pair.price.current u.random = (.ok price, left) →
    ∃ o t, pair.trade d .sell u = (.ok (some o), t)

variable {d : Decision} {percent : ℤ} (sizes : d.Sizes percent) (nonneg : 0 ≤ percent) (most : percent ≤ 100)
include sizes nonneg most

/-- It is enough that the quantity that is worked out is the exact one: then it is at most the whole. -/
theorem sizesExactly_iff_quantity (count : ℤ) :
    SizesExactly d percent count ↔
      |sizedPart count percent| < limit ∧ max 1 ⌊sizedPart count percent⌋ = exactQuantity count percent := by
  constructor
  · intro exact
    have hresolved := exact.resolved .sell 0 0 count (.script {}) rfl
    rw [quantity_of_sizes sizes (finite_percent nonneg most), percentOf_eq] at hresolved
    have hquantity := (Prod.mk.inj hresolved).1
    split at hquantity
    · next small => exact ⟨small, Except.ok.inj hquantity⟩
    · cases hquantity
  · rintro ⟨small, hexact⟩
    -- The exact quantity is never more than the whole, so what equals it fits.
    have hfits (positive : 1 ≤ count) : percent = 100 → ⌊rounded (count : ℚ)⌋ ≤ count := by
      rw [← floor_sizedPart_le_iff positive nonneg most, hexact]
      refine max_le positive (Int.ediv_le_of_le_mul (by decide) ?_)
      exact mul_le_mul_of_nonneg_left most (by omega)
    constructor
    · rintro side balance price shares random rfl
      rw [quantity_of_sizes sizes (finite_percent nonneg most), percentOf_eq, if_pos small, hexact]
    · intro pair u market positive affordable hcount
      have hpositive : 1 ≤ count := by
        rw [← hcount, Int.le_ediv_iff_mul_le (by omega), one_mul]
        exact affordable
      exact (Pair.trade_buy_iff sizes nonneg most market positive affordable hcount).2 ⟨small, hfits hpositive⟩
    · rintro pair u price left held rfl hprice
      exact (Pair.trade_sell_iff sizes nonneg most held hprice).2 ⟨small, hfits held⟩

/-- A decision sizes a number of shares exactly if and only if its part is not too large, and rounding it
reaches the same whole numbers above one. -/
theorem sizesExactly_iff (count : ℤ) :
    SizesExactly d percent count ↔ |sizedPart count percent| < limit ∧
      ∀ k : ℤ, 1 < k → (k ≤ sizedPart count percent ↔ k * 100 ≤ count * percent) := by
  have hlevel (k : ℤ) : (k ≤ ⌊sizedPart count percent⌋ ↔ k ≤ count * percent / 100) ↔
      (k ≤ sizedPart count percent ↔ k * 100 ≤ count * percent) := by
    rw [Int.le_floor, Int.le_ediv_iff_mul_le (by decide)]
  rw [sizesExactly_iff_quantity sizes nonneg most, exactQuantity, Binary64.max_eq_max_iff]
  simp only [hlevel]

/-- As long as its product with the percentage stays below 2⁵³, a number of shares is sized exactly. -/
theorem sizesExactly_of_moderate {count : ℤ} (moderate : |count * percent| + 100 ≤ 2 ^ 53) :
    SizesExactly d percent count := by
  have hrepresentable : Binary64.Representable ((count * percent : ℤ) : ℚ) :=
    Binary64.representable_intCast (by omega)
  have hpart : |((count * percent : ℤ) : ℚ) / (100 : ℤ)| ≤ 2 ^ 53 := by
    have h : |((count * percent : ℤ) : ℚ)| ≤ 2 ^ 53 := by exact_mod_cast (by omega : |count * percent| ≤ 2 ^ 53)
    rw [abs_div, div_le_iff₀ (by norm_num)]
    norm_num at h ⊢
    linarith
  have hsmall : |sizedPart count percent| < limit :=
    (Binary64.abs_rounded_le (Binary64.representable_two_pow (le_refl 53)) hpart).trans_lt
      (Binary64.two_pow_lt_limit (by decide))
  refine (sizesExactly_iff_quantity sizes nonneg most count).2 ⟨hsmall, ?_⟩
  by_cases hnegative : count * percent < 0
  · -- Less than nothing is raised to one, with or without rounding.
    have hrounded : sizedPart count percent ≤ 0 :=
      Binary64.rounded_nonpos (div_nonpos_of_nonpos_of_nonneg (by exact_mod_cast hnegative.le) (by norm_num))
    have hfloor : ⌊sizedPart count percent⌋ ≤ 0 := by exact_mod_cast (Int.floor_le _).trans hrounded
    have hexact : count * percent / 100 ≤ 0 := Int.ediv_nonpos_of_nonpos_of_neg hnegative.le (by decide)
    rw [exactQuantity, max_eq_left (by omega), max_eq_left (by omega)]
  · have hnonneg : 0 ≤ count * percent := not_lt.1 hnegative
    rw [abs_of_nonneg hnonneg] at moderate
    have hfloor := Binary64.floor_rounded_div hrepresentable (by exact_mod_cast hnonneg) (by decide : (0 : ℤ) < 100)
      (by exact_mod_cast moderate)
    rw [sizedPart, hfloor, exactQuantity]
    exact_mod_cast congrArg (max 1) (Rat.floor_intCast_div_natCast (count * percent) 100)

omit sizes nonneg most

/-! ## Two sizes -/

/-- A decision to sell so many percent of the shares. -/
def sellPart (percent : ℤ) : Decision where
  action := .sell
  parameters := [("sizePct", .int percent)]

theorem sizes_sellPart (percent : ℤ) : (sellPart percent).Sizes percent := rfl

/-- Half of seven shares are three shares and a half. -/
theorem sizesExactly_sellPart_half :
    (sellPart 50).Sizes 50 ∧ ((0 : ℤ) ≤ 50 ∧ (50 : ℤ) ≤ 100) ∧ exactQuantity 7 50 = 3 ∧
      SizesExactly (sellPart 50) 50 7 := by
  have hpart : sizedPart 7 50 = 7 / 2 := by
    have hhalves : (((7 * 50 : ℤ) : ℚ) / (100 : ℤ)) = 7 / 2 := by norm_num
    rw [sizedPart, hhalves]
    exact Binary64.rounded_of_representable ⟨7, -1, by decide, by decide, by norm_num⟩
  have hsmall : |sizedPart 7 50| < limit := by
    refine lt_of_le_of_lt ?_ (Binary64.two_pow_lt_limit (n := 2) (by decide))
    rw [hpart, abs_of_pos] <;> norm_num
  have hreached (k : ℤ) : k ≤ sizedPart 7 50 ↔ k * 100 ≤ 7 * 50 := by
    have hhalves : (k : ℚ) ≤ 7 / 2 ↔ k * 2 ≤ 7 := by
      rw [le_div_iff₀ two_pos]
      exact_mod_cast Iff.rfl
    rw [hpart, hhalves]
    omega
  refine ⟨sizes_sellPart 50, by decide, by decide, ?_⟩
  exact (sizesExactly_iff (sizes_sellPart 50) (by decide) (by decide) 7).2 ⟨hsmall, fun k _ => hreached k⟩

/-- All of 2⁵³ + 3 shares are rounded up to one share more, and the order is not placed. -/
theorem sellPart_all_oversized :
    (∀ balance price random, quantity (sellPart 100) .sell balance price (9007199254740995 : ℤ) random =
      (.ok 9007199254740996, random)) ∧
    exactQuantity 9007199254740995 100 = 9007199254740995 ∧
    (∀ (pair : Pair ℤ) u, pair.shares = 9007199254740995 →
      ¬∃ o t, pair.trade (sellPart 100) .sell u = (.ok (some o), t)) ∧
    ¬SizesExactly (sellPart 100) 100 9007199254740995 := by
  have hquantity (balance price : ℤ) (random : RandomSource) :
      quantity (sellPart 100) .sell balance price (9007199254740995 : ℤ) random =
        (.ok 9007199254740996, random) := by
    have hpart : percentOf (.int 9007199254740995) (.int 100) = .ok 9007199254740996 := by decide +kernel
    rw [quantity_of_sizes (sizes_sellPart 100) (finite_percent (by decide) (by decide)), sizeCount, hpart]
  refine ⟨hquantity, by decide, ?_, ?_⟩
  · rintro pair u hshares ⟨o, t, htrade⟩
    cases Pair.trade_creates .sell rfl htrade with
    | bought terms _ => exact absurd terms.action (by decide)
    | sold terms held =>
        obtain ⟨drawn, hterms, -⟩ := terms.resolved
        rw [hshares, hquantity] at hterms
        cases hterms
        rw [hshares] at held
        omega
  · intro exact
    have hresolved := exact.resolved .sell 0 0 9007199254740995 (.script {}) rfl
    rw [hquantity] at hresolved
    cases hresolved

end Terms

end RuleTrader
