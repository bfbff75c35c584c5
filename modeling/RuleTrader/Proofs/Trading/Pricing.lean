import RuleTrader.Proofs.Number.Sum
import RuleTrader.Proofs.Trading.Draws

/-!
# Prices at a percentage

A decision may move the current price by a number of percent. The price that is worked out for it goes
through four roundings: the hundredth part of the percentage, one more than that, the price itself and their
product (`movedPrice`). Only then is it rounded down to whole cents. So the order has the exact price,
rounded down once, exactly when nothing on the way is too large and the product reaches the same whole cents
as the exact price does (`movesExactly_iff`).

For prices of a moderate size the four errors together are less than a hundredth of a cent. The exact price
is a whole number of hundredths, so only a price of whole cents can be missed, and it is one cent short then
(`movedByPercent_of_moderate`). It never is if the percentage is a multiple of 25 (`movedByPercent_exact`).
-/

namespace RuleTrader

open Binary64 (Denotes Nearest rounded limit)

/-- A decision that moves the price by a whole number of percent. -/
structure Decision.OffsetsBy (d : Decision) (percent : ℤ) : Prop where
  kind : d.parameter "limitPriceType" = .text "offsetPct"
  value : d.parameter "limitPriceValue" = .number (.int percent)

namespace Terms

/-- The price that is worked out, before it is rounded down. -/
def movedPrice (price percent : ℤ) : ℚ :=
  rounded (rounded price * rounded (1 + rounded (percent / 100)))

/-- The exact price, rounded down. -/
def exactPrice (price percent : ℤ) : ℤ := price * (100 + percent) / 100

/-! ## The price that is worked out -/

/-- Half and a quarter of the least number that is too large. -/
theorem exists_quarter_limit :
    ∃ b, Binary64.Representable b ∧ Binary64.Representable (2 * b) ∧ 1 ≤ b ∧ limit = 4 * b := by
  refine ⟨2 ^ (1022 : ℤ), Binary64.representable_two_zpow (by decide), ?_,
    one_le_zpow₀ one_le_two (by decide), ?_⟩
  · rw [← zpow_one_add₀ two_ne_zero]
    exact Binary64.representable_two_zpow (by decide)
  · rw [Binary64.limit_eq, show (1024 : ℤ) = 2 + 1022 from rfl, zpow_add₀ two_ne_zero]
    norm_num only

/-- A percentage that has a float leaves its hundredth part, and one more than that, small enough. -/
theorem factor_small {percent : ℤ} (finite : (Number.int percent).Finite) :
    |rounded ((percent : ℚ) / (100 : ℤ))| < limit ∧ |rounded (1 + rounded ((percent : ℚ) / 100))| < limit := by
  have hpercent := Binary64.abs_lt_limit_of_rounded ((Binary64.isFinite_int_iff percent).1 finite)
  obtain ⟨b, hb, hdouble, hone, hlimit⟩ := exists_quarter_limit
  rw [hlimit] at hpercent ⊢
  have hpart : |rounded ((percent : ℚ) / 100)| ≤ b := by
    refine Binary64.abs_rounded_le hb ?_
    rw [abs_div, abs_of_pos (by norm_num : (0 : ℚ) < 100), div_le_iff₀ (by norm_num)]
    linarith
  have hfactor : |rounded (1 + rounded ((percent : ℚ) / 100))| ≤ 2 * b := by
    refine Binary64.abs_rounded_le hdouble ?_
    calc
      |1 + rounded ((percent : ℚ) / 100)| ≤ |1| + |rounded ((percent : ℚ) / 100)| := abs_add_le _ _
      _ ≤ 2 * b := by
        rw [abs_one]
        linarith
  constructor
  · push_cast
    linarith
  · linarith

/-- With a price and a percentage that have floats the price that is worked out is rounded down, unless it is
too large. -/
theorem movedByPercent_eq {price percent : ℤ} (hprice : (Number.int price).Finite)
    (hpercent : (Number.int percent).Finite) :
    movedByPercent price (.int percent) =
      if |movedPrice price percent| < limit then .ok ⌊movedPrice price percent⌋ else .error .infinite := by
  obtain ⟨hquotient, hfactor⟩ := factor_small hpercent
  obtain ⟨x, hx, hdenotes⟩ := Binary64.quotient_denotes percent (by decide) hquotient
  obtain ⟨y, hy, hdenotesPrice⟩ := Binary64.floatOfInt_denotes ((Binary64.isFinite_int_iff price).1 hprice)
  push_cast at hdenotes
  have hproduct := hdenotesPrice.mul_nearest ((Binary64.denotes_one.add_nearest hdenotes).small hfactor)
  show (do
    let quotient ← Number.quotient percent 100
    Number.floorFloat ((← Number.floatOfInt price) * (1 + quotient))) = _
  rw [hx]
  show (do Number.floorFloat ((← Number.floatOfInt price) * (1 + x))) = _
  rw [hy]
  exact hproduct.floorFloat

/-- A price that has no float cannot be moved. -/
theorem movedByPercent_eq_error {price percent : ℤ} (hprice : ¬(Number.int price).Finite)
    (hpercent : (Number.int percent).Finite) :
    movedByPercent price (.int percent) = .error .tooLarge := by
  obtain ⟨x, hx, -⟩ := Binary64.quotient_denotes percent (by decide) (factor_small hpercent).1
  have hlarge := not_lt.1 ((Binary64.isFinite_int_iff price).not.1 hprice)
  show (do
    let quotient ← Number.quotient percent 100
    Number.floorFloat ((← Number.floatOfInt price) * (1 + quotient))) = _
  rw [hx]
  show (do Number.floorFloat ((← Number.floatOfInt price) * (1 + x))) = _
  rw [Binary64.floatOfInt_eq_error hlarge]
  rfl

/-! ## The price of the order -/

section

variable {d : Decision} {price percent : ℤ} {side : Side} {preset? : Option String} {random : RandomSource}

/-- A decision that moves the price gives the price that is worked out, and draws nothing. -/
theorem limitPrice_of_offsets (h : d.OffsetsBy percent) (finite : (Number.int percent).Finite) :
    limitPrice d side preset? price random = (movedByPercent price (.int percent), random) := by
  have hnamed : namedPrice? (.text "offsetPct") (some (.int percent)) price =
      some (movedByPercent price (.int percent)) := by
    show some (id <$> movedByPercent price (.int percent)) = _
    rw [id_map]
  unfold limitPrice
  rw [h.kind, h.value, finiteNumber?_of_finite finite]
  dsimp only
  rw [hnamed]

/-- A percentage that has no float is refused. -/
theorem limitPrice_of_large_offset (h : d.OffsetsBy percent) (infinite : ¬(Number.int percent).Finite) :
    limitPrice d side preset? price random = (.error .tooLarge, random) := by
  have hlarge := not_lt.1 ((Binary64.isFinite_int_iff percent).not.1 infinite)
  have hvalue : finiteNumber? (.number (.int percent)) = .error .tooLarge := by
    show (do
      if ← (fun _ => true) <$> Number.floatOfInt percent then return some (Number.int percent)
      else return none) = _
    rw [Binary64.floatOfInt_eq_error hlarge]
    rfl
  unfold limitPrice
  rw [h.value, hvalue]

/-- An order that was placed has the price of its decision, raised to one. -/
theorem limitPrice_of_trade {pair : Pair ℤ} {s t : TradeState ℤ} {o : NewOrder ℤ}
    (h : pair.trade d side s = (.ok (some o), t)) :
    ∃ price random random', limitPrice d side pair.bot.preset? pair.price.current random = (.ok price, random') ∧
      o.limitPrice = max 1 price := by
  unfold Pair.trade at h
  dsimp only at h
  split at h
  · cases h
  · next quantity drawn hquantity =>
      split at h
      · cases h
      · next price left hprice =>
          refine ⟨price, drawn, left, hprice, ?_⟩
          rw [Pair.place_int] at h
          cases side <;> simp only [Pair.placeBuy_int, Pair.placeSell_int] at h <;> split_ifs at h <;> cases h <;> rfl

end

/-- A decision moves a price exactly: it gives the exact price, rounded down, whatever else there is, and
draws nothing; and every order that it places has this price, raised to one. -/
structure MovesExactly (d : Decision) (price percent : ℤ) : Prop where
  resolved : ∀ side preset? random,
    limitPrice d side preset? price random = (.ok (exactPrice price percent), random)
  placed : ∀ (pair : Pair ℤ) side s o t, pair.price.current = price →
    pair.trade d side s = (.ok (some o), t) → o.limitPrice = max 1 (exactPrice price percent)

theorem MovesExactly.of_resolved {d : Decision} {price percent : ℤ}
    (h : ∀ side preset? random, limitPrice d side preset? price random =
      (.ok (exactPrice price percent), random)) : MovesExactly d price percent where
  resolved := h
  placed := by
    rintro pair side s o t rfl htrade
    obtain ⟨price, random, random', hprice, hlimit⟩ := limitPrice_of_trade htrade
    rw [h] at hprice
    cases hprice
    exact hlimit

/-- A decision that moves the price by a whole number of percent moves it exactly if and only if the
percentage and the price have floats, their product is not too large, and it reaches the same whole cents as
the exact price. -/
theorem movesExactly_iff {d : Decision} {percent : ℤ} (h : d.OffsetsBy percent) (price : ℤ) :
    MovesExactly d price percent ↔
      (Number.int percent).Finite ∧ (Number.int price).Finite ∧ |movedPrice price percent| < limit ∧
        ∀ k : ℤ, k ≤ movedPrice price percent ↔ k * 100 ≤ price * (100 + percent) := by
  rw [← Binary64.floor_eq_ediv_iff (by decide)]
  constructor
  · intro exact
    have hresolved := exact.resolved .buy none (.script {})
    by_cases hpercent : (Number.int percent).Finite
    · rw [limitPrice_of_offsets h hpercent] at hresolved
      have hmoved := (Prod.mk.inj hresolved).1
      by_cases hprice : (Number.int price).Finite
      · rw [movedByPercent_eq hprice hpercent] at hmoved
        split at hmoved
        · next small => exact ⟨hpercent, hprice, small, Except.ok.inj hmoved⟩
        · cases hmoved
      · rw [movedByPercent_eq_error hprice hpercent] at hmoved
        cases hmoved
    · rw [limitPrice_of_large_offset h hpercent] at hresolved
      cases hresolved
  · rintro ⟨hpercent, hprice, small, hfloor⟩
    refine .of_resolved fun side preset? random => ?_
    rw [limitPrice_of_offsets h hpercent, movedByPercent_eq hprice hpercent, if_pos small, hfloor, exactPrice]

/-! ## Moderate prices -/

/-- The factor that a price is multiplied by is off by little more than its last place. -/
theorem abs_factor_sub_le (percent : ℤ) :
    |rounded (1 + rounded ((percent : ℚ) / 100)) - (1 + percent / 100)| ≤
      (2 + 3 * |(percent : ℚ) / 100|) / 2 ^ 53 := by
  have hpart := Binary64.abs_rounded_sub_le_add ((percent : ℚ) / 100)
  have hfactor := Binary64.abs_rounded_sub_le_add (1 + rounded ((percent : ℚ) / 100))
  generalize (percent : ℚ) / 100 = exact at *
  generalize rounded exact = part at *
  generalize rounded (1 + part) = factor at *
  have hsum : |1 + part| ≤ 1 + |exact| + |part - exact| := by
    calc
      |1 + part| = |1 + exact + (part - exact)| := by ring_nf
      _ ≤ |1| + |exact| + |part - exact| := abs_add_three _ _ _
      _ = 1 + |exact| + |part - exact| := by rw [abs_one]
  have htotal : |factor - (1 + exact)| ≤ |factor - (1 + part)| + |part - exact| := by
    calc
      |factor - (1 + exact)| = |factor - (1 + part) + (part - exact)| := by ring_nf
      _ ≤ |factor - (1 + part)| + |part - exact| := abs_add_le _ _
  have hnonneg := abs_nonneg exact
  norm_num at hpart hfactor ⊢
  linarith

section

variable {price percent : ℤ} (nonneg : 0 ≤ price) (moderate : price * (200 + 3 * |percent|) ≤ 2 ^ 52)
include nonneg moderate

theorem price_le_of_moderate : price ≤ 2 ^ 52 := by
  nlinarith [abs_nonneg percent]

theorem rounded_of_moderate : rounded (price : ℚ) = price := by
  refine Binary64.rounded_of_representable (Binary64.representable_intCast ?_)
  rw [abs_of_nonneg nonneg]
  exact (price_le_of_moderate nonneg moderate).trans (by decide)

/-- The price that is worked out is right to a hundredth of a cent. -/
theorem abs_movedPrice_sub_lt :
    |movedPrice price percent - (price * (100 + percent) : ℤ) / (100 : ℤ)| < 1 / (100 : ℤ) := by
  have hprice : (0 : ℚ) ≤ price := by exact_mod_cast nonneg
  have hmoved : (((price * (100 + percent) : ℤ) : ℚ) / (100 : ℤ)) = price * (1 + percent / 100) := by
    push_cast
    ring
  have hbound : (price : ℚ) * 200 + 300 * (price * |(percent : ℚ) / 100|) ≤ 2 ^ 52 := by
    have h : (price : ℚ) * (200 + 3 * |(percent : ℚ)|) ≤ 2 ^ 52 := by exact_mod_cast moderate
    rw [abs_div, abs_of_pos (by norm_num : (0 : ℚ) < 100)]
    linarith
  have hproductNonneg : 0 ≤ price * |(percent : ℚ) / 100| := by positivity
  have hfactor := mul_le_mul_of_nonneg_left (abs_factor_sub_le percent) hprice
  have hresult := Binary64.abs_rounded_sub_le_add (price * rounded (1 + rounded ((percent : ℚ) / 100)))
  rw [movedPrice, rounded_of_moderate nonneg moderate, hmoved]
  rw [abs_mul, abs_of_nonneg hprice] at hresult
  -- The roundings are known by their errors only, and the errors enter linearly.
  generalize rounded (1 + rounded ((percent : ℚ) / 100)) = factor at *
  generalize rounded (price * factor) = result at *
  generalize (percent : ℚ) / 100 = exact at *
  have hsize : price * |factor| ≤ price + price * |exact| + price * |factor - (1 + exact)| := by
    have htriangle : |factor| ≤ 1 + |exact| + |factor - (1 + exact)| := by
      calc
        |factor| = |1 + exact + (factor - (1 + exact))| := by ring_nf
        _ ≤ |1| + |exact| + |factor - (1 + exact)| := abs_add_three _ _ _
        _ = 1 + |exact| + |factor - (1 + exact)| := by rw [abs_one]
    linarith [mul_le_mul_of_nonneg_left htriangle hprice]
  have htotal : |result - price * (1 + exact)| ≤ |result - price * factor| + price * |factor - (1 + exact)| := by
    calc
      |result - price * (1 + exact)| = |(result - price * factor) + price * (factor - (1 + exact))| := by ring_nf
      _ ≤ |result - price * factor| + |price * (factor - (1 + exact))| := abs_add_le _ _
      _ = |result - price * factor| + price * |factor - (1 + exact)| := by rw [abs_mul, abs_of_nonneg hprice]
  norm_num at hfactor hresult ⊢
  linarith

/-- Nothing at such a price is too large. -/
theorem moderate_small :
    (Number.int price).Finite ∧ |movedPrice price percent| < limit := by
  have hlimit : (2 : ℚ) ^ 60 < limit := Binary64.two_pow_lt_limit (by decide)
  have hproduct : |price * (100 + percent)| ≤ 2 ^ 52 := by
    have hfactor : |100 + percent| ≤ 200 + 3 * |percent| := by
      have := abs_add_le 100 percent
      have := abs_nonneg percent
      rw [abs_of_pos (by decide : (0 : ℤ) < 100)] at *
      omega
    calc
      |price * (100 + percent)| = price * |100 + percent| := by rw [abs_mul, abs_of_nonneg nonneg]
      _ ≤ price * (200 + 3 * |percent|) := mul_le_mul_of_nonneg_left hfactor nonneg
      _ ≤ 2 ^ 52 := moderate
  constructor
  · refine (Binary64.isFinite_int_iff price).2 (lt_of_le_of_lt ?_ hlimit)
    refine (Binary64.abs_rounded_le (Binary64.representable_two_pow (n := 52) (by decide)) ?_).trans (by norm_num)
    rw [abs_of_nonneg (by exact_mod_cast nonneg)]
    exact_mod_cast price_le_of_moderate nonneg moderate
  · have hnear := abs_movedPrice_sub_lt nonneg moderate
    have hproduct' : |((price * (100 + percent) : ℤ) : ℚ)| ≤ 2 ^ 52 := by exact_mod_cast hproduct
    have htriangle := abs_sub_abs_le_abs_sub (movedPrice price percent)
      ((price * (100 + percent) : ℤ) / (100 : ℤ))
    rw [abs_div] at htriangle
    norm_num at hnear htriangle hproduct' hlimit ⊢
    linarith

/-- A moderate price is exact, except that it is one cent short if the exact price is a whole number of cents
and the one that is worked out is less. -/
theorem movedByPercent_of_moderate (finite : (Number.int percent).Finite) :
    movedByPercent price (.int percent) = .ok (exactPrice price percent -
      if 100 ∣ price * percent ∧ movedPrice price percent < price * (100 + percent) / 100 then 1 else 0) := by
  obtain ⟨hprice, hsmall⟩ := moderate_small nonneg moderate
  have hfloor := Binary64.floor_eq_ediv_sub (by decide) (abs_movedPrice_sub_lt nonneg moderate)
  have hdivides : 100 ∣ price * (100 + percent) ↔ 100 ∣ price * percent := by
    rw [mul_add]
    exact dvd_add_right (dvd_mul_left 100 price)
  rw [movedByPercent_eq hprice finite, if_pos hsmall, hfloor, exactPrice]
  simp only [hdivides]
  push_cast
  rfl

omit nonneg moderate in
theorem rounded_quarters (n : ℤ) (h : |n| ≤ 2 ^ 53) : rounded ((n : ℚ) / 4) = n / 4 :=
  Binary64.rounded_of_representable ⟨n, -2, h, by decide, by norm_num; ring⟩

/-- The factor of a multiple of 25 percent is a number of quarters, and no rounding changes anything. -/
theorem movedPrice_of_quarters (quarters : 25 ∣ percent) :
    movedPrice price percent = price * (100 + percent) / 100 := by
  obtain ⟨k, rfl⟩ := quarters
  rcases nonneg.eq_or_lt with rfl | positive
  · simp [movedPrice]
  have hexact := rounded_of_moderate nonneg moderate
  rw [abs_mul, abs_of_pos (by decide : (0 : ℤ) < 25)] at moderate
  have hk := abs_le.1 (le_refl |k|)
  have hproduct : |price * (4 + k)| ≤ 2 ^ 53 := by
    have hfactor : |4 + k| ≤ 200 + 3 * (25 * |k|) := by
      rw [abs_le]
      omega
    calc
      |price * (4 + k)| = price * |4 + k| := by rw [abs_mul, abs_of_pos positive]
      _ ≤ price * (200 + 3 * (25 * |k|)) := mul_le_mul_of_nonneg_left hfactor nonneg
      _ ≤ 2 ^ 53 := moderate.trans (by norm_num)
  -- All numbers on the way are quarters of integers that a float can count.
  have hfactor : 200 + 3 * (25 * |k|) ≤ 2 ^ 52 :=
    (le_mul_of_one_le_left (by positivity) positive).trans moderate
  have hpart : rounded (((25 * k : ℤ) : ℚ) / 100) = k / 4 := by
    rw [← rounded_quarters k (by omega)]
    congr 1
    push_cast
    ring
  have hone : rounded (1 + (k : ℚ) / 4) = ((4 + k : ℤ) : ℚ) / 4 := by
    rw [← rounded_quarters (4 + k) (abs_le.2 (by omega))]
    congr 1
    push_cast
    ring
  rw [movedPrice, hexact, hpart, hone, ← mul_div_assoc, ← Int.cast_mul, rounded_quarters _ hproduct]
  push_cast
  ring

/-- A percentage that is a multiple of 25 is exact at a moderate price. -/
theorem movedByPercent_exact (finite : (Number.int percent).Finite) (quarters : 25 ∣ percent) :
    movedByPercent price (.int percent) = .ok (exactPrice price percent) := by
  rw [movedByPercent_of_moderate nonneg moderate finite, if_neg, sub_zero]
  rintro ⟨-, hshort⟩
  exact hshort.ne (movedPrice_of_quarters nonneg moderate quarters)

end

/-! ## Two prices -/

/-- A decision to buy at a price that is moved by so many percent. -/
def buyAt (percent : ℤ) : Decision where
  action := .buy
  parameters := [("limitPriceType", .text "offsetPct"), ("limitPriceValue", .int percent)]

theorem offsetsBy_buyAt (percent : ℤ) : (buyAt percent).OffsetsBy percent where
  kind := rfl
  value := rfl

/-- Ten percent more than 105 cents are 115 cents and a half. -/
theorem movesExactly_buyAt_ten :
    (buyAt 10).OffsetsBy 10 ∧ exactPrice 105 10 = 115 ∧ MovesExactly (buyAt 10) 105 10 := by
  have hfinite : (Number.int 10).isFinite = .ok true := by decide +kernel
  have hmoderate : (105 : ℤ) * (200 + 3 * |10|) ≤ 2 ^ 52 := by decide
  obtain ⟨hprice, hsmall⟩ := moderate_small (by decide) hmoderate
  have hfloor := Binary64.floor_eq_ediv_sub (by decide) (abs_movedPrice_sub_lt (by decide) hmoderate)
  rw [if_neg (by decide), sub_zero] at hfloor
  refine ⟨offsetsBy_buyAt 10, by decide, ?_⟩
  exact (movesExactly_iff (offsetsBy_buyAt 10) 105).2
    ⟨hfinite, hprice, hsmall, (Binary64.floor_eq_ediv_iff (by decide)).1 hfloor⟩

/-- Fifteen percent more than 100 cents are 115 cents, but the order is made out for 114: one and the float of
0.15 are less than 1.15. -/
theorem buyAt_fifteen_short :
    (∀ side preset? random, limitPrice (buyAt 15) side preset? (100 : ℤ) random = (.ok 114, random)) ∧
      exactPrice 100 15 = 115 ∧ ¬MovesExactly (buyAt 15) 100 15 := by
  have hfinite : (Number.int 15).isFinite = .ok true := by decide +kernel
  have hmoved : movedByPercent (100 : ℤ) (.int 15) = .ok 114 := by decide +kernel
  have hprice (side : Side) (preset? : Option String) (random : RandomSource) :
      limitPrice (buyAt 15) side preset? (100 : ℤ) random = (.ok 114, random) := by
    rw [limitPrice_of_offsets (offsetsBy_buyAt 15) hfinite, hmoved]
  refine ⟨hprice, by decide, ?_⟩
  intro exact
  have hresolved := exact.resolved .buy none (.script {})
  rw [hprice] at hresolved
  cases hresolved

end Terms

end RuleTrader
