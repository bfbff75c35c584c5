import RuleTrader.Market.Seconds
import RuleTrader.Proofs.Number.Arithmetic
import RuleTrader.Proofs.Rule.Grammar
import RuleTrader.Trading.Facts

/-!
# The age of an order

The age of an order is worked out in three roundings: the microseconds since it was placed are brought to
seconds, these to milliseconds, and these are divided by the tick interval. The last of them does no harm,
because a quotient that is just short of an integer is not rounded up to it (`orderAge_eq`). The first two
can: the milliseconds that they leave (`countedMillis`) may lie on the other side of a multiple of the tick
interval than the time that has passed. The age is the number of whole ticks exactly when they never do
(`ofOrder_age_iff`).

For an order that is younger than 2⁵² microseconds, which are some 142 years, only the multiples of the tick
interval themselves can go wrong, and the age is one tick short there (`orderAge_of_young`). It never is
with a tick interval of a multiple of 125 milliseconds (`orderAge_exact`).
-/

namespace RuleTrader

namespace PairFacts

open Binary64 (Denotes rounded limit)

/-- The milliseconds that a span of time counts as: its seconds are rounded, and so is a thousand times
them. -/
def countedMillis (span : ℤ) : ℚ := rounded (rounded (span / 1000000) * 1000)

/-- The whole ticks in a span of time, none in a negative one. -/
def wholeTicks (span : ℤ) (interval : ℤ) : ℤ := max 0 (span / (1000 * interval))

/-! ## Spans of time -/

/-- Times with a date lie within some nine thousand years from 1970. -/
theorem abs_le_of_hasDates {t : ℤ} (h : Seconds.hasDates (Seconds.yearOf t)) :
    |t| ≤ 2 ^ 38 * 1000000 := by
  have hyear : 1 ≤ Seconds.yearOf t ∧ Seconds.yearOf t ≤ 9999 := by
    simpa [Seconds.hasDates] using h
  have hday : Calendar.dayMicros = 86400000000 := rfl
  have hera : Calendar.eraDays = 146097 := rfl
  have hepoch : Calendar.epochDay = 719468 := rfl
  have hyearOfEra (n : ℕ) (hn : n < 146097) : Calendar.yearOfEra n ≤ 400 := by
    unfold Calendar.yearOfEra
    omega
  unfold Seconds.yearOf Calendar.dateOfDay Calendar.dateInEra at hyear
  dsimp only at hyear
  rw [hday, hera, hepoch] at hyear
  have hrest := hyearOfEra ((t / 86400000000 + 719468) % 146097).toNat (by omega)
  rw [abs_le]
  generalize Calendar.yearOfEra _ = year at hyear hrest
  split at hyear <;> constructor <;> omega

theorem abs_sub_le_of_hasDates {createdAt now : ℤ} (created : Seconds.hasDates (Seconds.yearOf createdAt))
    (current : Seconds.hasDates (Seconds.yearOf now)) : |now - createdAt| ≤ 2 ^ 40 * 1000000 := by
  have hcreated := abs_le.1 (abs_le_of_hasDates created)
  have hcurrent := abs_le.1 (abs_le_of_hasDates current)
  rw [abs_le]
  constructor <;> omega

/-! ## The counted milliseconds -/

section

variable {span : ℤ} (short : |span| ≤ 2 ^ 40 * 1000000)
include short

theorem abs_rounded_seconds_le : |rounded ((span : ℚ) / 1000000)| ≤ 2 ^ 40 := by
  refine Binary64.abs_rounded_le (Binary64.representable_two_pow (by decide)) ?_
  have h : |(span : ℚ)| ≤ 2 ^ 40 * 1000000 := by exact_mod_cast short
  rw [abs_div, abs_of_pos (by norm_num : (0 : ℚ) < 1000000), div_le_iff₀ (by norm_num)]
  exact h

theorem abs_countedMillis_le : |countedMillis span| ≤ 2 ^ 50 := by
  refine Binary64.abs_rounded_le (Binary64.representable_two_pow (by decide)) ?_
  have h := abs_rounded_seconds_le short
  rw [abs_mul, abs_of_pos (by norm_num : (0 : ℚ) < 1000)]
  norm_num at h ⊢
  linarith

/-- The product of the seconds and a thousand stands for the counted milliseconds. -/
theorem seconds_denotes :
    ∃ x, seconds span = .ok x ∧ Denotes (x * 1000) (countedMillis span) := by
  have hseconds : |rounded ((span : ℚ) / (1000000 : ℤ))| < limit := by
    push_cast
    exact (abs_rounded_seconds_le short).trans_lt (Binary64.two_pow_lt_limit (by decide))
  obtain ⟨x, hx, hdenotes⟩ := Binary64.quotient_denotes span (by decide) hseconds
  have hthousand : Denotes 1000 1000 :=
    ⟨⟨false, 8796093022208000, -43⟩, by decide +kernel, by norm_num [Dyadic.value, Dyadic.signed]⟩
  push_cast at hdenotes
  exact ⟨x, hx, hdenotes.mul hthousand
    ((abs_countedMillis_le short).trans_lt (Binary64.two_pow_lt_limit (by decide)))⟩

end

/-! ## The age -/

/-- Dividing by the rounded interval and rounding once more leave the whole ticks as they are. -/
theorem max_floor_rounded_div {q : ℚ} (hq : Binary64.Representable q) (short : q ≤ 2 ^ 50) {interval : ℤ}
    (positive : 0 < interval) :
    max 0 ⌊rounded (q / rounded interval)⌋ = max 0 ⌊q / interval⌋ := by
  have hinterval : (0 : ℚ) < interval := by exact_mod_cast positive
  have hrounded : 0 ≤ rounded interval := Binary64.rounded_nonneg hinterval.le
  by_cases hnegative : q < 0
  · have h1 : rounded (q / rounded interval) ≤ 0 :=
      Binary64.rounded_nonpos (div_nonpos_of_nonpos_of_nonneg hnegative.le hrounded)
    have h2 : q / interval ≤ 0 := div_nonpos_of_nonpos_of_nonneg hnegative.le hinterval.le
    rw [max_eq_left, max_eq_left]
    · exact_mod_cast (Int.floor_le _).trans h2
    · exact_mod_cast (Int.floor_le _).trans h1
  · have hnonneg : 0 ≤ q := not_lt.1 hnegative
    by_cases hlong : interval ≤ 2 ^ 52
    · have hexact : rounded interval = interval := by
        refine Binary64.rounded_of_representable (Binary64.representable_intCast ?_)
        rw [abs_of_pos positive]
        omega
      have hlong' : (interval : ℚ) ≤ 2 ^ 52 := by exact_mod_cast hlong
      rw [hexact, Binary64.floor_rounded_div hq hnonneg positive (by linarith)]
    · -- With so long an interval not even a quarter of a tick has passed.
      have hlong' : (2 : ℚ) ^ 52 ≤ interval := by exact_mod_cast (not_le.1 hlong).le
      have hlarge : (2 : ℚ) ^ 52 ≤ rounded interval :=
        Binary64.le_rounded (Binary64.representable_two_pow (by decide)) hlong'
      have hquarter {r : ℚ} (hr : 2 ^ 52 ≤ r) : q / r ≤ 1 / 4 := by
        rw [div_le_div_iff₀ (by linarith) (by norm_num)]
        linarith
      have hrep : Binary64.Representable (1 / 4) := ⟨1, -2, by decide, by decide, by norm_num⟩
      have h1 : rounded (q / rounded interval) ≤ 1 / 4 := Binary64.rounded_le hrep (hquarter hlarge)
      have hzero {r : ℚ} (hr : 0 ≤ r) (hr' : r ≤ 1 / 4) : ⌊r⌋ = 0 := by
        rw [Int.floor_eq_zero_iff]
        exact ⟨hr, by linarith⟩
      rw [hzero (Binary64.rounded_nonneg (div_nonneg hnonneg hrounded)) h1,
        hzero (div_nonneg hnonneg hinterval.le) (hquarter hlong')]

section

variable {createdAt now : ℤ} (short : |now - createdAt| ≤ 2 ^ 40 * 1000000) {interval : ℤ}
include short

/-- The age is the number of whole ticks in the counted milliseconds. -/
theorem orderAge_eq (positive : 0 < interval) (finite : (Number.int interval).Finite) :
    orderAge createdAt now (.int interval) =
      .ok (max 0 ⌊countedMillis (now - createdAt) / interval⌋) := by
  obtain ⟨x, hx, helapsed⟩ := seconds_denotes short
  obtain ⟨y, hy, hinterval⟩ := Binary64.floatOfInt_denotes ((Binary64.isFinite_int_iff interval).1 finite)
  have hmillis := abs_countedMillis_le short
  have hone : ((1 : ℤ) : ℚ) ≤ rounded interval :=
    Binary64.le_rounded (Binary64.representable_intCast (by decide)) (by exact_mod_cast positive)
  rw [Int.cast_one] at hone
  -- An interval is one millisecond at least, so the quotient is no larger than the dividend.
  have hquotient : |rounded (countedMillis (now - createdAt) / rounded interval)| < limit := by
    refine (Binary64.abs_rounded_le (Binary64.representable_two_pow (n := 50) (by decide)) ?_).trans_lt
      (Binary64.two_pow_lt_limit (by decide))
    rw [abs_div, abs_of_pos (by linarith : 0 < rounded (interval : ℚ)), div_le_iff₀ (by linarith)]
    nlinarith
  obtain ⟨z, hz, hticks⟩ := helapsed.divideFloat hinterval (by linarith) hquotient
  have hage : orderAge createdAt now (.int interval) =
      .ok (max 0 ⌊rounded (countedMillis (now - createdAt) / rounded interval)⌋) := by
    unfold orderAge
    rw [hx]
    show (do
      let quotient ← (do Number.divideFloat (x * 1000) (← Number.floatOfInt interval))
      return max 0 (← Number.floorFloat quotient)) = _
    rw [hy]
    show (do
      let quotient ← Number.divideFloat (x * 1000) y
      return max 0 (← Number.floorFloat quotient)) = _
    rw [hz]
    show (do return max 0 (← Number.floorFloat z)) = _
    rw [hticks.floorFloat]
    rfl
  rw [hage, max_floor_rounded_div helapsed.representable ((le_abs_self _).trans hmillis) positive]

/-- There is no age with an interval that has no binary64 number near to it. -/
theorem orderAge_eq_error (infinite : ¬(Number.int interval).Finite) :
    orderAge createdAt now (.int interval) = .error .tooLarge := by
  obtain ⟨x, hx, -⟩ := seconds_denotes short
  have hlarge := not_lt.1 ((Binary64.isFinite_int_iff interval).not.1 infinite)
  unfold orderAge
  rw [hx]
  show (do
    let quotient ← (do Number.divideFloat (x * 1000) (← Number.floatOfInt interval))
    return max 0 (← Number.floorFloat quotient)) = _
  rw [Binary64.floatOfInt_eq_error hlarge]
  rfl

end

/-- The counted milliseconds reach as many ticks as they reach multiples of the interval. -/
theorem le_floor_div_iff {q : ℚ} {interval : ℤ} (positive : 0 < interval) (k : ℤ) :
    k ≤ ⌊q / interval⌋ ↔ ((k * interval : ℤ) : ℚ) ≤ q := by
  have hinterval : (0 : ℚ) < interval := by exact_mod_cast positive
  rw [Int.le_floor, le_div_iff₀ hinterval]
  push_cast
  exact Iff.rfl

theorem le_ediv_iff {span interval : ℤ} (positive : 0 < interval) (k : ℤ) :
    k ≤ span / (1000 * interval) ↔ 1000 * (k * interval) ≤ span := by
  rw [Int.le_ediv_iff_mul_le (by omega), mul_left_comm]

/-- The age is exact if and only if the interval has a binary64 number near to it and the counted
milliseconds reach the same multiples of it as the time that has passed. -/
theorem orderAge_eq_wholeTicks_iff {createdAt now : ℤ} (short : |now - createdAt| ≤ 2 ^ 40 * 1000000)
    {interval : ℤ} (positive : 0 < interval) :
    orderAge createdAt now (.int interval) = .ok (wholeTicks (now - createdAt) interval) ↔
      (Number.int interval).Finite ∧ ∀ k : ℤ, 0 < k →
        ((k * interval : ℤ) ≤ countedMillis (now - createdAt) ↔
          1000 * (k * interval) ≤ now - createdAt) := by
  by_cases hfinite : (Number.int interval).Finite
  · rw [orderAge_eq short positive hfinite, wholeTicks, Except.ok.injEq, Binary64.max_eq_max_iff]
    simp only [le_floor_div_iff positive, le_ediv_iff positive, hfinite, true_and]
  · rw [orderAge_eq_error short hfinite]
    constructor
    · intro h
      cases h
    · exact fun h => absurd h.1 hfinite

/-! ## Young orders -/

theorem countedMillis_nonpos {span : ℤ} (h : span ≤ 0) : countedMillis span ≤ 0 := by
  have hspan : (span : ℚ) ≤ 0 := by exact_mod_cast h
  have hseconds : rounded ((span : ℚ) / 1000000) ≤ 0 :=
    Binary64.rounded_nonpos (div_nonpos_of_nonpos_of_nonneg hspan (by norm_num))
  exact Binary64.rounded_nonpos (mul_nonpos_of_nonpos_of_nonneg hseconds (by norm_num))

/-- The counted milliseconds of a short span of time are right to a microsecond. -/
theorem abs_countedMillis_sub_lt {span : ℤ} (positive : 0 < span) (young : span < 2 ^ 52) :
    |countedMillis span - span / 1000| < 1 / 1000 := by
  have hspan : (1 : ℚ) ≤ span := by exact_mod_cast positive
  have hyoung : (span : ℚ) ≤ 2 ^ 52 - 1 := by
    have h : span ≤ 2 ^ 52 - 1 := by omega
    exact_mod_cast h
  have hleast : (2 : ℚ) ^ (Binary64.leastExponent + 52) ≤ 1 / 2000000 :=
    (zpow_le_zpow_right₀ one_le_two (by decide : Binary64.leastExponent + 52 ≤ -21)).trans (by norm_num)
  have hseconds := Binary64.abs_rounded_sub_le_mul (q := (span : ℚ) / 1000000) (by
    rw [abs_of_pos (by linarith)]
    linarith)
  rw [abs_of_pos (by linarith : (0 : ℚ) < span / 1000000)] at hseconds
  have hseconds' := abs_le.1 hseconds
  norm_num at hseconds'
  have hmillis := Binary64.abs_rounded_sub_le_mul (q := rounded ((span : ℚ) / 1000000) * 1000) (by
    rw [abs_of_pos (by linarith)]
    linarith)
  rw [abs_of_pos (by linarith : (0 : ℚ) < rounded ((span : ℚ) / 1000000) * 1000)] at hmillis
  have hmillis' := abs_le.1 hmillis
  norm_num at hmillis'
  unfold countedMillis
  rw [abs_lt]
  constructor <;> linarith

/-- Only the last whole tick of a short span of time can be missed, when it has passed just now. -/
theorem floor_countedMillis_eq {span interval : ℤ} (positive : 0 < interval) (passed : 0 < span)
    (young : span < 2 ^ 52) :
    ⌊countedMillis span / interval⌋ = span / (1000 * interval) -
      if 1000 * interval ∣ span ∧ countedMillis span < span / 1000 then 1 else 0 := by
  have hinterval : (0 : ℚ) < interval := by exact_mod_cast positive
  have hticks : (span : ℚ) / (1000 * interval : ℤ) = span / 1000 / interval := by
    push_cast
    rw [div_div]
  have hnear : |countedMillis span / interval - span / (1000 * interval : ℤ)| < 1 / (1000 * interval : ℤ) := by
    rw [hticks, ← sub_div, abs_div, abs_of_pos hinterval, Int.cast_mul, Int.cast_ofNat, ← div_div]
    exact div_lt_div_of_pos_right (abs_countedMillis_sub_lt passed young) hinterval
  have hfloor := Binary64.floor_eq_ediv_sub (by omega) hnear
  simpa only [hticks, div_lt_div_iff_of_pos_right hinterval] using hfloor

section

variable {createdAt now interval : ℤ} (young : |now - createdAt| < 2 ^ 52) (positive : 0 < interval)
  (finite : (Number.int interval).Finite)
include young positive finite

/-- The age of a young order is exact, except that it is one tick short when a whole number of ticks has
passed just now and is counted as less. -/
theorem orderAge_of_young :
    orderAge createdAt now (.int interval) =
      .ok (wholeTicks (now - createdAt) interval -
        if 0 < now - createdAt ∧ 1000 * interval ∣ now - createdAt ∧
            countedMillis (now - createdAt) < (now - createdAt : ℤ) / 1000 then 1 else 0) := by
  have hinterval : (0 : ℚ) < interval := by exact_mod_cast positive
  rw [orderAge_eq (young.le.trans (by norm_num)) positive finite, wholeTicks, Except.ok.injEq]
  rw [abs_lt] at young
  generalize now - createdAt = span at young
  by_cases hspan : 0 < span
  · rw [floor_countedMillis_eq positive hspan young.2]
    have hnonneg : 0 ≤ span / (1000 * interval) := Int.ediv_nonneg hspan.le (by omega)
    by_cases hmissed : 1000 * interval ∣ span ∧ countedMillis span < span / 1000
    · have hticks : span / (1000 * interval) ≠ 0 := by
        intro h
        have := Int.mul_ediv_cancel' hmissed.1
        rw [h, mul_zero] at this
        omega
      rw [if_pos hmissed, if_pos ⟨hspan, hmissed⟩]
      omega
    · rw [if_neg hmissed, if_neg fun h => hmissed h.2]
      omega
  · have hcounted : countedMillis span ≤ 0 := countedMillis_nonpos (not_lt.1 hspan)
    have hfloor : ⌊countedMillis span / interval⌋ ≤ 0 := by
      have := div_nonpos_of_nonpos_of_nonneg hcounted hinterval.le
      exact_mod_cast (Int.floor_le _).trans this
    have hticks : span / (1000 * interval) ≤ 0 := Int.ediv_nonpos_of_nonpos_of_neg (not_lt.1 hspan) (by omega)
    rw [if_neg fun h => hspan h.1]
    omega

/-- With an interval of a multiple of 125 milliseconds the age of a young order is exact. -/
theorem orderAge_exact (dyadic : 125 ∣ interval) :
    orderAge createdAt now (.int interval) = .ok (wholeTicks (now - createdAt) interval) := by
  rw [orderAge_of_young young positive finite, if_neg, sub_zero]
  rintro ⟨hspan, hdivides, hcounted⟩
  rw [abs_lt] at young
  generalize now - createdAt = span at *
  -- The seconds are a whole number of eighths, so neither rounding changes anything.
  obtain ⟨k, hk⟩ : (125000 : ℤ) ∣ span := (Int.mul_dvd_mul_left 1000 dyadic).trans hdivides
  have hseconds : Binary64.Representable ((span : ℚ) / 1000000) := by
    refine ⟨k, -3, ?_, by decide, ?_⟩
    · rw [abs_le]
      constructor <;> omega
    · rw [hk]
      push_cast
      norm_num
      ring
  have hmillis : Binary64.Representable ((span : ℚ) / 1000000 * 1000) := by
    have hwhole : (span : ℚ) / 1000000 * 1000 = ((125 * k : ℤ) : ℚ) := by
      rw [hk]
      push_cast
      ring
    rw [hwhole]
    refine Binary64.representable_intCast ?_
    rw [abs_le]
    constructor <;> omega
  rw [countedMillis, Binary64.rounded_of_representable hseconds, Binary64.rounded_of_representable hmillis]
    at hcounted
  linarith

end

/-- The age among the facts of an order is the exact number of whole ticks since it was placed if and only if
there are such facts, with a deviation and an interval that have a binary64 number, and the counted
milliseconds reach the same multiples of the interval as the time that has passed. -/
theorem ofOrder_age_iff {α : Type} [Amount α] (o : Order α) (currentPrice : α) {now : Micros}
    (created : Seconds.hasDates (Seconds.yearOf o.createdAt)) (current : Seconds.hasDates (Seconds.yearOf now))
    {interval : ℤ} (positive : 0 < interval) :
    (∃ facts, ofOrder o currentPrice now (.int interval) = .ok facts ∧
        Table.get? facts "orderAge" = some (.int (wholeTicks (now - o.createdAt) interval))) ↔
      (∃ deviation, orderDeviation o.limitPrice currentPrice = .ok deviation) ∧
        (Number.int interval).Finite ∧ ∀ k : ℤ, 0 < k →
          ((k * interval : ℤ) ≤ countedMillis (now - o.createdAt) ↔
            1000 * (k * interval) ≤ now - o.createdAt) := by
  rw [← orderAge_eq_wholeTicks_iff (abs_sub_le_of_hasDates created current) positive]
  -- Without a deviation there are no facts at all; with one it is the age that decides.
  cases hdeviation : orderDeviation o.limitPrice currentPrice with
  | error fault =>
      constructor
      · rintro ⟨facts, hfacts, -⟩
        unfold ofOrder at hfacts
        rw [hdeviation] at hfacts
        cases hage : orderAge o.createdAt now (.int interval) <;> rw [hage] at hfacts <;> cases hfacts
      · rintro ⟨⟨deviation, h⟩, -⟩
        cases h
  | ok deviation =>
      have hfacts : ofOrder o currentPrice now (.int interval) =
          (fun age => [("orderPrice", Amount.toValue o.limitPrice), ("orderAge", .int age),
            ("orderDeviation", .float deviation)]) <$> orderAge o.createdAt now (.int interval) := by
        unfold ofOrder
        rw [hdeviation]
        cases orderAge o.createdAt now (.int interval) <;> rfl
      rw [hfacts]
      cases orderAge o.createdAt now (.int interval) with
      | error fault =>
          constructor
          · rintro ⟨facts, h, -⟩
            cases h
          · rintro ⟨-, h⟩
            cases h
      | ok age =>
          constructor
          · rintro ⟨facts, h, hage⟩
            cases h
            cases hage
            exact ⟨⟨deviation, rfl⟩, rfl⟩
          · rintro ⟨-, h⟩
            cases h
            exact ⟨_, rfl, rfl⟩

/-- An order that was placed at the beginning of 1970. -/
def firstOrder : Order Int where
  id := "o1"
  instrumentId := "s1"
  botId := "b1"
  side := .buy
  limitPrice := 100
  quantity := 1
  createdAt := 0

/-- After 32.3 seconds the age is in question; after 32.4 seconds it is exact, so the counted milliseconds reach
every multiple of 100 that the time itself has reached. -/
theorem ofOrder_age_iff_firstOrder :
    (Seconds.hasDates (Seconds.yearOf firstOrder.createdAt) ∧ Seconds.hasDates (Seconds.yearOf 32300000) ∧
      Seconds.hasDates (Seconds.yearOf 32400000) ∧ (0 : ℤ) < 100) ∧
    ((∃ facts, ofOrder firstOrder 100 32300000 (.int 100) = .ok facts ∧
        Table.get? facts "orderAge" = some (.int (wholeTicks (32300000 - firstOrder.createdAt) 100))) ↔
      (∃ deviation, orderDeviation firstOrder.limitPrice 100 = .ok deviation) ∧
        (Number.int 100).Finite ∧ ∀ k : ℤ, 0 < k →
          ((k * 100 : ℤ) ≤ countedMillis (32300000 - firstOrder.createdAt) ↔
            1000 * (k * 100) ≤ 32300000 - firstOrder.createdAt)) ∧
    ((∃ facts, ofOrder firstOrder 100 32400000 (.int 100) = .ok facts ∧
        Table.get? facts "orderAge" = some (.int (wholeTicks (32400000 - firstOrder.createdAt) 100))) ∧
      wholeTicks (32400000 - firstOrder.createdAt) 100 = 324 ∧
      ∀ k : ℤ, 0 < k →
        ((k * 100 : ℤ) ≤ countedMillis (32400000 - firstOrder.createdAt) ↔
          1000 * (k * 100) ≤ 32400000 - firstOrder.createdAt)) := by
  have created : Seconds.hasDates (Seconds.yearOf firstOrder.createdAt) := by decide +kernel
  have current : Seconds.hasDates (Seconds.yearOf 32300000) := by decide +kernel
  have later : Seconds.hasDates (Seconds.yearOf 32400000) := by decide +kernel
  have hage : orderAge firstOrder.createdAt 32400000 (.int 100) = .ok 324 := by decide +kernel
  have hdeviation : orderDeviation firstOrder.limitPrice 100 = .ok 0 := by decide +kernel
  have hticks : wholeTicks (32400000 - firstOrder.createdAt) 100 = 324 := by decide
  have hexact : ∃ facts, ofOrder firstOrder 100 32400000 (.int 100) = .ok facts ∧
      Table.get? facts "orderAge" = some (.int (wholeTicks (32400000 - firstOrder.createdAt) 100)) := by
    unfold ofOrder
    rw [hage, hdeviation, hticks]
    exact ⟨_, rfl, rfl⟩
  exact ⟨⟨created, current, later, by decide⟩, ofOrder_age_iff firstOrder 100 created current (by decide),
    hexact, hticks, ((ofOrder_age_iff firstOrder 100 created later (by decide)).1 hexact).2.2⟩

/-- After 32.3 seconds the order is one tick of 100 milliseconds short of its age: 32.3 times a thousand is
less than 32300. -/
theorem ofOrder_age_short :
    (∃ facts, ofOrder firstOrder 100 32300000 (.int 100) = .ok facts ∧
      Table.get? facts "orderAge" = some (.int 322)) ∧
    wholeTicks (32300000 - firstOrder.createdAt) 100 = 323 := by
  have hage : orderAge firstOrder.createdAt 32300000 (.int 100) = .ok 322 := by decide +kernel
  have hdeviation : orderDeviation firstOrder.limitPrice 100 = .ok 0 := by decide +kernel
  have hfacts : ofOrder firstOrder 100 32300000 (.int 100) =
      .ok [("orderPrice", .int 100), ("orderAge", .int 322), ("orderDeviation", .float 0)] := by
    unfold ofOrder
    rw [hage, hdeviation]
    rfl
  exact ⟨⟨_, hfacts, rfl⟩, by decide⟩

end PairFacts

end RuleTrader
