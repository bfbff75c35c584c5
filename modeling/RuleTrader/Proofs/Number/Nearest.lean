import Mathlib.Algebra.Order.Field.Power
import Mathlib.Algebra.Order.Floor.Ring
import Mathlib.Data.Int.Log
import Mathlib.Data.Rat.Floor
import Mathlib.Tactic.FieldSimp
import Mathlib.Tactic.Linarith
import Mathlib.Tactic.Positivity
import Mathlib.Tactic.Ring
import RuleTrader.Number.Binary64

/-!
# Rounding a rational number

The binary64 number that a rational number is rounded to, as a rational number again: the number is cut
off at the place of its leading bit less 52, as far as the places go (`place`), and the integer number of
places is the nearest one, a half to the even neighbour (`rounded`). Nothing here is bounded above.

All that is used of it later follows from two facts: the result is one of the numbers with a short
significand (`representable_rounded`), and no other such number is nearer (`abs_rounded_sub_le`). So
rounding keeps what has a short significand (`rounded_of_representable`) and is monotone
(`rounded_mono`).
-/

namespace RuleTrader

namespace Binary64

/-! ## The nearest integer -/

/-- The integer nearest to `x`, a half to the even neighbour. -/
def nearestInt (x : ℚ) : ℤ :=
  if x - ⌊x⌋ < 1 / 2 then ⌊x⌋
  else if 1 / 2 < x - ⌊x⌋ then ⌊x⌋ + 1
  else if ⌊x⌋ % 2 = 0 then ⌊x⌋
  else ⌊x⌋ + 1

theorem abs_nearestInt_sub (x : ℚ) : |(nearestInt x : ℚ) - x| ≤ 1 / 2 := by
  have hfloor := Int.floor_le x
  have hnext := Int.lt_floor_add_one x
  unfold nearestInt
  rw [abs_le]
  split_ifs <;> push_cast <;> constructor <;> linarith

theorem nearestInt_even {x : ℚ} (tie : |(nearestInt x : ℚ) - x| = 1 / 2) : nearestInt x % 2 = 0 := by
  have hfloor := Int.floor_le x
  have hnext := Int.lt_floor_add_one x
  unfold nearestInt at tie ⊢
  split_ifs at tie ⊢ with hbelow habove heven
  · rw [abs_of_nonpos (by linarith)] at tie
    linarith
  · rw [abs_of_pos (by push_cast; linarith)] at tie
    push_cast at tie
    linarith
  · exact heven
  · omega

/-- The nearest integer is the only one that is no further away than a half, and even if just as far. -/
theorem nearestInt_eq {x : ℚ} {n : ℤ} (near : |(n : ℚ) - x| ≤ 1 / 2)
    (tie : |(n : ℚ) - x| = 1 / 2 → n % 2 = 0) : nearestInt x = n := by
  have hnear := abs_nearestInt_sub x
  have heven : |(nearestInt x : ℚ) - x| = 1 / 2 → nearestInt x % 2 = 0 := nearestInt_even
  generalize nearestInt x = m at hnear heven
  by_contra hne
  -- Both are at most a half away, so they are neighbours, and both are ties.
  rcases lt_or_gt_of_ne hne with h | h
  · have hgap : (m : ℚ) + 1 ≤ n := by exact_mod_cast h
    rw [abs_le] at hnear near
    have hm : (m : ℚ) - x = -(1 / 2) := by linarith
    have hn : (n : ℚ) - x = 1 / 2 := by linarith
    have hm2 := heven (by rw [hm, abs_neg]; norm_num)
    have hn2 := tie (by rw [hn]; norm_num)
    have hnext : m + 1 = n := by exact_mod_cast (by linarith : (m : ℚ) + 1 = n)
    omega
  · have hgap : (n : ℚ) + 1 ≤ m := by exact_mod_cast h
    rw [abs_le] at hnear near
    have hm : (m : ℚ) - x = 1 / 2 := by linarith
    have hn : (n : ℚ) - x = -(1 / 2) := by linarith
    have hm2 := heven (by rw [hm]; norm_num)
    have hn2 := tie (by rw [hn, abs_neg]; norm_num)
    have hnext : n + 1 = m := by exact_mod_cast (by linarith : (n : ℚ) + 1 = m)
    omega

theorem nearestInt_intCast (n : ℤ) : nearestInt n = n := by
  refine nearestInt_eq ?_ ?_
  · norm_num
  · intro h
    norm_num at h

theorem nearestInt_neg (x : ℚ) : nearestInt (-x) = -nearestInt x := by
  have hdistance : |((-nearestInt x : ℤ) : ℚ) - -x| = |(nearestInt x : ℚ) - x| := by
    rw [← abs_neg]
    push_cast
    ring_nf
  refine nearestInt_eq ?_ ?_ <;> rw [hdistance]
  · exact abs_nearestInt_sub x
  · intro h
    have := nearestInt_even h
    omega

/-- No integer is nearer. -/
theorem abs_nearestInt_sub_le (x : ℚ) (n : ℤ) : |(nearestInt x : ℚ) - x| ≤ |(n : ℚ) - x| := by
  have hnear := abs_nearestInt_sub x
  by_cases hn : n = nearestInt x
  · rw [hn]
  · have hgap : (1 : ℚ) ≤ |(n : ℚ) - nearestInt x| := by
      have h : 1 ≤ |n - nearestInt x| := Int.one_le_abs (sub_ne_zero.2 hn)
      exact_mod_cast h
    have htriangle := abs_sub_le (n : ℚ) x (nearestInt x)
    rw [abs_sub_comm x] at htriangle
    linarith

/-! ## The nearest number -/

/-- The exponent of the last place that is kept of `q`. -/
def place (q : ℚ) : ℤ :=
  if q = 0 then leastExponent else max (Int.log 2 |q| - fractionBits) leastExponent

/-- The binary64 number nearest to `q`, a half to the even neighbour, if it is not too large. -/
def rounded (q : ℚ) : ℚ := nearestInt (q / 2 ^ place q) * 2 ^ place q

/-- The first power of two that is too large for a binary64 number. It is never to be worked out. -/
@[irreducible]
def limit : ℚ := 2 ^ (1024 : ℤ)

theorem limit_eq : limit = 2 ^ (1024 : ℤ) := by
  unfold limit
  rfl

theorem two_pow_lt_limit {n : ℕ} (hn : n < 1024) : (2 : ℚ) ^ n < limit := by
  rw [limit_eq, ← zpow_natCast]
  exact zpow_lt_zpow_right₀ one_lt_two (by exact_mod_cast hn)

/-- The rational numbers with a short significand. -/
def Representable (q : ℚ) : Prop :=
  ∃ m e : ℤ, |m| ≤ 2 ^ 53 ∧ leastExponent ≤ e ∧ q = m * 2 ^ e

theorem fractionBits_eq : ((fractionBits : ℕ) : ℤ) = 52 := rfl

theorem leastExponent_le_place (q : ℚ) : leastExponent ≤ place q := by
  unfold place
  split
  · exact le_refl _
  · exact le_max_right _ _

theorem place_neg (q : ℚ) : place (-q) = place q := by
  unfold place
  rw [abs_neg]
  simp only [neg_eq_zero]

theorem abs_lt_place (q : ℚ) : |q| < 2 ^ (place q + 53) := by
  unfold place
  rw [fractionBits_eq]
  split
  · rename_i hq
    rw [hq, abs_zero]
    positivity
  · refine (Int.lt_zpow_succ_log_self one_lt_two |q|).trans_le (zpow_le_zpow_right₀ one_le_two ?_)
    omega

/-- Above the least place a number reaches its 53rd place. -/
theorem place_le_abs {q : ℚ} (h : leastExponent < place q) : 2 ^ (place q + 52) ≤ |q| := by
  unfold place at h ⊢
  rw [fractionBits_eq] at h ⊢
  split at h
  · exact absurd h (lt_irrefl _)
  · rename_i hq
    rw [if_neg hq, max_eq_left (by omega), sub_add_cancel]
    exact Int.zpow_log_le_self one_lt_two (abs_pos.2 hq)

@[simp]
theorem rounded_zero : rounded 0 = 0 := by
  unfold rounded
  rw [zero_div]
  have := nearestInt_intCast 0
  rw [Int.cast_zero] at this
  rw [this, Int.cast_zero, zero_mul]

theorem rounded_neg (q : ℚ) : rounded (-q) = -rounded q := by
  unfold rounded
  rw [place_neg, neg_div, nearestInt_neg]
  push_cast
  ring

/-- The error is at most half a place. -/
theorem abs_rounded_sub (q : ℚ) : |rounded q - q| ≤ 2 ^ place q / 2 := by
  have hpower : (0 : ℚ) < 2 ^ place q := by positivity
  have hscale : rounded q - q = (nearestInt (q / 2 ^ place q) - q / 2 ^ place q) * 2 ^ place q := by
    unfold rounded
    field_simp
  rw [hscale, abs_mul, abs_of_pos hpower]
  calc
    |(nearestInt (q / 2 ^ place q) : ℚ) - q / 2 ^ place q| * 2 ^ place q ≤ 1 / 2 * 2 ^ place q :=
      mul_le_mul_of_nonneg_right (abs_nearestInt_sub _) hpower.le
    _ = 2 ^ place q / 2 := by ring

theorem abs_nearestInt_le {q : ℚ} : |nearestInt (q / 2 ^ place q)| ≤ 2 ^ 53 := by
  have hpower : (0 : ℚ) < 2 ^ place q := by positivity
  have hbelow : |q / 2 ^ place q| < 2 ^ 53 := by
    rw [abs_div, abs_of_pos hpower, div_lt_iff₀ hpower]
    have := abs_lt_place q
    rwa [zpow_add₀ two_ne_zero, mul_comm] at this
  have hnear := abs_nearestInt_sub (q / 2 ^ place q)
  have htriangle := abs_sub_abs_le_abs_sub (nearestInt (q / 2 ^ place q) : ℚ) (q / 2 ^ place q)
  have h : |(nearestInt (q / 2 ^ place q) : ℚ)| < 2 ^ 53 + 1 := by linarith
  have h' : |nearestInt (q / 2 ^ place q)| < 2 ^ 53 + 1 := by exact_mod_cast h
  omega

theorem representable_rounded (q : ℚ) : Representable (rounded q) :=
  ⟨nearestInt (q / 2 ^ place q), place q, abs_nearestInt_le, leastExponent_le_place q, rfl⟩

/-- A number with a short significand is a whole number of the places of `q`, or it lies below the leading
bit of `q`. -/
theorem Representable.multiple_or_lt {r : ℚ} (hr : Representable r) (q : ℚ) :
    (∃ n : ℤ, r = n * 2 ^ place q) ∨ leastExponent < place q ∧ |r| ≤ 2 ^ (place q + 52) := by
  obtain ⟨m, e, hshort, hleast, rfl⟩ := hr
  by_cases hplace : place q ≤ e
  · obtain ⟨k, hk⟩ := Int.eq_ofNat_of_zero_le (sub_nonneg.2 hplace)
    refine Or.inl ⟨m * 2 ^ k, ?_⟩
    have hexponent : e = k + place q := by omega
    rw [hexponent, zpow_add₀ two_ne_zero]
    push_cast
    rw [zpow_natCast]
    ring
  · refine Or.inr ⟨by omega, ?_⟩
    have hshort' : |(m : ℚ)| ≤ 2 ^ (53 : ℤ) := by exact_mod_cast hshort
    calc
      |(m : ℚ) * 2 ^ e| = |(m : ℚ)| * 2 ^ e := by rw [abs_mul, abs_of_pos (by positivity : (0 : ℚ) < 2 ^ e)]
      _ ≤ 2 ^ (53 : ℤ) * 2 ^ e := mul_le_mul_of_nonneg_right hshort' (by positivity)
      _ = 2 ^ (53 + e) := (zpow_add₀ two_ne_zero _ _).symm
      _ ≤ 2 ^ (place q + 52) := zpow_le_zpow_right₀ one_le_two (by omega)

theorem abs_rounded_sub_le_of_multiple (q : ℚ) (n : ℤ) :
    |rounded q - q| ≤ |n * 2 ^ place q - q| := by
  have hpower : (0 : ℚ) < 2 ^ place q := by positivity
  have hscale (k : ℤ) : (k : ℚ) * 2 ^ place q - q = (k - q / 2 ^ place q) * 2 ^ place q := by
    field_simp
  unfold rounded
  rw [hscale, hscale, abs_mul, abs_mul]
  exact mul_le_mul_of_nonneg_right (abs_nearestInt_sub_le _ n) (abs_nonneg _)

/-- No number with a short significand is nearer. -/
theorem abs_rounded_sub_le {r : ℚ} (hr : Representable r) (q : ℚ) : |rounded q - q| ≤ |r - q| := by
  rcases hr.multiple_or_lt q with ⟨n, rfl⟩ | ⟨hplace, hsmall⟩
  · exact abs_rounded_sub_le_of_multiple q n
  · -- The power of two at the leading bit of `q` is a multiple between `r` and `q`.
    have hleading := place_le_abs hplace
    have hpower : (2 : ℚ) ^ (place q + 52) = ((2 ^ 52 : ℤ) : ℚ) * 2 ^ place q := by
      rw [zpow_add₀ two_ne_zero, mul_comm]
      norm_num
    rcases abs_cases q with ⟨habs, -⟩ | ⟨habs, -⟩
    · refine (abs_rounded_sub_le_of_multiple q (2 ^ 52)).trans ?_
      rw [← hpower, abs_of_nonpos (by linarith), abs_of_nonpos (by linarith [le_abs_self r])]
      linarith [le_abs_self r]
    · refine (abs_rounded_sub_le_of_multiple q (-2 ^ 52)).trans ?_
      have hnegative : ((-2 ^ 52 : ℤ) : ℚ) * 2 ^ place q = -2 ^ (place q + 52) := by
        rw [hpower]
        push_cast
        ring
      rw [hnegative, abs_of_nonneg (by linarith), abs_of_nonneg (by linarith [neg_abs_le r])]
      linarith [neg_abs_le r]

theorem rounded_of_representable {q : ℚ} (h : Representable q) : rounded q = q := by
  have hdistance := abs_rounded_sub_le h q
  rw [sub_self, abs_zero] at hdistance
  exact sub_eq_zero.1 (abs_nonpos_iff.1 hdistance)

/-- Of two numbers the nearer one is the greater one only if the middle is passed. -/
theorem add_le_two_mul_of_abs_sub_le {a b x : ℚ} (h : b < a) (near : |a - x| ≤ |b - x|) : a + b ≤ 2 * x := by
  have hsquare := sq_le_sq.2 near
  have hproduct : (a - b) * (a + b - 2 * x) ≤ 0 := by linarith
  have := nonpos_of_mul_nonpos_right hproduct (sub_pos.2 h)
  linarith

theorem rounded_mono {q r : ℚ} (h : q ≤ r) : rounded q ≤ rounded r := by
  by_contra hlt
  rw [not_le] at hlt
  -- Each is nearer to its own number, so the two numbers lie on the wrong sides of the middle.
  have hq := add_le_two_mul_of_abs_sub_le hlt (abs_rounded_sub_le (representable_rounded r) q)
  have hr := add_le_two_mul_of_abs_sub_le (neg_lt_neg hlt) (x := -r) (by
    rw [neg_sub_neg, neg_sub_neg, abs_sub_comm r, abs_sub_comm r]
    exact abs_rounded_sub_le (representable_rounded q) r)
  have heq : q = r := by linarith
  rw [heq] at hlt
  exact lt_irrefl _ hlt

theorem representable_zero : Representable 0 :=
  ⟨0, 0, by norm_num, by decide, by norm_num⟩

theorem representable_intCast {n : ℤ} (h : |n| ≤ 2 ^ 53) : Representable n :=
  ⟨n, 0, h, by decide, by rw [zpow_zero, mul_one]⟩

theorem representable_two_pow {n : ℕ} (h : n ≤ 53) : Representable (2 ^ n) := by
  have := representable_intCast (n := 2 ^ n) (by
    rw [abs_of_pos (by positivity)]
    exact pow_le_pow_right₀ (by decide) h)
  push_cast at this
  exact this

theorem representable_two_zpow {e : ℤ} (h : leastExponent ≤ e) : Representable (2 ^ e) :=
  ⟨1, e, by norm_num, h, by rw [Int.cast_one, one_mul]⟩

/-- Rounding does not pass a number with a short significand. -/
theorem rounded_le {q r : ℚ} (hr : Representable r) (h : q ≤ r) : rounded q ≤ r :=
  (rounded_mono h).trans_eq (rounded_of_representable hr)

theorem le_rounded {q r : ℚ} (hr : Representable r) (h : r ≤ q) : r ≤ rounded q :=
  (rounded_of_representable hr).symm.trans_le (rounded_mono h)

theorem abs_rounded_le {q r : ℚ} (hr : Representable r) (h : |q| ≤ r) : |rounded q| ≤ r := by
  rw [abs_le] at h ⊢
  have hlower := rounded_le hr (neg_le.1 h.1)
  rw [rounded_neg] at hlower
  exact ⟨neg_le.1 hlower, rounded_le hr h.2⟩

theorem rounded_nonneg {q : ℚ} (h : 0 ≤ q) : 0 ≤ rounded q := le_rounded representable_zero h

theorem rounded_nonpos {q : ℚ} (h : q ≤ 0) : rounded q ≤ 0 := rounded_le representable_zero h

theorem abs_rounded (q : ℚ) : |rounded q| = rounded |q| := by
  rcases le_total 0 q with h | h
  · rw [abs_of_nonneg h, abs_of_nonneg (rounded_nonneg h)]
  · rw [abs_of_nonpos h, abs_of_nonpos (rounded_nonpos h), rounded_neg]

/-- A number that is not rounded to one that is too large is not too large itself. -/
theorem abs_lt_limit_of_rounded {q : ℚ} (small : |rounded q| < limit) : |q| < limit := by
  by_contra hlarge
  rw [limit_eq] at hlarge small
  rw [abs_rounded] at small
  exact absurd (le_rounded (representable_two_zpow (by decide)) (not_lt.1 hlarge)) (not_le.2 small)

/-- Away from the least numbers the error is small against the number. -/
theorem abs_rounded_sub_le_mul {q : ℚ} (h : 2 ^ (leastExponent + 52) ≤ |q|) :
    |rounded q - q| ≤ |q| / 2 ^ 53 := by
  have hleading : 2 ^ (place q + 52) ≤ |q| := by
    by_cases hplace : leastExponent < place q
    · exact place_le_abs hplace
    · rwa [← le_antisymm (not_lt.1 hplace) (leastExponent_le_place q)] at h
  calc
    |rounded q - q| ≤ 2 ^ place q / 2 := abs_rounded_sub q
    _ = 2 ^ (place q + 52) / 2 ^ 53 := by
      rw [zpow_add₀ two_ne_zero]
      norm_num
      ring
    _ ≤ |q| / 2 ^ 53 := div_le_div_of_nonneg_right hleading (by positivity)

/-- Among the least numbers it is small anyway. -/
theorem abs_rounded_sub_le_add (q : ℚ) : |rounded q - q| ≤ |q| / 2 ^ 53 + 1 / 2 ^ 200 := by
  have hnonneg : 0 ≤ |q| / 2 ^ 53 := by positivity
  by_cases hplace : leastExponent < place q
  · have herror := abs_rounded_sub_le_mul
      ((zpow_le_zpow_right₀ one_le_two (by omega)).trans (place_le_abs hplace))
    linarith
  · have hleast : place q ≤ -200 := (not_lt.1 hplace).trans (by decide)
    have hsmall : (2 : ℚ) ^ place q ≤ 1 / 2 ^ 200 :=
      (zpow_le_zpow_right₀ one_le_two hleast).trans_eq (by norm_num)
    have herror := abs_rounded_sub q
    linarith

/-! ## Quotients rounded down -/

/-- Two numbers that are raised to at least `c` are equal if they reach the same numbers above `c`. -/
theorem max_eq_max_iff {a b c : ℤ} : max c a = max c b ↔ ∀ k, c < k → (k ≤ a ↔ k ≤ b) := by
  constructor
  · intro h k hk
    omega
  · intro h
    have ha := h a
    have hb := h b
    omega

/-- A number rounded down is a quotient rounded down if it reaches the same integers. -/
theorem floor_eq_ediv_iff {q : ℚ} {n d : ℤ} (hd : 0 < d) :
    ⌊q⌋ = n / d ↔ ∀ k : ℤ, k ≤ q ↔ k * d ≤ n := by
  have hlevel (k : ℤ) : (k ≤ ⌊q⌋ ↔ k ≤ n / d) ↔ ((k : ℚ) ≤ q ↔ k * d ≤ n) := by
    rw [Int.le_floor, Int.le_ediv_iff_mul_le hd]
  constructor
  · intro h k
    exact (hlevel k).1 (by rw [h])
  · intro h
    exact eq_of_forall_le_iff fun k => (hlevel k).2 (h k)

/-- What lies close to a quotient is rounded down as the quotient is, except that it may miss an integer. -/
theorem floor_eq_ediv_sub {q : ℚ} {n d : ℤ} (hd : 0 < d) (near : |q - n / d| < 1 / d) :
    ⌊q⌋ = n / d - if d ∣ n ∧ q < n / d then 1 else 0 := by
  have hd' : (0 : ℚ) < d := by exact_mod_cast hd
  have hpart : (1 : ℚ) / d ≤ 1 := (div_le_one hd').2 (by exact_mod_cast hd)
  have hnear := abs_lt.1 near
  by_cases hdivides : d ∣ n
  · obtain ⟨k, rfl⟩ := hdivides
    have hquotient : ((d * k : ℤ) : ℚ) / d = k := by
      push_cast
      field_simp
    rw [hquotient] at hnear ⊢
    rw [Int.mul_ediv_cancel_left _ hd.ne', Int.floor_eq_iff]
    by_cases hmissed : q < k
    · rw [if_pos ⟨dvd_mul_right d k, hmissed⟩]
      push_cast
      constructor <;> linarith
    · rw [if_neg fun h => hmissed h.2]
      push_cast
      constructor <;> linarith
  · -- The quotient is a part away from the integers on both sides.
    have hbelow : n / d * d + 1 ≤ n := by
      have := Int.ediv_mul_le n hd.ne'
      have : n / d * d ≠ n := fun h => hdivides ⟨n / d, by rw [mul_comm]; exact h.symm⟩
      omega
    have habove : n + 1 ≤ (n / d + 1) * d := by
      have := Int.lt_ediv_add_one_mul_self n hd
      omega
    have hfraction : (n : ℚ) / d * d = n := div_mul_cancel₀ _ hd'.ne'
    have hone : (1 : ℚ) / d * d = 1 := div_mul_cancel₀ _ hd'.ne'
    rw [if_neg fun h => hdivides h.1, sub_zero]
    generalize n / d = k at hbelow habove ⊢
    have hbelow' : (k : ℚ) + 1 / d ≤ n / d := by
      refine le_of_mul_le_mul_right ?_ hd'
      rw [add_mul, hfraction, hone]
      exact_mod_cast hbelow
    have habove' : (n : ℚ) / d + 1 / d ≤ k + 1 := by
      refine le_of_mul_le_mul_right ?_ hd'
      rw [add_mul, hfraction, hone]
      exact_mod_cast habove
    rw [Int.floor_eq_iff]
    constructor <;> linarith

/-- A number with a short significand below an integer stays away from it by a place. -/
theorem Representable.add_le_intCast {q : ℚ} (hq : Representable q) {n : ℤ} (h : q < n) {f : ℤ}
    (hn : 2 ^ (f - 1) < (n : ℚ)) (hf : f ≤ 53) : q + 2 ^ (f - 53) ≤ n := by
  have hpower : (0 : ℚ) < 2 ^ (f - 53) := by positivity
  obtain ⟨k, hk⟩ := Int.eq_ofNat_of_zero_le (sub_nonneg.2 hf)
  have hscale : (n : ℚ) = (n * 2 ^ k : ℤ) * 2 ^ (f - 53) := by
    rw [show f - 53 = -(k : ℤ) by omega, zpow_neg, zpow_natCast]
    push_cast
    field_simp
  -- It is enough to find a multiple of the place between the two.
  suffices hmultiple : ∃ a : ℤ, q ≤ a * 2 ^ (f - 53) ∧ (a : ℚ) * 2 ^ (f - 53) < n by
    obtain ⟨a, hle, hlt⟩ := hmultiple
    have hnext : a + 1 ≤ n * 2 ^ k := by
      rw [hscale] at hlt
      have := lt_of_mul_lt_mul_right hlt hpower.le
      exact_mod_cast this
    calc
      q + 2 ^ (f - 53) ≤ ((a + 1 : ℤ) : ℚ) * 2 ^ (f - 53) := by
        push_cast
        linarith
      _ ≤ (n * 2 ^ k : ℤ) * 2 ^ (f - 53) := mul_le_mul_of_nonneg_right (by exact_mod_cast hnext) hpower.le
      _ = n := hscale.symm
  obtain ⟨m, e, hshort, -, rfl⟩ := hq
  by_cases hplace : f - 53 ≤ e
  · obtain ⟨j, hj⟩ := Int.eq_ofNat_of_zero_le (sub_nonneg.2 hplace)
    have hmultiple : (m : ℚ) * 2 ^ e = (m * 2 ^ j : ℤ) * 2 ^ (f - 53) := by
      rw [show e = j + (f - 53) by omega, zpow_add₀ two_ne_zero, zpow_natCast]
      push_cast
      ring
    exact ⟨m * 2 ^ j, hmultiple.le, hmultiple ▸ h⟩
  · have hleading : (2 : ℚ) ^ (f - 1) = ((2 ^ 52 : ℤ) : ℚ) * 2 ^ (f - 53) := by
      rw [show f - 1 = 52 + (f - 53) by ring, zpow_add₀ two_ne_zero]
      norm_num
    have hshort' : (m : ℚ) ≤ 2 ^ (53 : ℤ) := by exact_mod_cast (le_abs_self m).trans hshort
    refine ⟨2 ^ 52, ?_, hleading ▸ hn⟩
    calc
      (m : ℚ) * 2 ^ e ≤ 2 ^ (53 : ℤ) * 2 ^ e := mul_le_mul_of_nonneg_right hshort' (by positivity)
      _ = 2 ^ (53 + e) := (zpow_add₀ two_ne_zero _ _).symm
      _ ≤ 2 ^ (f - 1) := zpow_le_zpow_right₀ one_le_two (by omega)
      _ = ((2 ^ 52 : ℤ) : ℚ) * 2 ^ (f - 53) := hleading

theorem exists_binade {q : ℚ} (hq : 0 < q) : ∃ g : ℤ, 2 ^ (g - 1) < q ∧ q ≤ 2 ^ g :=
  ⟨Int.clog 2 q, Int.zpow_pred_clog_lt_self one_lt_two hq, Int.self_le_zpow_clog one_lt_two q⟩

/-- The last number before an integer. -/
theorem representable_sub {k g : ℤ} (hk : 0 < k) (hg : 0 ≤ g) (hshort : g ≤ 53) (h : (k : ℚ) ≤ 2 ^ g) :
    Representable (k - 2 ^ (g - 53)) := by
  have hleast : leastExponent = -1074 := rfl
  obtain ⟨j, hj⟩ := Int.eq_ofNat_of_zero_le (sub_nonneg.2 hshort)
  have hscaled : k * 2 ^ j ≤ 2 ^ 53 := by
    have hle : (k : ℚ) * 2 ^ j ≤ 2 ^ (53 : ℤ) := by
      calc
        (k : ℚ) * 2 ^ j ≤ 2 ^ g * 2 ^ (j : ℤ) := by
          rw [zpow_natCast]
          exact mul_le_mul_of_nonneg_right h (by positivity)
        _ = 2 ^ (g + j) := (zpow_add₀ two_ne_zero _ _).symm
        _ = 2 ^ (53 : ℤ) := by
          congr 1
          omega
    exact_mod_cast hle
  have hpositive : 0 < k * 2 ^ j := by positivity
  refine ⟨k * 2 ^ j - 1, g - 53, ?_, by omega, ?_⟩
  · rw [abs_of_nonneg (by omega)]
    omega
  · rw [show g - 53 = -(j : ℤ) by omega, zpow_neg, zpow_natCast]
    push_cast
    field_simp

/-- What is rounded up to an integer lies above the middle between it and the last number before it. -/
theorem two_mul_le_of_le_rounded {k g : ℤ} (hk : 0 < k) (hg : 0 ≤ g) (hshort : g ≤ 53) (h : (k : ℚ) ≤ 2 ^ g)
    {x : ℚ} (below : x < k) (up : k ≤ rounded x) : 2 * (k : ℚ) ≤ 2 * x + 2 ^ (g - 53) := by
  have hplace : (0 : ℚ) < 2 ^ (g - 53) := by positivity
  have hnear := abs_rounded_sub_le (representable_sub hk hg hshort h) x
  rw [abs_of_nonneg (by linarith)] at hnear
  rcases abs_cases ((k : ℚ) - 2 ^ (g - 53) - x) with ⟨habs, -⟩ | ⟨habs, -⟩ <;> linarith

/-- A quotient that is less than an integer is not rounded up to it, if dividend and divisor are not too
long. -/
theorem rounded_div_lt {q : ℚ} (hq : Representable q) {t k : ℤ} (ht : 0 < t) (hk : 0 < k)
    (h : q < k * t) (short : k * t ≤ 2 ^ 53) : rounded (q / t) < k := by
  have ht' : (0 : ℚ) < t := by exact_mod_cast ht
  have hk' : (0 : ℚ) < k := by exact_mod_cast hk
  obtain ⟨g, hg, hg'⟩ := exists_binade hk'
  obtain ⟨f, hf, hf'⟩ := exists_binade (mul_pos hk' ht')
  have hf53 : f ≤ 53 := by
    have hshort : (k : ℚ) * t ≤ 2 ^ (53 : ℤ) := by exact_mod_cast short
    have := (zpow_lt_zpow_iff_right₀ (one_lt_two (α := ℚ))).1 (hf.trans_le hshort)
    omega
  have hgpos : 0 ≤ g := by
    have hone : (2 : ℚ) ^ (0 : ℤ) ≤ k := by
      rw [zpow_zero]
      exact_mod_cast hk
    exact (zpow_le_zpow_iff_right₀ (one_lt_two (α := ℚ))).1 (hone.trans hg')
  have hgf : g ≤ f := by
    have hle : (k : ℚ) ≤ k * t := le_mul_of_one_le_right hk'.le (by exact_mod_cast ht)
    have := (zpow_lt_zpow_iff_right₀ (one_lt_two (α := ℚ))).1 (hg.trans_le (hle.trans hf'))
    omega
  by_contra hlarge
  -- The quotient would lie above the middle before `k`, but the dividend stays away from `k * t`.
  have hmiddle := two_mul_le_of_le_rounded hk hgpos (hgf.trans hf53) hg' ((div_lt_iff₀ ht').2 h)
    (not_lt.1 hlarge)
  have hdividend : 2 * ((k : ℚ) * t) ≤ 2 * q + 2 ^ (g - 53) * t := by
    have := mul_le_mul_of_nonneg_right hmiddle ht'.le
    rw [add_mul, mul_assoc 2 (q / t), div_mul_cancel₀ q ht'.ne'] at this
    linarith
  have hgap : q + 2 ^ (f - 53) ≤ k * t := by
    have := hq.add_le_intCast (n := k * t) (f := f) (by push_cast; exact h) (by push_cast; exact hf) hf53
    push_cast at this
    exact this
  -- The places at `k * t` are at least half of `t` times those at `k`.
  have hplaces : (2 : ℚ) ^ (g - 53) * t < 2 * 2 ^ (f - 53) := by
    calc
      (2 : ℚ) ^ (g - 53) * t = 2 * (2 ^ (g - 1) * t * 2 ^ (-53 : ℤ)) := by
        rw [show g - 53 = 1 + (g - 1) + -53 by ring, zpow_add₀ two_ne_zero, zpow_add₀ two_ne_zero, zpow_one]
        ring
      _ < 2 * (2 ^ f * 2 ^ (-53 : ℤ)) := by
        have hscaled := (mul_lt_mul_of_pos_right hg ht').trans_le hf'
        linarith [mul_lt_mul_of_pos_right hscaled (by positivity : (0 : ℚ) < 2 ^ (-53 : ℤ))]
      _ = 2 * 2 ^ (f - 53) := by
        rw [← zpow_add₀ two_ne_zero]
        rfl
  linarith

/-- The quotient of a number with a short significand is rounded down as the exact one is. -/
theorem floor_rounded_div {q : ℚ} (hq : Representable q) (hq0 : 0 ≤ q) {t : ℤ} (ht : 0 < t)
    (short : q + t ≤ 2 ^ 53) : ⌊rounded (q / t)⌋ = ⌊q / t⌋ := by
  have ht' : (0 : ℚ) < t := by exact_mod_cast ht
  have hone : (1 : ℚ) ≤ t := by exact_mod_cast ht
  have hfloor := Int.floor_le (q / t)
  have hnext := Int.lt_floor_add_one (q / t)
  have hnonneg : 0 ≤ ⌊q / t⌋ := Int.floor_nonneg.2 (div_nonneg hq0 ht'.le)
  generalize ⌊q / t⌋ = k at hfloor hnext hnonneg
  rw [le_div_iff₀ ht'] at hfloor
  rw [div_lt_iff₀ ht'] at hnext
  have hproduct : (k + 1) * t ≤ 2 ^ 53 := by
    have h : ((k : ℚ) + 1) * t ≤ 2 ^ 53 := by linarith
    exact_mod_cast h
  rw [Int.floor_eq_iff]
  refine ⟨?_, ?_⟩
  · have hk : |k| ≤ 2 ^ 53 := by
      rw [abs_of_nonneg hnonneg]
      have : k * 1 ≤ (k + 1) * t := mul_le_mul (by omega) ht (by omega) (by omega)
      omega
    exact le_rounded (representable_intCast hk) ((le_div_iff₀ ht').2 hfloor)
  · have := rounded_div_lt hq ht (k := k + 1) (by omega) (by push_cast; exact hnext) hproduct
    push_cast at this
    exact this

end Binary64

end RuleTrader
