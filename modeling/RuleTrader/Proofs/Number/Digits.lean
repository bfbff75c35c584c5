import Mathlib.Data.Nat.Digits.Defs
import RuleTrader.Number.Reading
import RuleTrader.Proofs.Number.Bits
import RuleTrader.Proofs.Number.Shortest

/-!
# Decimals that are read as a float

The decimal digits of ASCII have the values of a positional system, so the digits of a number write the
number (`digitsValue_toDigits`). A decimal in the interval of a finite float is read as this float
(`ofDecimal_of_holds`): it is far from the places where the reader gives up.
-/

namespace RuleTrader

namespace Text

/-! ## The value of digits -/

theorem digitValue_of_isDigit {c : Char} (h : c.isDigit = true) : digitValue c = c.toNat - '0'.toNat := by
  have hbounds : 48 ≤ c.toNat ∧ c.toNat ≤ 57 := by
    simp only [Char.isDigit, Bool.and_eq_true, decide_eq_true_eq, ge_iff_le, UInt32.le_iff_toNat_le] at h
    exact h
  have hrun : (decide (48 ≤ c.toNat) && decide (c.toNat < 48 + 10)) = true := by
    simp only [Bool.and_eq_true, decide_eq_true_eq]
    omega
  obtain ⟨later, hzeros⟩ : ∃ later, digitZeros = 48 :: later := ⟨_, rfl⟩
  simp only [digitValue, digitValue?, hzeros, List.find?_cons, hrun, Option.map_some, Option.getD_some]
  rfl

theorem digitsValue_append (cs ds : List Char) :
    digitsValue (cs ++ ds) = digitsValue cs * 10 ^ ds.length + digitsValue ds := by
  have hshift : ∀ n, ds.foldl (fun n c => 10 * n + digitValue c) n = n * 10 ^ ds.length + digitsValue ds := by
    induction ds with
    | nil =>
        intro n
        simp [digitsValue]
    | cons c ds ih =>
        intro n
        have hhead : digitsValue (c :: ds) = digitValue c * 10 ^ ds.length + digitsValue ds := by
          rw [digitsValue, List.foldl_cons, ih, Nat.mul_zero, Nat.zero_add]
        rw [List.foldl_cons, ih, hhead, List.length_cons, Nat.pow_succ]
        ring
  rw [digitsValue, List.foldl_append]
  exact hshift _

theorem digitsValue_singleton (c : Char) : digitsValue [c] = digitValue c := by
  simp [digitsValue]

/-- The value of digits in places, with those of the last digit first. -/
theorem digitsValue_eq_ofDigits (cs : List Char) :
    digitsValue cs = Nat.ofDigits 10 (cs.reverse.map digitValue) := by
  induction cs using List.reverseRecOn with
  | nil => rfl
  | append_singleton cs c ih =>
      rw [digitsValue_append, digitsValue_singleton, ih, List.reverse_append, List.reverse_singleton,
        List.singleton_append, List.map_cons, Nat.ofDigits_cons, List.length_singleton, Nat.pow_one]
      ring

theorem digitsValue_zeros (k : Nat) : digitsValue (List.replicate k '0') = 0 := by
  induction k with
  | zero => rfl
  | succ k ih =>
      rw [List.replicate_succ', digitsValue_append, ih]
      rfl

theorem digitsValue_eq {cs : List Char} (h : ∀ c ∈ cs, c.isDigit = true) :
    digitsValue cs = Nat.ofDigitChars 10 cs 0 := by
  have hfold : ∀ n, cs.foldl (fun n c => 10 * n + digitValue c) n = Nat.ofDigitChars 10 cs n := by
    induction cs with
    | nil => exact fun _ => rfl
    | cons c cs ih =>
        intro n
        rw [List.foldl_cons, Nat.ofDigitChars_cons, ih fun d hd => h d (List.mem_cons_of_mem _ hd),
          digitValue_of_isDigit (h c (List.mem_cons_self ..))]
  exact hfold 0

theorem digitsValue_toDigits (n : Nat) : digitsValue (Nat.toDigits 10 n) = n := by
  rw [digitsValue_eq fun c => Nat.isDigit_of_mem_toDigits (by decide) (by decide)]
  exact Nat.ofDigitChars_toDigits (by decide) (by decide)

theorem digitsValue_lt {cs : List Char} (h : ∀ c ∈ cs, c.isDigit = true) :
    digitsValue cs < 10 ^ cs.length := by
  -- From the front: a digit of value `9` at most, in front of a number below its place.
  induction cs with
  | nil => exact Nat.one_pos
  | cons c cs ih =>
      have hrest := ih fun d hd => h d (List.mem_cons_of_mem _ hd)
      have hc := h c (List.mem_cons_self ..)
      have hdigit : digitValue c ≤ 9 := by
        rw [digitValue_of_isDigit hc]
        simp only [Char.isDigit, Bool.and_eq_true, decide_eq_true_eq, UInt32.le_iff_toNat_le] at hc
        have hle : c.toNat ≤ 57 := hc.2
        have hzero : '0'.toNat = 48 := rfl
        omega
      rw [← List.singleton_append, digitsValue_append, digitsValue_singleton, List.length_append,
        List.length_singleton, Nat.pow_add, Nat.pow_one]
      have hscaled : digitValue c * 10 ^ cs.length ≤ 9 * 10 ^ cs.length := Nat.mul_le_mul_right _ hdigit
      omega

/-- A number that is not zero does not start with a zero. -/
theorem head?_toDigits {n : Nat} (hn : n ≠ 0) : (Nat.toDigits 10 n).head? ≠ some '0' := by
  intro hhead
  cases hall : Nat.toDigits 10 n with
  | nil => exact Nat.toDigits_ne_nil hall
  | cons c cs =>
      rw [hall] at hhead
      cases hhead
      have hdigits : ∀ d ∈ cs, d.isDigit = true := by
        intro d hd
        have hmem : d ∈ Nat.toDigits 10 n := hall ▸ List.mem_cons_of_mem _ hd
        exact Nat.isDigit_of_mem_toDigits (by decide) (by decide) hmem
      have hvalue : n = digitsValue cs := by
        have hwhole := digitsValue_toDigits n
        have hzero : digitsValue ['0'] = 0 := rfl
        rw [hall, ← List.singleton_append, digitsValue_append, hzero, Nat.zero_mul, Nat.zero_add] at hwhole
        exact hwhole.symm
      have hlt : n < 10 ^ cs.length := hvalue ▸ digitsValue_lt hdigits
      -- Then `n` has no more digits than `cs`, which is one fewer than it is written with.
      have hlength : 0 < cs.length := by
        rcases Nat.eq_zero_or_pos cs.length with hnil | hpos
        · rw [hnil] at hlt
          omega
        · exact hpos
      have hshort := (Nat.length_toDigits_le_iff (b := 10) (by decide) hlength).2 hlt
      rw [hall, List.length_cons] at hshort
      omega

end Text

namespace Number

open Shortest

/-- The bounds of a number by its digits. -/
theorem ten_pow_length_toDigits {n : Nat} (hn : n ≠ 0) :
    10 ^ ((Nat.toDigits 10 n).length - 1) ≤ n ∧ n < 10 ^ (Nat.toDigits 10 n).length := by
  have hpos : 0 < (Nat.toDigits 10 n).length := List.length_pos_iff.2 Nat.toDigits_ne_nil
  refine ⟨?_, (Nat.length_toDigits_le_iff (by decide) hpos).1 (Nat.le_refl _)⟩
  rcases Nat.eq_zero_or_pos ((Nat.toDigits 10 n).length - 1) with hone | hmore
  · rw [hone]
    exact Nat.one_le_iff_ne_zero.2 hn
  · refine Nat.le_of_not_lt fun hlt => ?_
    have hshort := (Nat.length_toDigits_le_iff (b := 10) (by decide) hmore).2 hlt
    omega

/-- The bounds of a decimal number by the places of its digits. -/
theorem ten_zpow_places {n : Nat} (hn : n ≠ 0) (exponent : Int) :
    (10 : ℚ) ^ ((Nat.toDigits 10 n).length + exponent - 1) ≤ n * 10 ^ exponent ∧
      (n : ℚ) * 10 ^ exponent < 10 ^ ((Nat.toDigits 10 n).length + exponent) := by
  rcases ten_pow_length_toDigits hn with ⟨hfew, hmany⟩
  have hlength : 0 < (Nat.toDigits 10 n).length := List.length_pos_iff.2 Nat.toDigits_ne_nil
  have hpower : (0 : ℚ) < 10 ^ exponent := by positivity
  generalize (Nat.toDigits 10 n).length = count at hfew hmany hlength
  have hcount : (count : Int) + exponent - 1 = ((count - 1 : Nat) : Int) + exponent := by omega
  rw [hcount, zpow_add₀ (by norm_num), zpow_add₀ (by norm_num), zpow_natCast, zpow_natCast]
  refine ⟨mul_le_mul_of_nonneg_right ?_ hpower.le, mul_lt_mul_of_pos_right ?_ hpower⟩
  · exact_mod_cast hfew
  · exact_mod_cast hmany

/-- What is rounded to a finite float lies between the places where the reader gives up. -/
theorem places_of_holds {m : Nat} (hm : m ≠ 0) (hshort : m < 2 * twoTo Binary64.fractionBits) {e : Int}
    (hleast : Binary64.leastExponent ≤ e) (hgreatest : e ≤ 971) {r : Ratio} (hr : r.den ≠ 0)
    (h : (interval m e).holds r = true) :
    (10 : ℚ) ^ (-placeLimit) ≤ r.value ∧ r.value < 10 ^ placeLimit := by
  rcases (Interval.holds_iff hr).1 h with ⟨hlow, hhigh, -⟩
  have hpower : (0 : ℚ) < 2 ^ e := by positivity
  have hone : (1 : ℚ) ≤ m := by exact_mod_cast Nat.one_le_iff_ne_zero.2 hm
  have hlimit : placeLimit = 400 := rfl
  have hleast' : Binary64.leastExponent = -1074 := rfl
  have htwo : twoTo Binary64.fractionBits = 4503599627370496 := rfl
  rw [htwo] at hshort
  have hm' : (m : ℚ) ≤ 9007199254740991 := by exact_mod_cast (by omega : m ≤ 9007199254740991)
  rw [interval_upper] at hhigh
  refine ⟨?_, ?_⟩
  · -- Half of the smallest number lies above the lower limit.
    calc
      (10 : ℚ) ^ (-placeLimit) ≤ 2 ^ (-1075 : Int) := ten_zpow_le (by omega) (by omega)
      _ ≤ 2 ^ (e - 1) := zpow_le_zpow_right₀ one_le_two (by omega)
      _ = 1 / 2 * 2 ^ e := by
        rw [zpow_sub₀ two_ne_zero, zpow_one]
        ring
      _ ≤ (m - 1 / 2) * 2 ^ e := mul_le_mul_of_nonneg_right (by linarith) hpower.le
      _ ≤ (interval m e).lower.value := interval_lower_ge hm e
      _ ≤ r.value := hlow
  · -- The first power of two past the finite numbers lies below the upper limit.
    calc
      r.value ≤ (m + 1 / 2) * 2 ^ e := hhigh
      _ < 2 ^ (53 : Int) * 2 ^ e := by
        refine mul_lt_mul_of_pos_right ?_ hpower
        norm_num
        linarith
      _ = 2 ^ (53 + e) := (zpow_add₀ two_ne_zero 53 e).symm
      _ ≤ 2 ^ (3 * placeLimit) := zpow_le_zpow_right₀ one_le_two (by omega)
      _ = (2 ^ (3 : Int)) ^ placeLimit := zpow_mul 2 3 placeLimit
      _ ≤ 10 ^ placeLimit := zpow_le_zpow_left₀ (by omega) (by norm_num) (by norm_num)

/-- A decimal in the interval of a float is read as this float. -/
theorem ofDecimal_of_holds {x : Float} {d : Dyadic} (hread : Binary64.read x = .finite d)
    (hd : d.significand ≠ 0) {n : Nat} {exponent : Int}
    (h : (interval d.significand d.exponent).holds (Decimal.ratio ⟨n, exponent⟩) = true) :
    ofDecimal d.negative n exponent = x := by
  rcases (Binary64.canonical_of_read hread).1 with ⟨hshort, hleast, hgreatest, hfull⟩
  have hden := Decimal.ratio_den ⟨n, exponent⟩
  have hplaces := places_of_holds hd hshort hleast hgreatest hden h
  rw [Decimal.value_ratio] at hplaces
  have hn : n ≠ 0 := by
    rintro rfl
    have hpos : (0 : ℚ) < 10 ^ (-placeLimit) := by positivity
    simp only [Nat.cast_zero, zero_mul] at hplaces
    exact absurd hplaces.1 (not_le.2 hpos)
  have hbits : Binary64.nearestBits (Decimal.ratio ⟨n, exponent⟩).num (Decimal.ratio ⟨n, exponent⟩).den =
      Binary64.bitsOf d := nearestBits_of_holds hd hshort hleast hfull hden h
  -- The reader cuts off at infinity, which a finite number is below.
  have hfinite : Binary64.bitsOf d < Binary64.infinityBits := by
    have hinfinity : Binary64.infinityBits = 9218868437227405312 := rfl
    have hleast' : Binary64.leastExponent = -1074 := rfl
    rw [Binary64.twoTo_fractionBits] at hshort
    rw [Binary64.bitsOf, Binary64.twoTo_fractionBits, hinfinity]
    omega
  have hnearest : Binary64.nearest d.negative (Decimal.ratio ⟨n, exponent⟩).num
      (Decimal.ratio ⟨n, exponent⟩).den = x := by
    rw [Binary64.nearest, hbits, Nat.min_eq_left hfinite.le, Binary64.ofMagnitude_bitsOf hread]
  -- The digits and the exponent bound the places from both sides.
  have hbounds := ten_zpow_places hn exponent
  have hlow := (zpow_lt_zpow_iff_right₀ (by norm_num : (1 : ℚ) < 10)).1 (hplaces.1.trans_lt hbounds.2)
  have hhigh := (zpow_lt_zpow_iff_right₀ (by norm_num : (1 : ℚ) < 10)).1 (hbounds.1.trans_lt hplaces.2)
  unfold ofDecimal
  dsimp only
  rw [if_neg (by omega), if_neg (by omega)]
  unfold Decimal.ratio at hnearest
  split at hnearest
  · rename_i hpos
    rw [if_pos hpos]
    exact hnearest
  · rename_i hneg
    rw [if_neg hneg]
    exact hnearest

/-- Zero is read with its sign. -/
theorem ofDecimal_zero {x : Float} {d : Dyadic} (hread : Binary64.read x = .finite d)
    (hd : d.significand = 0) (exponent : Int) : ofDecimal d.negative 0 exponent = x := by
  have hcanonical := (Binary64.canonical_of_read hread).1
  have hleast : d.exponent = Binary64.leastExponent := by
    refine hcanonical.full.resolve_left ?_
    rw [hd]
    exact Nat.not_le.2 (twoTo_pos _)
  have hbits : Binary64.bitsOf d = 0 := by
    rw [Binary64.bitsOf, hleast, hd, Int.sub_self]
    exact Nat.zero_mul _
  have hnearest : Binary64.nearest d.negative 0 1 = Binary64.ofMagnitude d.negative 0 := rfl
  unfold ofDecimal
  dsimp only
  rw [if_pos (Or.inl rfl), hnearest, ← hbits]
  exact Binary64.ofMagnitude_bitsOf hread

end Number

end RuleTrader
