import Mathlib.Data.Nat.Digits.Defs
import RuleTrader.Json.Reader
import RuleTrader.Json.Writer
import RuleTrader.Proofs.Number.Digits

/-!
# Numbers in JSON text

A `Numeral` is a number in JSON text by its parts: the whole digits, a fraction and an exponent. The
reader takes a proper numeral apart in one way only, up to where something closes the value
(`Numeral.readNumber_chars`). What a `FloatLayout` writes of a decimal is a proper numeral of the same
value (`FloatLayout.writes_decimal`). Together with the interval of the shortest decimal, what is
written of a float that is defined is read as this float (`readPlain_float`), and the same holds for an
integer that is not too long (`readPlain_int`).
-/

namespace RuleTrader

namespace Json

open Text (digitsValue)

/-! ## The parts of a number -/

/-- The parts of a number in JSON text, without its sign. -/
structure Numeral where
  whole : List Char
  fraction? : Option (List Char)
  power? : Option (Bool × List Char)

/-- Some decimal digits. -/
def Row (ds : List Char) : Prop := ds ≠ [] ∧ ∀ c ∈ ds, c.isDigit = true

namespace Numeral

/-- The fraction after its point. -/
def fractionChars : Option (List Char) → List Char
  | none => []
  | some ds => '.' :: ds

/-- The exponent after its mark and its sign. -/
def powerChars : Option (Bool × List Char) → List Char
  | none => []
  | some (below, ds) => 'e' :: (if below then '-' else '+') :: ds

/-- The characters of a number. -/
def chars (x : Numeral) : List Char := x.whole ++ (fractionChars x.fraction? ++ powerChars x.power?)

/-- The number that all digits write. -/
def digits (x : Numeral) : Nat := digitsValue (x.whole ++ x.fraction?.getD [])

/-- The exponent of the last digit. -/
def exponent (x : Numeral) : Int :=
  Number.withSign (x.power?.getD (false, [])).1 (digitsValue (x.power?.getD (false, [])).2) -
    (x.fraction?.getD []).length

/-- The rational number that the parts write. -/
def value (x : Numeral) : ℚ := x.digits * 10 ^ x.exponent

/-- What JSON text requires of a number. -/
structure Proper (x : Numeral) : Prop where
  whole : Row x.whole
  leading : x.whole = ['0'] ∨ x.whole.head? ≠ some '0'
  fraction : ∀ ds, x.fraction? = some ds → Row ds
  power : ∀ below ds, x.power? = some (below, ds) → Row ds

end Numeral

/-! ## Reading a number -/

/-- What may follow a value in a text. -/
def Closes (rest : List Char) : Prop := ∀ c, rest.head? = some c → c = ',' ∨ c = ']' ∨ c = '\x7d'

/-- What does not go on with a digit. -/
def Blunt (rest : List Char) : Prop := ∀ c, rest.head? = some c → c.isDigit = false

theorem Closes.blunt {rest : List Char} (h : Closes rest) : Blunt rest := by
  intro c hc
  rcases h c hc with rfl | rfl | rfl <;> rfl

theorem isPlainDigit_eq (c : Char) : isPlainDigit c = c.isDigit := by
  simp only [isPlainDigit, Char.isDigit, Char.le_def, ge_iff_le]

theorem takeDigits_append {ds rest : List Char} (hds : ∀ c ∈ ds, c.isDigit = true) (hrest : Blunt rest) :
    takeDigits (ds ++ rest) = (ds, rest) := by
  have hplain : ∀ c ∈ ds, isPlainDigit c = true := fun c hc => by rw [isPlainDigit_eq, hds c hc]
  have hstop : rest.takeWhile isPlainDigit = [] ∧ rest.dropWhile isPlainDigit = rest := by
    cases rest with
    | nil => exact ⟨rfl, rfl⟩
    | cons c rest =>
        have hc : isPlainDigit c = false := by rw [isPlainDigit_eq, hrest c rfl]
        simp [hc]
  unfold takeDigits
  rw [List.takeWhile_append_of_pos hplain, List.dropWhile_append_of_pos hplain, hstop.1, hstop.2,
    List.append_nil]

theorem takeWhole_append {ds rest : List Char} (hds : Row ds)
    (hleading : ds = ['0'] ∨ ds.head? ≠ some '0') (hrest : Blunt rest) :
    takeWhole (ds ++ rest) = (ds, rest) := by
  rcases hds with ⟨hne, hdigits⟩
  rcases hleading with rfl | hhead
  · rfl
  · cases ds with
    | nil => exact absurd rfl hne
    | cons c ds =>
        have hc : c ≠ '0' := fun h => hhead (by rw [h]; rfl)
        -- Without a zero in front the digits go on as far as they can.
        have hwhole : takeWhole (c :: ds ++ rest) = takeDigits (c :: ds ++ rest) := by
          rw [takeWhole]
          intro after hafter
          exact hc (List.cons.inj hafter).1
        rw [hwhole]
        exact takeDigits_append hdigits hrest

theorem takePoint_append {fraction? : Option (List Char)} (h : ∀ ds, fraction? = some ds → Row ds)
    {rest : List Char} (hrest : Blunt rest) (hpoint : rest.head? ≠ some '.') :
    takePoint (Numeral.fractionChars fraction? ++ rest) = (fraction?, rest) := by
  cases fraction? with
  | none =>
      change takePoint rest = _
      rw [takePoint]
      intro after hafter
      exact hpoint (by rw [hafter]; rfl)
  | some ds =>
      rcases h ds rfl with ⟨hne, hdigits⟩
      have hdigits' := takeDigits_append hdigits hrest
      have hempty : ds.isEmpty = false := by simpa using hne
      simp only [Numeral.fractionChars, List.cons_append, takePoint, hdigits', hempty,
        Bool.false_eq_true, if_false]

theorem takePower_append {power? : Option (Bool × List Char)}
    (h : ∀ below ds, power? = some (below, ds) → Row ds) {rest : List Char} (hrest : Closes rest) :
    takePower (Numeral.powerChars power? ++ rest) = (power?, rest) := by
  cases power? with
  | none =>
      change takePower rest = _
      cases rest with
      | nil => rfl
      | cons c rest =>
          have hmark : ¬ (c = 'e' ∨ c = 'E') := by
            rcases hrest c rfl with rfl | rfl | rfl <;> decide
          rw [takePower, if_neg hmark]
  | some power =>
      rcases power with ⟨below, ds⟩
      rcases h below ds rfl with ⟨hne, hdigits⟩
      have hdigits' := takeDigits_append hdigits hrest.blunt
      have hempty : ds.isEmpty = false := by simpa using hne
      have hsign : Number.takeSign ((if below then '-' else '+') :: (ds ++ rest)) = (below, ds ++ rest) := by
        cases below <;> rfl
      simp only [Numeral.powerChars, List.cons_append, takePower, true_or, if_true, hsign, hdigits', hempty,
        Bool.false_eq_true, if_false]

namespace Numeral

theorem powerChars_head (power? : Option (Bool × List Char)) {rest : List Char} (hrest : Closes rest) :
    ∀ c, (powerChars power? ++ rest).head? = some c → c = 'e' ∨ c = ',' ∨ c = ']' ∨ c = '\x7d' := by
  intro c hc
  cases power? with
  | none => exact Or.inr (hrest c hc)
  | some power =>
      cases hc
      exact Or.inl rfl

theorem blunt_powerChars (power? : Option (Bool × List Char)) {rest : List Char} (hrest : Closes rest) :
    Blunt (powerChars power? ++ rest) := by
  intro c hc
  rcases powerChars_head power? hrest c hc with rfl | rfl | rfl | rfl <;> rfl

theorem blunt_fractionChars (x : Numeral) {rest : List Char} (hrest : Closes rest) :
    Blunt (fractionChars x.fraction? ++ (powerChars x.power? ++ rest)) := by
  intro c hc
  cases hfraction : x.fraction? with
  | none =>
      rw [hfraction] at hc
      exact blunt_powerChars x.power? hrest c hc
  | some ds =>
      rw [hfraction] at hc
      cases hc
      rfl

/-- A number with a fraction or an exponent is read as the float nearest to it. -/
theorem readNumber_chars {x : Numeral} (hx : x.Proper) (hfloat : x.fraction? ≠ none ∨ x.power? ≠ none)
    (negative : Bool) {rest : List Char} (hrest : Closes rest) :
    readNumber negative (x.chars ++ rest) =
      .ok (.float (Number.ofDecimal negative x.digits x.exponent), rest) := by
  have hwhole := takeWhole_append hx.whole hx.leading (x.blunt_fractionChars hrest)
  have hpoint : (powerChars x.power? ++ rest).head? ≠ some '.' := by
    intro hhead
    rcases powerChars_head x.power? hrest _ hhead with h | h | h | h <;> cases h
  have hfraction := takePoint_append hx.fraction (blunt_powerChars x.power? hrest) hpoint
  have hpower := takePower_append hx.power hrest
  have hempty : x.whole.isEmpty = false := by simpa using hx.whole.1
  unfold readNumber chars
  rw [List.append_assoc, List.append_assoc]
  simp only [hwhole, hfraction, hpower, hempty, Bool.false_eq_true, if_false]
  split
  · -- An integer has neither of the two parts.
    rename_i hnone hnone'
    rcases hfloat with h | h
    · exact absurd hnone h
    · exact absurd hnone' h
  · rfl

end Numeral

/-- A row of digits that is not too long is read as an integer. -/
theorem readNumber_digits {ds : List Char} (hds : Row ds) (hleading : ds = ['0'] ∨ ds.head? ≠ some '0')
    (hshort : ds.length ≤ digitLimit) (negative : Bool) {rest : List Char} (hrest : Closes rest) :
    readNumber negative (ds ++ rest) =
      .ok (.int (Number.withSign negative (digitsValue ds)), rest) := by
  have hwhole := takeWhole_append hds hleading hrest.blunt
  have hfraction : takePoint rest = (none, rest) := by
    change takePoint (Numeral.fractionChars none ++ rest) = _
    refine takePoint_append (by simp) hrest.blunt ?_
    intro hhead
    rcases hrest _ hhead with h | h | h <;> cases h
  have hpower : takePower rest = (none, rest) := by
    change takePower (Numeral.powerChars none ++ rest) = _
    exact takePower_append (by simp) hrest
  have hempty : ds.isEmpty = false := by simpa using hds.1
  unfold readNumber
  simp only [hwhole, hfraction, hpower, hempty, Bool.false_eq_true, if_false,
    if_neg (Nat.not_lt.2 hshort)]

end Json

namespace FloatLayout

open Text Json

/-- What is dropped are zeros. -/
theorem dropEndZeros_append (ds : List Char) :
    ∃ k, ds = dropEndZeros ds ++ List.replicate k '0' := by
  refine ⟨(ds.reverse.takeWhile (· = '0')).length, ?_⟩
  have hzeros : ds.reverse.takeWhile (· = '0') =
      List.replicate (ds.reverse.takeWhile (· = '0')).length '0' := by
    refine List.eq_replicate_iff.2 ⟨rfl, fun c hc => ?_⟩
    exact of_decide_eq_true (List.all_eq_true.1 List.all_takeWhile c hc)
  -- Front and back of the reversed digits, turned round again.
  have hsplit := List.takeWhile_append_dropWhile (p := (· = '0')) (l := ds.reverse)
  have hreverse := congrArg List.reverse hsplit
  rw [List.reverse_append, List.reverse_reverse] at hreverse
  unfold dropEndZeros
  conv_lhs => rw [← hreverse]
  rw [hzeros, List.reverse_replicate, List.length_replicate]

theorem withSign_natAbs (n : Int) : Number.withSign (decide (n < 0)) n.natAbs = n := by
  unfold Number.withSign
  simp only [decide_eq_true_eq]
  split <;> omega

theorem withSign_nil : Number.withSign false (digitsValue []) = 0 := rfl

/-! ## Rows of digits -/

theorem row_zero : Row ['0'] := by
  refine ⟨List.cons_ne_nil _ _, fun c hc => ?_⟩
  rw [List.mem_singleton.1 hc]
  rfl

theorem row_toDigits (n : Nat) : Row (Nat.toDigits 10 n) :=
  ⟨Nat.toDigits_ne_nil, fun _ => Nat.isDigit_of_mem_toDigits (by decide) (by decide)⟩

theorem digits_replicate (k : Nat) : ∀ c ∈ List.replicate k '0', c.isDigit = true := by
  intro c hc
  rw [List.eq_of_mem_replicate hc]
  rfl

theorem row_replicate_append (k : Nat) {ds : List Char} (h : Row ds) : Row (List.replicate k '0' ++ ds) := by
  refine ⟨by simp [h.1], fun c hc => ?_⟩
  rcases List.mem_append.1 hc with hc | hc
  · exact digits_replicate k c hc
  · exact h.2 c hc

theorem row_append_replicate (k : Nat) {ds : List Char} (h : Row ds) : Row (ds ++ List.replicate k '0') := by
  refine ⟨by simp [h.1], fun c hc => ?_⟩
  rcases List.mem_append.1 hc with hc | hc
  · exact h.2 c hc
  · exact digits_replicate k c hc

theorem row_take {ds : List Char} (h : Row ds) (k : Nat) : Row (ds.take (k + 1)) :=
  ⟨by simp [h.1], fun c hc => h.2 c (List.mem_of_mem_take hc)⟩

theorem row_drop {ds : List Char} (h : Row ds) {k : Nat} (hk : k < ds.length) : Row (ds.drop k) := by
  refine ⟨fun hnil => ?_, fun c hc => h.2 c (List.mem_of_mem_drop hc)⟩
  have hlength := congrArg List.length hnil
  rw [List.length_drop, List.length_nil] at hlength
  omega

/-! ## What a layout writes -/

/-- A text that writes a rational number with a fraction or an exponent. -/
def Writes (cs : List Char) (v : ℚ) : Prop :=
  ∃ x : Numeral, x.Proper ∧ (x.fraction? ≠ none ∨ x.power? ≠ none) ∧ cs = x.chars ∧ x.value = v

/-- A numeral with a fraction and without an exponent. -/
theorem writes_fraction {whole fraction : List Char} (hwhole : Row whole)
    (hleading : whole = ['0'] ∨ whole.head? ≠ some '0') (hfraction : Row fraction) :
    Writes (whole ++ '.' :: fraction)
      (digitsValue (whole ++ fraction) * 10 ^ (-(fraction.length : Int))) := by
  refine ⟨⟨whole, some fraction, none⟩, ⟨hwhole, hleading, ?_, by simp⟩, Or.inl (by simp), ?_, ?_⟩
  · rintro _ ⟨⟩
    exact hfraction
  · simp [Numeral.chars, Numeral.fractionChars, Numeral.powerChars]
  · simp only [Numeral.value, Numeral.digits, Numeral.exponent, Option.getD_some, Option.getD_none,
      withSign_nil, zero_sub]

/-- What is written without an exponent has the leading digit in its place. -/
theorem writes_plain {ds : List Char} (hds : Row ds) (hhead : ds.head? ≠ some '0') (leading : Int) :
    Writes (plain ds leading) (digitsValue ds * 10 ^ (leading + 1 - ds.length)) := by
  have hzero : digitsValue ['0'] = 0 := rfl
  unfold plain
  split
  · -- Zeros between the point and the digits.
    have hwrites := writes_fraction row_zero (Or.inl rfl) (row_replicate_append (-leading - 1).toNat hds)
    have hdigits : digitsValue (['0'] ++ (List.replicate (-leading - 1).toNat '0' ++ ds)) = digitsValue ds := by
      rw [digitsValue_append, digitsValue_append, digitsValue_zeros, hzero, Nat.zero_mul, Nat.zero_mul,
        Nat.zero_add, Nat.zero_add]
    have hexponent : -((List.replicate (-leading - 1).toNat '0' ++ ds).length : Int) =
        leading + 1 - ds.length := by
      rw [List.length_append, List.length_replicate]
      omega
    rw [hdigits, hexponent] at hwrites
    exact hwrites
  · dsimp only
    split
    · -- Zeros between the digits and the point.
      have hleading : ds ++ List.replicate (leading.toNat + 1 - ds.length) '0' = ['0'] ∨
          (ds ++ List.replicate (leading.toNat + 1 - ds.length) '0').head? ≠ some '0' := by
        rw [List.head?_append_of_ne_nil _ hds.1]
        exact Or.inr hhead
      have hwrites := writes_fraction (row_append_replicate (leading.toNat + 1 - ds.length) hds) hleading row_zero
      have hdigits : digitsValue (ds ++ List.replicate (leading.toNat + 1 - ds.length) '0' ++ ['0']) =
          digitsValue ds * 10 ^ (leading.toNat + 1 - ds.length) * 10 := by
        rw [digitsValue_append, digitsValue_append, digitsValue_zeros, hzero, List.length_replicate,
          Nat.add_zero, Nat.add_zero, List.length_singleton, Nat.pow_one]
      have hexponent : leading + 1 - ds.length = ((leading.toNat + 1 - ds.length : Nat) : Int) := by omega
      have hvalue : ((digitsValue ds * 10 ^ (leading.toNat + 1 - ds.length) * 10 : Nat) : ℚ) *
          10 ^ (-((['0'] : List Char).length : Int)) = digitsValue ds * 10 ^ (leading + 1 - ds.length) := by
        rw [hexponent, zpow_natCast]
        simp
      rw [hdigits, hvalue] at hwrites
      rw [List.append_assoc] at hwrites ⊢
      exact hwrites
    · -- The point among the digits.
      have hleading : ds.take (leading.toNat + 1) = ['0'] ∨
          (ds.take (leading.toNat + 1)).head? ≠ some '0' := by
        rw [List.head?_take, if_neg (by omega)]
        exact Or.inr hhead
      have hwrites := writes_fraction (row_take hds leading.toNat) hleading
        (row_drop hds (k := leading.toNat + 1) (by omega))
      have hexponent : -((ds.drop (leading.toNat + 1)).length : Int) = leading + 1 - ds.length := by
        rw [List.length_drop]
        omega
      rw [List.take_append_drop, hexponent] at hwrites
      exact hwrites

/-- What is written with an exponent has its leading digit before the point. -/
theorem writes_scientific (layout : FloatLayout) {ds : List Char} (hds : Row ds)
    (hhead : ds.head? ≠ some '0') (leading : Int) :
    Writes (layout.scientific ds leading) (digitsValue ds * 10 ^ (leading + 1 - ds.length)) := by
  have hpower : Row (List.replicate (layout.exponentDigits - (Nat.toDigits 10 leading.natAbs).length) '0' ++
      Nat.toDigits 10 leading.natAbs) := row_replicate_append _ (row_toDigits _)
  have hvalue : digitsValue (List.replicate (layout.exponentDigits -
      (Nat.toDigits 10 leading.natAbs).length) '0' ++ Nat.toDigits 10 leading.natAbs) = leading.natAbs := by
    rw [digitsValue_append, digitsValue_zeros, digitsValue_toDigits, Nat.zero_mul, Nat.zero_add]
  unfold scientific
  dsimp only
  generalize hrow : List.replicate (layout.exponentDigits - (Nat.toDigits 10 leading.natAbs).length) '0' ++
    Nat.toDigits 10 leading.natAbs = row at hpower hvalue
  have hpower' : ∀ below es, some (decide (leading < 0), row) = some (below, es) → Row es := by
    rintro _ _ ⟨⟩
    exact hpower
  have hlength : 0 < ds.length := List.length_pos_iff.2 hds.1
  split
  · -- One digit needs no point.
    refine ⟨⟨ds, none, some (decide (leading < 0), row)⟩, ⟨hds, Or.inr hhead, by simp, hpower'⟩,
      Or.inr (by simp), ?_, ?_⟩
    · simp [Numeral.chars, Numeral.fractionChars, Numeral.powerChars, hrow]
    · simp only [Numeral.value, Numeral.digits, Numeral.exponent, Option.getD_some, Option.getD_none,
        List.append_nil, hvalue, withSign_natAbs, List.length_nil]
      congr 2
      omega
  · have hsplit : ds.take 1 ++ ds.drop 1 = ds := List.take_append_drop ..
    have hhead' : (ds.take 1).head? ≠ some '0' := by
      rw [List.head?_take, if_neg (by omega)]
      exact hhead
    have hfraction : ∀ es, some (ds.drop 1) = some es → Row es := by
      rintro _ ⟨⟩
      exact row_drop hds (by omega)
    refine ⟨⟨ds.take 1, some (ds.drop 1), some (decide (leading < 0), row)⟩,
      ⟨row_take hds 0, Or.inr hhead', hfraction, hpower'⟩, Or.inl (by simp), ?_, ?_⟩
    · simp [Numeral.chars, Numeral.fractionChars, Numeral.powerChars, hrow]
    · simp only [Numeral.value, Numeral.digits, Numeral.exponent, Option.getD_some, hsplit, hvalue,
        withSign_natAbs]
      congr 2
      rw [List.length_drop]
      omega

/-- The text of a positive decimal writes its value. -/
theorem writes_decimal (layout : FloatLayout) {d : Decimal} (hd : d.digits ≠ 0) :
    Writes (layout.writeDecimal d) (d.digits * 10 ^ d.exponent) := by
  rcases dropEndZeros_append (Nat.toDigits 10 d.digits) with ⟨k, hall⟩
  have hhead := head?_toDigits hd
  have hvalue := digitsValue_toDigits d.digits
  have hdigits := (row_toDigits d.digits).2
  have hne : dropEndZeros (Nat.toDigits 10 d.digits) ≠ [] := by
    intro hnil
    rw [hall, hnil, List.nil_append, digitsValue_zeros] at hvalue
    exact hd hvalue.symm
  unfold writeDecimal
  dsimp only
  -- From here on: all digits, and the digits without the zeros at the end.
  generalize Nat.toDigits 10 d.digits = all at *
  generalize dropEndZeros all = ds at *
  have hds : Row ds := by
    refine ⟨hne, fun c hc => hdigits c ?_⟩
    rw [hall]
    exact List.mem_append_left _ hc
  have hhead' : ds.head? ≠ some '0' := by
    rw [hall, List.head?_append_of_ne_nil _ hne] at hhead
    exact hhead
  have hsame : (digitsValue ds : ℚ) * 10 ^ ((all.length : Int) - 1 + d.exponent + 1 - ds.length) =
      d.digits * 10 ^ d.exponent := by
    have hlength : (all.length : Int) - 1 + d.exponent + 1 - ds.length = (k : Int) + d.exponent := by
      rw [hall, List.length_append, List.length_replicate]
      push_cast
      ring
    have hzeros : d.digits = digitsValue ds * 10 ^ k := by
      rw [← hvalue, hall, digitsValue_append, digitsValue_zeros, List.length_replicate, Nat.add_zero]
    rw [hlength, hzeros, zpow_add₀ (by norm_num), zpow_natCast]
    push_cast
    ring
  rw [← hsame]
  split
  · exact writes_plain hds hhead' _
  · exact writes_scientific layout hds hhead' _

end FloatLayout

namespace Json

/-! ## Reading what is written -/

/-- What is written of a finite float is a proper numeral after its sign, and the numeral is nearest to
this float. -/
theorem write_finite (layout : FloatLayout) {x : Float} {d : Dyadic} (hread : Binary64.read x = .finite d) :
    ∃ y : Numeral, y.Proper ∧ (y.fraction? ≠ none ∨ y.power? ≠ none) ∧
      (layout.write x).toList = (if d.negative then '-' :: y.chars else y.chars) ∧
      Number.ofDecimal d.negative y.digits y.exponent = x := by
  have hwrite : (layout.write x).toList =
      let magnitude := if d.significand = 0 then ['0', '.', '0']
        else layout.writeDecimal (Shortest.decimal d.significand d.exponent)
      if d.negative then '-' :: magnitude else magnitude := by
    simp only [FloatLayout.write, hread, String.toList_ofList]
  rw [hwrite]
  by_cases hd : d.significand = 0
  · have hproper : Numeral.Proper ⟨['0'], some ['0'], none⟩ := by
      refine ⟨FloatLayout.row_zero, Or.inl rfl, ?_, by simp⟩
      rintro _ ⟨⟩
      exact FloatLayout.row_zero
    refine ⟨⟨['0'], some ['0'], none⟩, hproper, Or.inl (by simp), ?_, ?_⟩
    · rw [if_pos hd]
      rfl
    · exact Number.ofDecimal_zero hread hd _
  · rcases (Binary64.canonical_of_read hread).1 with ⟨hshort, hleast, hgreatest, -⟩
    rcases Shortest.decimal_holds hd hshort hleast hgreatest with ⟨hholds, hdigits⟩
    rcases layout.writes_decimal hdigits with ⟨y, hy, hfloat, hchars, hvalue⟩
    -- The numeral lies where the decimal does.
    have hsame : (Shortest.interval d.significand d.exponent).holds
        (Shortest.Decimal.ratio ⟨y.digits, y.exponent⟩) = true := by
      rw [Shortest.Interval.holds_iff (Shortest.Decimal.ratio_den _),
        Shortest.Decimal.value_ratio] at hholds ⊢
      rw [← hvalue] at hholds
      exact hholds
    refine ⟨y, hy, hfloat, ?_, Number.ofDecimal_of_holds hread hd hsame⟩
    rw [if_neg hd, hchars]

theorem readPlain_digit {cs : List Char} (h : ∃ c, cs.head? = some c ∧ c.isDigit = true) :
    readPlain cs = readNumber false cs := by
  rcases h with ⟨c, hhead, hdigit⟩
  rw [readPlain]
  -- No word starts with a digit, and no sign is one.
  all_goals
    rintro _ rfl
    cases hhead
    exact absurd hdigit (by decide)

theorem readPlain_minus {cs : List Char} (h : ∃ c, cs.head? = some c ∧ c.isDigit = true) :
    readPlain ('-' :: cs) = readNumber true cs := by
  rcases h with ⟨c, hhead, hdigit⟩
  rw [readPlain]
  rintro _ rfl
  cases hhead
  exact absurd hdigit (by decide)

/-- What starts with a digit after its sign is read as a number. -/
theorem readPlain_signed (negative : Bool) {cs rest : List Char} (hrow : ∃ c, cs.head? = some c ∧ c.isDigit = true) :
    readPlain ((if negative then '-' :: cs else cs) ++ rest) = readNumber negative (cs ++ rest) := by
  have hrow' : ∃ c, (cs ++ rest).head? = some c ∧ c.isDigit = true := by
    rcases hrow with ⟨c, hhead, hdigit⟩
    exact ⟨c, by simp [List.head?_append, hhead], hdigit⟩
  cases negative with
  | false => exact readPlain_digit hrow'
  | true => exact readPlain_minus hrow'

theorem Row.head {ds : List Char} (h : Row ds) (rest : List Char) :
    ∃ c, (ds ++ rest).head? = some c ∧ c.isDigit = true := by
  rcases h with ⟨hne, hdigits⟩
  cases ds with
  | nil => exact absurd rfl hne
  | cons c ds => exact ⟨c, rfl, hdigits c (List.mem_cons_self ..)⟩

theorem write_infinite {x : Float} {negative : Bool} (hread : Binary64.read x = .infinite negative) :
    (numberLayout.write x).toList = if negative then "-Infinity".toList else "Infinity".toList := by
  simp only [FloatLayout.write, hread]
  cases negative <;> rfl

/-- What is written of a float that is defined is read as this float. -/
theorem readPlain_float {x : Float} (h : Binary64.read x ≠ .undefined) {rest : List Char}
    (hrest : Closes rest) : readPlain ((numberLayout.write x).toList ++ rest) = .ok (.float x, rest) := by
  cases hread : Binary64.read x with
  | undefined => exact absurd hread h
  | infinite negative =>
      rw [write_infinite hread]
      cases negative <;> exact congrArg (fun y => Except.ok (Value.float y, rest))
        (Binary64.ofMagnitude_infinityBits hread)
  | finite d =>
      rcases write_finite numberLayout hread with ⟨y, hy, hfloat, hchars, hnearest⟩
      have hhead : ∃ c, y.chars.head? = some c ∧ c.isDigit = true := hy.whole.head _
      rw [hchars, readPlain_signed d.negative hhead, Numeral.readNumber_chars hy hfloat d.negative hrest,
        hnearest]

theorem Row.head_self {ds : List Char} (h : Row ds) : ∃ c, ds.head? = some c ∧ c.isDigit = true := by
  have hhead := h.head []
  rwa [List.append_nil] at hhead

/-- An integer is written as its digits after its sign. -/
theorem writeInt_eq {n : Int} {cs : List Char} (h : Number.writeInt n = .ok cs) :
    cs = (if decide (n < 0) then '-' :: Nat.toDigits 10 n.natAbs else Nat.toDigits 10 n.natAbs) ∧
      (Nat.toDigits 10 n.natAbs).length ≤ digitLimit := by
  unfold Number.writeInt at h
  dsimp only at h
  split at h
  · cases h
  · rename_i hshort
    cases h
    exact ⟨by simp, Nat.le_of_not_lt hshort⟩

/-- What is written of an integer is read as this integer. -/
theorem readPlain_int {n : Int} {cs : List Char} (h : Number.writeInt n = .ok cs) {rest : List Char}
    (hrest : Closes rest) : readPlain (cs ++ rest) = .ok (.int n, rest) := by
  rcases writeInt_eq h with ⟨hcs, hshort⟩
  have hrow := FloatLayout.row_toDigits n.natAbs
  have hleading : Nat.toDigits 10 n.natAbs = ['0'] ∨ (Nat.toDigits 10 n.natAbs).head? ≠ some '0' := by
    by_cases hzero : n.natAbs = 0
    · exact Or.inl (by rw [hzero]; rfl)
    · exact Or.inr (Text.head?_toDigits hzero)
  rw [hcs, readPlain_signed (decide (n < 0)) hrow.head_self,
    readNumber_digits hrow hleading hshort _ hrest, Text.digitsValue_toDigits,
    FloatLayout.withSign_natAbs]

/-! ## How a number starts -/

/-- The first character of a number: a digit, a sign, or that of the word for the infinite. -/
def OpensNumber (cs : List Char) : Prop :=
  ∃ c, cs.head? = some c ∧ (c.isDigit = true ∨ c = '-' ∨ c = 'I')

theorem opensNumber_signed (negative : Bool) {cs : List Char}
    (h : ∃ c, cs.head? = some c ∧ c.isDigit = true) : OpensNumber (if negative then '-' :: cs else cs) := by
  rcases h with ⟨c, hc, hdigit⟩
  cases negative with
  | false => exact ⟨c, hc, Or.inl hdigit⟩
  | true => exact ⟨'-', rfl, Or.inr (Or.inl rfl)⟩

theorem opensNumber_int {n : Int} {cs : List Char} (h : Number.writeInt n = .ok cs) : OpensNumber cs := by
  rw [(writeInt_eq h).1]
  exact opensNumber_signed _ (FloatLayout.row_toDigits n.natAbs).head_self

theorem opensNumber_float {x : Float} (h : Binary64.read x ≠ .undefined) :
    OpensNumber (numberLayout.write x).toList := by
  cases hread : Binary64.read x with
  | undefined => exact absurd hread h
  | infinite negative =>
      rw [write_infinite hread]
      cases negative with
      | false => exact ⟨'I', rfl, Or.inr (Or.inr rfl)⟩
      | true => exact ⟨'-', rfl, Or.inr (Or.inl rfl)⟩
  | finite d =>
      rcases write_finite numberLayout hread with ⟨y, hy, -, hchars, -⟩
      rw [hchars]
      exact opensNumber_signed d.negative (hy.whole.head _)

end Json

end RuleTrader
