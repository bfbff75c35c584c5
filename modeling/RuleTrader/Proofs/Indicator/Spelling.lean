import RuleTrader.Proofs.Indicator.Key
import RuleTrader.Proofs.Number.Decimal

/-!
# How indicator keys are spelled

A spelled key is the name of an indicator, a colon and the digits of a period, and for the bands and the
trend line another colon and a multiplier (`Spelling`). This relates the reading of keys to their spelling.
A key is recognised exactly (`IndicatorKey.RecognisedExactly`) if reading it does not fail, gives an indicator
if and only if the key is spelled, and then gives the one that is spelled out (`Spelling.Carries`): its name,
the value of the digits of its period, and the float that its multiplier is rounded to.

A text that is spelled, apart from one line feed at its end, is read as what it spells out, unless the period
has too many digits (`read_spelled`), and of any other text nothing is read (`spelled_of_read`). So the keys
that are not recognised exactly are the spelled ones that a line feed follows and those with too long a period
(`recognisedExactly_iff`).
-/

namespace RuleTrader

/-! ## Spelled keys -/

/-- One decimal digit or more, of any script. -/
structure DigitRow where
  chars : List Char
  isDigits : IndicatorKey.isDigits chars = true

/-- The number that the digits denote in base ten. -/
def DigitRow.value (row : DigitRow) : ℕ := Nat.ofDigits 10 (row.chars.reverse.map Text.digitValue)

/-- Digits, and a point and digits after them if there is a fraction. -/
structure Multiplier where
  whole : DigitRow
  fraction? : Option DigitRow

namespace Multiplier

def chars (m : Multiplier) : List Char :=
  match m.fraction? with
  | none => m.whole.chars
  | some fraction => m.whole.chars ++ '.' :: fraction.chars

/-- The number that the multiplier denotes. -/
def value (m : Multiplier) : ℚ :=
  match m.fraction? with
  | none => m.whole.value
  | some fraction => m.whole.value + fraction.value / 10 ^ fraction.chars.length

end Multiplier

/-- An indicator spelled out as the name and the period, with a multiplier where the name takes one. -/
inductive Spelling where
  | plain (name : String) (known : name ∈ ["ma", "rsi", "atr"]) (period : DigitRow)
  | scaled (name : String) (known : name ∈ ["bollingerUpper", "bollingerLower", "supertrend"])
      (period : DigitRow) (multiplier : Multiplier)

namespace Spelling

def chars : Spelling → List Char
  | plain name _ period => name.toList ++ ':' :: period.chars
  | scaled name _ period multiplier => name.toList ++ ':' :: (period.chars ++ ':' :: multiplier.chars)

def name : Spelling → String
  | plain name _ _ => name
  | scaled name _ _ _ => name

def period : Spelling → DigitRow
  | plain _ _ period => period
  | scaled _ _ period _ => period

def multiplier? : Spelling → Option Multiplier
  | plain _ _ _ => none
  | scaled _ _ _ multiplier => some multiplier

/-- An indicator is the one that is spelled out. -/
structure Carries (p : Spelling) (spec : IndicatorSpec) : Prop where
  name : spec.kind.name = p.name
  period : spec.period = p.period.value
  multiplier : ∀ m, p.multiplier? = some m → Binary64.Nearest spec.multiplier m.value

end Spelling

namespace IndicatorKey

/-- What is read of a key says exactly whether and how it is spelled, and keys of one name with different
periods are told apart. -/
structure ReadExactly (key : String) (spec? : Option IndicatorSpec) : Prop where
  isSome_iff : spec?.isSome = true ↔ ∃ p : Spelling, key.toList = p.chars
  carries : ∀ spec, spec? = some spec → ∀ p : Spelling, key.toList = p.chars → p.Carries spec
  apart : ∀ spec, spec? = some spec → ∀ key' spec', read key' = .ok (some spec') →
    ∀ p p' : Spelling, key.toList = p.chars → key'.toList = p'.chars →
      p.name = p'.name → p.period.value ≠ p'.period.value → spec ≠ spec'

/-- Reading the key does not fail, and it says exactly whether and how the key is spelled. -/
def RecognisedExactly (key : String) : Prop :=
  ∃ spec?, read key = .ok spec? ∧ ReadExactly key spec?

/-! ## Characters -/

theorem isDigits_iff {cs : List Char} : isDigits cs = true ↔ cs ≠ [] ∧ ∀ c ∈ cs, Text.isDigit c = true := by
  simp [isDigits]

theorem not_mem_of_isDigits {cs : List Char} (h : isDigits cs = true) {c : Char}
    (hc : Text.isDigit c = false) : c ∉ cs := by
  intro hmem
  rw [(isDigits_iff.1 h).2 c hmem] at hc
  cases hc

theorem splitColon?_append {front : List Char} (h : ':' ∉ front) (rest : List Char) :
    splitColon? (front ++ ':' :: rest) = some (front, rest) := by
  have hfront : ∀ c ∈ front, decide (c ≠ ':') = true := by
    intro c hc
    exact decide_eq_true fun hcolon => h (hcolon ▸ hc)
  unfold splitColon?
  rw [List.dropWhile_append_of_pos hfront, List.takeWhile_append_of_pos hfront]
  simp

/-- Only one line feed at the end is passed over. -/
theorem eq_or_eq_of_dropLineFeed {cs ds : List Char} (h : dropLineFeed cs = ds) :
    cs = ds ∨ cs = ds ++ ['\n'] := by
  unfold dropLineFeed at h
  split at h
  · rename_i hlast
    obtain ⟨front, rfl⟩ := List.getLast?_eq_some_iff.1 hlast
    rw [List.dropLast_concat] at h
    exact Or.inr (by rw [h])
  · exact Or.inl h

theorem dropLineFeed_of_not_mem {cs : List Char} (h : '\n' ∉ cs) : dropLineFeed cs = cs :=
  if_neg fun hlast => h (List.mem_of_getLast? hlast)

theorem dropLineFeed_concat (cs : List Char) : dropLineFeed (cs ++ ['\n']) = cs := by
  unfold dropLineFeed
  rw [if_pos List.getLast?_concat, List.dropLast_concat]

/-! ## Names -/

theorem ofName?_name (kind : Indicator) : Indicator.ofName? kind.name = some kind := by
  cases kind <;> rfl

theorem plain_iff {name : String} :
    name ∈ ["ma", "rsi", "atr"] ↔ ∃ kind : Indicator, kind.name = name ∧ kind.hasMultiplier = false := by
  constructor
  · intro h
    simp only [List.mem_cons, List.not_mem_nil, or_false] at h
    rcases h with rfl | rfl | rfl
    · exact ⟨.movingAverage, rfl, rfl⟩
    · exact ⟨.relativeStrength, rfl, rfl⟩
    · exact ⟨.trueRange, rfl, rfl⟩
  · rintro ⟨kind, rfl, h⟩
    cases kind <;> revert h <;> decide

theorem scaled_iff {name : String} :
    name ∈ ["bollingerUpper", "bollingerLower", "supertrend"] ↔
      ∃ kind : Indicator, kind.name = name ∧ kind.hasMultiplier = true := by
  constructor
  · intro h
    simp only [List.mem_cons, List.not_mem_nil, or_false] at h
    rcases h with rfl | rfl | rfl
    · exact ⟨.upperBand, rfl, rfl⟩
    · exact ⟨.lowerBand, rfl, rfl⟩
    · exact ⟨.superTrend, rfl, rfl⟩
  · rintro ⟨kind, rfl, h⟩
    cases kind <;> revert h <;> decide

theorem not_mem_name (kind : Indicator) : ':' ∉ kind.name.toList ∧ '\n' ∉ kind.name.toList := by
  cases kind <;> decide

/-! ## Multipliers -/

/-- A multiplier is read as the float that it is rounded to. -/
theorem multiplier?_chars (m : Multiplier) :
    ∃ x, multiplier? m.chars = some x ∧ Binary64.Nearest x m.value := by
  rcases m with ⟨⟨whole, hwhole⟩, fraction?⟩
  obtain ⟨hne, hdigits⟩ := isDigits_iff.1 hwhole
  have hempty : whole.isEmpty = false := by simpa using hne
  cases fraction? with
  | none =>
      refine ⟨Number.ofDecimal false (Text.digitsValue whole) 0, ?_, ?_⟩
      · simp [multiplier?, Multiplier.chars, List.takeWhile_eq_self_iff.2 hdigits,
          List.dropWhile_eq_nil_iff.2 hdigits, hempty]
      · have hnearest := Number.ofDecimal_nearest false (Text.digitsValue whole) 0
        rw [zpow_zero, mul_one, Text.digitsValue_eq_ofDigits] at hnearest
        rw [Text.digitsValue_eq_ofDigits]
        exact hnearest
  | some fraction =>
      rcases fraction with ⟨fraction, hfraction⟩
      have hpoint : Text.isDigit '.' = false := by decide
      refine ⟨Number.ofDecimal false (Text.digitsValue (whole ++ fraction)) (-(fraction.length : ℤ)), ?_, ?_⟩
      · simp [multiplier?, Multiplier.chars, List.takeWhile_append_of_pos hdigits,
          List.dropWhile_append_of_pos hdigits, hempty, hpoint, hfraction]
      · have hnearest := Number.ofDecimal_nearest false (Text.digitsValue (whole ++ fraction))
          (-(fraction.length : ℤ))
        -- The digits after the point are worth as many places less as there are of them.
        have hvalue : (Text.digitsValue (whole ++ fraction) : ℚ) * 10 ^ (-(fraction.length : ℤ)) =
            Text.digitsValue whole + Text.digitsValue fraction / 10 ^ fraction.length := by
          rw [Text.digitsValue_append, zpow_neg, zpow_natCast]
          push_cast
          field_simp
        rw [hvalue, Text.digitsValue_eq_ofDigits whole, Text.digitsValue_eq_ofDigits fraction] at hnearest
        exact hnearest

/-- Nothing else is read as a multiplier. -/
theorem exists_multiplier {cs : List Char} {x : Float} (h : multiplier? cs = some x) :
    ∃ m : Multiplier, cs = m.chars := by
  have hsplit := List.takeWhile_append_dropWhile (p := Text.isDigit) (l := cs)
  unfold multiplier? at h
  dsimp only at h
  split at h
  · cases h
  · rename_i hwhole
    have hdigits : isDigits (cs.takeWhile Text.isDigit) = true :=
      isDigits_iff.2 ⟨by simpa using hwhole, List.all_eq_true.1 List.all_takeWhile⟩
    split at h
    · rename_i hrest
      rw [hrest, List.append_nil] at hsplit
      exact ⟨⟨⟨_, hdigits⟩, none⟩, hsplit.symm⟩
    · rename_i fraction hrest
      split at h
      · rename_i hfraction
        rw [hrest] at hsplit
        exact ⟨⟨⟨_, hdigits⟩, some ⟨fraction, hfraction⟩⟩, hsplit.symm⟩
      · cases h
    · cases h

/-! ## Reading keys -/

/-- Of a key that is spelled out all but the period is read for certain. -/
theorem read_eq_of_spelled {key : String} {p : Spelling} (h : dropLineFeed key.toList = p.chars) :
    ∃ kind x, read key = (fun n => some ⟨kind, n, x⟩) <$> readPeriod p.period.chars ∧
      kind.name = p.name ∧ ∀ m, p.multiplier? = some m → Binary64.Nearest x m.value := by
  have hcolon : Text.isDigit ':' = false := by decide
  cases p with
  | plain name known period =>
      obtain ⟨kind, rfl, hkind⟩ := plain_iff.1 known
      refine ⟨kind, 0, ?_, rfl, fun m hm => nomatch hm⟩
      rw [read, h, Spelling.chars, splitColon?_append (not_mem_name kind).1]
      simp [ofName?_name, readParameters, hkind, period.isDigits, Spelling.period]
  | scaled name known period multiplier =>
      obtain ⟨kind, rfl, hkind⟩ := scaled_iff.1 known
      obtain ⟨x, hx, hnearest⟩ := multiplier?_chars multiplier
      refine ⟨kind, x, ?_, rfl, fun m hm => Option.some.inj hm ▸ hnearest⟩
      -- The first colon ends the name and the second one the period, as neither has a colon in it.
      have hparts := splitColon?_append (not_mem_of_isDigits period.isDigits hcolon) multiplier.chars
      rw [read, h, Spelling.chars, splitColon?_append (not_mem_name kind).1]
      simp [ofName?_name, readParameters, hkind, hparts, hx, period.isDigits, Spelling.period]

theorem spelled_of_readParameters {kind : Indicator} {cs : List Char} (h : readParameters kind cs ≠ .ok none) :
    ∃ p : Spelling, kind.name.toList ++ ':' :: cs = p.chars := by
  unfold readParameters at h
  split at h
  · -- A period, a colon and a multiplier.
    rename_i hscaled
    split at h
    · exact absurd rfl h
    · rename_i period factor hparts
      split at h
      · exact absurd rfl h
      · rename_i x hx
        split at h
        · rename_i hperiod
          obtain ⟨m, rfl⟩ := exists_multiplier hx
          refine ⟨.scaled kind.name (scaled_iff.2 ⟨kind, rfl, hscaled⟩) ⟨period, hperiod⟩ m, ?_⟩
          rw [splitColon?_eq hparts]
          rfl
        · exact absurd rfl h
  · rename_i hplain
    split at h
    · rename_i hperiod
      exact ⟨.plain kind.name (plain_iff.2 ⟨kind, rfl, eq_false_of_ne_true hplain⟩) ⟨cs, hperiod⟩, rfl⟩
    · exact absurd rfl h

/-- Nothing is read of a key that is not spelled out, apart from the line feed. -/
theorem spelled_of_read {key : String} (h : read key ≠ .ok none) :
    ∃ p : Spelling, dropLineFeed key.toList = p.chars := by
  unfold read at h
  split at h
  · exact absurd rfl h
  · rename_i name rest hcolon
    split at h
    · exact absurd rfl h
    · rename_i kind hkind
      have hname : name = kind.name.toList := by
        rw [name_of_ofName? hkind, String.toList_ofList]
      rw [splitColon?_eq hcolon, hname]
      exact spelled_of_readParameters h

end IndicatorKey

namespace Spelling

open IndicatorKey

theorem lineFeed_not_mem (p : Spelling) : '\n' ∉ p.chars := by
  have hdigits (row : DigitRow) : '\n' ∉ row.chars := not_mem_of_isDigits row.isDigits (by decide)
  have hname {kind : Indicator} : '\n' ∉ kind.name.toList := (not_mem_name kind).2
  cases p with
  | plain name known period =>
      obtain ⟨kind, rfl, -⟩ := plain_iff.1 known
      simp [chars, hname, hdigits]
  | scaled name known period multiplier =>
      obtain ⟨kind, rfl, -⟩ := scaled_iff.1 known
      rcases multiplier with ⟨whole, _ | fraction⟩ <;> simp [chars, Multiplier.chars, hname, hdigits]

theorem dropLineFeed_eq {p : Spelling} {cs : List Char} (h : cs = p.chars) : dropLineFeed cs = p.chars := by
  rw [h]
  exact dropLineFeed_of_not_mem p.lineFeed_not_mem

end Spelling

namespace IndicatorKey

/-! ## Exact recognition -/

section

variable {key : String} {p : Spelling}

/-- A spelled key is read as what it spells out if its period is short, and fails if it is too long. -/
theorem read_spelled (h : dropLineFeed key.toList = p.chars) :
    (p.period.chars.length ≤ digitLimit ∧ ∃ spec, read key = .ok (some spec) ∧ p.Carries spec) ∨
      (digitLimit < p.period.chars.length ∧ ∃ fault, read key = .error fault) := by
  obtain ⟨kind, x, heq, hname, hnearest⟩ := read_eq_of_spelled h
  rw [readPeriod] at heq
  split at heq
  · rename_i hlong
    exact Or.inr ⟨hlong, _, heq⟩
  · rename_i hshort
    exact Or.inl ⟨Nat.le_of_not_lt hshort, _, heq, hname, Text.digitsValue_eq_ofDigits _, hnearest⟩

theorem ok_of_read_spelled (h : dropLineFeed key.toList = p.chars) {spec? : Option IndicatorSpec}
    (hread : read key = .ok spec?) :
    p.period.chars.length ≤ digitLimit ∧ ∃ spec, spec? = some spec ∧ p.Carries spec := by
  rcases read_spelled h with ⟨hshort, spec, heq, hcarries⟩ | ⟨-, fault, heq⟩
  · rw [hread] at heq
    exact ⟨hshort, spec, Except.ok.inj heq, hcarries⟩
  · rw [hread] at heq
    cases heq

theorem carries_of_read (hkey : key.toList = p.chars) {spec : IndicatorSpec}
    (hread : read key = .ok (some spec)) : p.Carries spec := by
  obtain ⟨-, spec', heq, hcarries⟩ := ok_of_read_spelled (p.dropLineFeed_eq hkey) hread
  cases heq
  exact hcarries

end

/-- Whether a text names an indicator is known unless it spells out too long a period. -/
theorem exists_isFact_iff {name : String} :
    (∃ b, isFact name = .ok b) ↔
      ∀ p : Spelling, dropLineFeed name.toList = p.chars → p.period.chars.length ≤ digitLimit := by
  unfold isFact
  split
  · rename_i hname
    refine iff_of_true ⟨true, rfl⟩ fun p hp => ?_
    obtain ⟨kind, hkind⟩ := Option.isSome_iff_exists.1 hname
    rw [← name_of_ofName? hkind, dropLineFeed_of_not_mem (not_mem_name kind).2] at hp
    -- A name alone has no colon, and what is spelled out has one.
    refine absurd ?_ (not_mem_name kind).1
    rw [hp]
    cases p <;> simp [Spelling.chars]
  · constructor
    · rintro ⟨b, hb⟩ p hp
      rcases read_spelled hp with ⟨hshort, -⟩ | ⟨-, fault, heq⟩
      · exact hshort
      · rw [isKey, heq] at hb
        cases hb
    · intro hshort
      cases hread : read name with
      | ok spec? => exact ⟨spec?.isSome, by rw [isKey, hread]; rfl⟩
      | error fault =>
          obtain ⟨p, hp⟩ := @spelled_of_read name (by rw [hread]; simp)
          obtain ⟨-, heq⟩ | ⟨hlong, -⟩ := read_spelled hp
          · obtain ⟨spec, heq, -⟩ := heq
            rw [hread] at heq
            cases heq
          · exact absurd (hshort p hp) (Nat.not_le.2 hlong)

/-- A key is recognised exactly if and only if it is not a spelled one with a line feed after it, and the
period of a spelled one is not too long. -/
theorem recognisedExactly_iff (key : String) :
    RecognisedExactly key ↔
      (¬∃ p : Spelling, key.toList = p.chars ++ ['\n']) ∧
        ∀ p : Spelling, key.toList = p.chars → p.period.chars.length ≤ digitLimit := by
  constructor
  · rintro ⟨spec?, hread, hexact⟩
    refine ⟨?_, fun p hkey => (ok_of_read_spelled (p.dropLineFeed_eq hkey) hread).1⟩
    -- A key with the line feed is read as well, so it would have to be spelled itself.
    rintro ⟨p, hkey⟩
    have hdrop : dropLineFeed key.toList = p.chars := by rw [hkey, dropLineFeed_concat]
    obtain ⟨-, spec, rfl, -⟩ := ok_of_read_spelled hdrop hread
    obtain ⟨p', hkey'⟩ := hexact.isSome_iff.1 rfl
    refine p'.lineFeed_not_mem ?_
    rw [← hkey', hkey]
    exact List.mem_append_right _ (List.mem_singleton_self _)
  · rintro ⟨hfeed, hshort⟩
    -- What is read at all is spelled apart from a line feed, and so it is spelled.
    have hspelled (h : read key ≠ .ok none) : ∃ p : Spelling, key.toList = p.chars := by
      obtain ⟨p, hp⟩ := spelled_of_read h
      rcases eq_or_eq_of_dropLineFeed hp with hkey | hkey
      · exact ⟨p, hkey⟩
      · exact absurd ⟨p, hkey⟩ hfeed
    cases hread : read key with
    | error fault =>
        -- Only a spelled key can fail, and it does not with a short period.
        obtain ⟨p, hkey⟩ := hspelled (by rw [hread]; exact fun h => nomatch h)
        rcases read_spelled (p.dropLineFeed_eq hkey) with ⟨-, spec, heq, -⟩ | ⟨hlong, -⟩
        · rw [hread] at heq
          cases heq
        · exact absurd (hshort p hkey) (Nat.not_le.2 hlong)
    | ok spec? =>
        refine ⟨spec?, hread, ?_, ?_, ?_⟩
        · constructor
          · intro h
            refine hspelled fun hnone => ?_
            rw [hread] at hnone
            cases hnone
            cases h
          · rintro ⟨p, hkey⟩
            obtain ⟨-, spec, rfl, -⟩ := ok_of_read_spelled (p.dropLineFeed_eq hkey) hread
            rfl
        · rintro spec rfl p hkey
          exact carries_of_read hkey hread
        · rintro spec rfl key' spec' hread' p p' hkey hkey' - hne rfl
          have hperiod := (carries_of_read hkey hread).period
          exact hne (hperiod.symm.trans (carries_of_read hkey' hread').period)

/-- A line feed after a key is passed over, though no spelled key has one. -/
theorem not_recognisedExactly_lineFeed : ¬RecognisedExactly "ma:5\n" := by
  rintro ⟨spec?, hread, hexact⟩
  have hsome : read "ma:5\n" = .ok (some ⟨.movingAverage, 5, 0⟩) := rfl
  rw [hsome] at hread
  cases hread
  obtain ⟨p, hp⟩ := hexact.isSome_iff.1 rfl
  exact p.lineFeed_not_mem (hp ▸ by decide)

end IndicatorKey

end RuleTrader
