import RuleTrader.Proofs.Indicator.Facts
import RuleTrader.Proofs.Indicator.Key
import RuleTrader.Proofs.Indicator.Strength
import RuleTrader.Proofs.Rule.Sites

/-!
# Facts are given for every history

A history of finite prices, empty or not, gives facts to every list of keys in which no number is longer than
an integer may be written. This says what they are relied on for (`IndicatorFacts.Reliable`). A key that
names an indicator has one fact, and no other key has any. The fact is the value over the window where there
is a finite one, and the neutral value otherwise, so no fact is infinite or undefined
(`IndicatorSpec.StandsFor`). It is the same whatever else is asked for, and the name of an indicator by itself
has the fact of the key that spells out its usual parameters.

A value is missing only where the period is zero or the history shorter than the window, and it is what the
formula of the indicator says of the window (`IndicatorSpec.overWindow`). Floats are summed up in an order of
their own there, but over whole prices this makes no difference: their average is their mean, rounded once. A
key has no indicator only where it has the wrong form: reading it fails on long periods and nothing else
(`IndicatorKey.resolve_fails_iff`).
-/

namespace RuleTrader

open PriceTracker (lastOf)

namespace IndicatorKey

/-! ## Keys without long numbers -/

/-- No row of digits in the key is longer than an integer may be written. -/
def ShortNumbers (key : String) : Prop :=
  ∀ ds, ds <:+: key.toList → isDigits ds = true → ds.length ≤ digitLimit

theorem shortNumbers_of_length {key : String} (h : key.toList.length ≤ digitLimit) : ShortNumbers key :=
  fun _ hds _ => hds.length_le.trans h

theorem isPrefix_dropLineFeed (cs : List Char) : dropLineFeed cs <+: cs := by
  unfold dropLineFeed
  split
  · exact List.dropLast_prefix cs
  · exact List.prefix_refl cs

theorem resolve_fails_iff (key : String) : (fault? (resolve key)).isSome = true ↔ Overlong key := by
  rw [← isFact_fails_iff, IndicatorFacts.isFact_eq, fault?_map]

/-- A period that is too long is a long number of its key. -/
theorem ShortNumbers.not_overlong {key : String} (h : ShortNumbers key) : ¬Overlong key := by
  rintro ⟨name, rest, kind, hcolon, -, hlong⟩
  have hrest : rest <:+: key.toList := by
    have hsuffix : rest <:+ dropLineFeed key.toList := ⟨name ++ [':'], by simp [splitColon?_eq hcolon]⟩
    exact hsuffix.isInfix.trans (isPrefix_dropLineFeed _).isInfix
  unfold OverlongParameters at hlong
  split at hlong
  -- With a multiplier the period ends at the second colon, without one it is all that is left.
  · obtain ⟨period, multiplier, hparts, -, hdigits, hlong⟩ := hlong
    have hperiod : period <:+: rest := ⟨[], ':' :: multiplier, (splitColon?_eq hparts).symm⟩
    exact absurd (h period (hperiod.trans hrest) hdigits) (Nat.not_le.2 hlong)
  · exact absurd (h rest hrest hlong.1) (Nat.not_le.2 hlong.2)

theorem ShortNumbers.resolve_ok {key : String} (h : ShortNumbers key) :
    ∃ spec?, resolve key = .ok spec? := by
  rw [← fault?_eq_none, ← Option.not_isSome_iff_eq_none, resolve_fails_iff]
  exact h.not_overlong

/-- A name by itself asks for what the key with the usual parameters asks for. -/
theorem resolve_usualKey (kind : Indicator) : resolve kind.usualKey = resolve kind.name := by
  cases kind <;> rfl

theorem shortNumbers_usualKey (kind : Indicator) : ShortNumbers kind.usualKey :=
  shortNumbers_of_length (by cases kind <;> decide)

end IndicatorKey

/-! ## The value of an indicator -/

namespace IndicatorSpec

/-- `x` stands for an indicator over a history. It is the value over the window, if there is a finite one. If
not, it is the middle of the strength, no range, or for any other indicator the last price, which is zero for an
empty history. -/
structure StandsFor (spec : IndicatorSpec) (prices : List Float) (x : Float) : Prop where
  value : ∀ y, spec.value? prices = some y → Binary64.isFinite y = true → x = y
  strength : (∀ y, spec.value? prices = some y → Binary64.isFinite y = false) →
    spec.kind = .relativeStrength → x = 50
  range : (∀ y, spec.value? prices = some y → Binary64.isFinite y = false) → spec.kind = .trueRange → x = 0
  lastPrice : (∀ y, spec.value? prices = some y → Binary64.isFinite y = false) →
    spec.kind ≠ .relativeStrength → spec.kind ≠ .trueRange → x = prices.getLast?.getD 0

theorem resolve_of_isFinite {spec : IndicatorSpec} {prices : List Float} {y : Float}
    (hvalue : spec.value? prices = some y) (hfinite : Binary64.isFinite y = true) (currentPrice : Float) :
    spec.resolve prices currentPrice = y := by
  unfold resolve
  rw [hvalue]
  exact if_pos hfinite

theorem resolve_of_not_isFinite {spec : IndicatorSpec} {prices : List Float}
    (hnone : ∀ y, spec.value? prices = some y → Binary64.isFinite y = false) (currentPrice : Float) :
    spec.resolve prices currentPrice = spec.kind.neutral currentPrice := by
  unfold resolve
  cases hvalue : spec.value? prices with
  | none => rfl
  | some y =>
      dsimp only
      rw [hnone y hvalue, if_neg Bool.false_ne_true]

theorem standsFor_resolve (spec : IndicatorSpec) (prices : List Float) :
    spec.StandsFor prices (spec.resolve prices (prices.getLast?.getD 0)) := by
  constructor
  · exact fun y hvalue hfinite => resolve_of_isFinite hvalue hfinite _
  · intro hnone hkind
    rw [resolve_of_not_isFinite hnone, hkind]
    rfl
  · intro hnone hkind
    rw [resolve_of_not_isFinite hnone, hkind]
    rfl
  · intro hnone hstrength hrange
    rw [resolve_of_not_isFinite hnone]
    cases hkind : spec.kind with
    | relativeStrength => exact absurd hkind hstrength
    | trueRange => exact absurd hkind hrange
    | movingAverage | upperBand | lowerBand | superTrend => rfl

/-- The average of whole prices is their mean, rounded once, if the sizes of the prices add up to no more than
a float can count. -/
theorem average_whole {n : Nat} {prices : List Float} {ks : List ℤ} (positive : 1 ≤ n) (fits : n ≤ prices.length)
    (hcount : n ≤ 2 ^ 53) (hprices : List.Forall₂ (fun x (k : ℤ) => Binary64.Denotes x k) (lastOf n prices) ks)
    (small : (ks.map Int.natAbs).sum ≤ 2 ^ 53) (multiplier : Float) :
    ∃ x, value? ⟨.movingAverage, n, multiplier⟩ prices = some x ∧ Binary64.Nearest x (ks.sum / n) := by
  have hnearest : Binary64.Nearest (Float.ofNat n) ((n : ℤ) : ℚ) := by exact_mod_cast Binary64.nearest_ofNat n
  have hdivisor : Binary64.Denotes (Float.ofNat n) ((n : ℤ) : ℚ) :=
    hnearest.denotes_intCast (by rw [Nat.abs_cast]; exact_mod_cast hcount)
  -- Sum and count are exact, so only the division rounds.
  have hsum := Binary64.denotes_blockSum hprices small
  have hnonzero : ((n : ℤ) : ℚ) ≠ 0 := by exact_mod_cast (by omega : n ≠ 0)
  exact ⟨_, value?_of_fits positive fits, hsum.div_nearest hdivisor hnonzero⟩

end IndicatorSpec

/-! ## The facts -/

namespace IndicatorFacts

/-- What the facts of some keys over a history are relied on for. -/
structure Reliable (history : List Value) (prices : List Float) (keys : List String)
    (found : Table String Float) : Prop where
  nodup : found.keys.Nodup
  mem_keys : ∀ key, key ∈ found.keys ↔ key ∈ keys ∧ IndicatorKey.isFact key = .ok true
  standsFor : ∀ key x, found.get? key = some x →
    ∃ spec, IndicatorKey.resolve key = .ok (some spec) ∧ spec.StandsFor prices x
  finite : ∀ key x, (key, x) ∈ found → Binary64.isFinite x = true
  /-- An indicator has a value where its period is not zero and the history holds its window. -/
  defined : ∀ spec : IndicatorSpec,
    (spec.value? prices).isSome = true ↔ 1 ≤ spec.period ∧ spec.window ≤ prices.length
  /-- The value is what the formula of the indicator says of its window. -/
  computed : ∀ (spec : IndicatorSpec) (x : Float), spec.value? prices = some x →
    x = spec.overWindow (lastOf spec.window prices)
  /-- The average of whole prices is their mean, rounded once. -/
  whole : ∀ (n : Nat) (ks : List ℤ) (multiplier : Float), 1 ≤ n → n ≤ prices.length → n ≤ 2 ^ 53 →
    List.Forall₂ (fun x (k : ℤ) => Binary64.Denotes x k) (lastOf n prices) ks →
    (ks.map Int.natAbs).sum ≤ 2 ^ 53 →
    ∃ x, IndicatorSpec.value? ⟨.movingAverage, n, multiplier⟩ prices = some x ∧ Binary64.Nearest x (ks.sum / n)
  /-- Whatever is asked for beside a key, it has the same fact. -/
  independent : ∀ keys' (found' : Table String Float), compute history keys' = .ok found' →
    ∀ key ∈ keys, key ∈ keys' → found'.get? key = found.get? key
  /-- The name of an indicator by itself has the fact of the key with the usual parameters. -/
  usual : ∀ kind : Indicator, kind.name ∈ keys →
    ∃ found' : Table String Float, compute history [kind.usualKey] = .ok found' ∧
      found'.get? kind.usualKey = found.get? kind.name
  /-- No strength is worked out by a division by zero. -/
  divided : ∀ period, Window.checkedStrength? period prices = .ok (Window.strength? period prices)

variable {history : List Value} {prices : List Float} {keys : List String} {found : Table String Float}

/-- The last price of a history of finite prices is finite, zero for an empty one. -/
theorem isFinite_lastPrice (hprices : readHistory history = .ok prices)
    (hfinite : ∀ v ∈ history, ∃ x, readPrice v = .ok x ∧ Binary64.isFinite x = true) :
    Binary64.isFinite (prices.getLast?.getD 0) = true := by
  cases hlast : prices.getLast? with
  | none => decide +kernel
  | some price =>
      obtain ⟨v, hv, hprice⟩ := mem_of_mapM hprices (List.mem_of_getLast? hlast)
      obtain ⟨x, hx, hfinite⟩ := hfinite v hv
      obtain rfl : x = price := Except.ok.inj (hx.symm.trans hprice)
      exact hfinite

/-- The keys with a fact are those that are asked for and name an indicator. -/
theorem mem_keys_compute_iff (h : compute history keys = .ok found) {key : String} :
    key ∈ found.keys ↔ key ∈ keys ∧ IndicatorKey.isFact key = .ok true := by
  obtain ⟨prices, -, hprices, -, -⟩ := compute_ok h
  -- Among the keys that are asked for, those without a fact are resolved to nothing.
  have hfact (hkey : key ∈ keys) : key ∈ found.keys ↔ IndicatorKey.isFact key = .ok true := by
    obtain ⟨spec?, hspec, hget⟩ := get?_compute h hprices hkey
    rw [← not_iff_not, ← Table.get?_eq_none_iff, hget, isFact_eq, hspec]
    cases spec? <;> simp
  constructor
  · intro hmem
    have hkey := mem_of_compute h hmem
    exact ⟨hkey, (hfact hkey).1 hmem⟩
  · rintro ⟨hkey, hname⟩
    exact (hfact hkey).2 hname

theorem reliable_of_compute (hprices : readHistory history = .ok prices)
    (hfinite : Binary64.isFinite (prices.getLast?.getD 0) = true) (h : compute history keys = .ok found) :
    Reliable history prices keys found := by
  have hnodup := nodup_keys_compute h
  -- A key with a fact was asked for, and its fact is what its indicator is resolved to.
  have hvalue {key : String} {x : Float} (hx : found.get? key = some x) :
      ∃ spec, IndicatorKey.resolve key = .ok (some spec) ∧
        spec.resolve prices (prices.getLast?.getD 0) = x := by
    have hkey := mem_of_compute h (List.mem_map_of_mem (Table.mem_of_get? hx))
    obtain ⟨spec?, hspec, hfact⟩ := get?_compute h hprices hkey
    rw [hx] at hfact
    obtain ⟨spec, rfl, hvalue⟩ := Option.map_eq_some_iff.1 hfact.symm
    exact ⟨spec, hspec, hvalue⟩
  refine ⟨hnodup, fun key => mem_keys_compute_iff h, ?_, ?_, fun spec => spec.isSome_value?_iff prices, ?_, ?_,
    ?_, ?_, fun period => Window.checkedStrength?_eq period prices⟩
  · intro key x hx
    obtain ⟨spec, hspec, rfl⟩ := hvalue hx
    exact ⟨spec, hspec, spec.standsFor_resolve prices⟩
  · intro key x hx
    obtain ⟨spec, -, rfl⟩ := hvalue (Table.get?_of_mem hnodup hx)
    exact IndicatorSpec.isFinite_resolve hfinite prices
  · exact fun spec x => IndicatorSpec.eq_overWindow
  · intro n ks multiplier positive fits hcount hks small
    exact IndicatorSpec.average_whole positive fits hcount hks small multiplier
  · intro keys' found' h' key hkey hkey'
    exact get?_compute_congr h' h fun _ _ => iff_of_true hkey' hkey
  · intro kind hkind
    have hresolve : ∀ key ∈ [kind.usualKey], ∃ spec?, IndicatorKey.resolve key = .ok spec? := by
      rw [List.forall_mem_singleton]
      exact (IndicatorKey.shortNumbers_usualKey kind).resolve_ok
    obtain ⟨found', h'⟩ := compute_of_resolve hprices hresolve
    obtain ⟨spec?, hspec, hget⟩ := get?_compute h hprices hkind
    obtain ⟨spec?', hspec', hget'⟩ := get?_compute h' hprices (List.mem_singleton_self _)
    -- Both keys are resolved to one indicator, and a history gives an indicator one value.
    rw [IndicatorKey.resolve_usualKey, hspec] at hspec'
    cases hspec'
    exact ⟨found', h', hget'.trans hget.symm⟩

/-- A history of finite prices gives facts to all keys without long numbers, and they are reliable. -/
theorem compute_reliable (hhistory : ∀ v ∈ history, ∃ x, readPrice v = .ok x ∧ Binary64.isFinite x = true)
    (hkeys : ∀ key ∈ keys, IndicatorKey.ShortNumbers key) :
    ∃ prices found, readHistory history = .ok prices ∧ compute history keys = .ok found ∧
      Reliable history prices keys found := by
  obtain ⟨prices, hprices⟩ : ∃ prices, readHistory history = .ok prices :=
    mapM_ok_of_forall fun v hv => (hhistory v hv).imp fun x hx => hx.1
  obtain ⟨found, hfound⟩ := compute_of_resolve hprices fun key hkey => (hkeys key hkey).resolve_ok
  exact ⟨prices, found, hprices, hfound,
    reliable_of_compute hprices (isFinite_lastPrice hprices hhistory) hfound⟩

/-- Four prices, of which the first two have an infinite sum. The average of the last two is known, and so are
the band above it, the strength of three steps, and the trend; the last price stands for the average of four.
The range of fourteen steps is not known, and what names no indicator has no fact. -/
theorem compute_reliable_infiniteSum :
    let history : List Value := [.float 1e308, .float 1.5e308, .int 10, .int 14]
    let keys := ["ma:2", "ma:4", "rsi:3", "bollingerUpper:2:1.5", "macd:3", "ma:2", "atr", "supertrend:1:2"]
    (∀ v ∈ history, ∃ x, readPrice v = .ok x ∧ Binary64.isFinite x = true) ∧
    (∀ key ∈ keys, IndicatorKey.ShortNumbers key) ∧
    (∃ prices found, readHistory history = .ok prices ∧ compute history keys = .ok found ∧
      Reliable history prices keys found) ∧
    (compute history keys).toOption =
      some [("ma:2", 12), ("ma:4", 14), ("rsi:3", 25), ("bollingerUpper:2:1.5", 15), ("atr", 0),
        ("supertrend:1:2", 6)] := by
  intro history keys
  have hhistory : ∀ v ∈ history, ∃ x, readPrice v = .ok x ∧ Binary64.isFinite x = true := by
    simp only [history, List.forall_mem_cons]
    refine ⟨⟨1e308, ?_⟩, ⟨1.5e308, ?_⟩, ⟨10, ?_⟩, ⟨14, ?_⟩, List.forall_mem_nil _⟩
    all_goals decide +kernel
  have hkeys : ∀ key ∈ keys, IndicatorKey.ShortNumbers key :=
    fun key hkey => IndicatorKey.shortNumbers_of_length (by revert key; decide +kernel)
  exact ⟨hhistory, hkeys, compute_reliable hhistory hkeys, by decide +kernel⟩

end IndicatorFacts

end RuleTrader
