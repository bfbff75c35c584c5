import RuleTrader.Proofs.Rule.Reads
import RuleTrader.Trading.Facts

/-!
# The indicators that rules are given

The facts of a pair have every indicator that its rules read, each with a finite number. They have no
other, and none is missed: with the facts of any longer list of keys the rules decide the same.
-/

namespace RuleTrader

/-- Facts with those of indicators put over them. -/
def Facts.withIndicators (facts : Facts) (found : Table String Float) : Facts :=
  facts.putAll (found.mapValues Value.float)

theorem Facts.get?_withIndicators (facts : Facts) {found : Table String Float}
    (nodup : found.keys.Nodup) (name : String) :
    Table.get? (facts.withIndicators found) name =
      ((found.get? name).map Value.float).or (Table.get? facts name) := by
  have hnodup : (found.mapValues Value.float).keys.Nodup := by
    rw [Table.keys_mapValues]
    exact nodup
  rw [withIndicators, Table.get?_putAll_of_nodup hnodup, Table.get?_mapValues]

namespace IndicatorFacts

/-- The fact of a key that names an indicator is a finite number where the last price is one. -/
theorem finite_of_compute {history : List Value} {keys : List String} {found : Table String Float}
    {prices : List Float} (h : compute history keys = .ok found)
    (hprices : readHistory history = .ok prices)
    (finite : Binary64.isFinite (prices.getLast?.getD 0) = true) {key : String} (hkey : key ∈ keys)
    (hfact : IndicatorKey.isFact key = .ok true) :
    ∃ x, found.get? key = some x ∧ Binary64.isFinite x = true := by
  rcases resolve_of_isFact hfact with ⟨spec, hspec⟩
  rcases get?_compute h hprices hkey with ⟨spec?, hspec?, hget⟩
  obtain rfl : spec? = some spec := Except.ok.inj (hspec?.symm.trans hspec)
  exact ⟨_, hget, spec.isFinite_resolve finite prices⟩

end IndicatorFacts

namespace PairFacts

variable {α : Type} [Amount α] {pair : Pair α} {balance : α} {random random' : RandomSource}
  {facts : Facts}

/-- The indicators of a pair are those that its rules read, over its history. -/
theorem indicators_ok {found : List (String × Value)} (h : indicators pair = .ok found) :
    ∃ keys, Rule.indicatorKeys pair.rules = .ok keys ∧ ∀ name ∈ keys,
      ∃ computed, IndicatorFacts.compute (pair.price.history.map Amount.toValue) keys = .ok computed ∧
        found = Table.mapValues Value.float computed := by
  rcases bind_ok h with ⟨keys, hkeys, h⟩
  refine ⟨keys, hkeys, fun name hname => ?_⟩
  cases keys with
  | nil => cases hname
  | cons key keys =>
      rcases bind_ok h with ⟨computed, hcomputed, h⟩
      exact ⟨computed, hcomputed, (Except.ok.inj h).symm⟩

/-- Facts that are built end with those of the indicators. -/
theorem build_ok (h : build pair balance random = (.ok facts, random')) :
    ∃ before found, indicators pair = .ok found ∧ facts = Table.putAll before found := by
  unfold build at h
  cases hplain : plain pair balance with
  | error fault =>
      rw [hplain] at h
      cases (Prod.mk.inj h).1
  | ok known =>
      cases hfound : indicators pair with
      | error fault =>
          simp only [hplain, hfound] at h
          cases (Prod.mk.inj h).1
      | ok found =>
          simp only [hplain, hfound] at h
          have hfacts := Except.ok.inj (Prod.mk.inj h).1
          rw [Table.putAll_append] at hfacts
          exact ⟨_, found, rfl, hfacts.symm⟩

/-- Facts that are built have what was computed for every key of the rules. -/
theorem build_indicator (h : build pair balance random = (.ok facts, random')) :
    ∃ keys, Rule.indicatorKeys pair.rules = .ok keys ∧ ∀ name ∈ keys,
      ∃ computed, IndicatorFacts.compute (pair.price.history.map Amount.toValue) keys = .ok computed ∧
        ∀ x, Table.get? computed name = some x → Table.get? facts name = some (.float x) := by
  rcases build_ok h with ⟨before, found, hfound, rfl⟩
  rcases indicators_ok hfound with ⟨keys, hkeys, hlist⟩
  refine ⟨keys, hkeys, fun name hname => ?_⟩
  rcases hlist name hname with ⟨computed, hcomputed, rfl⟩
  refine ⟨computed, hcomputed, fun x hx => ?_⟩
  have hget := Facts.get?_withIndicators before (IndicatorFacts.nodup_keys_compute hcomputed) name
  rw [hx] at hget
  exact hget

end PairFacts

namespace Rule

variable {rules : List Rule}

/-- With facts for more keys than they read, rules decide as with those that they read. -/
theorem decide?_withIndicators {history : List Value} {own keys : List String}
    {found needed : Table String Float} (hown : indicatorKeys rules = .ok own)
    (hkeys : ∀ name ∈ own, name ∈ keys)
    (hfound : IndicatorFacts.compute history keys = .ok found)
    (hneeded : IndicatorFacts.compute history own = .ok needed) (facts : Facts) :
    decide? (facts.withIndicators found) rules = decide? (facts.withIndicators needed) rules := by
  refine decide?_congr fun name hread => ?_
  have hsame : found.get? name = needed.get? name := by
    refine IndicatorFacts.get?_compute_congr hfound hneeded fun spec hspec => ?_
    -- What is read and names an indicator is on both lists.
    have hkey : name ∈ own := by
      refine (mem_indicatorKeys hown).2 ⟨hread, ?_⟩
      rw [IndicatorFacts.isFact_eq, hspec]
      rfl
    exact ⟨fun _ => hkey, hkeys name⟩
  rw [Facts.get?_withIndicators _ (IndicatorFacts.nodup_keys_compute hfound),
    Facts.get?_withIndicators _ (IndicatorFacts.nodup_keys_compute hneeded), hsame]

end Rule

namespace PairFacts

/-- Rules have a list of keys if every fact that they read can be told, and always if they are read from
records. Then the list has each indicator that they read once, and nothing else; what is read from
records reads plain facts besides, and nothing else. The facts of these keys can be computed wherever
those of a longer list can, and the rules decide the same by both, refusals included. Over a history of
finite prices the facts of a pair have a finite number for every indicator that its rules read. -/
theorem indicators_supplied {α : Type} [Amount α] (rules : List Rule) {history : List α}
    {prices : List Float} (nonempty : history ≠ [])
    (readable : IndicatorFacts.readHistory (history.map Amount.toValue) = .ok prices)
    (finite : ∀ x ∈ prices, Binary64.isFinite x = true) :
    ((∃ keys, Rule.indicatorKeys rules = .ok keys) ↔
      ∀ name, Rule.Read rules name → ∃ b, IndicatorKey.isFact name = .ok b) ∧
    (∀ d, RuleSet.Unread d → RuleSet.read d = .ok rules → ∃ keys, Rule.indicatorKeys rules = .ok keys ∧
      ∀ name, Rule.Read rules name → name ∈ Fact.plainNames ∨ name ∈ keys) ∧
    (∀ own, Rule.indicatorKeys rules = .ok own →
      (own.Nodup ∧ ∀ name, name ∈ own ↔
        Rule.Read rules name ∧ IndicatorKey.isFact name = .ok true) ∧
      ∀ keys found, (∀ name ∈ own, name ∈ keys) →
        IndicatorFacts.compute (history.map Amount.toValue) keys = .ok found →
        ∃ needed, IndicatorFacts.compute (history.map Amount.toValue) own = .ok needed ∧
          ∀ facts : Facts, Rule.decide? (facts.withIndicators found) rules =
            Rule.decide? (facts.withIndicators needed) rules) ∧
    ∀ (pair : Pair α) balance random facts random', pair.rules = rules →
      pair.price.history = history → build pair balance random = (.ok facts, random') →
      ∀ name, Rule.Read rules name → IndicatorKey.isFact name = .ok true →
        ∃ x, Table.get? facts name = some (.float x) ∧ Binary64.isFinite x = true := by
  -- The last price stands for what has no value, and it is one of the history.
  have hlast : Binary64.isFinite (prices.getLast?.getD 0) = true := by
    have hlength : prices.length = (history.map Amount.toValue).length := length_mapM readable
    have hprices : prices ≠ [] := by
      rintro rfl
      rw [List.length_map] at hlength
      exact nonempty (List.length_eq_zero_iff.1 hlength.symm)
    rw [List.getLast?_eq_some_getLast hprices]
    exact finite _ (List.getLast_mem hprices)
  refine ⟨Rule.usable_iff, ?_, ?_, ?_⟩
  · intro d unread hread
    rcases Rule.usable_of_sound (RuleSet.sound_of_read unread hread) with ⟨keys, hkeys⟩
    exact ⟨keys, hkeys, fun name => Rule.plain_or_mem_indicatorKeys unread hread hkeys⟩
  · intro own hown
    refine ⟨⟨Rule.nodup_indicatorKeys hown, fun name => Rule.mem_indicatorKeys hown⟩, ?_⟩
    intro keys found hkeys hfound
    -- Every key of the rules names an indicator, so none of them stops the computation.
    have hresolve : ∀ key ∈ own, ∃ spec?, IndicatorKey.resolve key = .ok spec? := by
      intro key hkey
      have hfact := ((Rule.mem_indicatorKeys hown).1 hkey).2
      rcases IndicatorFacts.resolve_of_isFact hfact with ⟨spec, hspec⟩
      exact ⟨some spec, hspec⟩
    rcases IndicatorFacts.compute_of_resolve readable hresolve with ⟨needed, hneeded⟩
    exact ⟨needed, hneeded, Rule.decide?_withIndicators hown hkeys hfound hneeded⟩
  · rintro pair balance random facts random' rfl rfl hbuild name hread hfact
    rcases build_indicator hbuild with ⟨keys, hkeys, hlist⟩
    have hkey : name ∈ keys := (Rule.mem_indicatorKeys hkeys).2 ⟨hread, hfact⟩
    rcases hlist name hkey with ⟨computed, hcomputed, hget⟩
    rcases IndicatorFacts.finite_of_compute hcomputed readable hlast hkey hfact with ⟨x, hx, hfinite⟩
    exact ⟨x, hget x hx, hfinite⟩

/-- A bot buys above the average of the last two prices, unless the price has risen too fast. -/
def aboveAverage : List Rule :=
  [⟨.allOf [.comparison "currentPrice" .greaterThan (.fact "ma:2"),
      .negation (.range "rsi" .between (.number 70) (.number 100))], ⟨.buy, []⟩, 1⟩]

/-- A pair with such rules, where the price has risen twice. -/
def risingPair : Pair Int where
  bot := { id := "b1", balance := 100 }
  instrument := { id := "i1", symbol := "ACME", price := 14 }
  price := { current := 14, previous? := some 12, trend := ⟨true, false⟩, history := [10, 12, 14] }
  shares := 0
  rules := aboveAverage
  now := 0
  tickInterval := .int 2000

/-- The average that is compared with is supplied, and asking for a range besides changes nothing. -/
theorem indicators_supplied_aboveAverage :
    ([10, 12, 14] : List Int) ≠ [] ∧
    IndicatorFacts.readHistory (([10, 12, 14] : List Int).map Amount.toValue) = .ok [10, 12, 14] ∧
    (∀ x ∈ ([10, 12, 14] : List Float), Binary64.isFinite x = true) ∧
    Rule.indicatorKeys aboveAverage = .ok ["ma:2", "rsi"] ∧
    (∃ facts random', build risingPair 100 (.script {}) = (.ok facts, random') ∧
      ∃ x, Table.get? facts "ma:2" = some (.float x) ∧ Binary64.isFinite x = true) ∧
    IndicatorFacts.compute [.int 10, .int 12, .int 14] ["rsi", "atr:2", "ma:2"] =
      .ok [("rsi", 50), ("atr:2", 2), ("ma:2", 13)] ∧
    ∃ needed, IndicatorFacts.compute [.int 10, .int 12, .int 14] ["ma:2", "rsi"] = .ok needed ∧
      ∀ facts : Facts,
        Rule.decide? (facts.withIndicators [("rsi", 50), ("atr:2", 2), ("ma:2", 13)]) aboveAverage =
          Rule.decide? (facts.withIndicators needed) aboveAverage := by
  have readable : IndicatorFacts.readHistory (([10, 12, 14] : List Int).map Amount.toValue) =
      .ok [10, 12, 14] := rfl
  have finite : ∀ x ∈ ([10, 12, 14] : List Float), Binary64.isFinite x = true := by decide +kernel
  have hkeys : Rule.indicatorKeys aboveAverage = .ok ["ma:2", "rsi"] := rfl
  rcases indicators_supplied aboveAverage (by decide) readable finite with
    ⟨-, -, hsupplied, hbuilt⟩
  rcases hsupplied _ hkeys with ⟨⟨-, hmem⟩, hmore⟩
  have haverage := (hmem "ma:2").1 (by decide)
  have hbuild : ∃ facts random', build risingPair 100 (.script {}) = (.ok facts, random') :=
    ⟨_, _, rfl⟩
  have hfound : IndicatorFacts.compute [.int 10, .int 12, .int 14] ["rsi", "atr:2", "ma:2"] =
      .ok [("rsi", 50), ("atr:2", 2), ("ma:2", 13)] := rfl
  rcases hmore ["rsi", "atr:2", "ma:2"] _ (by decide) hfound with ⟨needed, hneeded, hsame⟩
  refine ⟨by decide, readable, finite, hkeys, ?_, hfound, needed, hneeded, hsame⟩
  rcases hbuild with ⟨facts, random', hbuild⟩
  exact ⟨facts, random', hbuild,
    hbuilt risingPair 100 (.script {}) facts random' rfl rfl hbuild "ma:2" haverage.1 haverage.2⟩

end PairFacts

end RuleTrader
