import Mathlib.Algebra.Group.Int.Defs
import Mathlib.Algebra.Group.Nat.Defs
import RuleTrader.Market.Amount
import RuleTrader.Proofs.Indicator.Facts

/-!
# The bounded history

A tracker keeps the last prices of each instrument only. To an indicator whose window fits into what is
kept this makes no difference: it has the value that it has over every price that was ever observed. One
whose window does not fit has its neutral value, after any number of prices.

This holds for every capacity that a history can be given. A tracker can be made with a larger one, and
then its first price is refused.
-/

namespace RuleTrader

open PriceTracker (lastOf pricesOf)

namespace IndicatorFacts

/-- How the facts over a kept history compare with those over the whole one, as far as one key goes:
the same value if the window fits, the neutral value if it does not, and the same keys refused. -/
structure KeptAlike (capacity : Nat) (kept whole : Except NumberFault (Table String Float))
    (key : String) (spec : IndicatorSpec) (lastPrice : Float) : Prop where
  fits : spec.window ≤ capacity → kept.map (Table.get? · key) = whole.map (Table.get? · key)
  neutral : capacity < spec.window → ∀ found, kept = .ok found →
    found.get? key = some (spec.kind.neutral lastPrice)
  refused : fault? kept = fault? whole

variable {capacity : Nat} {history : List Value} {prices : List Float} {keys : List String}

theorem readHistory_lastOf (hprices : readHistory history = .ok prices) (capacity : Nat) :
    readHistory (lastOf capacity history) = .ok (lastOf capacity prices) := by
  have hlength : prices.length = history.length := length_mapM hprices
  rw [lastOf, lastOf, hlength]
  exact mapM_drop hprices _

/-- A history of which the last prices are kept, at least one, gives every fact whose window they
hold. -/
theorem compute_lastOf (positive : 1 ≤ capacity) (hprices : readHistory history = .ok prices)
    {key : String} {spec : IndicatorSpec} (hkey : key ∈ keys)
    (hspec : IndicatorKey.resolve key = .ok (some spec)) :
    KeptAlike capacity (compute (lastOf capacity history) keys) (compute history keys) key spec
      (prices.getLast?.getD 0) := by
  have hlast : (lastOf capacity prices).getLast? = prices.getLast? :=
    PriceTracker.getLast?_lastOf positive prices
  rw [compute_eq, compute_eq, hprices, readHistory_lastOf hprices]
  -- What the keys name does not depend on the history.
  cases hspecs : specsOf (distinct keys) with
  | error fault =>
      refine ⟨fun _ => rfl, ?_, rfl⟩
      intro _ found hfound
      cases hfound
  | ok specs =>
      have hget : specs.get? key = some spec := by
        have hresolve := resolve_eq_get? (nodup_distinct keys) hspecs (mem_distinct.2 hkey)
        exact Except.ok.inj (hresolve.symm.trans hspec)
      constructor
      · intro fits
        have hvalue : spec.resolve (lastOf capacity prices) ((lastOf capacity prices).getLast?.getD 0) =
            spec.resolve prices (prices.getLast?.getD 0) := by
          rw [hlast, IndicatorSpec.resolve_lastOf fits]
        refine congrArg Except.ok ?_
        simp only [Table.get?_mapValues, hget, Option.map_some, hvalue]
      · intro hlong found hfound
        have hshort : (lastOf capacity prices).length < spec.window := by
          rw [PriceTracker.length_lastOf]
          omega
        obtain rfl := Except.ok.inj hfound
        rw [Table.get?_mapValues, hget, hlast]
        exact congrArg some (IndicatorSpec.resolve_of_short hshort _)
      · rfl

end IndicatorFacts

namespace PriceTracker

/-- What a tracker of a capacity is relied on for. It records every price, however the instruments are
interleaved; and wherever all prices of an instrument can be read, its history gives every indicator
that fits the value over all of them, and every other its neutral value. -/
def Faithful (α : Type) [Amount α] (capacity : Nat) : Prop :=
  ∀ seen : List (String × α), ∃ t, ({ capacity } : PriceTracker α).observeAll seen = .ok t ∧
    ∀ id prices,
      IndicatorFacts.readHistory ((pricesOf id seen).map Amount.toValue) = .ok prices →
      ∀ keys key spec, key ∈ keys → IndicatorKey.resolve key = .ok (some spec) →
        IndicatorFacts.KeptAlike capacity
          (IndicatorFacts.compute ((t.history id).map Amount.toValue) keys)
          (IndicatorFacts.compute ((pricesOf id seen).map Amount.toValue) keys)
          key spec (prices.getLast?.getD 0)

/-- A tracker with room for at least one price is faithful exactly when its capacity is one that a
history can be given. -/
theorem faithful_iff (α : Type) [Amount α] {capacity : Nat} (positive : 1 ≤ capacity) :
    Faithful α capacity ↔ capacity ≤ capacityLimit := by
  constructor
  · intro h
    by_contra hreach
    rcases h [("", Amount.ofInt 0)] with ⟨t, hobserve, -⟩
    -- The first price is refused, so nothing is recorded at all.
    have hrefused := observe_new_error (α := α) (Nat.not_le.1 hreach) "" (Amount.ofInt 0)
    simp only [observeAll, List.foldlM_cons, hrefused] at hobserve
    cases hobserve
  · intro hreach seen
    rcases (records_new (α := α) capacity).observeAll hreach seen with
      ⟨t, hobserve, hcapacity, hrecords⟩
    refine ⟨t, hobserve, ?_⟩
    intro id prices hprices keys key spec hkey hspec
    have hkept : (t.history id).map Amount.toValue =
        lastOf capacity ((pricesOf id seen).map Amount.toValue) := by
      rw [hrecords.history id, hcapacity, map_lastOf]
      rfl
    rw [hkept]
    exact IndicatorFacts.compute_lastOf positive hprices hkey hspec

/-- Of four prices between those of another instrument three are kept. They give the strength over two
steps; the average of four prices is not known, and the last price stands for it. -/
theorem faithful_three :
    1 ≤ 3 ∧ Faithful Int 3 ∧
    let seen : List (String × Int) :=
      [("s1", 10), ("s2", 90), ("s1", 11), ("s1", 14), ("s2", 91), ("s1", 12)]
    (({ capacity := 3 } : PriceTracker Int).observeAll seen).toOption.map (·.history "s1") =
        some [11, 14, 12] ∧
      (IndicatorFacts.compute [.int 11, .int 14, .int 12] ["rsi:2", "ma:4"]).toOption =
        some [("rsi:2", 60), ("ma:4", 12)] :=
  ⟨by decide, (faithful_iff Int (by decide)).2 (by decide), by decide +kernel⟩

/-- A capacity that no history can be given: the tracker can be made, and the first price that it is
given is refused. -/
theorem not_faithful_beyond_limit :
    1 ≤ 2 ^ 63 ∧ capacityOf (.int (2 ^ 63)) = .ok (2 ^ 63) ∧
    ({ capacity := 2 ^ 63 } : PriceTracker Int).observeAll [("s1", 100)] = .error .tooLarge ∧
    ¬Faithful Int (2 ^ 63) := by
  have hrefused : ({ capacity := 2 ^ 63 } : PriceTracker Int).observe "s1" 100 = .error .tooLarge :=
    observe_new_error (by decide) "s1" 100
  have hstream : ({ capacity := 2 ^ 63 } : PriceTracker Int).observeAll [("s1", 100)] =
      .error .tooLarge := by
    simp only [observeAll, List.foldlM_cons, hrefused]
    rfl
  refine ⟨by decide, by decide +kernel, hstream, ?_⟩
  intro h
  rcases h [("s1", 100)] with ⟨t, hobserve, -⟩
  rw [hstream] at hobserve
  cases hobserve

end PriceTracker

end RuleTrader
