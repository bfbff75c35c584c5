import Mathlib.Algebra.Group.Int.Defs
import Mathlib.Algebra.Group.Nat.Defs
import RuleTrader.Proofs.Market.Tracker
import RuleTrader.Proofs.Number.Order

/-!
# Sliding windows

A tracker is called to observe prices and to forget them all. The prices that count for an instrument are
those observed since the last reset (`sinceReset`), and every call keeps the tracker in step with them
(`Records.call`, `Records.callAll`). So the history of an instrument is always a window at the end of its
prices, and an observation is answered from the price before it, also where the window has no room for that
price any more. Instruments do not disturb each other.

All of this holds after any calls, as long as the window can be given its capacity
(`slidesWindows_iff`). The first price that is put into a larger one is refused.
-/

namespace RuleTrader

/-! ## Prices that are numbers -/

/-- A value that is a number or counts as one. -/
def Value.IsNumeric (v : Value) : Prop := ∃ x, v.asNumber? = some x

namespace Value

variable {v w : Value} {x y : Number}

theorem compare_of_asNumber? (sign : OrderSign) (hv : v.asNumber? = some x) (hw : w.asNumber? = some y) :
    compare sign v w = .ok (sign.numbers x y) := by
  have hnumbers : compareNumbers sign v w = .ok (sign.numbers x y) := by
    rw [compareNumbers, hv, hw]
  cases v with
  | bool _ | number _ => rw [← hnumbers, compare]; all_goals simp
  | null | text _ | bytes _ | list _ | row _ | record _ => cases hv

theorem IsNumeric.isMissing (h : v.IsNumeric) : Amount.isMissing v = false := by
  obtain ⟨x, hx⟩ := h
  cases v with
  | null => cases hx
  | bool _ | number _ | text _ | bytes _ | list _ | row _ | record _ => rfl

end Value

/-- The trend between two numbers. It is never up and down at once. -/
theorem Trend.between_of_asNumber? {previous current : Value} {x y : Number}
    (hprevious : previous.asNumber? = some x) (hcurrent : current.asNumber? = some y) :
    Trend.between previous current = .ok ⟨x.lt y, y.lt x⟩ := by
  have hgt : Amount.gt current previous = .ok (x.lt y) := Value.compare_of_asNumber? .greater hcurrent hprevious
  have hlt : Amount.lt current previous = .ok (y.lt x) := Value.compare_of_asNumber? .less hcurrent hprevious
  unfold Trend.between
  rw [hgt, hlt]
  rfl

namespace PriceTracker

variable {α : Type}

/-! ## Calls -/

/-- A call that changes a tracker. -/
inductive Call (α : Type) where
  | observe (id : String) (price : α)
  | reset

/-- What a call leaves of a tracker. -/
def call (t : PriceTracker α) : Call α → Except NumberFault (PriceTracker α)
  | .observe id price => Prod.snd <$> t.observe id price
  | .reset => .ok t.reset

/-- Make calls from the first to the last, up to the first that is refused. -/
def callAll (t : PriceTracker α) (calls : List (Call α)) : Except NumberFault (PriceTracker α) :=
  calls.foldlM call t

/-- The prices that count after one more call. -/
def remember (seen : List (String × α)) : Call α → List (String × α)
  | .observe id price => seen ++ [(id, price)]
  | .reset => []

/-- The prices that were observed since the last reset. -/
def sinceReset (calls : List (Call α)) : List (String × α) := calls.foldl remember []

section

variable {t t' : PriceTracker α} {seen : List (String × α)}

/-- A call keeps a tracker in step with the prices that count. -/
theorem Records.call {c : Call α} (h : Records t seen) (hcall : t.call c = .ok t') :
    t'.capacity = t.capacity ∧ Records t' (remember seen c) := by
  cases c with
  | observe id price =>
      have hcall' : Prod.snd <$> t.observe id price = .ok t' := hcall
      cases hobserve : t.observe id price with
      | error fault =>
          rw [hobserve] at hcall'
          cases hcall'
      | ok answer =>
          rw [hobserve] at hcall'
          cases hcall'
          refine ⟨?_, h.observe hobserve⟩
          rw [(observe_eq hobserve).2]
  | reset =>
      cases hcall
      exact ⟨rfl, (records_new t.capacity).history, (records_new t.capacity).last⟩

/-- No call is refused by a tracker whose capacity is in reach, and any number of calls keep it in step. -/
theorem Records.callAll (h : Records t seen) (reach : t.capacity ≤ capacityLimit) (calls : List (Call α)) :
    ∃ t', t.callAll calls = .ok t' ∧ t'.capacity = t.capacity ∧ Records t' (calls.foldl remember seen) := by
  induction calls generalizing t seen with
  | nil => exact ⟨t, rfl, rfl, h⟩
  | cons c calls ih =>
      have hfirst : ∃ t₁, t.call c = .ok t₁ := by
        cases c with
        | observe id price =>
            obtain ⟨o, t₁, hobserve⟩ : ∃ o t₁, t.observe id price = .ok (o, t₁) :=
              observe_ok (Or.inr reach) price
            exact ⟨t₁, by rw [PriceTracker.call, hobserve]; rfl⟩
        | reset => exact ⟨t.reset, rfl⟩
      obtain ⟨t₁, hfirst⟩ := hfirst
      obtain ⟨hcapacity, hrecords⟩ := h.call hfirst
      obtain ⟨t', hrest, hsame, hrest'⟩ := ih hrecords (hcapacity ▸ reach)
      refine ⟨t', ?_, hsame.trans hcapacity, hrest'⟩
      rw [PriceTracker.callAll, List.foldlM_cons, hfirst]
      exact hrest

end

/-! ## Windows and answers -/

/-- The last of some prices, as many as there is room for. -/
structure IsWindow (capacity : ℕ) (prices window : List α) : Prop where
  suffix : window <:+ prices
  length : window.length = min capacity prices.length

theorem isWindow_lastOf (capacity : ℕ) (prices : List α) : IsWindow capacity prices (lastOf capacity prices) where
  suffix := List.drop_suffix _ _
  length := length_lastOf capacity prices

/-- What is answered to an observation after earlier prices of the instrument: nothing to the first one, and
else the price and the one before it with their trend, and the window that ends in the price. -/
structure Answers (capacity : ℕ) (earlier : List Value) (price : Value) (o : Observation Value) : Prop where
  first : o.trend? = .ok none ↔ earlier = []
  next : ∀ previous, earlier.getLast? = some previous → o.before? = some previous ∧
    ∃ x y, previous.asNumber? = some x ∧ price.asNumber? = some y ∧
      o.trend? = .ok (some ⟨x.lt y, y.lt x⟩) ∧ ¬(x.lt y = true ∧ y.lt x = true)
  current : o.current = price
  history : IsWindow capacity (earlier ++ [price]) o.history

/-- A tracker after some calls: of each instrument it holds a window of the prices since the last reset, and
it answers from these prices. To observe one instrument changes neither the window nor the answers of
another. -/
structure Slides (capacity : ℕ) (calls : List (Call Value)) (t : PriceTracker Value) : Prop where
  window : ∀ id, IsWindow capacity (pricesOf id (sinceReset calls)) (t.history id)
  answers : ∀ id price, price.IsNumeric → ∃ o t', t.observe id price = .ok (o, t') ∧
    Answers capacity (pricesOf id (sinceReset calls)) price o ∧ t'.history id = o.history ∧
    ∀ other, other ≠ id → t'.history other = t.history other ∧
      ∀ p, Prod.fst <$> t'.observe other p = Prod.fst <$> t.observe other p

/-- A call that observes a number, or none. -/
def Call.IsNumeric : Call Value → Prop
  | .observe _ price => price.IsNumeric
  | .reset => True

/-- The trackers of a capacity slide windows: after any calls with numbers. -/
def SlidesWindows (capacity : ℕ) : Prop :=
  ∀ calls : List (Call Value), (∀ c ∈ calls, c.IsNumeric) →
    ∃ t, ({ capacity } : PriceTracker Value).callAll calls = .ok t ∧ Slides capacity calls t

/-- Only numbers count after calls with numbers. -/
theorem numeric_of_mem_sinceReset {calls : List (Call Value)} (h : ∀ c ∈ calls, c.IsNumeric) :
    ∀ e ∈ sinceReset calls, e.2.IsNumeric := by
  suffices hfold : ∀ seen : List (String × Value), (∀ e ∈ seen, e.2.IsNumeric) →
      ∀ e ∈ calls.foldl remember seen, e.2.IsNumeric from hfold [] (by simp)
  induction calls with
  | nil => exact fun seen hseen => hseen
  | cons c calls ih =>
      rw [List.forall_mem_cons] at h
      intro seen hseen
      refine ih h.2 (remember seen c) ?_
      cases c with
      | reset => exact fun e he => absurd he List.not_mem_nil
      | observe id price =>
          intro e he
          rcases List.mem_append.1 he with he | he
          · exact hseen e he
          · rw [List.mem_singleton.1 he]
            exact h.1

theorem mem_of_mem_pricesOf {seen : List (String × α)} {id : String} {price : α} (h : price ∈ pricesOf id seen) :
    ∃ e ∈ seen, e.2 = price := by
  obtain ⟨e, he, rfl⟩ := List.mem_map.1 h
  exact ⟨e, (List.mem_filter.1 he).1, rfl⟩

/-- The answer to an observation is found in what the tracker holds of the instrument. -/
theorem fst_observe (t : PriceTracker α) (id : String) (price : α) :
    Prod.fst <$> t.observe id price =
      if !t.histories.has id && capacityLimit < t.capacity then .error .tooLarge
      else .ok ⟨price, t.lastPrices.get? id, lastOf t.capacity (t.history id ++ [price])⟩ := by
  unfold observe
  split <;> rfl

/-- What is recorded of one instrument leaves the window and the answers of another as they are. -/
theorem observe_other {t t' : PriceTracker α} {id other : String} {price : α} {o : Observation α}
    (h : t.observe id price = .ok (o, t')) (hne : other ≠ id) :
    t'.history other = t.history other ∧
      ∀ p, Prod.fst <$> t'.observe other p = Prod.fst <$> t.observe other p := by
  rcases observe_eq h with ⟨-, ht'⟩
  have hhistory : t'.histories.get? other = t.histories.get? other := by
    rw [ht']
    exact Table.get?_put_of_ne _ _ hne.symm
  have hlast : t'.lastPrices.get? other = t.lastPrices.get? other := by
    rw [ht']
    exact Table.get?_put_of_ne _ _ hne.symm
  have hcapacity : t'.capacity = t.capacity := by rw [ht']
  have hwindow : t'.history other = t.history other := by rw [PriceTracker.history, hhistory]; rfl
  refine ⟨hwindow, fun p => ?_⟩
  rw [fst_observe, fst_observe, hwindow, hlast, hcapacity, Table.has, hhistory]
  rfl

/-- An observation is answered from the prices that the tracker is in step with. -/
theorem Records.answers {t t' : PriceTracker Value} {seen : List (String × Value)} (h : Records t seen)
    (numeric : ∀ e ∈ seen, e.2.IsNumeric) {id : String} {price : Value} (hprice : price.IsNumeric)
    {o : Observation Value} (hobserve : t.observe id price = .ok (o, t')) :
    Answers t.capacity (pricesOf id seen) price o := by
  have hhistory : lastOf t.capacity (t.history id ++ [price]) = lastOf t.capacity (pricesOf id seen ++ [price]) := by
    rw [h.history id, lastOf_lastOf_append]
  rcases observe_eq hobserve with ⟨rfl, -⟩
  have hnumeric {previous : Value} (hprevious : (pricesOf id seen).getLast? = some previous) :
      previous.IsNumeric := by
    obtain ⟨e, he, rfl⟩ := mem_of_mem_pricesOf (List.mem_of_getLast? hprevious)
    exact numeric e he
  -- A number is never missing, so the price before is there as soon as there is one.
  have hbefore {previous : Value} (hprevious : (pricesOf id seen).getLast? = some previous) :
      Observation.before? ⟨price, t.lastPrices.get? id, lastOf t.capacity (t.history id ++ [price])⟩ =
        some previous := by
    rw [Observation.before?, h.last id, hprevious]
    simp [(hnumeric hprevious).isMissing]
  have htrend {previous : Value} (hprevious : (pricesOf id seen).getLast? = some previous) :
      ∃ x y, previous.asNumber? = some x ∧ price.asNumber? = some y ∧
        Observation.trend? ⟨price, t.lastPrices.get? id, lastOf t.capacity (t.history id ++ [price])⟩ =
          .ok (some ⟨x.lt y, y.lt x⟩) := by
    obtain ⟨x, hx⟩ := hnumeric hprevious
    obtain ⟨y, hy⟩ := hprice
    refine ⟨x, y, hx, hy, ?_⟩
    rw [Observation.trend?, hbefore hprevious]
    dsimp only
    rw [Trend.between_of_asNumber? hx hy]
    rfl
  refine ⟨⟨?_, ?_⟩, ?_, rfl, ?_⟩
  · intro hnone
    by_contra hne
    obtain ⟨x, y, -, -, hsome⟩ := htrend (List.getLast?_eq_some_getLast hne)
    rw [hsome] at hnone
    cases hnone
  · intro hnil
    rw [Observation.trend?, Observation.before?, h.last id, hnil]
    rfl
  · intro previous hprevious
    obtain ⟨x, y, hx, hy, hsome⟩ := htrend hprevious
    refine ⟨hbefore hprevious, x, y, hx, hy, hsome, ?_⟩
    rintro ⟨hup, hdown⟩
    rw [Number.lt_asymm hup] at hdown
    cases hdown
  · dsimp only
    rw [hhistory]
    exact isWindow_lastOf _ _

/-- Trackers slide windows if and only if a window can be given their capacity. -/
theorem slidesWindows_iff (capacity : ℕ) : SlidesWindows capacity ↔ capacity ≤ capacityLimit := by
  constructor
  · intro h
    by_contra hlarge
    obtain ⟨t, hcall, -⟩ := h [.observe "" (.int 0)] (by
      rintro c hc
      rw [List.mem_singleton.1 hc]
      exact ⟨_, rfl⟩)
    -- The first price is refused.
    have hrefused := observe_new_error (α := Value) (Nat.not_le.1 hlarge) "" (.int 0)
    rw [callAll, List.foldlM_cons, call, hrefused] at hcall
    cases hcall
  · intro reach calls numeric
    obtain ⟨t, hcall, hcapacity, hrecords⟩ := (records_new (α := Value) capacity).callAll reach calls
    have hnumeric := numeric_of_mem_sinceReset numeric
    dsimp only at hcapacity
    refine ⟨t, hcall, ?_, ?_⟩
    · intro id
      rw [hrecords.history id, hcapacity]
      exact isWindow_lastOf _ _
    · intro id price hprice
      obtain ⟨o, t', hobserve⟩ : ∃ o t', t.observe id price = .ok (o, t') :=
        observe_ok (Or.inr (hcapacity ▸ reach)) price
      refine ⟨o, t', hobserve, ?_, ?_, ?_⟩
      · rw [← hcapacity]
        exact hrecords.answers hnumeric hprice hobserve
      · rcases observe_eq hobserve with ⟨rfl, rfl⟩
        rw [PriceTracker.history, Table.get?_put_self]
        rfl
      · exact fun other hne => observe_other hobserve hne

/-- With room for one price only, the price before is still known. -/
example :
    ((do
      let (_, t) ← ({ capacity := 1 } : PriceTracker Int).observe "s1" 10
      let (o, _) ← t.observe "s1" 12
      return (o.before?, o.history)) : Except NumberFault (Option Int × List Int)) = .ok (some 10, [12]) := by
  decide +kernel

/-- A capacity that no window can be given: the tracker can be made, and the first price that it is given is
refused. -/
theorem not_slidesWindows_beyond_limit :
    capacityOf (.int (2 ^ 63)) = .ok (2 ^ 63) ∧
      ({ capacity := 2 ^ 63 } : PriceTracker Value).callAll [.observe "s1" (.int 100)] = .error .tooLarge ∧
      ¬SlidesWindows (2 ^ 63) := by
  have hrefused : ({ capacity := 2 ^ 63 } : PriceTracker Value).observe "s1" (.int 100) = .error .tooLarge :=
    observe_new_error (by decide) "s1" (Value.int 100)
  have hcall : ({ capacity := 2 ^ 63 } : PriceTracker Value).callAll [.observe "s1" (.int 100)] =
      .error .tooLarge := by
    rw [callAll, List.foldlM_cons, call, hrefused]
    rfl
  refine ⟨by decide +kernel, hcall, ?_⟩
  intro h
  obtain ⟨t, hslides, -⟩ := h [.observe "s1" (.int 100)] (by
    rintro c hc
    rw [List.mem_singleton.1 hc]
    exact ⟨_, rfl⟩)
  rw [hcall] at hslides
  cases hslides

end PriceTracker

end RuleTrader
