import RuleTrader.Market.Tracker
import RuleTrader.Proofs.Outcome
import RuleTrader.Proofs.Table

/-!
# What a tracker records

A tracker that has seen a stream of prices holds, of each instrument, the last prices of its own part
of the stream, however the instruments are interleaved. It refuses a price only when no history can be
given its capacity, and then it refuses the first price of every instrument.
-/

namespace RuleTrader

/-- A price in integers is never missing. -/
theorem Observation.before?_int (o : Observation Int) : o.before? = o.previous? := by
  unfold before?
  cases o.previous? <;> simp [Option.filter]

namespace PriceTracker

variable {α : Type}

/-! ## The last entries -/

@[simp] theorem lastOf_nil (n : Nat) : lastOf n ([] : List α) = [] := List.drop_nil

theorem lastOf_lastOf_append (n : Nat) (xs ys : List α) :
    lastOf n (lastOf n xs ++ ys) = lastOf n (xs ++ ys) := by
  unfold lastOf
  rw [List.length_append, List.length_append, List.length_drop]
  -- What the first cut takes away, the cut of the whole takes away as well.
  rw [← List.drop_append_of_le_length (by omega : xs.length - n ≤ xs.length), List.drop_drop]
  congr 1
  omega

theorem lastOf_lastOf {n m : Nat} (fits : n ≤ m) (xs : List α) : lastOf n (lastOf m xs) = lastOf n xs := by
  rw [lastOf, lastOf, lastOf, List.drop_drop, List.length_drop]
  congr 1
  omega

theorem length_lastOf (n : Nat) (xs : List α) : (lastOf n xs).length = min n xs.length := by
  rw [lastOf, List.length_drop]
  omega

theorem map_lastOf {β : Type} (f : α → β) (n : Nat) (xs : List α) :
    (lastOf n xs).map f = lastOf n (xs.map f) := by
  rw [lastOf, lastOf, List.map_drop, List.length_map]

theorem getLast?_lastOf {n : Nat} (positive : 1 ≤ n) (xs : List α) :
    (lastOf n xs).getLast? = xs.getLast? := by
  cases xs with
  | nil => rw [lastOf_nil]
  | cons x xs =>
      have hnot : ¬(x :: xs).length ≤ (x :: xs).length - n := by
        simp only [List.length_cons]
        omega
      rw [lastOf, List.getLast?_drop, if_neg hnot]

/-! ## A stream of prices -/

/-- The prices of one instrument in a stream. -/
def pricesOf (instrumentId : String) (seen : List (String × α)) : List α :=
  (seen.filter (·.1 == instrumentId)).map (·.2)

theorem pricesOf_append (instrumentId : String) (seen more : List (String × α)) :
    pricesOf instrumentId (seen ++ more) = pricesOf instrumentId seen ++ pricesOf instrumentId more := by
  simp [pricesOf]

theorem pricesOf_single (instrumentId : String) (e : String × α) :
    pricesOf instrumentId [e] = if e.1 = instrumentId then [e.2] else [] := by
  by_cases h : e.1 = instrumentId
  · simp [pricesOf, h]
  · simp [pricesOf, h]

/-- Record the prices of a stream from the first to the last, up to the first that is refused. -/
def observeAll (t : PriceTracker α) (stream : List (String × α)) :
    Except NumberFault (PriceTracker α) :=
  stream.foldlM (fun t e => Prod.snd <$> t.observe e.1 e.2) t

/-- What a tracker holds after a stream: of each instrument the last prices, as many as there is room
for, and the last one besides. -/
structure Records (t : PriceTracker α) (seen : List (String × α)) : Prop where
  history : ∀ id, t.history id = lastOf t.capacity (pricesOf id seen)
  last : ∀ id, t.lastPrices.get? id = (pricesOf id seen).getLast?

theorem records_new (capacity : Nat) : Records ({ capacity } : PriceTracker α) [] where
  history _ := (lastOf_nil capacity).symm
  last _ := rfl

/-- What recording a price gives: the price before it, and the grown history put in. -/
theorem observe_eq {t t' : PriceTracker α} {id : String} {price : α} {o : Observation α}
    (h : t.observe id price = .ok (o, t')) :
    o = ⟨price, t.lastPrices.get? id, lastOf t.capacity (t.history id ++ [price])⟩ ∧
    t' = { t with
      lastPrices := t.lastPrices.put id price
      histories := t.histories.put id (lastOf t.capacity (t.history id ++ [price])) } := by
  unfold observe at h
  split at h
  · cases h
  · have hpair := Prod.mk.inj (Except.ok.inj h)
    exact ⟨hpair.1.symm, hpair.2.symm⟩

/-- Recording one price: the history of its instrument grows and loses what there is no room for, and
all others stay as they are. -/
theorem Records.observe {t t' : PriceTracker α} {seen : List (String × α)} {id : String} {price : α}
    {o : Observation α} (h : Records t seen) (hobserve : t.observe id price = .ok (o, t')) :
    Records t' (seen ++ [(id, price)]) := by
  rcases observe_eq hobserve with ⟨-, rfl⟩
  have hself : pricesOf id (seen ++ [(id, price)]) = pricesOf id seen ++ [price] := by
    rw [pricesOf_append, pricesOf_single, if_pos rfl]
  have hother {id' : String} (hne : id ≠ id') :
      pricesOf id' (seen ++ [(id, price)]) = pricesOf id' seen := by
    rw [pricesOf_append, pricesOf_single, if_neg hne, List.append_nil]
  constructor
  · intro id'
    by_cases hid : id = id'
    · subst hid
      rw [PriceTracker.history, Table.get?_put_self, Option.getD_some, h.history id, hself]
      exact lastOf_lastOf_append _ _ _
    · rw [PriceTracker.history, Table.get?_put_of_ne _ _ hid, hother hid]
      exact h.history id'
  · intro id'
    by_cases hid : id = id'
    · subst hid
      rw [Table.get?_put_self, hself, List.getLast?_concat]
    · rw [Table.get?_put_of_ne _ _ hid, hother hid]
      exact h.last id'

/-! ## What is refused -/

/-- A price of an instrument is recorded: its history is there, or can be given its capacity. -/
def Accepts (t : PriceTracker α) (id : String) : Prop :=
  t.histories.has id = true ∨ t.capacity ≤ capacityLimit

theorem observe_ok {t : PriceTracker α} {id : String} (accepts : t.Accepts id) (price : α) :
    ∃ o t', t.observe id price = .ok (o, t') := by
  have hnot : ¬((!t.histories.has id && decide (capacityLimit < t.capacity)) = true) := by
    rcases accepts with hhas | hreach
    · simp [hhas]
    · simp [Nat.not_lt.2 hreach]
  exact ⟨_, _, if_neg hnot⟩

theorem observe_error {t : PriceTracker α} {id : String} (refuses : ¬t.Accepts id) (price : α) :
    t.observe id price = .error .tooLarge := by
  have hnew : (!t.histories.has id && decide (capacityLimit < t.capacity)) = true := by
    simpa [Accepts, not_or] using refuses
  exact if_pos hnew

theorem accepts_of_observe {t t' : PriceTracker α} {id : String} {price : α} {o : Observation α}
    (h : t.observe id price = .ok (o, t')) : t.Accepts id := by
  by_contra refuses
  rw [observe_error refuses] at h
  cases h

/-- What is recorded of one instrument decides nothing about another. -/
theorem accepts_observe_iff {t t' : PriceTracker α} {id : String} {price : α} {o : Observation α}
    (h : t.observe id price = .ok (o, t')) (other : String) : t'.Accepts other ↔ t.Accepts other := by
  have hself := accepts_of_observe h
  rcases observe_eq h with ⟨-, rfl⟩
  by_cases hid : id = other
  · subst hid
    simpa [Accepts, Table.has] using hself
  · simp [Accepts, Table.has, Table.get?_put_of_ne _ _ hid]

theorem Records.observeAll {t : PriceTracker α} {seen : List (String × α)} (h : Records t seen)
    (reach : t.capacity ≤ capacityLimit) (stream : List (String × α)) :
    ∃ t', t.observeAll stream = .ok t' ∧ t'.capacity = t.capacity ∧ Records t' (seen ++ stream) := by
  induction stream generalizing t seen with
  | nil => exact ⟨t, rfl, rfl, by rwa [List.append_nil]⟩
  | cons e rest ih =>
      have accepts : t.Accepts e.1 := Or.inr reach
      rcases observe_ok accepts e.2 with ⟨o, t₁, hfirst⟩
      have hcapacity : t₁.capacity = t.capacity := by rw [(observe_eq hfirst).2]
      rcases ih (h.observe hfirst) (hcapacity ▸ reach) with ⟨t', hrest, hsame, hrecords⟩
      refine ⟨t', ?_, hsame.trans hcapacity, ?_⟩
      · have hstep : t.observeAll (e :: rest) = t₁.observeAll rest := by
          simp only [PriceTracker.observeAll, List.foldlM_cons, hfirst]
          rfl
        rw [hstep]
        exact hrest
      · simpa using hrecords

/-- A tracker of a capacity out of reach refuses the first price that it is given. -/
theorem observe_new_error {capacity : Nat} (h : capacityLimit < capacity) (id : String) (price : α) :
    ({ capacity } : PriceTracker α).observe id price = .error .tooLarge :=
  observe_error (by simp [Accepts, Table.has, h]) price

end PriceTracker

end RuleTrader
