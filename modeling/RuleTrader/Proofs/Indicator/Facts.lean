import RuleTrader.Indicator.Facts
import RuleTrader.Proofs.Indicator.Window
import RuleTrader.Proofs.Outcome
import RuleTrader.Proofs.Table

/-!
# The facts that keys ask for

Which facts a list of keys gives does not depend on the history: it is one for each key that names an
indicator (`specsOf`). The history gives them their values, each by itself. So a fact is the same
whatever other keys are asked for beside it.
-/

namespace RuleTrader.IndicatorFacts

/-! ## The keys -/

theorem foldl_distinct (keys seen : List String) (nodup : seen.Nodup) :
    let all := keys.foldl (fun seen key => if key ∈ seen then seen else seen ++ [key]) seen
    all.Nodup ∧ ∀ key, key ∈ all ↔ key ∈ seen ∨ key ∈ keys := by
  induction keys generalizing seen with
  | nil => simpa using nodup
  | cons k keys ih =>
      rw [List.foldl_cons]
      by_cases hk : k ∈ seen
      · rw [if_pos hk]
        refine ⟨(ih seen nodup).1, fun key => ?_⟩
        rw [(ih seen nodup).2, List.mem_cons]
        constructor
        · rintro (h | h)
          · exact Or.inl h
          · exact Or.inr (Or.inr h)
        · rintro (h | rfl | h)
          · exact Or.inl h
          · exact Or.inl hk
          · exact Or.inr h
      · have hnodup : (seen ++ [k]).Nodup := by
          rw [List.nodup_append]
          refine ⟨nodup, List.nodup_singleton k, ?_⟩
          rintro a ha b hb rfl
          exact hk (List.mem_singleton.1 hb ▸ ha)
        rw [if_neg hk]
        refine ⟨(ih _ hnodup).1, fun key => ?_⟩
        rw [(ih _ hnodup).2, List.mem_append, List.mem_singleton, List.mem_cons, or_assoc]

theorem nodup_distinct (keys : List String) : (distinct keys).Nodup :=
  (foldl_distinct keys [] List.nodup_nil).1

theorem mem_distinct {keys : List String} {key : String} : key ∈ distinct keys ↔ key ∈ keys := by
  have hmem : key ∈ distinct keys ↔ key ∈ [] ∨ key ∈ keys :=
    (foldl_distinct keys [] List.nodup_nil).2 key
  simpa using hmem

/-- A name is that of an indicator when it is resolved to one. -/
theorem isFact_eq (name : String) :
    IndicatorKey.isFact name = Option.isSome <$> IndicatorKey.resolve name := by
  unfold IndicatorKey.isFact IndicatorKey.resolve IndicatorKey.isKey
  cases Indicator.ofName? name with
  | none => rfl
  | some kind => rfl

theorem resolve_of_isFact {name : String} (h : IndicatorKey.isFact name = .ok true) :
    ∃ spec, IndicatorKey.resolve name = .ok (some spec) := by
  rw [isFact_eq] at h
  cases hresolve : IndicatorKey.resolve name with
  | error fault => simp [hresolve] at h
  | ok spec? =>
      cases spec? with
      | none => simp [hresolve] at h
      | some spec => exact ⟨spec, rfl⟩

/-! ## The facts without their values -/

/-- The indicators that the keys name, by their keys. -/
def specsOf : List String → Except NumberFault (Table String IndicatorSpec)
  | [] => .ok []
  | key :: keys => do
    let spec? ← IndicatorKey.resolve key
    let specs ← specsOf keys
    match spec? with
    | some spec => return (key, spec) :: specs
    | none => return specs

/-- The facts of the keys are the indicators that they name, each with its value. -/
theorem compute_eq (history : List Value) (keys : List String) :
    compute history keys = (do
      let prices ← readHistory history
      let specs ← specsOf (distinct keys)
      return specs.mapValues fun spec => spec.resolve prices (prices.getLast?.getD 0)) := by
  have hfound (prices : List Float) (currentPrice : Float) (keys : List String) :
      List.filterMap id <$> keys.mapM (fact? prices currentPrice) =
        Table.mapValues (fun spec => spec.resolve prices currentPrice) <$> specsOf keys := by
    induction keys with
    | nil => rfl
    | cons key keys ih =>
        rw [List.mapM_cons, specsOf, fact?]
        rcases IndicatorKey.resolve key with fault | _ | spec
        · rfl
        -- A key that names none adds nothing on either side, and one that names one adds its fact.
        · calc List.filterMap id <$> (do
                let rest ← keys.mapM (fact? prices currentPrice)
                return none :: rest)
            _ = List.filterMap id <$> keys.mapM (fact? prices currentPrice) := by
                cases keys.mapM (fact? prices currentPrice) <;> rfl
            _ = _ := ih
            _ = _ := by cases specsOf keys <;> rfl
        · calc List.filterMap id <$> (do
                let rest ← keys.mapM (fact? prices currentPrice)
                return some (key, spec.resolve prices currentPrice) :: rest)
            _ = ((key, spec.resolve prices currentPrice) :: ·) <$>
                  (List.filterMap id <$> keys.mapM (fact? prices currentPrice)) := by
                cases keys.mapM (fact? prices currentPrice) <;> rfl
            _ = _ := congrArg _ ih
            _ = _ := by cases specsOf keys <;> rfl
  unfold compute
  cases readHistory history with
  | error fault => rfl
  | ok prices => exact hfound prices (prices.getLast?.getD 0) (distinct keys)

section Specs

variable {keys : List String} {specs : Table String IndicatorSpec}

theorem keys_specsOf (h : specsOf keys = .ok specs) : specs.keys.Sublist keys := by
  induction keys generalizing specs with
  | nil =>
      cases h
      exact List.Sublist.refl _
  | cons key keys ih =>
      rcases bind_ok h with ⟨spec?, -, h⟩
      rcases bind_ok h with ⟨rest, hrest, h⟩
      cases spec? with
      | none =>
          cases h
          exact (ih hrest).cons key
      | some spec =>
          cases h
          exact (ih hrest).cons_cons key

/-- Under a key stands what the key is resolved to. -/
theorem resolve_eq_get? (nodup : keys.Nodup) (h : specsOf keys = .ok specs) {key : String}
    (hkey : key ∈ keys) : IndicatorKey.resolve key = .ok (specs.get? key) := by
  induction keys generalizing specs with
  | nil => cases hkey
  | cons k keys ih =>
      rw [List.nodup_cons] at nodup
      rcases bind_ok h with ⟨spec?, hspec, h⟩
      rcases bind_ok h with ⟨rest, hrest, h⟩
      have hnone : rest.get? k = none := by
        rw [Table.get?_eq_none_iff]
        exact fun hmem => nodup.1 ((keys_specsOf hrest).subset hmem)
      rcases List.mem_cons.1 hkey with rfl | hkey
      · cases spec? with
        | none =>
            cases h
            rw [hspec, hnone]
        | some spec =>
            cases h
            simpa [Table.get?] using hspec
      · -- The first key is another one, so it is looked up among the rest.
        have hne : k ≠ key := fun heq => nodup.1 (heq ▸ hkey)
        rw [ih nodup.2 hrest hkey]
        cases spec? with
        | none => cases h; rfl
        | some spec =>
            cases h
            simp [Table.get?, hne]

theorem specsOf_ok (h : ∀ key ∈ keys, ∃ spec?, IndicatorKey.resolve key = .ok spec?) :
    ∃ specs, specsOf keys = .ok specs := by
  induction keys with
  | nil => exact ⟨[], rfl⟩
  | cons key keys ih =>
      rw [List.forall_mem_cons] at h
      rcases h.1 with ⟨spec?, hspec⟩
      rcases ih h.2 with ⟨rest, hrest⟩
      rw [specsOf, hspec, hrest]
      cases spec? with
      | none => exact ⟨rest, rfl⟩
      | some spec => exact ⟨(key, spec) :: rest, rfl⟩

end Specs

/-! ## The facts -/

section Facts

variable {history : List Value} {keys : List String} {prices : List Float}
  {found : Table String Float}

/-- Where facts are given, they are those of the indicators that the keys name. -/
theorem compute_ok (h : compute history keys = .ok found) :
    ∃ prices specs, readHistory history = .ok prices ∧ specsOf (distinct keys) = .ok specs ∧
      found = specs.mapValues fun spec => spec.resolve prices (prices.getLast?.getD 0) := by
  rw [compute_eq] at h
  rcases bind_ok h with ⟨prices, hprices, h⟩
  rcases bind_ok h with ⟨specs, hspecs, h⟩
  exact ⟨prices, specs, hprices, hspecs, (Except.ok.inj h).symm⟩

/-- The fact of a key that is asked for is the value of its indicator. -/
theorem get?_compute (h : compute history keys = .ok found)
    (hprices : readHistory history = .ok prices) {key : String} (hkey : key ∈ keys) :
    ∃ spec?, IndicatorKey.resolve key = .ok spec? ∧
      found.get? key = spec?.map fun spec => spec.resolve prices (prices.getLast?.getD 0) := by
  rcases compute_ok h with ⟨prices', specs, hprices', hspecs, rfl⟩
  obtain rfl : prices' = prices := Except.ok.inj (hprices'.symm.trans hprices)
  refine ⟨specs.get? key, ?_, Table.get?_mapValues _ specs key⟩
  exact resolve_eq_get? (nodup_distinct keys) hspecs (mem_distinct.2 hkey)

/-- No other name has a fact. -/
theorem mem_of_compute (h : compute history keys = .ok found) {key : String}
    (hkey : key ∈ found.keys) : key ∈ keys := by
  rcases compute_ok h with ⟨prices, specs, -, hspecs, rfl⟩
  rw [Table.keys_mapValues] at hkey
  exact mem_distinct.1 ((keys_specsOf hspecs).subset hkey)

theorem nodup_keys_compute (h : compute history keys = .ok found) : found.keys.Nodup := by
  rcases compute_ok h with ⟨prices, specs, -, hspecs, rfl⟩
  rw [Table.keys_mapValues]
  exact (nodup_distinct keys).sublist (keys_specsOf hspecs)

/-- Two lists of keys that both ask for an indicator, or both do not, give it the same fact. -/
theorem get?_compute_congr {keys' : List String} {found' : Table String Float}
    (h : compute history keys = .ok found) (h' : compute history keys' = .ok found') {key : String}
    (same : ∀ spec, IndicatorKey.resolve key = .ok (some spec) → (key ∈ keys ↔ key ∈ keys')) :
    found.get? key = found'.get? key := by
  rcases compute_ok h with ⟨prices, -, hprices, -, -⟩
  -- A name that names no indicator has no fact, whether it is asked for or not.
  have hnone {keys : List String} {found : Table String Float} (h : compute history keys = .ok found)
      (hspec : ∀ spec, IndicatorKey.resolve key ≠ .ok (some spec)) : found.get? key = none := by
    by_cases hkey : key ∈ keys
    · rcases get?_compute h hprices hkey with ⟨spec?, hresolve, hget⟩
      cases spec? with
      | none => exact hget
      | some spec => exact absurd hresolve (hspec spec)
    · rw [Table.get?_eq_none_iff]
      exact fun hmem => hkey (mem_of_compute h hmem)
  by_cases hspec : ∃ spec, IndicatorKey.resolve key = .ok (some spec)
  · rcases hspec with ⟨spec, hspec⟩
    by_cases hkey : key ∈ keys
    · rcases get?_compute h hprices hkey with ⟨spec₁, hspec₁, hget₁⟩
      rcases get?_compute h' hprices ((same spec hspec).1 hkey) with ⟨spec₂, hspec₂, hget₂⟩
      obtain rfl : spec₁ = spec₂ := Except.ok.inj (hspec₁.symm.trans hspec₂)
      rw [hget₁, hget₂]
    · have hkey' : key ∉ keys' := fun hmem => hkey ((same spec hspec).2 hmem)
      rw [Table.get?_eq_none_iff.2 fun hmem => hkey (mem_of_compute h hmem),
        Table.get?_eq_none_iff.2 fun hmem => hkey' (mem_of_compute h' hmem)]
  · have hspec : ∀ spec, IndicatorKey.resolve key ≠ .ok (some spec) :=
      fun spec hresolve => hspec ⟨spec, hresolve⟩
    rw [hnone h hspec, hnone h' hspec]

/-- Over prices that can be read, keys that can be read are given facts. -/
theorem compute_of_resolve (hprices : readHistory history = .ok prices)
    (h : ∀ key ∈ keys, ∃ spec?, IndicatorKey.resolve key = .ok spec?) :
    ∃ found, compute history keys = .ok found := by
  have hkeys : ∀ key ∈ distinct keys, ∃ spec?, IndicatorKey.resolve key = .ok spec? :=
    fun key hkey => h key (mem_distinct.1 hkey)
  rcases specsOf_ok hkeys with ⟨specs, hspecs⟩
  rw [compute_eq, hprices, hspecs]
  exact ⟨_, rfl⟩

end Facts

end RuleTrader.IndicatorFacts
