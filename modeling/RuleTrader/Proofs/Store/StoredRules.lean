import RuleTrader.Proofs.Rule.Reordered
import RuleTrader.Proofs.Store.LastWrites

/-!
# Rules that are kept in a store

A durable store keeps a rule set as text: a text as it is, and any other value as JSON text with sorted
records. A snapshot gives the text back, which is read through other branches than the value that was put in.
It is read as the same rules in the same order nevertheless, or refused with the same fault
(`DurableStore.kept_rules_keep_meaning`): the text writes the value again up to the order of fields
(`Json.reordered_sortFields`), and that order is not looked at (`RuleSet.read_reordered`).
-/

namespace RuleTrader

namespace DurableStore

/-- Rules that a store is meant to keep: a text, which may be anything, or a value built of what JSON text
holds. -/
inductive Storable : Value → Prop
  | text (s : String) : Storable (.text s)
  | built {v : Value} (built : Json.Built Json.depthLimit v) : Storable v

/-- The text that is kept is read as the same rules as the value. -/
theorem read_ruleText {rules : Value} {text : String} (h : Storable rules)
    (written : ruleText rules = .ok text) :
    SameOutcome (List.Forall₂ Rule.Same) (RuleSet.read (.value rules))
      (RuleSet.read (.value (.text text))) := by
  -- A text is kept as it is; any other value is written with sorted records.
  by_cases htext : ∃ s, rules = .text s
  · rcases htext with ⟨s, rfl⟩
    cases written
    exact RuleSet.read_reordered (.value (.refl _))
  · have noText (s : String) : rules ≠ .text s := fun hs => htext ⟨s, hs⟩
    have hwrite : Json.writeSorted rules = .ok text := by
      rw [← written]
      unfold ruleText
      split
      · exact absurd rfl (noText _)
      · rfl
    cases h with
    | text s => exact absurd rfl (noText s)
    | built built =>
        -- That it was written shows that no integer in it is too long to be read back.
        refine RuleSet.read_written_sorted (built.readable ?_) noText hwrite
        rw [← fault?_eq_none, ← fault?_map String.ofList]
        exact fault?_eq_none.2 ⟨text, hwrite⟩

/-- Rules that were last put in for a strategy, which a bot uses as it was last put in. -/
structure InUse (requests : List Request) (strategyId : String) (rules : Value) : Prop where
  last : Table.last? (requests.filterMap Request.rules?) strategyId = some rules
  used : ∃ botId b, Table.last? (requests.filterMap Request.trader?) botId = some b ∧
    b.automated = true ∧ b.strategyId? = some strategyId

variable {s u : DurableStore} {requests : List Request} {strategyId : String} {rules : Value}

/-- What a snapshot gives back of rules in use is their text. -/
theorem InUse.shown (inUse : InUse requests strategyId rules) (h : Served s requests u) :
    ∃ text, ruleText rules = .ok text ∧ ∀ now shown, u.fetch now = .ok shown →
      shown.ruleSets.get? strategyId = some (.value (.text text)) := by
  rcases h.ran with ⟨-, -, ran⟩
  have hkept := ran.get?_strategies strategyId
  rw [inUse.last] at hkept
  obtain ⟨text, hwritten, hget⟩ := hkept
  have hused : u.tables.isUsed strategyId = true := by
    rcases inUse.used with ⟨botId, b, hb, hautomated, hstrategy⟩
    have hthere : u.tables.traders.get? botId = some b := by
      rw [ran.traders, Table.get?_putAll_eq, hb]
      rfl
    have hmem : b ∈ u.tables.traders.values := List.mem_map.2 ⟨_, Table.mem_of_get? hthere, rfl⟩
    exact (isUsed_iff _ _).2 ⟨b, List.mem_filter.2 ⟨hmem, hautomated⟩, hstrategy⟩
  refine ⟨text, hwritten, fun now shown hfetch => ?_⟩
  -- A closed store shows nothing.
  have opened : u.closed = false := by
    by_contra hclosed
    rw [Bool.not_eq_false] at hclosed
    simp [fetch, hclosed] at hfetch
  rcases snapshot_ok ((fetch_eq_ok_iff opened).1 hfetch) with ⟨-, -, -, -, -, hrules⟩
  exact (get?_ruleSets hrules _ _).2 ⟨hused, text, hget, rfl⟩

/-- Rules that are kept are read from every snapshot as they are read from the value that was put in, since
the order of fields makes no difference to any definition of rules. -/
theorem kept_rules_keep_meaning :
    (∀ d e : RuleDefinition, d.Reordered e →
      SameOutcome (List.Forall₂ Rule.Same) (RuleSet.read d) (RuleSet.read e)) ∧
    ∀ (s u : DurableStore) (requests : List Request) (strategyId : String) (rules : Value),
      Served s requests u → InUse requests strategyId rules → Storable rules →
      ∃ definition, SameOutcome (List.Forall₂ Rule.Same) (RuleSet.read (.value rules))
          (RuleSet.read definition) ∧
        ∀ now shown, u.fetch now = .ok shown → shown.ruleSets.get? strategyId = some definition := by
  refine ⟨fun _ _ => RuleSet.read_reordered, fun s u requests strategyId rules served inUse storable => ?_⟩
  rcases inUse.shown served with ⟨text, hwritten, hshown⟩
  exact ⟨_, read_ruleText storable hwritten, hshown⟩

/-- Selling on a rise, as one rule whose records are not sorted. -/
def sellsOnRise : Value :=
  .record [("event", .record [("type", .text "SELL"), ("params", .record [("sizePct", .number (.int 1))])]),
    ("conditions", .record [("all", .list [.record [("value", .bool true), ("operator", .text "equal"),
      ("fact", .text "isPriceUp")]])])]

/-- A strategy and a bot of it. -/
def riseSeller : List Request :=
  [.putStrategy "q1" sellsOnRise, .putTrader { id := "b1", balance := .int 100, strategyId? := some "q1" }]

theorem built_sellsOnRise (depth : Nat) : Json.Built (depth + 4) sellsOnRise := by
  have leaf : Json.Built (depth + 1)
      (.record [("value", .bool true), ("operator", .text "equal"), ("fact", .text "isPriceUp")]) := by
    refine .record (by decide) (by decide +kernel) ?_
    simp only [List.forall_mem_cons]
    exact ⟨.bool true, .text (by decide +kernel), .text (by decide +kernel), by simp⟩
  have conditions : Json.Built (depth + 3) (.record [("all", .list [.record [("value", .bool true),
      ("operator", .text "equal"), ("fact", .text "isPriceUp")]])]) :=
    .record (by decide) (by decide +kernel) (by simpa using .list (by simpa using leaf))
  have params : Json.Built (depth + 2) (.record [("sizePct", .number (.int 1))]) :=
    .record (by decide) (by decide +kernel) (by simpa using .number (by simp))
  have event : Json.Built (depth + 3)
      (.record [("type", .text "SELL"), ("params", .record [("sizePct", .number (.int 1))])]) := by
    refine .record (by decide) (by decide +kernel) ?_
    simp only [List.forall_mem_cons]
    exact ⟨.text (by decide +kernel), params, by simp⟩
  refine .record (by decide) (by decide +kernel) ?_
  simp only [List.forall_mem_cons]
  exact ⟨event, conditions, by simp⟩

theorem kept_rules_keep_meaning_sellsOnRise : ∃ rules, RuleSet.read (.value sellsOnRise) = .ok rules ∧
    rules.length = 1 ∧
    (∃ fields rules', sellsOnRise = .record fields ∧
      RuleSet.read (.value (.record fields.reverse)) = .ok rules' ∧ List.Forall₂ Rule.Same rules rules') ∧
    ∃ u shown definition rules', Served {} riseSeller u ∧ u.fetch 0 = .ok shown ∧
      shown.ruleSets.get? "q1" = some definition ∧ RuleSet.read definition = .ok rules' ∧
      List.Forall₂ Rule.Same rules rules' := by
  have hone : (RuleSet.read (.value sellsOnRise)).toOption.map (·.length) = some 1 := by decide +kernel
  rcases hread : RuleSet.read (.value sellsOnRise) with fault | rules
  · rw [hread] at hone
    cases hone
  rw [hread] at hone
  refine ⟨rules, rfl, Option.some.inj hone, ?_, ?_⟩
  · have turned : sellsOnRise.Reordered (.record _) :=
      .of_perm (by decide +kernel) (List.reverse_perm _).symm
    have same := kept_rules_keep_meaning.1 _ _ (.value turned)
    rw [hread] at same
    rcases same.of_ok with ⟨rules', hrules', hsame⟩
    exact ⟨_, rules', rfl, hrules', hsame⟩
  · obtain ⟨u, hfetch, served⟩ : ∃ u, fault? (u.fetch 0) = none ∧ Served {} riseSeller u :=
      ⟨_, by decide +kernel, .head rfl (.head rfl .start)⟩
    rcases fault?_eq_none.1 hfetch with ⟨shown, hfetch⟩
    have inUse : InUse riseSeller "q1" sellsOnRise := ⟨rfl, "b1", _, rfl, rfl, rfl⟩
    rcases kept_rules_keep_meaning.2 {} u riseSeller "q1" sellsOnRise served inUse
      (.built (built_sellsOnRise 996)) with ⟨definition, same, hshown⟩
    rw [hread] at same
    rcases same.of_ok with ⟨rules', hrules', hsame⟩
    exact ⟨u, shown, definition, rules', served, hfetch, hshown 0 shown hfetch, hrules', hsame⟩

end DurableStore

end RuleTrader
