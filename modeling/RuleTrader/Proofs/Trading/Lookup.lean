import RuleTrader.Proofs.Indicator.Spelling
import RuleTrader.Proofs.Rule.Reads
import RuleTrader.Trading.Tick

/-!
# Looking rules up

A tick looks a strategy up once and remembers its rules. What it remembers is what would be read again,
so the rules that a bot is visited with depend on no bot that was visited before it. Rules that are not
usable are a fault instead, which is never remembered: it ends the loop.
-/

namespace RuleTrader

namespace Tick

/-! ## The rules of a bot -/

/-- The rules that a definition gives, if there is one and it gives any. -/
def definedRules (definition? : Option RuleDefinition) : Option (List Rule) :=
  match definition? with
  | none | some (.value .null) => none
  | some definition =>
    match RuleSet.read definition with
    | .ok [] | .error _ => none
    | .ok rules => some rules

/-- The rules that a bot goes by: those of the session, or those of its strategy. -/
def rulesOf (rules? : Option (List Rule)) (strategyId? : Option String)
    (ruleSets : Table String RuleDefinition) : Option (List Rule) :=
  match rules?, strategyId? with
  | some rules, _ => some rules
  | none, none | none, some "" => none
  | none, some strategyId => definedRules (ruleSets.get? strategyId)

theorem definedRules_some (definition : RuleDefinition) :
    definedRules (some definition) =
      match RuleSet.read definition with
      | .ok [] | .error _ => none
      | .ok rules => some rules := by
  unfold definedRules
  split
  · next h => cases h
  · next h =>
      cases h
      rfl
  · next h =>
      cases h
      rfl

theorem rulesOf_congr {rules? : Option (List Rule)} {strategyId? : Option String}
    {ruleSets ruleSets' : Table String RuleDefinition}
    (h : ∀ strategyId, strategyId? = some strategyId → strategyId ≠ "" → rules? = none →
      ruleSets.get? strategyId = ruleSets'.get? strategyId) :
    rulesOf rules? strategyId? ruleSets = rulesOf rules? strategyId? ruleSets' := by
  unfold rulesOf
  cases rules? with
  | some rules => rfl
  | none =>
      cases strategyId? with
      | none => rfl
      | some strategyId =>
          by_cases hempty : strategyId = ""
          · subst hempty
            rfl
          · simp [h strategyId rfl hempty rfl]

/-! ## Usable rules -/

/-- Rules are usable exactly if no name that they read spells out too long a period. -/
theorem usable_iff_periods {rules : List Rule} :
    Rule.Usable rules ↔ ∀ name, Rule.Read rules name → ∀ p : Spelling,
      IndicatorKey.dropLineFeed name.toList = p.chars → p.period.chars.length ≤ digitLimit := by
  rw [Rule.usable_iff]
  exact forall₂_congr fun name _ => IndicatorKey.exists_isFact_iff

/-- Rules, if there are any, once the indicators that they read are known. -/
def checked : Option (List Rule) → Except NumberFault (Option (List Rule))
  | none => .ok none
  | some rules => (fun _ => some rules) <$> Rule.indicatorKeys rules

/-- What looking for the rules of a bot comes to. Those of the session were checked before. -/
def checkedRules (rules? : Option (List Rule)) (strategyId? : Option String)
    (ruleSets : Table String RuleDefinition) : Except NumberFault (Option (List Rule)) :=
  match rules? with
  | some rules => .ok (some rules)
  | none => checked (rulesOf none strategyId? ruleSets)

/-- The rules that a bot goes by are those of the session, or usable, or there are none. -/
def Governed (setup : TickSetup) (strategyId? : Option String)
    (ruleSets : Table String RuleDefinition) : Prop :=
  setup.rules? = none → ∀ rules, rulesOf none strategyId? ruleSets = some rules → Rule.Usable rules

theorem checkedRules_congr {rules? : Option (List Rule)} {strategyId? : Option String}
    {ruleSets ruleSets' : Table String RuleDefinition}
    (h : rulesOf rules? strategyId? ruleSets = rulesOf rules? strategyId? ruleSets') :
    checkedRules rules? strategyId? ruleSets = checkedRules rules? strategyId? ruleSets' := by
  cases rules? with
  | some rules => rfl
  | none => rw [checkedRules, checkedRules, h]

theorem checkedRules_of_none {rules? : Option (List Rule)} {strategyId? : Option String}
    {ruleSets : Table String RuleDefinition} (h : rulesOf rules? strategyId? ruleSets = none) :
    checkedRules rules? strategyId? ruleSets = .ok none := by
  cases rules? with
  | some rules => cases h
  | none =>
      rw [checkedRules, h]
      rfl

theorem checked_eq_ok {rules? found? : Option (List Rule)} (h : checked rules? = .ok found?) :
    found? = rules? := by
  cases rules? with
  | none => exact (Except.ok.inj h).symm
  | some rules =>
      rw [checked] at h
      cases hkeys : Rule.indicatorKeys rules with
      | error fault =>
          rw [hkeys] at h
          cases h
      | ok keys =>
          rw [hkeys] at h
          exact (Except.ok.inj h).symm

theorem checkedRules_eq_ok {rules? found? : Option (List Rule)} {strategyId? : Option String}
    {ruleSets : Table String RuleDefinition} (h : checkedRules rules? strategyId? ruleSets = .ok found?) :
    found? = rulesOf rules? strategyId? ruleSets := by
  cases rules? with
  | some rules => exact (Except.ok.inj h).symm
  | none => exact checked_eq_ok h

theorem exists_checked_iff {rules? : Option (List Rule)} :
    (∃ found?, checked rules? = .ok found?) ↔ ∀ rules, rules? = some rules → Rule.Usable rules := by
  cases rules? with
  | none =>
      refine iff_of_true ⟨none, rfl⟩ ?_
      intro rules h
      cases h
  | some rules =>
      have husable : Rule.Usable rules ↔ ∃ keys, Rule.indicatorKeys rules = .ok keys := Iff.rfl
      rw [checked]
      cases hkeys : Rule.indicatorKeys rules <;> simp [Functor.map, Except.map, husable, hkeys]

/-- The rules of a bot are found exactly if they are usable. -/
theorem governed_iff {setup : TickSetup} {strategyId? : Option String}
    {ruleSets : Table String RuleDefinition} :
    Governed setup strategyId? ruleSets ↔
      ∃ found?, checkedRules setup.rules? strategyId? ruleSets = .ok found? := by
  unfold Governed checkedRules
  cases setup.rules? with
  | some rules => simp
  | none =>
      dsimp only
      rw [exists_checked_iff, forall_prop_of_true rfl]

/-- Rules that are read from records, and not given ready-made, are usable. -/
theorem usable_of_definedRules {definition? : Option RuleDefinition} {rules : List Rule}
    (unread : ∀ definition, definition? = some definition → RuleSet.Unread definition)
    (h : definedRules definition? = some rules) : Rule.Usable rules := by
  cases definition? with
  | none => cases h
  | some definition =>
      rw [definedRules_some] at h
      split at h
      · cases h
      · cases h
      · next hread =>
          obtain rfl := Option.some.inj h
          exact Rule.usable_of_sound (RuleSet.sound_of_read (unread definition rfl) hread)

theorem governed_of_unread (setup : TickSetup) {strategyId? : Option String}
    {ruleSets : Table String RuleDefinition}
    (unread : ∀ strategyId definition, ruleSets.get? strategyId = some definition →
      RuleSet.Unread definition) : Governed setup strategyId? ruleSets := by
  intro _ rules h
  unfold rulesOf at h
  split at h
  · next hnone => cases hnone
  · cases h
  · cases h
  · next strategyId _ _ => exact usable_of_definedRules (unread strategyId) h

/-! ## Looking them up -/

theorem storedRules_fst (session strategyId : String) (ruleSets : Table String RuleDefinition) :
    (storedRules session strategyId ruleSets).1 = checked (definedRules (ruleSets.get? strategyId)) := by
  unfold storedRules
  split
  · next h =>
      rw [h]
      rfl
  · next h =>
      rw [h]
      rfl
  · next definition _ h =>
      rw [h, definedRules_some, strategyRules, RuleSet.read]
      rcases (RuleSet.readAll definition).rules with fault | _ | ⟨r, rs⟩ <;> rfl

variable {α : Type}

theorem reportAll_eq (s : TickState α) (ns : List Notice) :
    ∃ notices, s.reportAll ns = { s with trade := { s.trade with notices } } := by
  induction ns generalizing s with
  | nil => exact ⟨s.trade.notices, rfl⟩
  | cons n ns ih => exact ih (s.report n)

/-- What a tick remembers of the strategies is what their definitions give, and usable. -/
def Informed (ruleSets : Table String RuleDefinition) (s : TickState α) : Prop :=
  ∀ strategyId rules?, s.known.get? strategyId = some rules? →
    checked (definedRules (ruleSets.get? strategyId)) = .ok rules?

/-- Nothing is remembered at first. -/
theorem informed_start (ruleSets : Table String RuleDefinition) (data : Organized α) (m : TickMemory α)
    [Amount α] : Informed ruleSets (start data m) := by
  intro strategyId rules? hknown
  cases hknown

/-- A strategy that is looked up has the rules of its definition, be it remembered or not. -/
theorem lookUpStrategy_informed {session strategyId : String}
    {ruleSets : Table String RuleDefinition} {s : TickState α} (informed : Informed ruleSets s) :
    (lookUpStrategy session strategyId ruleSets s).1 =
        checked (definedRules (ruleSets.get? strategyId)) ∧
      Informed ruleSets (lookUpStrategy session strategyId ruleSets s).2 := by
  have hfound := storedRules_fst session strategyId ruleSets
  unfold lookUpStrategy
  split
  · next rules? hget => exact ⟨(informed strategyId rules? hget).symm, informed⟩
  · split
    · next stored hstored =>
        rw [hstored] at hfound
        rcases reportAll_eq s stored with ⟨notices, hreport⟩
        rw [hreport]
        exact ⟨hfound, informed⟩
    · next rules? stored hstored =>
        rw [hstored] at hfound
        rcases reportAll_eq s stored with ⟨notices, hreport⟩
        rw [hreport]
        refine ⟨hfound, ?_⟩
        -- Only rules that were found are put in, so what the table says stays true.
        intro other found? hget
        dsimp only at hget
        by_cases heq : strategyId = other
        · subst heq
          rw [Table.get?_put_self] at hget
          rw [← Option.some.inj hget]
          exact hfound.symm
        · rw [Table.get?_put_of_ne _ _ heq] at hget
          exact informed other found? hget

theorem rulesFor_informed (setup : TickSetup) (bot : Bot α) {ruleSets : Table String RuleDefinition}
    {s : TickState α} (informed : Informed ruleSets s) :
    (rulesFor setup bot ruleSets s).1 = checkedRules setup.rules? bot.strategyId? ruleSets ∧
      Informed ruleSets (rulesFor setup bot ruleSets s).2 := by
  unfold rulesFor checkedRules rulesOf
  cases setup.rules? with
  | some rules => exact ⟨rfl, informed⟩
  | none =>
      cases bot.strategyId? with
      | none => exact ⟨rfl, informed⟩
      | some strategyId =>
          by_cases hempty : strategyId = ""
          · subst hempty
            exact ⟨rfl, informed⟩
          · simpa [hempty] using lookUpStrategy_informed informed

/-- Looking for the rules of a bot reports and remembers, and changes nothing else. -/
theorem rulesFor_eq (setup : TickSetup) (bot : Bot α) (ruleSets : Table String RuleDefinition)
    (s : TickState α) :
    ∃ notices known, (rulesFor setup bot ruleSets s).2 =
      { s with trade := { s.trade with notices }, known } := by
  have hsame : ∃ notices known, s = { s with trade := { s.trade with notices }, known } :=
    ⟨s.trade.notices, s.known, rfl⟩
  unfold rulesFor lookUpStrategy
  split
  · exact hsame
  · exact hsame
  · exact hsame
  · split
    · exact hsame
    · split
      · next stored _ =>
          rcases reportAll_eq s stored with ⟨notices, hreport⟩
          exact ⟨notices, s.known, hreport⟩
      · next stored _ =>
          rcases reportAll_eq s stored with ⟨notices, hreport⟩
          exact ⟨notices, _, by rw [hreport]⟩

/-- Nor does it touch money, batch or tracker. -/
theorem rulesFor_keeps (setup : TickSetup) (bot : Bot α) (ruleSets : Table String RuleDefinition)
    (s : TickState α) : (rulesFor setup bot ruleSets s).2.trade.balances = s.trade.balances ∧
      (rulesFor setup bot ruleSets s).2.trade.batch = s.trade.batch ∧
      (rulesFor setup bot ruleSets s).2.tracker = s.tracker := by
  rcases rulesFor_eq setup bot ruleSets s with ⟨notices, known, h⟩
  rw [h]
  exact ⟨rfl, rfl, rfl⟩

/-! ## Visiting bots -/

variable [Amount α]

theorem runPair_known (setup : TickSetup) (pair : Pair α) (s : TickState α) :
    (runPair setup pair s).known = s.known ∧ (runPair setup pair s).tracker = s.tracker := by
  unfold runPair
  split <;> exact ⟨rfl, rfl⟩

section Visits

variable (setup : TickSetup) {data : Organized α} (now : Micros) (instrument : Instrument α)
  (price : PriceContext α) {s : TickState α}

theorem visitBot_informed (informed : Informed data.ruleSets s) (bot : Bot α) :
    Informed data.ruleSets (visitBot setup data now instrument price bot s).2 := by
  have hrules := (rulesFor_informed setup bot informed).2
  unfold visitBot
  rcases hfor : rulesFor setup bot data.ruleSets s with ⟨fault | _ | rules, t⟩
  · rw [hfor] at hrules
    exact hrules
  · rw [hfor] at hrules
    exact hrules
  · rw [hfor] at hrules
    dsimp only [Informed]
    rw [(runPair_known setup _ t).1]
    exact hrules

/-- Visiting a bot ends the loop only where its rules cannot be found. -/
theorem visitBot_fst (informed : Informed data.ruleSets s) (bot : Bot α) :
    (visitBot setup data now instrument price bot s).1 =
      ((fun _ => ()) <$> checkedRules setup.rules? bot.strategyId? data.ruleSets).mapError .number := by
  rw [← (rulesFor_informed setup bot informed).1, visitBot]
  rcases rulesFor setup bot data.ruleSets s with ⟨fault | _ | rules, t⟩ <;> rfl

theorem visitBot_ok_iff (informed : Informed data.ruleSets s) (bot : Bot α) :
    (visitBot setup data now instrument price bot s).1 = .ok () ↔
      Governed setup bot.strategyId? data.ruleSets := by
  rw [visitBot_fst setup now instrument price informed, governed_iff]
  cases checkedRules setup.rules? bot.strategyId? data.ruleSets <;>
    simp [Functor.map, Except.map, Except.mapError]

/-- What visiting any bot keeps, visiting bots keeps, also when one of them ends the loop. -/
theorem visitEach_keeps {P : TickState α → Prop} {bots : List (Bot α)}
    (keeps : ∀ bot ∈ bots, ∀ s, P s → P (visitBot setup data now instrument price bot s).2) (hs : P s) :
    P (visitEach setup data now instrument price bots s).2 := by
  induction bots generalizing s with
  | nil => exact hs
  | cons bot bots ih =>
      rw [List.forall_mem_cons] at keeps
      -- A bot that ends the loop has been visited all the same.
      have hfirst := keeps.1 s hs
      rw [visitEach]
      rcases hvisit : visitBot setup data now instrument price bot s with ⟨_ | _, t⟩
      · rw [hvisit] at hfirst
        exact hfirst
      · rw [hvisit] at hfirst
        exact ih keeps.2 hfirst

theorem visitEach_informed (informed : Informed data.ruleSets s) (bots : List (Bot α)) :
    Informed data.ruleSets (visitEach setup data now instrument price bots s).2 :=
  visitEach_keeps setup now instrument price
    (fun bot _ _ h => visitBot_informed setup now instrument price h bot) informed

theorem visitInstrument_informed (informed : Informed data.ruleSets s) (bots : List (Bot α)) :
    Informed data.ruleSets (visitInstrument setup data now bots instrument s).2 := by
  unfold visitInstrument visitBots
  split
  · exact informed
  · split
    · exact informed
    · split
      · exact informed
      · refine visitEach_informed setup now instrument _ ?_ bots
        exact informed

theorem visitEach_ok_iff (informed : Informed data.ruleSets s) {bots : List (Bot α)} :
    (visitEach setup data now instrument price bots s).1 = .ok () ↔
      ∀ bot ∈ bots, Governed setup bot.strategyId? data.ruleSets := by
  induction bots generalizing s with
  | nil => simp [visitEach]
  | cons bot bots ih =>
      have hfirst := visitBot_ok_iff setup now instrument price informed bot
      have hinformed := visitBot_informed setup now instrument price informed bot
      rw [List.forall_mem_cons, ← hfirst, visitEach]
      rcases hvisit : visitBot setup data now instrument price bot s with ⟨fault | _, t⟩
      · simp
      · rw [hvisit] at hinformed
        rw [ih hinformed, and_iff_right rfl]

end Visits

end Tick

end RuleTrader
