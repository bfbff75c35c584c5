import RuleTrader.Proofs.Indicator.Facts
import RuleTrader.Proofs.Rule.RoundTrip
import RuleTrader.Rule.Evaluation

/-!
# What rules read

The facts that a condition reads are said three times: by the names that it allows when it is read from
a record, by the list of its names, and by what its evaluation looks up. `Condition.Reads` is the one
that the others are compared with. A condition reads exactly the names on its list, and facts that agree
on these give it the same outcome, refusals included.
-/

namespace RuleTrader

namespace Condition

/-- A condition reads a fact: at one of its leaves, on the left or as what is compared with. -/
inductive Reads : Condition → String → Prop
  | allOf {cs : List Condition} {c : Condition} {name : String} (mem : c ∈ cs) (part : Reads c name) :
      Reads (.allOf cs) name
  | anyOf {cs : List Condition} {c : Condition} {name : String} (mem : c ∈ cs) (part : Reads c name) :
      Reads (.anyOf cs) name
  | negation {c : Condition} {name : String} (part : Reads c name) : Reads (.negation c) name
  | left {fact : String} {comparator : Comparator} {operand : Operand} :
      Reads (.comparison fact comparator operand) fact
  | right {fact name : String} {comparator : Comparator} :
      Reads (.comparison fact comparator (.fact name)) name
  | range {fact : String} {test : RangeTest} {least greatest : Value} :
      Reads (.range fact test least greatest) fact
  | chance {fact : String} {percent : Value} : Reads (.chance fact percent) Fact.chance

/-! ## The list of names -/

mutual

theorem reads_of_mem : (c : Condition) → {name : String} → name ∈ c.factNames → c.Reads name
  | .allOf cs, _, h => by
    rcases reads_of_memOfList cs h with ⟨c, hc, hreads⟩
    exact .allOf hc hreads
  | .anyOf cs, _, h => by
    rcases reads_of_memOfList cs h with ⟨c, hc, hreads⟩
    exact .anyOf hc hreads
  | .negation c, _, h => .negation (reads_of_mem c h)
  | .comparison fact comparator operand, _, h => by
    rcases List.mem_cons.1 h with rfl | h
    · exact .left
    · cases operand with
      | literal v => cases h
      | fact other =>
          obtain rfl := List.mem_singleton.1 h
          exact .right
  | .range fact test least greatest, _, h => by
    obtain rfl := List.mem_singleton.1 h
    exact .range
  | .chance fact percent, _, h => by
    obtain rfl := List.mem_singleton.1 h
    exact .chance
  | .unknown, _, h => nomatch h

theorem reads_of_memOfList : (cs : List Condition) → {name : String} → name ∈ factNamesOfList cs →
    ∃ c ∈ cs, c.Reads name
  | [], _, h => nomatch h
  | c :: cs, _, h => by
    rcases List.mem_append.1 h with h | h
    · exact ⟨c, List.mem_cons_self, reads_of_mem c h⟩
    · rcases reads_of_memOfList cs h with ⟨d, hd, hreads⟩
      exact ⟨d, List.mem_cons_of_mem c hd, hreads⟩

end

theorem factNames_subset {cs : List Condition} {c : Condition} (h : c ∈ cs) :
    c.factNames ⊆ factNamesOfList cs := by
  induction cs with
  | nil => cases h
  | cons d cs ih =>
      intro name hname
      rcases List.mem_cons.1 h with rfl | h
      · exact List.mem_append_left _ hname
      · exact List.mem_append_right _ (ih h hname)

theorem Reads.mem_factNames {c : Condition} {name : String} (h : c.Reads name) :
    name ∈ c.factNames := by
  induction h with
  | allOf mem part ih => exact factNames_subset mem ih
  | anyOf mem part ih => exact factNames_subset mem ih
  | negation part ih => exact ih
  | left => exact List.mem_cons_self
  | right => exact List.mem_cons_of_mem _ List.mem_cons_self
  | range => exact List.mem_singleton.2 rfl
  | chance => exact List.mem_singleton.2 rfl

/-- The list of names has what a condition reads, and nothing else. -/
theorem mem_factNames_iff {c : Condition} {name : String} : name ∈ c.factNames ↔ c.Reads name :=
  ⟨reads_of_mem c, Reads.mem_factNames⟩

/-- A condition of the vocabulary reads facts of the vocabulary only. -/
theorem Sound.allowed {c : Condition} (sound : c.Sound) {name : String} (h : c.Reads name) :
    Fact.Allowed name := by
  induction h with
  | allOf mem part ih =>
      cases sound with
      | allOf nonempty parts => exact ih (parts _ mem)
  | anyOf mem part ih =>
      cases sound with
      | anyOf nonempty parts => exact ih (parts _ mem)
  | negation part ih =>
      cases sound with
      | negation sound => exact ih sound
  | left =>
      cases sound with
      | comparison allowed known right => exact allowed
  | right =>
      cases sound with
      | comparison allowed known right =>
          cases right with
          | fact allowed => exact allowed
  | range =>
      cases sound with
      | range allowed known least greatest => exact allowed
  -- The name of the chance is in the vocabulary, whatever fact stands beside it.
  | chance => exact if_pos (by decide)

end Condition

/-! ## Evaluation -/

namespace Facts

/-- Facts that agree on some names. -/
def Agree (names : String → Prop) (f g : Facts) : Prop := ∀ name, names name → f.get? name = g.get? name

variable {names names' : String → Prop} {f g : Facts}

theorem Agree.mono (h : Agree names f g) (hnames : ∀ name, names' name → names name) :
    Agree names' f g :=
  fun name hname => h name (hnames name hname)

theorem Agree.put (h : Agree names f g) (name : String) (v : Value) :
    Agree names (Table.put f name v) (Table.put g name v) := by
  intro other hother
  by_cases heq : name = other
  · subst heq
    rw [Table.get?_put_self, Table.get?_put_self]
  · rw [Table.get?_put_of_ne _ _ heq, Table.get?_put_of_ne _ _ heq]
    exact h other hother

theorem agree_put (f : Facts) {name : String} (v : Value) (h : ¬ names name) :
    Agree names (Table.put f name v) f := by
  intro other hother
  refine Table.get?_put_of_ne f v ?_
  rintro rfl
  exact h hother

theorem agree_filter (f : Facts) {name : String} (h : ¬ names name) :
    Agree names (f.filter fun e => e.1 ≠ name) f := by
  intro other hother
  have hne : other ≠ name := by
    rintro rfl
    exact h hother
  exact Table.get?_filter (p := (· ≠ name)) f (decide_eq_true hne)

theorem Agree.putAll (h : Agree names f g) (entries : List (String × Value)) :
    Agree names (Table.putAll f entries) (Table.putAll g entries) := by
  induction entries generalizing f g with
  | nil => exact h
  | cons e rest ih => exact ih (h.put e.1 e.2)

end Facts

namespace Condition

variable {f g : Facts}

theorem holdsComparison_congr {fact : String} {operand : Operand} (comparator : Comparator)
    (h : f.Agree (Reads (.comparison fact comparator operand)) g) :
    holdsComparison f fact comparator operand = holdsComparison g fact comparator operand := by
  have hknown : f.known? fact = g.known? fact := by
    rw [Facts.known?, Facts.known?, h fact .left]
  have hoperand : operandValue? f operand = operandValue? g operand := by
    cases operand with
    | literal v => cases v <;> rfl
    | fact name => rw [operandValue?, operandValue?, Facts.known?, Facts.known?, h name .right]
  rw [holdsComparison, holdsComparison, hknown, hoperand]

mutual

/-- Facts that agree on what a condition reads give it the same outcome. -/
theorem holds_congr : (c : Condition) → f.Agree c.Reads g → c.holds f = c.holds g
  | .allOf cs, h => holdAll_congr cs fun _ hc => h.mono fun _ => .allOf hc
  | .anyOf cs, h => holdAny_congr cs fun _ hc => h.mono fun _ => .anyOf hc
  | .negation c, h => congrArg ((!·) <$> ·) (holds_congr c (h.mono fun _ => .negation))
  | .comparison _ comparator _, h => holdsComparison_congr comparator h
  | .range fact test least greatest, h => by
    rw [holds, holds, holdsRange, holdsRange, h fact .range]
  | .chance fact percent, h => by
    rw [holds, holds, holdsChance, holdsChance, h Fact.chance .chance]
  | .unknown, _ => rfl

theorem holdAll_congr : (cs : List Condition) → (∀ c ∈ cs, f.Agree c.Reads g) →
    holdAll f cs = holdAll g cs
  | [], _ => rfl
  | c :: cs, h => by
    rw [holdAll, holdAll, holds_congr c (h c List.mem_cons_self),
      holdAll_congr cs fun d hd => h d (List.mem_cons_of_mem c hd)]

theorem holdAny_congr : (cs : List Condition) → (∀ c ∈ cs, f.Agree c.Reads g) →
    holdAny f cs = holdAny g cs
  | [], _ => rfl
  | c :: cs, h => by
    rw [holdAny, holdAny, holds_congr c (h c List.mem_cons_self),
      holdAny_congr cs fun d hd => h d (List.mem_cons_of_mem c hd)]

end

end Condition

namespace Rule

/-- Rules read a fact where the condition of one of them does. -/
def Read (rules : List Rule) (name : String) : Prop := ∃ r ∈ rules, r.condition.Reads name

/-- Facts that agree on what the rules read give the same decision. -/
theorem decide?_congr {f g : Facts} {rules : List Rule} (h : f.Agree (Read rules) g) :
    decide? f rules = decide? g rules := by
  induction rules with
  | nil => rfl
  | cons r rules ih =>
      have hfirst : r.condition.holds f = r.condition.holds g :=
        Condition.holds_congr r.condition (h.mono fun name hname => ⟨r, List.mem_cons_self, hname⟩)
      have hrest : decide? f rules = decide? g rules :=
        ih (h.mono fun name ⟨r', hr', hname⟩ => ⟨r', List.mem_cons_of_mem r hr', hname⟩)
      rw [decide?, decide?, hfirst, hrest]

theorem read_iff {rules : List Rule} {name : String} :
    Read rules name ↔ ∃ r ∈ rules, name ∈ r.condition.factNames := by
  simp only [Read, Condition.mem_factNames_iff]

/-- The outcome of a condition depends on no fact but those on the list of its names, and the decision
of rules on no fact but those on the lists of their conditions. A fact under any other name may be put
in, changed or taken out. -/
theorem outcome_of_named_facts (c : Condition) (rules : List Rule) (f g : Facts) :
    (f.Agree (· ∈ c.factNames) g → c.holds f = c.holds g) ∧
      (f.Agree (fun name => ∃ r ∈ rules, name ∈ r.condition.factNames) g →
        decide? f rules = decide? g rules) ∧
      ∀ name, (∀ r ∈ rules, name ∉ r.condition.factNames) →
        (∀ v, decide? (Table.put f name v) rules = decide? f rules) ∧
          decide? (f.filter fun e => e.1 ≠ name) rules = decide? f rules := by
  refine ⟨fun h => ?_, fun h => ?_, fun name hname => ?_⟩
  · exact Condition.holds_congr c (h.mono fun _ => Condition.mem_factNames_iff.2)
  · exact decide?_congr (h.mono fun _ => read_iff.1)
  · have hunread : ¬ Read rules name := by
      rw [read_iff]
      rintro ⟨r, hr, hnamed⟩
      exact hname r hr hnamed
    exact ⟨fun v => decide?_congr (Facts.agree_put f v hunread),
      decide?_congr (Facts.agree_filter f hunread)⟩

/-- Rules that compare the price and draw a chance decide the same whatever the balance is. -/
theorem outcome_of_named_facts_balance :
    let c : Condition := .allOf [.comparison "currentPrice" .greaterThan (.fact "previousPrice"),
      .chance "balance" (.number 50)]
    let rules : List Rule := [{ condition := c, decision := { action := .buy } }]
    let f : Facts := [("currentPrice", .number 11), ("previousPrice", .number 10),
      (Fact.chance, .number 7), ("balance", .number 3)]
    let g : Facts := [(Fact.chance, .number 7), ("previousPrice", .number 10),
      ("currentPrice", .number 11)]
    c.holds f = .ok true ∧ c.holds f = c.holds g ∧ decide? f rules = decide? g rules ∧
      ∀ v, decide? (Table.put f "balance" v) rules = decide? f rules := by
  intro c rules f g
  have hagree : f.Agree (· ∈ c.factNames) g := by
    intro name hname
    change name ∈ ["currentPrice", "previousPrice", Fact.chance] at hname
    fin_cases hname <;> rfl
  have hrules : f.Agree (fun name => ∃ r ∈ rules, name ∈ r.condition.factNames) g := by
    refine hagree.mono ?_
    rintro name ⟨r, hr, hname⟩
    obtain rfl := List.mem_singleton.1 hr
    exact hname
  have hbalance : ∀ r ∈ rules, "balance" ∉ r.condition.factNames := by
    intro r hr
    obtain rfl := List.mem_singleton.1 hr
    change "balance" ∉ ["currentPrice", "previousPrice", Fact.chance]
    decide
  obtain ⟨hc, hdecide, hother⟩ := outcome_of_named_facts c rules f g
  exact ⟨rfl, hc hagree, hdecide hrules, (hother "balance" hbalance).1⟩

/-! ## The indicators that rules read -/

/-- Names can be searched for indicators exactly if each of them can be told. -/
theorem exists_indicatorsAmong_iff {names : List String} :
    (∃ keys, Fact.indicatorsAmong names = .ok keys) ↔
      ∀ name ∈ names, ∃ b, IndicatorKey.isFact name = .ok b := by
  induction names with
  | nil => simp [Fact.indicatorsAmong]
  | cons name names ih =>
      rw [List.forall_mem_cons, ← ih, Fact.indicatorsAmong]
      rcases IndicatorKey.isFact name with fault | _ | _ <;>
        cases Fact.indicatorsAmong names <;> simp [bind, Except.bind, pure, Except.pure]

theorem mem_indicatorsAmong {names keys : List String} (h : Fact.indicatorsAmong names = .ok keys)
    {name : String} : name ∈ keys ↔ name ∈ names ∧ IndicatorKey.isFact name = .ok true := by
  induction names generalizing keys with
  | nil =>
      cases h
      simp
  | cons first names ih =>
      rcases bind_ok h with ⟨isFact, hfirst, h⟩
      cases isFact with
      | false =>
          rw [ih h, List.mem_cons, or_and_right, or_iff_right]
          rintro ⟨rfl, htrue⟩
          rw [hfirst] at htrue
          cases htrue
      | true =>
          rcases bind_ok h with ⟨rest, hrest, h⟩
          cases h
          rw [List.mem_cons, List.mem_cons, ih hrest, or_and_right]
          refine or_congr_left ⟨?_, And.left⟩
          rintro rfl
          exact ⟨rfl, hfirst⟩

/-- Rules are usable when the indicators that they read are known. -/
def Usable (rules : List Rule) : Prop := ∃ keys, indicatorKeys rules = .ok keys

section Keys

variable {rules : List Rule} {keys : List String}

theorem indicatorKeys_eq_ok (h : indicatorKeys rules = .ok keys) :
    ∃ found, Fact.indicatorsAmong (rules.flatMap (·.condition.factNames)) = .ok found ∧
      keys = IndicatorFacts.distinct found := by
  rcases bind_ok h with ⟨found, hfound, h⟩
  exact ⟨found, hfound, (Except.ok.inj h).symm⟩

theorem nodup_indicatorKeys (h : indicatorKeys rules = .ok keys) : keys.Nodup := by
  rcases indicatorKeys_eq_ok h with ⟨found, -, rfl⟩
  exact IndicatorFacts.nodup_distinct found

/-- The indicator keys of rules are the names of indicators that they read. -/
theorem mem_indicatorKeys (h : indicatorKeys rules = .ok keys) {name : String} :
    name ∈ keys ↔ Read rules name ∧ IndicatorKey.isFact name = .ok true := by
  rcases indicatorKeys_eq_ok h with ⟨found, hfound, rfl⟩
  rw [IndicatorFacts.mem_distinct, mem_indicatorsAmong hfound, List.mem_flatMap, read_iff]

/-- Rules are usable exactly if every fact that they read is known to be an indicator or none. -/
theorem usable_iff :
    Usable rules ↔ ∀ name, Read rules name → ∃ b, IndicatorKey.isFact name = .ok b := by
  have hfound : Usable rules ↔
      ∃ found, Fact.indicatorsAmong (rules.flatMap (·.condition.factNames)) = .ok found := by
    constructor
    · rintro ⟨keys, hkeys⟩
      rcases indicatorKeys_eq_ok hkeys with ⟨found, hfound, -⟩
      exact ⟨found, hfound⟩
    · rintro ⟨found, hfound⟩
      exact ⟨IndicatorFacts.distinct found, by rw [indicatorKeys, hfound]; rfl⟩
  rw [hfound, exists_indicatorsAmong_iff]
  refine forall_congr' fun name => imp_congr_left ?_
  rw [List.mem_flatMap, read_iff]

end Keys

/-- A fact of the vocabulary is known to be an indicator or none. -/
theorem isFact_of_allowed {name : String} (h : Fact.Allowed name) :
    ∃ b, IndicatorKey.isFact name = .ok b := by
  have hplain : ∀ plain ∈ Fact.plainNames, IndicatorKey.isFact plain = .ok false := by decide +kernel
  by_cases hname : name ∈ Fact.plainNames
  · exact ⟨false, hplain name hname⟩
  · have hallowed : Fact.isAllowed name = .ok true := h
    rw [Fact.isAllowed, if_neg hname] at hallowed
    exact ⟨true, hallowed⟩

/-- Rules that were read from records are usable. -/
theorem usable_of_sound {rules : List Rule} (h : ∀ r ∈ rules, r.Sound) : Usable rules := by
  refine usable_iff.2 fun name ⟨r, hr, hreads⟩ => ?_
  exact isFact_of_allowed ((h r hr).condition.allowed hreads)

/-- What rules that were read from records read is a plain fact or on the list of their keys. -/
theorem plain_or_mem_indicatorKeys {d : RuleDefinition} (unread : RuleSet.Unread d)
    {rules : List Rule} (h : RuleSet.read d = .ok rules) {keys : List String}
    (hkeys : indicatorKeys rules = .ok keys) {name : String} (hread : Read rules name) :
    name ∈ Fact.plainNames ∨ name ∈ keys := by
  rcases hread with ⟨r, hr, hreads⟩
  have hallowed : Fact.isAllowed name = .ok true :=
    (RuleSet.sound_of_read unread h r hr).condition.allowed hreads
  by_cases hplain : name ∈ Fact.plainNames
  · exact Or.inl hplain
  · rw [Fact.isAllowed, if_neg hplain] at hallowed
    exact Or.inr ((mem_indicatorKeys hkeys).2 ⟨⟨r, hr, hreads⟩, hallowed⟩)

end Rule

end RuleTrader
