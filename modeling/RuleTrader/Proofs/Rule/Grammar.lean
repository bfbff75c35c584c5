import RuleTrader.Rule.Reading

/-!
# The grammar of rules

What a rule may be written as, and what a rule is once it is read, both said without the reader.

* `ValidLeaf v` — the record `v` writes a leaf: an allowed fact, an operator of the vocabulary and
  what that operator needs;
* `Inside v cost x` — `x` stands in the group `v` under the key that counts there;
* `Leads v cost y` — the group `y` lies inside `v`, and the way to it uses up `cost` of the allowance;
* `ReachesLeaf v`, `Fits allowance v` — a valid leaf lies inside `v`; no way inside `v` is too long;
* `Condition.Sound c` — the condition `c` has only parts that the vocabulary covers.
-/

namespace RuleTrader

/-- A name that rules may read. -/
def Fact.Allowed (name : String) : Prop := Fact.isAllowed name = .ok true

/-- A number with a binary64 number near to it. -/
def Number.Finite (x : Number) : Prop := x.isFinite = .ok true

/-- A number from `0` to `100`. -/
structure Number.Percentage (p : Number) : Prop where
  finite : p.Finite
  least : Number.le 0 p = true
  greatest : p.le 100 = true

namespace Rule

/-! ## Leaves -/

def HoldsNumber (v : Value) : Prop := ∃ x, v = .number x ∧ x.Finite

def NamesFact (v : Value) : Prop := ∃ name, v = .text name ∧ Fact.Allowed name

/-- What a fact may be compared with. The name of a fact goes before a number that it also writes. -/
inductive ValidOperand (comparator : Comparator) : Value → Prop
  | bool (b : Bool) (equality : comparator = .equal) : ValidOperand comparator (.bool b)
  | number {x : Number} (finite : x.Finite) : ValidOperand comparator (.number x)
  | name {s : String} (allowed : Fact.Allowed s) : ValidOperand comparator (.text s)
  | numeral {s : String} {x : Float} (noName : Fact.isAllowed s = .ok false)
      (value : Number.readFloat? s = some x) (finite : Binary64.isFinite x = true) :
      ValidOperand comparator (.text s)
  | reference {fields : List (String × Value)}
      (names : NamesFact ((Value.record fields).field "fact")) :
      ValidOperand comparator (.record fields)

/-- The bounds of a range: two fields, or two fields of the value when one of the former is missing. -/
inductive ValidBounds (leaf : Value) : Prop
  | fields (least : HoldsNumber (leaf.field "valueMin")) (greatest : HoldsNumber (leaf.field "valueMax"))
  | value {fields : List (String × Value)}
      (missing : leaf.field "valueMin" = .null ∨ leaf.field "valueMax" = .null)
      (value : leaf.field "value" = .record fields)
      (least : HoldsNumber ((Value.record fields).field "min"))
      (greatest : HoldsNumber ((Value.record fields).field "max"))

/-- What stands beside the operator of a leaf. -/
inductive ValidOperator (leaf : Value) : String → Prop
  | comparison {comparator : Comparator} (known : comparator ∈ Comparator.all)
      (operand : ValidOperand comparator (leaf.field "value")) : ValidOperator leaf comparator.name
  | range {test : RangeTest} (known : test ∈ RangeTest.all) (bounds : ValidBounds leaf) :
      ValidOperator leaf test.name
  | chance {p : Number} (percent : leaf.field "randomProbability" = .number p)
      (percentage : p.Percentage) : ValidOperator leaf Fact.chance

structure ValidLeaf (leaf : Value) : Prop where
  fact : NamesFact (leaf.field "fact")
  operator : ∃ operator, leaf.field "operator" = .text operator ∧ ValidOperator leaf operator

/-! ## Groups -/

def IsGroup (v : Value) : Prop := (∃ fields, v = .record fields) ∧ isLeaf v = false

def NoList (v : Value) : Prop := ∀ items, v ≠ .list items

/-- What stands in a group: the items of a list under `all`, else of a list under `any`, else what is
under `not`. A list costs five of the allowance, a single condition two. -/
inductive Inside (v : Value) : Nat → Value → Prop
  | all {items : List Value} {x : Value} (key : v.field "all" = .list items) (mem : x ∈ items) :
      Inside v 5 x
  | any {items : List Value} {x : Value} (noAll : NoList (v.field "all"))
      (key : v.field "any" = .list items) (mem : x ∈ items) : Inside v 5 x
  | notAll {items : List Value} {x : Value} (noAll : NoList (v.field "all"))
      (noAny : NoList (v.field "any")) (key : v.field? "not" = some (.list items)) (mem : x ∈ items) :
      Inside v 5 x
  | not {x : Value} (noAll : NoList (v.field "all")) (noAny : NoList (v.field "any"))
      (noList : NoList x) (key : v.field? "not" = some x) : Inside v 2 x

/-- A way from a group to a group inside it, with what it costs. -/
inductive Leads : Value → Nat → Value → Prop
  | here (v : Value) : Leads v 0 v
  | step {v x y : Value} {cost rest : Nat} (inside : Inside v cost x) (group : IsGroup x)
      (leads : Leads x rest y) : Leads v (cost + rest) y

def ReachesLeaf (v : Value) : Prop :=
  ∃ cost y step leaf, Leads v cost y ∧ Inside y step leaf ∧ ValidLeaf leaf

/-- Every group inside has an allowance of five left for itself. -/
def Fits (allowance : Nat) (v : Value) : Prop :=
  ∀ cost y, Leads v cost y → cost + 5 ≤ allowance

theorem Inside.le_five {v x : Value} {cost : Nat} (h : Inside v cost x) : cost ≤ 5 := by
  cases h with
  | all key mem => exact Nat.le_refl 5
  | any noAll key mem => exact Nat.le_refl 5
  | notAll noAll noAny key mem => exact Nat.le_refl 5
  | not noAll noAny noList key => exact Nat.le_of_ble_eq_true rfl

theorem ValidLeaf.isLeaf {v : Value} (h : ValidLeaf v) : isLeaf v = true := by
  rcases h.fact with ⟨name, hname, -⟩
  have hfield : (v.field? "fact").isSome = true := by
    cases hv : v.field? "fact" with
    | none => simp [Value.field, hv] at hname
    | some w => rfl
  simp [Rule.isLeaf, hfield]

theorem ValidLeaf.not_group {v : Value} (h : ValidLeaf v) : ¬IsGroup v := by
  intro hgroup
  have hleaf := h.isLeaf
  rw [hgroup.2] at hleaf
  cases hleaf

/-- A leaf is reached through what stands in the group itself. -/
theorem reachesLeaf_iff {v : Value} :
    ReachesLeaf v ↔ ∃ cost x, Inside v cost x ∧ (ValidLeaf x ∨ (IsGroup x ∧ ReachesLeaf x)) := by
  constructor
  · rintro ⟨cost, y, step, leaf, hleads, hinside, hvalid⟩
    cases hleads with
    | here => exact ⟨step, leaf, hinside, Or.inl hvalid⟩
    | step hfirst hgroup hrest =>
        exact ⟨_, _, hfirst, Or.inr ⟨hgroup, _, y, step, leaf, hrest, hinside, hvalid⟩⟩
  · rintro ⟨cost, x, hinside, hvalid | ⟨hgroup, rest, y, step, leaf, hleads, hlast, hvalid⟩⟩
    · exact ⟨0, v, cost, x, .here v, hinside, hvalid⟩
    · exact ⟨cost + rest, y, step, leaf, .step hinside hgroup hleads, hlast, hvalid⟩

theorem fits_iff {allowance : Nat} {v : Value} :
    Fits allowance v ↔
      5 ≤ allowance ∧ ∀ cost x, Inside v cost x → IsGroup x → Fits (allowance - cost) x := by
  constructor
  · intro h
    refine ⟨by simpa using h 0 v (.here v), ?_⟩
    intro cost x hinside hgroup rest y hleads
    have := h (cost + rest) y (.step hinside hgroup hleads)
    omega
  · rintro ⟨hfive, hinside⟩ cost y hleads
    cases hleads with
    | here => omega
    | step hfirst hgroup hrest =>
        have := hinside _ _ hfirst hgroup _ _ hrest
        have := hfirst.le_five
        omega

end Rule

/-! ## What is read -/

/-- What a comparison that was read compares with. -/
inductive Operand.Sound (comparator : Comparator) : Operand → Prop
  | bool (b : Bool) (equality : comparator = .equal) : Sound comparator (.literal (.bool b))
  | number {x : Number} (finite : x.Finite) : Sound comparator (.literal (.number x))
  | fact {name : String} (allowed : Fact.Allowed name) : Sound comparator (.fact name)

/-- A condition with parts of the vocabulary only. No conjunction or disjunction is empty. -/
inductive Condition.Sound : Condition → Prop
  | allOf {cs : List Condition} (nonempty : cs ≠ []) (parts : ∀ c ∈ cs, Sound c) : Sound (.allOf cs)
  | anyOf {cs : List Condition} (nonempty : cs ≠ []) (parts : ∀ c ∈ cs, Sound c) : Sound (.anyOf cs)
  | negation {c : Condition} (part : Sound c) : Sound (.negation c)
  | comparison {fact : String} {comparator : Comparator} {operand : Operand}
      (allowed : Fact.Allowed fact) (known : comparator ∈ Comparator.all)
      (right : operand.Sound comparator) : Sound (.comparison fact comparator operand)
  | range {fact : String} {test : RangeTest} {a b : Number} (allowed : Fact.Allowed fact)
      (known : test ∈ RangeTest.all) (least : a.Finite) (greatest : b.Finite) :
      Sound (.range fact test (.number a) (.number b))
  | chance {fact : String} {p : Number} (allowed : Fact.Allowed fact) (percentage : p.Percentage) :
      Sound (.chance fact (.number p))

/-- Whether a condition is an inner node. -/
def Condition.isGroup : Condition → Bool
  | .allOf _ | .anyOf _ | .negation _ => true
  | .comparison .. | .range .. | .chance .. | .unknown => false

structure Rule.Sound (r : Rule) : Prop where
  group : r.condition.isGroup = true
  condition : r.condition.Sound
  priority : r.priority.Finite

end RuleTrader
